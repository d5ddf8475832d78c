import Mathlib.Tactic.Positivity
import Mathlib.Tactic.Zify
import PkeFire.Config.Layout

/-! The statements by which shell commands, messages of the server and the update task write the configuration. -/

namespace PkeFire

/-- The characters of a literal. -/
def ascii (text : String) : List UInt8 :=
  text.toList.map fun char => UInt8.ofNat char.toNat

/-- What a string function sees of some characters: everything before the first zero. -/
def cString (text : List UInt8) : List UInt8 :=
  text.takeWhile (· ≠ 0)

/-- The characters that `isspace` accepts. -/
def isSpace (char : UInt8) : Bool :=
  char = 32 || (9 ≤ char && char ≤ 13)

/-- The number that the digits at the beginning of a text denote. -/
def digitsValue (text : List UInt8) : Int :=
  (text.takeWhile fun char => 48 ≤ char && char ≤ 57).foldl (fun value digit => 10 * value + (digit.toNat - 48)) 0

/--
`atoi`: blanks, a sign and digits, whatever follows them.

The number is not bounded, while the result of the function is undefined beyond the range of an `int`.
-/
def atoi (text : List UInt8) : Int :=
  match (cString text).dropWhile isSpace with
  | 45 :: digits => - digitsValue digits
  | 43 :: digits => digitsValue digits
  | digits => digitsValue digits

/-- One statement that writes the configuration. -/
inductive Update where
  /-- `rt_memset` of a whole member with zero. -/
  | clear (field : Field)
  /-- `strncpy` to a member, with its size. -/
  | copy (field : Field) (text : List UInt8)
  /-- `strcpy` to a member, whatever its size. -/
  | copyAll (field : Field) (text : List UInt8)
  /-- An assignment to a member that is an unsigned number. -/
  | assign (field : Field) (value : Int)
  deriving DecidableEq, Repr

namespace Update

/-- The member that a statement names. -/
def field : Update → Field
  | .clear field | .copy field _ | .copyAll field _ | .assign field _ => field

/-- The bytes that a statement writes, from the beginning of its member on. -/
def bytes : Update → List UInt8
  | .clear field => List.replicate field.size 0
  | .copy field text =>
    -- The rest of the member is filled up with zeros.
    let chars := (cString text).take field.size
    chars ++ List.replicate (field.size - chars.length) 0
  | .copyAll _ text => cString text ++ [0]
  | .assign field value =>
    -- Only the low bytes of the value fit.
    littleEndian field.size (value % 256 ^ field.size).toNat

/-- The effect of a statement, as far as it stays within the configuration. -/
def apply (update : Update) (config : Config) : Config :=
  patch config update.field.offset update.bytes

end Update

/-- Some statements in a row. -/
def applyAll (updates : List Update) (config : Config) : Config :=
  updates.foldl (fun config update => update.apply config) config

/-- A command that replaces the text of a member by its only argument. -/
def setText (field : Field) (argv : List (List UInt8)) : List Update :=
  match argv with
  | [_, text] => [.clear field, .copy field text]
  -- Without an argument the command prints the member.
  | _ => []

/-- A command that replaces the number of a member by its only argument. -/
def setNumber (field : Field) (argv : List (List UInt8)) : List Update :=
  match argv with
  | [_, number] => [.assign field (atoi number)]
  | _ => []

/-- `config_set_host`. -/
def configSetHost := setText Field.mqttHost

/-- `config_set_user`. -/
def configSetUser := setText Field.mqttUser

/-- `config_set_passwd`. -/
def configSetPasswd := setText Field.mqttPassword

/-- `config_set_id`. -/
def configSetId := setText Field.mqttId

/-- `config_set_publish_topic`. -/
def configSetPublishTopic := setText Field.mqttPublishTopic

/-- `config_set_subscribe_topic`. -/
def configSetSubscribeTopic := setText Field.mqttSubscribeTopic

/-- `config_set_buildingid`. -/
def configSetBuildingid := setText Field.buildingId

/-- `config_set_connect`. -/
def configSetConnect (argv : List (List UInt8)) : List Update :=
  match argv with
  | [_, buildingId, id, user, password] =>
    [.clear Field.buildingId, .copy Field.buildingId buildingId, .clear Field.mqttId, .copy Field.mqttId id,
      .clear Field.mqttUser, .copy Field.mqttUser user, .clear Field.mqttPassword,
      .copy Field.mqttPassword password]
  | _ => []

/-- `config_set_smoke`. -/
def configSetSmoke (argv : List (List UInt8)) : List Update :=
  match argv with
  | [_, temp, smoke, time] =>
    [.assign Field.tempThreshold (atoi temp), .assign Field.smokeThreshold (atoi smoke),
      .assign Field.pollTime (atoi time)]
  | _ => []

/-- `config_set_lora_freq`. -/
def configSetLoraFreq := setNumber Field.loraFreq

/-- `config_set_lora_updatetime`. -/
def configSetLoraUpdatetime := setNumber Field.pollTime

/-- `config_set_update_uri`, which copies its argument without a bound. -/
def configSetUpdateUri (argv : List (List UInt8)) : List Update :=
  match argv with
  | [_, uri] => [.copyAll Field.updateUri uri]
  | _ => []

/-- What `cJSON` says about a member of an object. -/
structure JsonItem where
  valueint : Int
  /-- A null pointer unless the member is a string. -/
  valuestring : Option (List UInt8)
  deriving DecidableEq, Repr

/-- An object as `cJSON_GetObjectItem` sees it. -/
abbrev Json := String → Option JsonItem

/-- A number of the configuration is replaced by a member of the message, if it is there. -/
def assignItem (root : Json) (name : String) (field : Field) : List Update :=
  match root name with
  | some item => [.assign field item.valueint]
  | none => []

/-- A text of the configuration is replaced by a member of the message, if it is there; a null pointer is fatal. -/
def copyItem (root : Json) (name : String) (field : Field) : Option (List Update) :=
  match root name with
  | some item => item.valuestring.map fun text => [.clear field, .copy field text]
  | none => some []

/-- What `sub_topic_handle1` writes into the configuration for a message. -/
def subTopicHandle1 (root : Option Json) : Option (List Update) :=
  match root with
  | none => some []
  | some root =>
    match root "type" with
    | none => some []
    | some type =>
      -- CMD_DOWN_ALL_SMOKE and CMD_DOWN_SET_SMOKE.
      if type.valueint = 0 ∨ type.valueint = 3 then
        some (assignItem root "temp_threshold" Field.tempThreshold ++
          assignItem root "smoke_threshold" Field.smokeThreshold ++ assignItem root "poll_time" Field.pollTime)
      -- CMD_DOWN_SETTING.
      else if type.valueint = 5 then do
        let user ← copyItem root "user" Field.mqttUser
        let password ← copyItem root "password" Field.mqttPassword
        let id ← copyItem root "id" Field.mqttId
        let buildingId ← copyItem root "building_id" Field.buildingId
        return user ++ password ++ id ++ buildingId
      -- The other commands do not touch the configuration.
      else some []

/-- The shell commands that write the configuration. -/
inductive Setter where
  | host
  | user
  | passwd
  | id
  | publishTopic
  | subscribeTopic
  | buildingid
  | connect
  | smoke
  | loraFreq
  | loraUpdatetime
  | updateUri
  deriving DecidableEq, Repr

/-- The statements of a shell command. -/
def Setter.updates : Setter → List (List UInt8) → List Update
  | .host => configSetHost
  | .user => configSetUser
  | .passwd => configSetPasswd
  | .id => configSetId
  | .publishTopic => configSetPublishTopic
  | .subscribeTopic => configSetSubscribeTopic
  | .buildingid => configSetBuildingid
  | .connect => configSetConnect
  | .smoke => configSetSmoke
  | .loraFreq => configSetLoraFreq
  | .loraUpdatetime => configSetLoraUpdatetime
  | .updateUri => configSetUpdateUri

/-- Whatever writes the configuration while the controller runs. -/
inductive Modification where
  | shell (setter : Setter) (argv : List (List UInt8))
  | message (root : Option Json)
  /-- An assignment of the update task to `config.ver`. -/
  | version (ver : UInt32)

/-- The statements of a modification. -/
def Modification.updates : Modification → List Update
  | .shell setter argv => setter.updates argv
  -- A message with a null pointer never gets past it.
  | .message root => (subTopicHandle1 root).getD []
  | .version ver => [.assign Field.ver ver.toNat]

/-- The configuration after some modifications. -/
def modify (modifications : List Modification) (config : Config) : Config :=
  modifications.foldl (fun config modification => applyAll modification.updates config) config

section

variable {update : Update} {field : Field} (config : Config)

/-- A number takes all the bytes of its member. -/
theorem length_assign (field : Field) (value : Int) : (Update.assign field value).bytes.length = field.size :=
  length_littleEndian _ _

/-- A number that has been assigned is read back, cut to the size of its member. -/
theorem value_assign (value : Int) (inside : field.offset + field.size ≤ configSize) :
    field.value ((Update.assign field value).apply config) = (value % 256 ^ field.size).toNat := by
  have length := length_assign field value
  have within : field.offset + (Update.assign field value).bytes.length ≤ configSize := length.symm ▸ inside
  have read := slice_patch_same config within
  rw [length] at read
  rw [Field.value, Field.bytes, Update.apply, Update.field, read, Update.bytes]
  -- What is left after the cut fits into the member.
  have positive : (0 : Int) < 256 ^ field.size := by positivity
  have fits := Int.emod_lt_of_pos value positive
  apply ofLittleEndian_littleEndian
  have nonnegative := Int.emod_nonneg value (Int.ne_of_gt positive)
  zify
  rw [Int.toNat_of_nonneg nonnegative]
  exact fits

/-- The version that has been assigned is read back. -/
theorem ver_assign (ver : UInt32) : ((Update.assign Field.ver ver.toNat).apply config).ver = ver := by
  have inside : Field.ver.offset + Field.ver.size ≤ configSize := by decide
  have bounded := ver.toNat_lt
  have whole : ((ver.toNat : Int) % 256 ^ Field.ver.size).toNat = ver.toNat := by
    show ((ver.toNat : Int) % 4294967296).toNat = ver.toNat
    omega
  rw [Config.ver, value_assign config _ inside, whole, UInt32.ofNat_toNat]

/-- Statements that stay in front of the checksum do not depend on it. -/
theorem apply_setCrc (crc : UInt8) (below : update.field.offset + update.bytes.length ≤ 663) :
    update.apply (config.setCrc crc) = (update.apply config).setCrc crc := by
  apply memory_ext
  intro place
  simp only [Update.apply, Config.setCrc, load_patch, load_store]
  by_cases last : crcPlace = place
  · have behind : ¬ (update.field.offset ≤ place.val ∧
        place.val - update.field.offset < update.bytes.length) := by
      rw [← last]
      show ¬ (update.field.offset ≤ 663 ∧ 663 - update.field.offset < update.bytes.length)
      omega
    rw [dif_neg behind, if_pos last, if_pos last]
  · simp only [if_neg last]

end

end PkeFire
