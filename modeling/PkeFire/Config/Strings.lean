import Mathlib.Data.List.TakeWhile
import PkeFire.Config.Fields
import PkeFire.Config.Persistence

/-! Which texts leave the strings of the configuration terminated. -/

namespace PkeFire

/-- The members that are read as strings. -/
def textFields : List Field :=
  [Field.buildingId, Field.mqttHost, Field.mqttUser, Field.mqttPassword, Field.mqttId, Field.mqttPublishTopic,
    Field.mqttSubscribeTopic, Field.updateUri]

/-- Every string ends within its own member. -/
def Config.Terminated (config : Config) : Prop :=
  ∀ field ∈ textFields, 0 ∈ field.bytes config

/-- The shell commands that replace strings by copies of a bounded length. -/
def textSetters : List Setter :=
  [.host, .user, .passwd, .id, .publishTopic, .subscribeTopic, .buildingid, .connect]

/-- The strings that a command with a single argument replaces. -/
def singleText (field : Field) (argv : List (List UInt8)) : List (Field × List UInt8) :=
  match argv with
  | [_, text] => [(field, text)]
  | _ => []

/-- The strings that `config_set_connect` replaces. -/
def connectTexts (argv : List (List UInt8)) : List (Field × List UInt8) :=
  match argv with
  | [_, buildingId, id, user, password] =>
    [(Field.buildingId, buildingId), (Field.mqttId, id), (Field.mqttUser, user), (Field.mqttPassword, password)]
  | _ => []

/-- The strings that a shell command replaces. -/
def Setter.texts (setter : Setter) (argv : List (List UInt8)) : List (Field × List UInt8) :=
  match setter with
  | .host => singleText Field.mqttHost argv
  | .user => singleText Field.mqttUser argv
  | .passwd => singleText Field.mqttPassword argv
  | .id => singleText Field.mqttId argv
  | .publishTopic => singleText Field.mqttPublishTopic argv
  | .subscribeTopic => singleText Field.mqttSubscribeTopic argv
  | .buildingid => singleText Field.buildingId argv
  | .connect => connectTexts argv
  -- The other commands replace numbers, or copy without a bound.
  | _ => []

/-- The string that a member of a message replaces, if it is there. -/
def itemText (root : Json) (name : String) (field : Field) : List (Field × List UInt8) :=
  (((root name).bind (·.valuestring)).map fun text => (field, text)).toList

/-- The strings that a CMD_DOWN_SETTING message replaces. -/
def settingTexts (root : Json) : List (Field × List UInt8) :=
  itemText root "user" Field.mqttUser ++ itemText root "password" Field.mqttPassword ++
    itemText root "id" Field.mqttId ++ itemText root "building_id" Field.buildingId

/-- The strings that a modification replaces. -/
def Modification.texts : Modification → List (Field × List UInt8)
  | .shell setter argv => setter.texts argv
  | .message root => (root.map settingTexts).getD []
  | .version _ => []

/-- A message of the type CMD_DOWN_SETTING, whose members are strings as far as they are there. -/
def SettingMessage (root : Json) : Prop :=
  (∃ type, root "type" = some type ∧ type.valueint = 5) ∧
    ∀ name ∈ ["user", "password", "id", "building_id"], ∀ item, root name = some item → item.valuestring.isSome

/-- A shell command that replaces strings, with arguments that fit on a line, or a message that does. -/
def Modification.ReplacesTexts : Modification → Prop
  | .shell setter argv => setter ∈ textSetters ∧ ShellLine argv
  | .message root => ∃ json, root = some json ∧ SettingMessage json
  | .version _ => False

/-- Every string is shorter than its member. -/
def Modification.Fits (modification : Modification) : Prop :=
  ∀ text ∈ modification.texts, (cString text.2).length < text.1.size

/-- Every string ends within its own member after each of the modifications, and before the first. -/
def TerminatedThroughout (modifications : List Modification) (config : Config) : Prop :=
  ∀ done rest, modifications = done ++ rest → (modify done config).Terminated

/-- From the default configuration on, every string always ends within its own member. -/
def StringsTerminated : Prop :=
  ∀ env outcome store modifications, (∀ modification ∈ modifications, Modification.ReplacesTexts modification) →
    TerminatedThroughout modifications (configDefault env outcome store).config

section

variable {config : Config} {field : Field} {text : List UInt8} {modification : Modification}

/-- A string has no zero among its characters. -/
theorem zero_notMem_cString (text : List UInt8) : 0 ∉ cString text := by
  intro among
  have nonzero := List.mem_takeWhile_imp among
  simp at nonzero

/-- A string without a zero is all that a string function sees. -/
theorem cString_of_notMem (whole : 0 ∉ text) : cString text = text := by
  refine List.takeWhile_eq_self_iff.mpr fun char among => ?_
  -- None of its characters is the terminator.
  simpa using ne_of_mem_of_not_mem among whole

/-- A string function sees nothing behind the first zero. -/
theorem cString_append_zero (whole : 0 ∉ text) (rest : List UInt8) : cString (text ++ 0 :: rest) = text := by
  have nonzero : ∀ char ∈ text, decide (char ≠ 0) = true := by
    intro char among
    simpa using ne_of_mem_of_not_mem among whole
  rw [cString, List.takeWhile_append_of_pos nonzero, List.takeWhile_cons_of_neg (by simp), List.append_nil]

/-- A string that replaces another one ends within its member exactly if it is shorter. -/
theorem zero_mem_padded : 0 ∈ field.padded text ↔ (cString text).length < field.size := by
  simp only [Field.padded, Update.bytes, List.mem_append, List.mem_replicate, List.length_take]
  constructor
  · rintro (among | ⟨room, _⟩)
    · exact absurd (List.mem_of_mem_take among) (zero_notMem_cString text)
    · omega
  · intro short
    -- The rest of the member is filled up with zeros.
    exact Or.inr ⟨by omega, trivial⟩

/-- A member of a message that is a string is copied, and one that is not there is skipped. -/
theorem copyItem_eq {root : Json} {name : String} (strings : ∀ item, root name = some item → item.valuestring.isSome)
    (field : Field) : copyItem root name field = some (textUpdates (itemText root name field)) := by
  unfold copyItem itemText
  cases found : root name with
  | none => rfl
  | some item =>
    obtain ⟨text, string⟩ := Option.isSome_iff_exists.mp (strings item found)
    simp only [string, Option.map_some, Option.bind_some, Option.toList_some]
    rfl

/-- The statements of a shell command clear and copy its strings in turn. -/
theorem Setter.updates_eq {setter : Setter} (replaces : setter ∈ textSetters) (argv : List (List UInt8)) :
    setter.updates argv = textUpdates (setter.texts argv) := by
  -- Every command looks at its arguments only to count them.
  have single (field : Field) : setText field argv = textUpdates (singleText field argv) := by
    rcases argv with _ | ⟨_, _ | ⟨text, _ | _⟩⟩ <;> rfl
  cases setter with
  | host | user | passwd | id | publishTopic | subscribeTopic | buildingid => exact single _
  | connect => rcases argv with _ | ⟨_, _ | ⟨_, _ | ⟨_, _ | ⟨_, _ | ⟨_, _ | _⟩⟩⟩⟩⟩ <;> rfl
  | smoke | loraFreq | loraUpdatetime | updateUri => exact absurd replaces (by decide)

/-- A shell command replaces some of the strings that it names, each of them once. -/
theorem Setter.texts_sublist (setter : Setter) (argv : List (List UInt8)) :
    ((setter.texts argv).map (·.1)).Sublist setter.fields := by
  have single (field : Field) : ((singleText field argv).map (·.1)).Sublist [field] := by
    rcases argv with _ | ⟨_, _ | ⟨text, _ | _⟩⟩ <;> simp [singleText]
  cases setter with
  | host | user | passwd | id | publishTopic | subscribeTopic | buildingid => exact single _
  | connect =>
    rcases argv with _ | ⟨_, _ | ⟨_, _ | ⟨_, _ | ⟨_, _ | ⟨_, _ | _⟩⟩⟩⟩⟩ <;>
      simp [Setter.texts, connectTexts, Setter.fields]
  | smoke | loraFreq | loraUpdatetime | updateUri => exact List.nil_sublist _

/-- The statements of a modification clear and copy its strings in turn. -/
theorem updates_eq_textUpdates (replaces : modification.ReplacesTexts) :
    modification.updates = textUpdates modification.texts := by
  cases modification with
  | shell setter argv => exact Setter.updates_eq replaces.1 argv
  | message root =>
    obtain ⟨json, rfl, ⟨type, typed, five⟩, strings⟩ := replaces
    have other : ¬ (type.valueint = 0 ∨ type.valueint = 3) := by omega
    simp only [Modification.updates, Modification.texts, subTopicHandle1, typed, if_neg other, if_pos five,
      copyItem_eq (strings "user" (by decide)), copyItem_eq (strings "password" (by decide)),
      copyItem_eq (strings "id" (by decide)), copyItem_eq (strings "building_id" (by decide)),
      Option.bind_eq_bind, Option.bind_some, Option.map_some, Option.getD_some, settingTexts, textUpdates,
      List.flatMap_append]
    rfl
  | version ver => exact absurd replaces id

/-- A message replaces some of four strings, each of them once. -/
theorem settingTexts_sublist (root : Json) : ((settingTexts root).map (·.1)).Sublist
    [Field.mqttUser, Field.mqttPassword, Field.mqttId, Field.buildingId] := by
  have item (name : String) (field : Field) : ((itemText root name field).map (·.1)).Sublist [field] := by
    unfold itemText
    cases (root name).bind (·.valuestring) <;> simp
  -- Each member of the message replaces one string at most.
  simp only [settingTexts, List.map_append]
  exact (((item _ _).append (item _ _)).append (item _ _)).append (item _ _)

/-- A modification replaces different strings, each of which has its own member. -/
theorem texts_sublist (replaces : modification.ReplacesTexts) : ∃ named : List Field,
    (modification.texts.map (·.1)).Sublist named ∧ named.Nodup ∧ ∀ field ∈ named, field ∈ textFields := by
  cases modification with
  | shell setter argv =>
    have named : ∀ setter ∈ textSetters, setter.fields.Nodup ∧ ∀ field ∈ setter.fields, field ∈ textFields := by
      decide
    exact ⟨setter.fields, setter.texts_sublist argv, named setter replaces.1⟩
  | message root =>
    obtain ⟨json, rfl, _⟩ := replaces
    exact ⟨_, settingTexts_sublist json, by decide, by decide⟩
  | version ver => exact absurd replaces id

/-- The strings are members of the configuration. -/
theorem mem_all_of_text (string : field ∈ textFields) : field ∈ Field.all := by
  have each : ∀ field ∈ textFields, field ∈ Field.all := by decide
  exact each field string

/-- A modification leaves every string terminated exactly if what it copies is shorter than its members. -/
theorem terminated_iff_fits (terminated : config.Terminated) (replaces : modification.ReplacesTexts) :
    (applyAll modification.updates config).Terminated ↔ modification.Fits := by
  obtain ⟨named, sublist, distinct, strings⟩ := texts_sublist replaces
  have own : ∀ text ∈ modification.texts, text.1 ∈ textFields := fun text among =>
    strings _ (sublist.subset (List.mem_map_of_mem among))
  have members : ∀ text ∈ modification.texts, text.1 ∈ Field.all := fun text among => mem_all_of_text (own text among)
  rw [updates_eq_textUpdates replaces]
  constructor
  · intro later text among
    have ends := later text.1 (own text among)
    rwa [bytes_textUpdates members (distinct.sublist sublist) among, zero_mem_padded] at ends
  · intro fits field string
    by_cases listed : field ∈ modification.texts.map (·.1)
    · obtain ⟨text, among, rfl⟩ := List.mem_map.mp listed
      rw [bytes_textUpdates members (distinct.sublist sublist) among, zero_mem_padded]
      exact fits text among
    · -- The other strings keep their terminators.
      rw [bytes_textUpdates_other members (mem_all_of_text string) listed]
      exact terminated field string

/-- From strings that are terminated on, they stay so exactly if everything that is copied fits. -/
theorem terminatedThroughout_iff {modifications : List Modification} (terminated : config.Terminated)
    (replace : ∀ modification ∈ modifications, modification.ReplacesTexts) :
    TerminatedThroughout modifications config ↔ ∀ modification ∈ modifications, modification.Fits := by
  -- The induction takes the first modification off the list.
  induction modifications generalizing config with
  | nil =>
    refine ⟨fun _ _ among => absurd among List.not_mem_nil, fun _ done rest same => ?_⟩
    rw [(List.append_eq_nil_iff.mp same.symm).1]
    exact terminated
  | cons modification later ih =>
    have first := terminated_iff_fits terminated (replace modification List.mem_cons_self)
    have others := fun other among => replace other (List.mem_cons_of_mem modification among)
    rw [List.forall_mem_cons, ← first]
    constructor
    · intro throughout
      have ends : (applyAll modification.updates config).Terminated := throughout [modification] later rfl
      refine ⟨ends, (ih ends others).mp fun done rest same => ?_⟩
      exact throughout (modification :: done) rest (by rw [same, List.cons_append])
    · rintro ⟨ends, fits⟩ done rest same
      cases done with
      | nil => exact terminated
      | cons other done =>
        obtain ⟨rfl, tail⟩ := List.cons_eq_cons.mp same
        exact (ih ends others).mpr fits done rest tail

/-- A statement that writes less than its member, if that is a string. -/
def Update.KeepsEnd (update : Update) : Prop :=
  update.Within ∧ (update.field ∈ textFields → update.bytes.length < update.field.size)

/-- A statement that writes less than a string leaves the last byte of every string alone. -/
theorem Update.KeepsEnd.load {update : Update} (keeps : update.KeepsEnd) (string : field ∈ textFields)
    {last : Fin configSize} (place : last.val + 1 = field.offset + field.size) :
    load (update.apply config) last = load config last := by
  by_cases same : update.field = field
  · have short := keeps.2 (same ▸ string)
    rw [same] at short
    refine load_patch_outside config (Or.inr ?_)
    rw [same]
    omega
  · -- Another member does not reach that far.
    have apart := apart_of_ne keeps.1.1 (mem_all_of_text string) same
    have nonempty : ∀ field ∈ textFields, 0 < field.size := by decide
    have positive := nonempty field string
    unfold Field.Apart at apart
    refine keeps.1.load ?_
    unfold Field.Covers
    omega

/-- The number of the processor has eight digits. -/
theorem length_hex8 (value : UInt32) : (cString (hex8 value)).length ≤ 8 := by
  have digits : (hex8 value).length = 8 := by simp [hex8]
  exact digits ▸ (List.takeWhile_sublist _).length_le

/-- The default strings are shorter than their members. -/
theorem keepsEnd_defaultUpdates (env : ConfigEnv) : ∀ update ∈ defaultUpdates env, update.KeepsEnd := by
  have copied {field : Field} {text : List UInt8} (member : field ∈ Field.all)
      (short : (cString text).length + 1 < field.size) : (Update.copyAll field text).KeepsEnd := by
    have length : (Update.copyAll field text).bytes.length = (cString text).length + 1 := List.length_append
    exact ⟨⟨member, by rw [length]; exact Nat.le_of_lt short⟩, fun _ => by rw [length]; exact short⟩
  have assigned {field : Field} {value : Int} (member : field ∈ Field.all) (number : field ∉ textFields) :
      (Update.assign field value).KeepsEnd :=
    ⟨(exact_assign member value).within, fun string => absurd string number⟩
  simp only [defaultUpdates, List.forall_mem_cons, List.not_mem_nil, false_implies, implies_true, and_true]
  -- One line for each statement of `config_default`.
  refine ⟨copied (by decide) ?_, assigned (by decide) (by decide), assigned (by decide) (by decide),
    assigned (by decide) (by decide), assigned (by decide) (by decide), assigned (by decide) (by decide),
    copied (by decide) (by decide), copied (by decide) (by decide), copied (by decide) (by decide),
    copied (by decide) (by decide), copied (by decide) (by decide), copied (by decide) (by decide),
    copied (by decide) (by decide)⟩
  exact Nat.lt_of_le_of_lt (Nat.succ_le_succ (length_hex8 env.uniqueCrc)) (by decide)

/-- Statements that write less than every string leave its last byte alone. -/
theorem load_last_applyAll {updates : List Update} (keep : ∀ update ∈ updates, update.KeepsEnd)
    (string : field ∈ textFields) {last : Fin configSize} (place : last.val + 1 = field.offset + field.size) :
    load (applyAll updates config) last = load config last := by
  induction updates generalizing config with
  | nil => rfl
  | cons update updates ih =>
    -- The first statement already leaves it alone.
    have first : load (update.apply config) last = load config last :=
      (keep update List.mem_cons_self).load string place
    rw [← first]
    exact ih fun later among => keep later (List.mem_cons_of_mem _ among)

/-- In the default configuration, every string ends within its own member. -/
theorem terminated_configDefault (env : ConfigEnv) (outcome : SaveOutcome) (store : ConfigStore) :
    (configDefault env outcome store).config.Terminated := by
  intro field string
  have bounds : ∀ field ∈ textFields, 0 < field.size ∧ field.offset + field.size < 663 := by decide
  obtain ⟨positive, below⟩ := bounds field string
  -- The configuration is cleared, written by the statements of the default, and given its checksum.
  let cleared := patch store.config 0 (List.replicate (configSize - 1) 0)
  let updated := applyAll (defaultUpdates env) cleared
  have config : (configDefault env outcome store).config = updated.setCrc (env.crc8Cal updated.covered) := by
    cases outcome <;> rfl
  -- The last byte of each string has been cleared, and nothing has been written there since.
  obtain ⟨last, place⟩ : ∃ last : Fin configSize, last.val + 1 = field.offset + field.size :=
    ⟨⟨field.offset + field.size - 1, by rw [configSize]; omega⟩, by simp only; omega⟩
  have zero : load cleared last = 0 := by
    have within : last.val - 0 < (List.replicate (configSize - 1) (0 : UInt8)).length := by
      rw [List.length_replicate]
      show last.val - 0 < 663
      omega
    rw [load_patch, dif_pos ⟨Nat.zero_le _, within⟩]
    exact List.getElem_replicate _
  have kept : load (configDefault env outcome store).config last = 0 := by
    rw [config, load_setCrc _ _ (by omega), load_last_applyAll (keepsEnd_defaultUpdates env) string place, zero]
  -- That byte is one of the string's own.
  have cell : (field.bytes (configDefault env outcome store).config)[last.val - field.offset]? =
      some (load (configDefault env outcome store).config last) := getElem?_slice _ (by omega) (by omega)
  rw [kept] at cell
  exact List.mem_of_getElem? cell

/-- From the default configuration on, every string ends within its own member exactly if everything copied fits. -/
theorem strings_terminated_iff (env : ConfigEnv) (outcome : SaveOutcome) (store : ConfigStore)
    (modifications : List Modification)
    (replace : ∀ modification ∈ modifications, modification.ReplacesTexts) :
    TerminatedThroughout modifications (configDefault env outcome store).config ↔
      ∀ modification ∈ modifications, modification.Fits :=
  terminatedThroughout_iff (terminated_configDefault env outcome store) replace

end

/-- A topic of twenty characters is set from the shell. -/
def longTopic : Modification :=
  .shell .publishTopic [ascii "config_set_publish_topic", List.replicate 20 97]

/-- The long topic fits on a line of the shell. -/
theorem replacesTexts_longTopic : longTopic.ReplacesTexts :=
  ⟨by decide, by unfold ShellLine; decide +kernel⟩

/-- The long topic fills its member to the last byte. -/
theorem stringsTerminated_fails : ¬ StringsTerminated := by
  intro terminated
  have replaces : ∀ modification ∈ [longTopic], modification.ReplacesTexts := by
    simpa using replacesTexts_longTopic
  have start := terminated_configDefault crcConfigEnv .succeeds ⟨pollConfig, storedConfig⟩
  have throughout := terminated crcConfigEnv .succeeds ⟨pollConfig, storedConfig⟩ [longTopic] replaces
  have fits := (terminatedThroughout_iff start replaces).mp throughout longTopic List.mem_cons_self
  exact absurd (fits (Field.mqttPublishTopic, List.replicate 20 97) List.mem_cons_self) (by decide)

/-- The rule decides about the long topic. -/
theorem strings_terminated_iff_longTopic :
    TerminatedThroughout [longTopic] (configDefault crcConfigEnv .succeeds ⟨pollConfig, storedConfig⟩).config ↔
      ∀ modification ∈ [longTopic], modification.Fits :=
  strings_terminated_iff crcConfigEnv .succeeds ⟨pollConfig, storedConfig⟩ [longTopic]
    (by simpa using replacesTexts_longTopic)

end PkeFire
