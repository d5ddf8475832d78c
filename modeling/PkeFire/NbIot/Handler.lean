import PkeFire.Config.Strings
import PkeFire.Misc.Controller

/-! The handler of the messages that the server sends, and what each command may change. -/

namespace PkeFire

/-- CMD_DOWN_ALL_SMOKE. -/
@[simp] def cmdDownAllSmoke : Int := 0

/-- CMD_DOWN_DOOR. -/
@[simp] def cmdDownDoor : Int := 1

/-- CMD_DOWN_GET_SMOKE. -/
@[simp] def cmdDownGetSmoke : Int := 2

/-- CMD_DOWN_SET_SMOKE. -/
@[simp] def cmdDownSetSmoke : Int := 3

/-- CMD_DOWN_UPDATE. -/
@[simp] def cmdDownUpdate : Int := 4

/-- CMD_DOWN_SETTING. -/
@[simp] def cmdDownSetting : Int := 5

/-- CMD_DOWN_RESET. -/
@[simp] def cmdDownReset : Int := 6

/-- CMD_DOWN_STATUS. -/
@[simp] def cmdDownStatus : Int := 7

/-- CMD_DOWN_STOP. -/
@[simp] def cmdDownStop : Int := 8

/-- CMD_DOWN_RUN. -/
@[simp] def cmdDownRun : Int := 9

/-- What `nb_iot_publish_status` reports. -/
inductive Stus where
  | ok
  | rst
  | ota
  deriving DecidableEq, Repr

/-- What the handler calls. -/
inductive NbIotCall where
  /-- `nb_iot_publish_status`. -/
  | publishStatus (stus : Stus)
  /-- `ota_init`. -/
  | otaInit
  /-- `rt_hw_cpu_reset`. -/
  | cpuReset
  /-- `nb_iot_publish_run_stop`. -/
  | publishRunStop (run : Bool)
  deriving DecidableEq, Repr

/-- The globals that the handler writes, and the calls that it has made. -/
structure Handler where
  config : Config
  remoteOpen : UInt8
  runStopFlag : Bool
  calls : List NbIotCall
  deriving DecidableEq

namespace Handler

/-- Some statements that write the configuration. -/
def write (updates : List Update) (h : Handler) : Handler :=
  { h with config := applyAll updates h.config }

/-- Some calls, one after the other. -/
def call (calls : List NbIotCall) (h : Handler) : Handler :=
  { h with calls := h.calls ++ calls }

/-- The branch of CMD_DOWN_ALL_SMOKE and of CMD_DOWN_SET_SMOKE. -/
def setSmoke (root : Json) (h : Handler) : Handler :=
  ((h.write (assignItem root "temp_threshold" Field.tempThreshold)).write
    (assignItem root "smoke_threshold" Field.smokeThreshold)).write (assignItem root "poll_time" Field.pollTime)

/-- The branch of CMD_DOWN_DOOR. -/
def openDoor (root : Json) (h : Handler) : Handler :=
  match root "open" with
  | some item => { h with remoteOpen := UInt8.ofInt item.valueint }
  | none => h

/-- The calls that a member of the message asks for by the number one. -/
def request (root : Json) (name : String) (calls : List NbIotCall) (h : Handler) : Handler :=
  match root name with
  | some item => if item.valueint = 1 then h.call calls else h
  | none => h

/-- One text of the configuration is replaced; a null pointer that is passed to `strncpy` is fatal. -/
def setText (root : Json) (name : String) (field : Field) (h : Handler) : Option Handler :=
  (copyItem root name field).map h.write

/-- The branch of CMD_DOWN_SETTING. -/
def settings (root : Json) (h : Handler) : Option Handler := do
  let h ← h.setText root "user" Field.mqttUser
  let h ← h.setText root "password" Field.mqttPassword
  let h ← h.setText root "id" Field.mqttId
  h.setText root "building_id" Field.buildingId

/-- `sub_topic_handle1`, for a payload that `cJSON_Parse` may not accept. -/
def subTopicHandle1 (root : Option Json) (h : Handler) : Option Handler :=
  match root with
  | none => some h
  | some root =>
    match root "type" with
    | none => some h
    | some type =>
      if type.valueint = cmdDownAllSmoke then some (h.setSmoke root)
      else if type.valueint = cmdDownDoor then some (h.openDoor root)
      -- The statuses of the detectors are collected, but not published any more.
      else if type.valueint = cmdDownGetSmoke then some h
      else if type.valueint = cmdDownSetSmoke then some (h.setSmoke root)
      else if type.valueint = cmdDownUpdate then some (h.request root "update" [.publishStatus .ota, .otaInit])
      else if type.valueint = cmdDownSetting then h.settings root
      else if type.valueint = cmdDownReset then some (h.request root "reset" [.publishStatus .rst, .cpuReset])
      else if type.valueint = cmdDownStatus then some (h.request root "status" [.publishStatus .ok])
      else if type.valueint = cmdDownStop then
        some (({ h with runStopFlag := false } : Handler).call [.publishRunStop false])
      else if type.valueint = cmdDownRun then
        some (({ h with runStopFlag := true } : Handler).call [.publishRunStop true])
      else some h

end Handler

/-- The number in the type of a message, if it has one. -/
def commandOf (root : Option Json) : Option Int :=
  root.bind fun root => (root "type").map (·.valueint)

/-- The numbers that CMD_DOWN_ALL_SMOKE and CMD_DOWN_SET_SMOKE set, with the members of the message that carry them. -/
def smokeItems : List (String × Field) :=
  [("temp_threshold", Field.tempThreshold), ("smoke_threshold", Field.smokeThreshold), ("poll_time", Field.pollTime)]

/-- The texts that CMD_DOWN_SETTING sets, with the members of the message that carry them. -/
def settingItems : List (String × Field) :=
  [("user", Field.mqttUser), ("password", Field.mqttPassword), ("id", Field.mqttId),
    ("building_id", Field.buildingId)]

/-- What a command sets in the configuration. -/
def commandItems (command : Option Int) : List (String × Field) :=
  if command = some cmdDownAllSmoke ∨ command = some cmdDownSetSmoke then smokeItems
  else if command = some cmdDownSetting then settingItems
  else []

/-- The members of a CMD_DOWN_SETTING message are strings, as far as they are there. -/
def StringItems (root : Option Json) : Prop :=
  commandOf root = some cmdDownSetting → ∀ json, root = some json →
    ∀ item ∈ settingItems, ∀ value, json item.1 = some value → value.valuestring.isSome

/-- A message changes what belongs to its command, as far as it has the members for it, and nothing else. -/
structure FrameLaw (root : Option Json) (h after : Handler) : Prop where
  /-- Nothing is changed by what is not one of these six commands. -/
  unchanged : (∀ command ∈ [cmdDownAllSmoke, cmdDownDoor, cmdDownSetSmoke, cmdDownSetting, cmdDownStop, cmdDownRun],
      commandOf root ≠ some command) →
    after.config = h.config ∧ after.remoteOpen = h.remoteOpen ∧ after.runStopFlag = h.runStopFlag
  /-- A command sets at most its own members of the configuration. -/
  config : ∀ place : Fin configSize, (∀ item ∈ commandItems (commandOf root), ¬ item.2.Covers place) →
    load after.config place = load h.config place
  /-- The door is opened by CMD_DOWN_DOOR alone, and only where the message says so. -/
  remoteOpen : commandOf root ≠ some cmdDownDoor ∨ (∀ json, root = some json → json "open" = none) →
    after.remoteOpen = h.remoteOpen
  /-- The controller is stopped and started by two commands alone. -/
  runStopFlag : commandOf root ≠ some cmdDownStop → commandOf root ≠ some cmdDownRun →
    after.runStopFlag = h.runStopFlag
  /-- What the message does not mention is unchanged. -/
  absent : ∀ json, root = some json → ∀ item ∈ commandItems (commandOf root), json item.1 = none →
    item.2.bytes after.config = item.2.bytes h.config
  /-- A text that the message mentions is cut to the size of its member, and filled up with zeros. -/
  text : commandOf root = some cmdDownSetting → ∀ json, root = some json → ∀ item ∈ settingItems,
    ∀ value text, json item.1 = some value → value.valuestring = some text →
      item.2.bytes after.config = (cString text).take item.2.size ++
        List.replicate (item.2.size - ((cString text).take item.2.size).length) 0

section

variable {root : Json} {h after : Handler}

/-- Statements in a row may be performed together. -/
theorem write_write (updates later : List Update) (h : Handler) :
    (h.write updates).write later = h.write (updates ++ later) := by
  simp only [Handler.write, applyAll_append]

/-- The numbers of a message are assigned by the statements that belong to the configuration. -/
theorem setSmoke_eq (root : Json) (h : Handler) : h.setSmoke root =
    h.write (smokeItems.flatMap fun item => assignItem root item.1 item.2) := by
  simp only [Handler.setSmoke, write_write, smokeItems, List.flatMap_cons, List.flatMap_nil, List.append_nil,
    List.append_assoc]

/-- The texts of a message are copied if all of them are strings. -/
theorem settings_eq (strings : ∀ item ∈ settingItems, ∀ value, root item.1 = some value → value.valuestring.isSome) :
    h.settings root = some (h.write (textUpdates (settingTexts root))) := by
  simp only [settingItems, List.forall_mem_cons] at strings
  obtain ⟨user, password, id, buildingId, _⟩ := strings
  simp only [Handler.settings, Handler.setText, copyItem_eq user, copyItem_eq password, copyItem_eq id,
    copyItem_eq buildingId, Option.map_some, Option.bind_eq_bind, Option.bind_some, write_write, settingTexts,
    textUpdates, List.flatMap_append, List.append_assoc]

/-- Calls that are asked for change none of the globals. -/
theorem request_frame (root : Json) (name : String) (calls : List NbIotCall) (h : Handler) :
    (h.request root name calls).config = h.config ∧ (h.request root name calls).remoteOpen = h.remoteOpen ∧
      (h.request root name calls).runStopFlag = h.runStopFlag := by
  unfold Handler.request
  split
  · split
    · exact ⟨rfl, rfl, rfl⟩
    · exact ⟨rfl, rfl, rfl⟩
  · exact ⟨rfl, rfl, rfl⟩

/-- Opening the door touches neither the configuration nor the other flag. -/
theorem openDoor_frame (root : Json) (h : Handler) :
    (h.openDoor root).config = h.config ∧ (h.openDoor root).runStopFlag = h.runStopFlag := by
  unfold Handler.openDoor
  split <;> exact ⟨rfl, rfl⟩

/-- What a message that is handled does to the globals. -/
structure Effect (root : Option Json) (h after : Handler) : Prop where
  config : after.config =
    if commandOf root = some cmdDownAllSmoke ∨ commandOf root = some cmdDownSetSmoke then
      applyAll (smokeItems.flatMap fun item => assignItem (root.getD fun _ => none) item.1 item.2) h.config
    else if commandOf root = some cmdDownSetting then
      applyAll (textUpdates (settingTexts (root.getD fun _ => none))) h.config
    else h.config
  remoteOpen : after.remoteOpen =
    if commandOf root = some cmdDownDoor then (h.openDoor (root.getD fun _ => none)).remoteOpen else h.remoteOpen
  runStopFlag : after.runStopFlag =
    if commandOf root = some cmdDownStop then false
    else if commandOf root = some cmdDownRun then true
    else h.runStopFlag

/-- A message whose texts are strings is handled, and this is its effect. -/
theorem handled (root : Option Json) (h : Handler) (strings : StringItems root) :
    ∃ after, h.subTopicHandle1 root = some after ∧ Effect root h after := by
  cases root with
  -- A payload that is not an object does nothing.
  | none => exact ⟨h, rfl, ⟨rfl, rfl, rfl⟩⟩
  | some root =>
    cases typed : root "type" with
    | none =>
      -- An object without a type names no command.
      have command : commandOf (some root) = none := by simp [commandOf, typed]
      refine ⟨h, by simp [Handler.subTopicHandle1, typed], ?_⟩
      exact ⟨by simp [command], by simp [command], by simp [command]⟩
    | some type =>
      have command : commandOf (some root) = some type.valueint := by simp [commandOf, typed]
      have texts (five : type.valueint = cmdDownSetting) : h.settings root =
          some (h.write (textUpdates (settingTexts root))) :=
        settings_eq (strings (command.trans (congrArg some five)) root rfl)
      by_cases known : type.valueint ∈ [cmdDownAllSmoke, cmdDownDoor, cmdDownGetSmoke, cmdDownSetSmoke,
          cmdDownUpdate, cmdDownSetting, cmdDownReset, cmdDownStatus, cmdDownStop, cmdDownRun]
      · simp only [List.mem_cons, List.not_mem_nil, or_false] at known
        -- One case for each command, in the order of their numbers.
        rcases known with number | number | number | number | number | number | number | number | number | number
        · refine ⟨h.setSmoke root, by simp [Handler.subTopicHandle1, typed, number], ?_⟩
          constructor <;> simp [command, number, setSmoke_eq, Handler.write]
        · refine ⟨h.openDoor root, by simp [Handler.subTopicHandle1, typed, number], ?_⟩
          constructor <;> simp [command, number, openDoor_frame root h]
        · refine ⟨h, by simp [Handler.subTopicHandle1, typed, number], ?_⟩
          constructor <;> simp [command, number]
        · refine ⟨h.setSmoke root, by simp [Handler.subTopicHandle1, typed, number], ?_⟩
          constructor <;> simp [command, number, setSmoke_eq, Handler.write]
        · refine ⟨_, by simp [Handler.subTopicHandle1, typed, number]; rfl, ?_⟩
          constructor <;> simp [command, number, request_frame]
        · refine ⟨_, by simp [Handler.subTopicHandle1, typed, number, texts number]; rfl, ?_⟩
          constructor <;> simp [command, number, Handler.write]
        · refine ⟨_, by simp [Handler.subTopicHandle1, typed, number]; rfl, ?_⟩
          constructor <;> simp [command, number, request_frame]
        · refine ⟨_, by simp [Handler.subTopicHandle1, typed, number]; rfl, ?_⟩
          constructor <;> simp [command, number, request_frame]
        · refine ⟨_, by simp [Handler.subTopicHandle1, typed, number]; rfl, ?_⟩
          constructor <;> simp [command, number, Handler.call]
        · refine ⟨_, by simp [Handler.subTopicHandle1, typed, number]; rfl, ?_⟩
          constructor <;> simp [command, number, Handler.call]
      · -- Any other number is passed over.
        simp only [List.mem_cons, List.not_mem_nil, or_false, not_or, cmdDownAllSmoke, cmdDownDoor, cmdDownGetSmoke,
          cmdDownSetSmoke, cmdDownUpdate, cmdDownSetting, cmdDownReset, cmdDownStatus, cmdDownStop,
          cmdDownRun] at known
        refine ⟨h, by simp [Handler.subTopicHandle1, typed, known], ?_⟩
        constructor <;> simp [command, known]

/-- The numbers that a message assigns fill their members. -/
theorem exact_smokeItems (root : Json) :
    ∀ update ∈ smokeItems.flatMap fun item => assignItem root item.1 item.2,
      update.Exact ∧ ∃ item ∈ smokeItems, update.field = item.2 ∧ root item.1 ≠ none := by
  intro update among
  obtain ⟨item, listed, among⟩ := List.mem_flatMap.mp among
  have member : ∀ item ∈ smokeItems, item.2 ∈ Field.all := by decide
  unfold assignItem at among
  cases found : root item.1 with
  | none =>
    rw [found] at among
    cases among
  | some value =>
    rw [found, List.mem_singleton] at among
    rw [among]
    exact ⟨exact_assign (member item listed) _, item, listed, rfl, by rw [found]; exact Option.some_ne_none value⟩

/-- The texts that a message copies are those of its members. -/
theorem mem_settingTexts {text : Field × List UInt8} :
    text ∈ settingTexts root ↔ ∃ item ∈ settingItems, item.2 = text.1 ∧
      (root item.1).bind (·.valuestring) = some text.2 := by
  have item (name : String) (field : Field) : text ∈ itemText root name field ↔
      field = text.1 ∧ (root name).bind (·.valuestring) = some text.2 := by
    rw [itemText, Option.mem_toList, Option.map_eq_some_iff]
    constructor
    · rintro ⟨chars, found, rfl⟩
      exact ⟨rfl, found⟩
    · rintro ⟨rfl, found⟩
      exact ⟨text.2, found, rfl⟩
  simp only [settingTexts, List.mem_append, item, settingItems, List.exists_mem_cons_iff, List.not_mem_nil,
    false_and, exists_false, or_false, or_assoc]

/-- The texts of a message are cut and filled up to the size of their members. -/
theorem exact_settingTexts (root : Json) : ∀ text ∈ settingTexts root, text.1 ∈ Field.all := by
  intro text among
  have members : ∀ item ∈ settingItems, item.2 ∈ Field.all := by decide
  obtain ⟨item, listed, same, _⟩ := mem_settingTexts.mp among
  exact same ▸ members item listed

/-- What an effect leaves alone, byte for byte. -/
theorem Effect.load_config {root : Option Json} (effect : Effect root h after) {place : Fin configSize}
    (outside : ∀ item ∈ commandItems (commandOf root), ¬ item.2.Covers place) :
    load after.config place = load h.config place := by
  rw [effect.config]
  unfold commandItems at outside
  -- A byte outside the members of the items is outside the members that are written.
  have foreign {items : List (String × Field)} (apart : ∀ item ∈ items, ¬ item.2.Covers place) :
      ∀ field ∈ items.map (·.2), ¬ field.Covers place := by
    intro field named
    obtain ⟨item, listed, rfl⟩ := List.mem_map.mp named
    exact apart item listed
  split
  · rename_i smoke
    rw [if_pos smoke] at outside
    -- Two commands write the three numbers.
    refine load_applyAll (fun update among => (exact_smokeItems _ update among).1.within) ?_ (foreign outside)
    intro update among
    obtain ⟨_, item, listed, same, _⟩ := exact_smokeItems _ update among
    exact same ▸ List.mem_map_of_mem listed
  · rename_i other
    rw [if_neg other] at outside
    split
    · rename_i setting
      rw [if_pos setting] at outside
      -- One command writes the four texts.
      refine load_applyAll (fun update among => (exact_textUpdates (exact_settingTexts _) update among).within) ?_
        (foreign outside)
      intro update among
      -- Every text belongs to one of the four members.
      obtain ⟨text, listed, same⟩ := List.mem_map.mp (field_textUpdates update among)
      obtain ⟨item, setting, named, _⟩ := mem_settingTexts.mp listed
      rw [← same, ← named]
      exact List.mem_map_of_mem setting
    · rfl

/-- What a message does not mention is left alone. -/
theorem Effect.bytes_absent {root : Json} (effect : Effect (some root) h after) {item : String × Field}
    (listed : item ∈ commandItems (commandOf (some root))) (absent : root item.1 = none) :
    item.2.bytes after.config = item.2.bytes h.config := by
  -- Within the items of a command, a member has one name.
  have unique (items : List (String × Field)) (same : items = smokeItems ∨ items = settingItems) :
      ∀ item ∈ items, item.2 ∈ Field.all ∧ ∀ other ∈ items, other.2 = item.2 → other.1 = item.1 := by
    rcases same with rfl | rfl <;> decide
  rw [effect.config]
  unfold commandItems at listed
  split
  · rename_i smoke
    rw [if_pos smoke] at listed
    obtain ⟨member, same⟩ := unique smokeItems (Or.inl rfl) item listed
    -- A number is written only if its item is present.
    refine bytes_applyAll (fun update among => (exact_smokeItems root update among).1) member ?_
    intro update among equal
    obtain ⟨_, other, setting, named, present⟩ := exact_smokeItems root update among
    exact present ((congrArg root (same other setting (named.symm.trans equal))).trans absent)
  · rename_i other
    rw [if_neg other] at listed
    split
    · rename_i setting
      rw [if_pos setting] at listed
      obtain ⟨member, same⟩ := unique settingItems (Or.inr rfl) item listed
      refine bytes_textUpdates_other (exact_settingTexts root) member ?_
      intro named
      -- A text for this member would have been mentioned under the same name.
      obtain ⟨text, among, equal⟩ := List.mem_map.mp named
      obtain ⟨other, setting, named, present⟩ := mem_settingTexts.mp among
      rw [Option.getD_some, same other setting (named.trans equal), absent] at present
      cases present
    · rfl

/-- A text that a message mentions is copied. -/
theorem Effect.bytes_text {root : Json} (effect : Effect (some root) h after)
    (setting : commandOf (some root) = some cmdDownSetting) {item : String × Field} (listed : item ∈ settingItems)
    {value : JsonItem} {text : List UInt8} (found : root item.1 = some value)
    (string : value.valuestring = some text) : item.2.bytes after.config = item.2.padded text := by
  have other : ¬ (commandOf (some root) = some cmdDownAllSmoke ∨ commandOf (some root) = some cmdDownSetSmoke) := by
    rw [setting]
    decide
  rw [effect.config, if_neg other, if_pos setting]
  have distinct : (settingItems.map (·.2)).Nodup := by decide
  refine bytes_textUpdates (exact_settingTexts root) ((settingTexts_sublist root).nodup distinct) ?_
  exact mem_settingTexts.mpr ⟨item, listed, rfl, by rw [Option.getD_some, found, Option.bind_some, string]⟩

/-- Every message obeys the law, whatever the state of the controller is. -/
theorem message_frame (root : Option Json) (h : Handler) (strings : StringItems root) :
    ∃ after, h.subTopicHandle1 root = some after ∧ FrameLaw root h after := by
  obtain ⟨after, ran, effect⟩ := handled root h strings
  refine ⟨after, ran, ?_⟩
  refine
    { unchanged := ?_
      config := fun place outside => effect.load_config outside
      remoteOpen := ?_
      runStopFlag := ?_
      absent := ?_
      text := ?_ }
  -- The members that no named command writes stay the same.
  · intro others
    simp only [List.forall_mem_cons, List.not_mem_nil, false_implies, implies_true, and_true] at others
    obtain ⟨allSmoke, door, setSmoke, setting, stop, run⟩ := others
    rw [effect.config, effect.remoteOpen, effect.runStopFlag, if_neg (not_or.mpr ⟨allSmoke, setSmoke⟩),
      if_neg setting, if_neg door, if_neg stop, if_neg run]
    exact ⟨rfl, rfl, rfl⟩
  · rintro (other | silent)
    · rw [effect.remoteOpen, if_neg other]
    · rw [effect.remoteOpen]
      split
      · -- The message has no member that says whether to open.
        unfold Handler.openDoor
        cases root with
        | none => rfl
        | some root => simp only [Option.getD_some, silent root rfl]
      · rfl
  -- Only the commands for stop and run write the flag.
  · intro other also
    rw [effect.runStopFlag, if_neg other, if_neg also]
  · rintro json rfl item listed absent
    exact effect.bytes_absent listed absent
  · rintro setting json rfl item listed value text found string
    exact effect.bytes_text setting listed found string

/-- The texts of a message are copied one after the other, up to the first null pointer. -/
theorem config_settings (root : Json) (h : Handler) (command : commandOf (some root) = some cmdDownSetting) :
    (h.settings root).map (·.config) = (subTopicHandle1 (some root)).map (applyAll · h.config) := by
  obtain ⟨type, typed, five⟩ := Option.map_eq_some_iff.mp command
  have other : ¬ (type.valueint = 0 ∨ type.valueint = 3) := by rw [five]; decide
  have here : type.valueint = 5 := five
  simp only [Handler.settings, Handler.setText, subTopicHandle1, typed, if_neg other, if_pos here]
  cases copyItem root "user" Field.mqttUser with
  | none => rfl
  | some user =>
    cases copyItem root "password" Field.mqttPassword with
    | none => rfl
    | some password =>
      cases copyItem root "id" Field.mqttId with
      | none => rfl
      | some id =>
        cases copyItem root "building_id" Field.buildingId with
        | none => rfl
        | some buildingId =>
          simp [Handler.write, applyAll_append, Option.bind_eq_bind]

/-- The handler writes the configuration by the statements that are listed for it. -/
theorem config_subTopicHandle1 (root : Option Json) (h : Handler) :
    (h.subTopicHandle1 root).map (·.config) = (subTopicHandle1 root).map (applyAll · h.config) := by
  by_cases setting : commandOf root = some cmdDownSetting
  · cases root with
    | none => cases setting
    | some root =>
      obtain ⟨type, typed, five⟩ := Option.map_eq_some_iff.mp setting
      have handled : h.subTopicHandle1 (some root) = h.settings root := by
        simp [Handler.subTopicHandle1, typed, five]
      rw [handled, config_settings root h setting]
  · -- Every other message is handled, whatever the types of its members are.
    obtain ⟨after, ran, effect⟩ := handled root h fun command => absurd command setting
    rw [ran, Option.map_some, effect.config, if_neg setting]
    cases root with
    | none => rfl
    | some root =>
      cases typed : root "type" with
      | none => simp [commandOf, subTopicHandle1, typed, applyAll]
      | some type =>
        simp only [commandOf, typed, Option.bind_some, Option.map_some, Option.some.injEq] at setting ⊢
        have other : ¬ type.valueint = 5 := setting
        simp only [subTopicHandle1, typed, if_neg other, Option.getD_some]
        -- Both commands set the same numbers.
        by_cases smoke : type.valueint = cmdDownAllSmoke ∨ type.valueint = cmdDownSetSmoke
        · have numbers : type.valueint = 0 ∨ type.valueint = 3 := smoke
          rw [if_pos smoke, if_pos numbers]
          simp [smokeItems]
        · have numbers : ¬ (type.valueint = 0 ∨ type.valueint = 3) := smoke
          rw [if_neg smoke, if_neg numbers]
          rfl

/-- The globals of a controller that the handler writes. -/
def Controller.handler (c : Controller) (config : Config) : Handler where
  config := config
  remoteOpen := c.remoteOpen
  runStopFlag := c.runStopFlag
  calls := []

/-- To the door controller, a message is what the other threads do in between its statements. -/
theorem surround_message (fireMachine : Bool) (c : Controller) (config : Config) {root : Json}
    (strings : StringItems (some root)) :
    ∃ after, (c.handler config).subTopicHandle1 (some root) = some after ∧
      (commandOf (some root) = some cmdDownDoor → ∀ item, root "open" = some item →
        after.remoteOpen = (surround fireMachine (.door item.valueint) c).remoteOpen) ∧
      (commandOf (some root) = some cmdDownStop →
        after.runStopFlag = (surround fireMachine (.runStop false) c).runStopFlag) ∧
      (commandOf (some root) = some cmdDownRun →
        after.runStopFlag = (surround fireMachine (.runStop true) c).runStopFlag) := by
  -- The handler does what its effect says, of which the controller sees two members.
  obtain ⟨after, ran, effect⟩ := handled (some root) (c.handler config) strings
  refine ⟨after, ran, ?_, ?_, ?_⟩
  -- The item is stored in a byte, as the other threads' event does.
  · intro door item found
    rw [effect.remoteOpen, if_pos door, Option.getD_some, Handler.openDoor, found]
    rfl
  · intro stop
    rw [effect.runStopFlag, if_pos stop]
    rfl
  · intro run
    -- The two commands are different ones, so that only the second branch is taken.
    have other : ¬ commandOf (some root) = some cmdDownStop := by
      rw [run]
      decide
    rw [effect.runStopFlag, if_neg other, if_pos run]
    rfl

end

/-- A message that sets the name of a user. -/
def userMessage : Json := fun name =>
  if name = "type" then some ⟨5, none⟩
  else if name = "user" then some ⟨0, some (ascii "guard")⟩
  else none

/-- The only text of the message is a string. -/
theorem stringItems_userMessage : StringItems (some userMessage) := by
  rintro _ json same item listed value found
  cases Option.some.inj same
  simp only [settingItems, List.mem_cons, List.not_mem_nil, or_false] at listed
  rcases listed with rfl | rfl | rfl | rfl <;> simp [userMessage] at found
  rw [← found]
  rfl

/-- The name of the user is set, and nothing else. -/
theorem message_frame_user : ∃ after,
    Handler.subTopicHandle1 (some userMessage) ⟨zeroConfig, 0, true, []⟩ = some after ∧
      FrameLaw (some userMessage) ⟨zeroConfig, 0, true, []⟩ after :=
  message_frame (some userMessage) ⟨zeroConfig, 0, true, []⟩ stringItems_userMessage

end PkeFire
