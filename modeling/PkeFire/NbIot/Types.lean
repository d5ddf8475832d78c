import PkeFire.NbIot.Handler
import PkeFire.Ota.Task

/-! What members of unexpected types do to the handler of messages, and to the reader of manifests. -/

namespace PkeFire

/-- The types of `cJSON`. -/
inductive JsonType where
  | false
  | true
  | null
  | number
  | string
  | array
  | object
  deriving DecidableEq, Repr

/-- A member of an object together with its type. -/
structure TypedItem where
  type : JsonType
  item : JsonItem
  /-- There is a string for strings alone. -/
  string : item.valuestring.isSome ↔ type = .string
  /-- Whatever is no number has the value zero, or perhaps one if it is true. -/
  number : type ≠ .number → item.valueint = 0 ∨ item.valueint = 1

/-- An object whose members have types. -/
abbrev TypedJson := String → Option TypedItem

/-- The object as the code sees it, which never asks for a type. -/
def TypedJson.untyped (root : TypedJson) : Json := fun name =>
  (root name).map (·.item)

/-- The handler executes a message as one of its commands. -/
def Executes (root : Json) (command : Int) : Prop :=
  commandOf (some root) = some command ∧ cmdDownAllSmoke ≤ command ∧ command ≤ cmdDownRun

/-- No null pointer is passed to `strncpy`, whatever the state of the controller is. -/
def NoNullCopy (root : TypedJson) : Prop :=
  ∀ h, (Handler.subTopicHandle1 (some root.untyped) h).isSome

/-- Nothing is executed as a command whose type is not a number. -/
def NumericCommands (root : TypedJson) : Prop :=
  ∀ value, root "type" = some value → value.type ≠ .number → ∀ command, ¬ Executes root.untyped command

/-- The string of a manifest's file that `ota_task` formats into the address of a download, if it comes to that. -/
def otaFile (compileTime : UInt32) (s : OtaState) (root : Option Json) : Option (Option (List UInt8)) :=
  root.bind fun root =>
    if s.Newer compileTime (otaVer root) then (root "file").map (·.valuestring) else none

/-- No null pointer is formatted into the address of a download. -/
def NoNullFile (compileTime : UInt32) (s : OtaState) (manifest : TypedJson) : Prop :=
  otaFile compileTime s (some manifest.untyped) ≠ some none

/-- Members of unexpected types do no harm, neither in a message nor in a manifest. -/
def JsonRobust : Prop :=
  ∀ root manifest compileTime s, NoNullCopy root ∧ NumericCommands root ∧ NoNullFile compileTime s manifest

/-- Every member has the type that the code takes for granted where it reads it. -/
structure WellTyped (compileTime : UInt32) (s : OtaState) (root manifest : TypedJson) : Prop where
  /-- The type of a message is a number, if there is one. -/
  command : ∀ value, root "type" = some value → value.type = .number
  /-- The texts of CMD_DOWN_SETTING are strings, as far as they are there. -/
  texts : commandOf (some root.untyped) = some cmdDownSetting →
    ∀ item ∈ settingItems, ∀ value, root item.1 = some value → value.type = .string
  /-- The file of a newer version is a string, if there is one. -/
  file : s.Newer compileTime (otaVer manifest.untyped) → ∀ value, manifest "file" = some value → value.type = .string

section

variable {root manifest : TypedJson} {compileTime : UInt32} {s : OtaState}

/-- A download is started exactly where a file is formatted into its address. -/
theorem isSome_otaFile (compileTime : UInt32) (s : OtaState) (check : OtaCheck) :
    (otaFile compileTime s check.root).isSome = (otaTask compileTime s check).2.isSome := by
  unfold otaFile otaTask
  cases check.root with
  | none => rfl
  | some root =>
    simp only [Option.bind_some]
    split
    · cases root "file" <;> rfl
    · rfl

/-- A text is copied unless a null pointer has to be passed on. -/
theorem isSome_copyItem (root : Json) (name : String) (field : Field) :
    (copyItem root name field).isSome ↔ ∀ value, root name = some value → value.valuestring.isSome := by
  unfold copyItem
  cases root name with
  | none => simp
  | some value => simp

/-- A CMD_DOWN_SETTING message is handled exactly if its members are strings, as far as they are there. -/
theorem isSome_subTopicHandle1 {root : Json} (setting : commandOf (some root) = some cmdDownSetting) :
    (subTopicHandle1 (some root)).isSome ↔
      ∀ item ∈ settingItems, ∀ value, root item.1 = some value → value.valuestring.isSome := by
  obtain ⟨type, typed, five⟩ := Option.map_eq_some_iff.mp setting
  have other : ¬ (type.valueint = 0 ∨ type.valueint = 3) := by rw [five]; decide
  have here : type.valueint = 5 := five
  have user := isSome_copyItem root "user" Field.mqttUser
  have password := isSome_copyItem root "password" Field.mqttPassword
  have id := isSome_copyItem root "id" Field.mqttId
  have buildingId := isSome_copyItem root "building_id" Field.buildingId
  simp only [subTopicHandle1, typed, if_neg other, if_pos here, settingItems, List.forall_mem_cons,
    List.not_mem_nil, false_implies, implies_true, and_true, ← user, ← password, ← id, ← buildingId]
  -- The first text that is no string ends the handler.
  cases copyItem root "user" Field.mqttUser <;> cases copyItem root "password" Field.mqttPassword <;>
    cases copyItem root "id" Field.mqttId <;> cases copyItem root "building_id" Field.buildingId <;> simp

/-- No null pointer is copied exactly if the texts of CMD_DOWN_SETTING are strings, as far as they are there. -/
theorem noNullCopy_iff : NoNullCopy root ↔ (commandOf (some root.untyped) = some cmdDownSetting →
    ∀ item ∈ settingItems, ∀ value, root item.1 = some value → value.type = .string) := by
  have strings : (∀ item ∈ settingItems, ∀ value, root.untyped item.1 = some value → value.valuestring.isSome) ↔
      ∀ item ∈ settingItems, ∀ value, root item.1 = some value → value.type = .string := by
    refine forall₂_congr fun item _ => ?_
    rw [TypedJson.untyped]
    cases root item.1 with
    | none => simp
    | some value => simp [value.string]
  constructor
  · intro safe setting
    -- It is enough to look at a controller whose configuration is cleared.
    have handled := safe ⟨zeroConfig, 0, true, []⟩
    rw [← Option.isSome_map, config_subTopicHandle1, Option.isSome_map] at handled
    exact strings.mp ((isSome_subTopicHandle1 setting).mp handled)
  · intro typed h
    have items : StringItems (some root.untyped) := by
      rintro setting json same
      cases same
      exact strings.mpr (typed setting)
    obtain ⟨after, ran, _⟩ := handled (some root.untyped) h items
    rw [ran]
    rfl

/-- Only numbers are executed as commands exactly if the type of the message is a number, if there is one. -/
theorem numericCommands_iff : NumericCommands root ↔ ∀ value, root "type" = some value → value.type = .number := by
  constructor
  · intro numeric value found
    by_contra other
    have command : commandOf (some root.untyped) = some value.item.valueint := by
      simp [commandOf, TypedJson.untyped, found]
    -- Anything else has the number of one of the first two commands.
    have bounds : cmdDownAllSmoke ≤ value.item.valueint ∧ value.item.valueint ≤ cmdDownRun := by
      rcases value.number other with zero | one
      · rw [zero]
        decide
      · rw [one]
        decide
    exact numeric value found other _ ⟨command, bounds⟩
  · intro number value found other
    exact absurd (number value found) other

/-- No null pointer is formatted exactly if the file of a newer version is a string, if there is one. -/
theorem noNullFile_iff : NoNullFile compileTime s manifest ↔
    (s.Newer compileTime (otaVer manifest.untyped) →
      ∀ value, manifest "file" = some value → value.type = .string) := by
  simp only [NoNullFile, otaFile, Option.bind_some]
  by_cases newer : s.Newer compileTime (otaVer manifest.untyped)
  · simp only [newer, if_true, true_implies, TypedJson.untyped]
    cases manifest "file" with
    | none => simp
    | some value => simp [← value.string, Option.isSome_iff_ne_none]
  · simp [newer]

/-- Members do no harm exactly if they have the types that the code takes for granted. -/
theorem robust_iff_wellTyped (root manifest : TypedJson) (compileTime : UInt32) (s : OtaState) :
    NoNullCopy root ∧ NumericCommands root ∧ NoNullFile compileTime s manifest ↔
      WellTyped compileTime s root manifest := by
  rw [noNullCopy_iff, numericCommands_iff, noNullFile_iff]
  constructor
  · rintro ⟨texts, command, file⟩
    exact ⟨command, texts, file⟩
  · rintro ⟨command, texts, file⟩
    exact ⟨texts, command, file⟩

end

/-- A member that is null. -/
def nullItem : TypedItem where
  type := .null
  item := ⟨0, none⟩
  string := by decide
  number := fun _ => Or.inl rfl

/-- A message whose type is null is executed as CMD_DOWN_ALL_SMOKE. -/
theorem jsonRobust_fails : ¬ JsonRobust := by
  intro robust
  let root : TypedJson := fun name => if name = "type" then some nullItem else none
  have numeric := (robust root root 0 ⟨zeroConfig, 0⟩).2.1
  exact absurd (numericCommands_iff.mp numeric nullItem rfl) (by decide)

end PkeFire
