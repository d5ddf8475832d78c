import PkeFire.Config.Overrun
import PkeFire.Config.Persistence

/-! The settings, which are the configuration without its checksum, and what changes them. -/

namespace PkeFire

/-- The configuration without its checksum. -/
def Config.settings (config : Config) : Config :=
  config.setCrc 0

/-- Some settings with the checksum that belongs to them. -/
def Config.withChecksum (crc8Cal : List UInt8 → UInt8) (settings : Config) : Config :=
  settings.setCrc (crc8Cal settings.covered)

/-- A statement writes nothing but what is in front of the checksum. -/
def Update.Below (update : Update) : Prop :=
  update.field.offset + update.bytes.length ≤ 663

/-- The settings that `config_default` makes. -/
def defaultSettings (env : ConfigEnv) : Config :=
  applyAll (defaultUpdates env) zeroConfig

/-- The members that a message of the server may write. -/
def messageFields : List Field :=
  [Field.tempThreshold, Field.smokeThreshold, Field.pollTime, Field.mqttUser, Field.mqttPassword, Field.mqttId,
    Field.buildingId]

section

variable {config : Config} {updates : List Update} {env : ConfigEnv}

/-- Only the last assignment to the checksum counts. -/
@[simp] theorem setCrc_setCrc (config : Config) (crc again : UInt8) :
    (config.setCrc crc).setCrc again = config.setCrc again := by
  apply memory_ext
  intro place
  simp only [Config.setCrc, load_store]
  split <;> rfl

/-- A configuration that keeps its checksum is not changed. -/
theorem setCrc_crc (config : Config) : config.setCrc config.crc = config := by
  apply memory_ext
  intro place
  simp only [Config.setCrc, Config.crc, load_store]
  split
  · rename_i here
    rw [here]
  · rfl

/-- Statements in front of the checksum do not depend on it. -/
theorem applyAll_setCrc (config : Config) (crc : UInt8) (below : ∀ update ∈ updates, update.Below) :
    applyAll updates (config.setCrc crc) = (applyAll updates config).setCrc crc := by
  induction updates generalizing config with
  | nil => rfl
  | cons update updates ih =>
    obtain ⟨first, later⟩ := List.forall_mem_cons.mp below
    show applyAll updates (update.apply (config.setCrc crc)) = _
    rw [apply_setCrc config crc first]
    exact ih (update.apply config) later

/-- Statements in front of the checksum change the settings, and leave the checksum alone. -/
theorem settings_applyAll (config : Config) (below : ∀ update ∈ updates, update.Below) :
    (applyAll updates config).settings = applyAll updates config.settings ∧
      (applyAll updates config).crc = config.crc := by
  refine ⟨(applyAll_setCrc config 0 below).symm, ?_⟩
  -- The checksum that is there may as well be assigned again.
  have same := applyAll_setCrc config config.crc below
  rw [setCrc_crc] at same
  rw [same, crc_setCrc]

/-- A member in front of the checksum is replaced without touching the checksum. -/
theorem Update.Within.below {update : Update} (within : update.Within)
    (front : update.field.offset + update.field.size ≤ 663) : update.Below :=
  Nat.le_trans (Nat.add_le_add_left within.2 _) front

/-- The numbers and texts of a message replace whole members. -/
theorem exact_message {root : Option Json} (handled : subTopicHandle1 root = some updates) :
    ∀ update ∈ updates, update.Exact ∧ update.field ∈ messageFields := by
  -- An item that holds a number replaces its member.
  have number (root : Json) (name : String) {field : Field} (member : field ∈ Field.all)
      (named : field ∈ messageFields) :
      ∀ update ∈ assignItem root name field, update.Exact ∧ update.field ∈ messageFields := by
    intro update among
    unfold assignItem at among
    split at among
    · rw [List.mem_singleton.mp among]
      exact ⟨exact_assign member _, named⟩
    · cases among
  -- An item that holds a text clears its member and copies the text.
  have text (root : Json) (name : String) {field : Field} {copied : List Update} (member : field ∈ Field.all)
      (named : field ∈ messageFields) (some : copyItem root name field = some copied) :
      ∀ update ∈ copied, update.Exact ∧ update.field ∈ messageFields := by
    intro update among
    unfold copyItem at some
    split at some
    · obtain ⟨chars, _, rfl⟩ := Option.map_eq_some_iff.mp some
      simp only [List.mem_cons, List.not_mem_nil, or_false] at among
      rcases among with rfl | rfl
      · exact ⟨exact_clear member, named⟩
      · exact ⟨exact_copy member, named⟩
    · cases some
      cases among
  cases root with
  | none =>
    cases handled
    simp
  | some root =>
    simp only [subTopicHandle1] at handled
    -- A message without a command changes nothing.
    split at handled
    · cases handled
      simp
    · split at handled
      · -- Two commands set the three numbers.
        cases handled
        simp only [List.forall_mem_append]
        exact ⟨⟨number root _ (by decide) (by decide), number root _ (by decide) (by decide)⟩,
          number root _ (by decide) (by decide)⟩
      · split at handled
        · -- A third one copies the four texts.
          simp only [Option.bind_eq_bind, Option.bind_eq_some_iff, Option.pure_def, Option.some.injEq] at handled
          obtain ⟨user, first, password, second, id, third, buildingId, fourth, rfl⟩ := handled
          simp only [List.forall_mem_append]
          exact ⟨⟨⟨text root _ (by decide) (by decide) first, text root _ (by decide) (by decide) second⟩,
            text root _ (by decide) (by decide) third⟩, text root _ (by decide) (by decide) fourth⟩
        · cases handled
          simp

/-- A message writes in front of the checksum. -/
theorem below_message {root : Option Json} (handled : subTopicHandle1 root = some updates) :
    ∀ update ∈ updates, update.Below := by
  have front : ∀ field ∈ messageFields, field.offset + field.size ≤ 663 := by decide
  intro update among
  obtain ⟨exact, named⟩ := exact_message handled update among
  exact exact.within.below (front _ named)

/-- A shell command writes in front of the checksum, even where it copies without a bound. -/
theorem below_setter (setter : Setter) {argv : List (List UInt8)} (line : ShellLine argv) :
    ∀ update ∈ setter.updates argv, update.Below := by
  have front : ∀ field ∈ setter.fields, field.offset + field.size ≤ 663 := by cases setter <;> decide
  by_cases bounded : setter = .updateUri
  · subst bounded
    intro update among
    rcases argv with _ | ⟨name, _ | ⟨uri, _ | _⟩⟩ <;>
      simp only [Setter.updates, configSetUpdateUri, List.not_mem_nil, List.mem_singleton] at among
    rw [among]
    -- The longest line leaves two bytes in front of the checksum.
    have chars : (cString uri).length ≤ uri.length := (List.takeWhile_sublist _).length_le
    have fits : name.length + uri.length ≤ 200 := by simpa [ShellLine] using line
    show 460 + (cString uri ++ [0]).length ≤ 663
    rw [List.length_append, List.length_singleton]
    omega
  · intro update among
    obtain ⟨within, named⟩ := updates_within bounded update among
    exact within.below (front _ named)

/-- Clearing everything but the checksum leaves nothing but the checksum. -/
theorem patch_zeros (config : Config) :
    patch config 0 (List.replicate (configSize - 1) 0) = zeroConfig.setCrc config.crc := by
  apply memory_ext
  intro place
  have inside : place.val < 664 := place.isLt
  simp only [load_patch, Config.setCrc, Config.crc, load_store, List.length_replicate, Nat.zero_le, true_and,
    Nat.sub_zero, List.get_eq_getElem, List.getElem_replicate]
  by_cases last : crcPlace = place
  · have behind : ¬ place.val < configSize - 1 := by rw [← last]; decide
    rw [dif_neg behind, if_pos last, last]
  · have before : place.val < configSize - 1 := by
      have other : place.val ≠ 663 := fun same => last (Fin.ext same.symm)
      show place.val < 663
      omega
    rw [dif_pos before, if_neg last]
    exact (load_replicate 0 place).symm

/-- The default values are written in front of the checksum. -/
theorem below_defaultUpdates (env : ConfigEnv) : ∀ update ∈ defaultUpdates env, update.Below := by
  have id : (cString (hex8 env.uniqueCrc) ++ [0]).length ≤ 9 := by
    rw [List.length_append, List.length_singleton]
    exact Nat.succ_le_succ (length_hex8 env.uniqueCrc)
  have first : (Update.copyAll Field.buildingId (hex8 env.uniqueCrc)).Below := by
    show 0 + (cString (hex8 env.uniqueCrc) ++ [0]).length ≤ 663
    omega
  have rest : ∀ update ∈ (defaultUpdates env).tail, update.field.offset + update.bytes.length ≤ 663 := by
    have fixed : (defaultUpdates env).tail = (defaultUpdates ⟨fun _ => 0, 0⟩).tail := rfl
    rw [fixed]
    decide +kernel
  exact List.forall_mem_cons.mpr ⟨first, rest⟩

/-- `config_default` makes the same settings of every configuration. -/
theorem settings_configDefault (env : ConfigEnv) (store : ConfigStore) :
    (configDefault env .succeeds store).config = (defaultSettings env).withChecksum env.crc8Cal := by
  have cleared : applyAll (defaultUpdates env) (patch store.config 0 (List.replicate (configSize - 1) 0)) =
      (defaultSettings env).setCrc store.config.crc := by
    rw [patch_zeros]
    exact applyAll_setCrc zeroConfig store.config.crc (below_defaultUpdates env)
  simp only [configDefault, configSave, ConfigStore.writeOut]
  rw [cleared, Config.withChecksum, covered_setCrc, setCrc_setCrc]

end

end PkeFire
