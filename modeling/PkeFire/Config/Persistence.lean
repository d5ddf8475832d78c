import Mathlib.Data.Fintype.Pigeonhole
import PkeFire.Config.Checksum

/-! What is left of the configuration when power fails during a save, and which changes a save notices. -/

namespace PkeFire

/-- The functions that save the configuration. -/
inductive SaveCall where
  | save
  | timmingSave
  deriving DecidableEq, Repr

/-- What a save of the configuration does to the partition while it succeeds. -/
def saveSteps (crc8Cal : List UInt8 → UInt8) (call : SaveCall) (config : Config) : List FlashOp :=
  match call with
  | .save => saveOps (config.setCrc (crc8Cal config.covered))
  | .timmingSave =>
    -- Nothing is done for a configuration that seems to be saved already.
    if crc8Cal config.covered ≠ config.crc then saveOps (config.setCrc (crc8Cal config.covered)) else []

/-- The partition when power has failed after some steps. -/
def interrupted (flash : Config) (steps : List FlashOp) (count : Nat) : Config :=
  (steps.take count).foldl FlashOp.apply flash

/-- The configuration that `config_init` loads from a partition, whatever the memory holds after power-up. -/
def loaded (env : ConfigEnv) (memory flash : Config) : Config :=
  (configInit env true true .succeeds { config := memory, flash := flash }).config

/-- The configuration that `config_default` makes of the contents of a partition. -/
def defaultOf (env : ConfigEnv) (flash : Config) : Config :=
  (configDefault env .succeeds { config := flash, flash := flash }).config

/-- Whenever power fails during a save, either the old or the new configuration is loaded. -/
def SurvivesPowerLoss (crc8Cal : List UInt8 → UInt8) : Prop :=
  ∀ uniqueCrc memory call (old new : Config) count, old.Valid crc8Cal →
    loaded ⟨crc8Cal, uniqueCrc⟩ memory (interrupted old (saveSteps crc8Cal call new) count) = old ∨
      loaded ⟨crc8Cal, uniqueCrc⟩ memory (interrupted old (saveSteps crc8Cal call new) count) =
        new.setCrc (crc8Cal new.covered)

/-- After a save whose flash calls succeed, the configuration in flash is the one in memory. -/
def EveryChangePersists (crc8Cal : List UInt8 → UInt8) : Prop :=
  ∀ uniqueCrc (stored : Config) modifications, stored.Valid crc8Cal →
    let store := configTimmingSave ⟨crc8Cal, uniqueCrc⟩ .succeeds
      { config := modify modifications stored, flash := stored }
    store.flash = store.config

/-- The next save of the same configuration tries again, and leaves it in flash if the flash calls succeed. -/
def StaysPending (env : ConfigEnv) (store : ConfigStore) : Prop :=
  saveSteps env.crc8Cal .timmingSave store.config ≠ [] ∧
    (configTimmingSave env .succeeds store).flash = (configTimmingSave env .succeeds store).config

/-- A change stays pending when the save of the controller's loop has found it and failed. -/
def FailedSavesPending : Prop :=
  ∀ env outcome store, env.crc8Cal store.config.covered ≠ store.config.crc → outcome ≠ .succeeds →
    StaysPending env (configTimmingSave env outcome store)

section

variable {env : ConfigEnv} {memory flash : Config}

/-- A save performs its steps one after the other. -/
theorem flash_configSave (env : ConfigEnv) (store : ConfigStore) :
    (configSave env .succeeds store).flash =
      (saveSteps env.crc8Cal .save store.config).foldl FlashOp.apply store.flash := by
  simp only [configSave, saveSteps, ConfigStore.writeOut]

/-- So does a save of the controller's loop. -/
theorem flash_configTimmingSave (env : ConfigEnv) (store : ConfigStore) :
    (configTimmingSave env .succeeds store).flash =
      (saveSteps env.crc8Cal .timmingSave store.config).foldl FlashOp.apply store.flash := by
  simp only [configTimmingSave, saveSteps]
  split
  · simp only [ConfigStore.writeOut]
  · rw [List.foldl_nil]

/-- Loading reads the partition, and replaces what its checksum does not confirm. -/
theorem loaded_eq (env : ConfigEnv) (memory flash : Config) :
    loaded env memory flash =
      if env.crc8Cal flash.covered = flash.crc then flash else defaultOf env flash := by
  simp only [loaded, configInit, Bool.not_true, Bool.false_eq_true, if_false]
  by_cases valid : env.crc8Cal flash.covered = flash.crc
  · simp only [valid, ne_eq, not_true_eq_false, if_false, if_true]
  · simp only [valid, ne_eq, not_false_eq_true, if_true, if_false, defaultOf]

/-- A valid configuration is loaded as it is. -/
theorem loaded_valid (valid : flash.Valid env.crc8Cal) : loaded env memory flash = flash := by
  rw [loaded_eq, if_pos (id valid : env.crc8Cal flash.covered = flash.crc)]

/-- What is loaded after power has failed during a save. -/
theorem loaded_interrupted (env : ConfigEnv) (memory : Config) (call : SaveCall) (old new : Config) (count : Nat)
    (stored : old.Valid env.crc8Cal) :
    loaded env memory (interrupted old (saveSteps env.crc8Cal call new) count) =
      if count = 0 ∨ (call = .timmingSave ∧ env.crc8Cal new.covered = new.crc) then old
      else
        let saved := new.setCrc (env.crc8Cal new.covered)
        if configSize < count then saved
        else if env.crc8Cal (torn saved (count - 1)).covered = 0xff then torn saved (count - 1)
        else defaultOf env (torn saved (count - 1)) := by
  have fresh : loaded env memory old = old := loaded_valid stored
  by_cases same : call = .timmingSave ∧ env.crc8Cal new.covered = new.crc
  · -- The save has no steps at all.
    have none : saveSteps env.crc8Cal call new = [] := by
      rw [same.1, saveSteps, if_neg (by simpa using same.2)]
    rw [if_pos (Or.inr same), none, interrupted, List.take_nil, List.foldl_nil, fresh]
  · have steps : saveSteps env.crc8Cal call new = saveOps (new.setCrc (env.crc8Cal new.covered)) := by
      cases call with
      | save => rw [saveSteps]
      | timmingSave =>
        have differs : env.crc8Cal new.covered ≠ new.crc := fun equal => same ⟨rfl, equal⟩
        rw [saveSteps, if_pos differs]
    cases count with
    | zero => rw [if_pos (Or.inl rfl), interrupted, List.take_zero, List.foldl_nil, fresh]
    | succ count =>
      have begun : ¬ (count + 1 = 0 ∨ (call = .timmingSave ∧ env.crc8Cal new.covered = new.crc)) := by
        rintro (zero | equal)
        · omega
        · exact same equal
      rw [if_neg begun, interrupted, steps, saveOps_take, Nat.add_sub_cancel]
      simp only
      by_cases whole : configSize < count + 1
      · rw [if_pos whole, torn_full _ (by omega)]
        exact loaded_valid (valid_setCrc new)
      · -- The last byte is still the one of the erased partition.
        rw [if_neg whole, loaded_eq, crc_torn _ (by omega)]

/-- A partition that lacks nothing but its last byte has all that the checksum covers. -/
theorem covered_torn (config : Config) : (torn config 663).covered = config.covered := by
  have whole (config : Config) : config.covered = slice config 0 663 := rfl
  rw [whole, whole]
  exact slice_congr fun i _ before => by rw [load_torn, if_pos (by omega)]

/-- Power fails in front of the last byte of a save, which is the checksum, so that the default is loaded. -/
theorem loaded_interrupted_last :
    loaded crcConfigEnv storedConfig
        (interrupted storedConfig (saveSteps crcConfigEnv.crc8Cal .timmingSave pollConfig) 664) =
      defaultOf crcConfigEnv (torn (pollConfig.setCrc 106) 663) := by
  have result := loaded_interrupted crcConfigEnv storedConfig .timmingSave storedConfig pollConfig 664
    valid_storedConfig
  have begun : ¬ (664 = 0 ∨
      (SaveCall.timmingSave = .timmingSave ∧ crcConfigEnv.crc8Cal pollConfig.covered = pollConfig.crc)) := by
    rintro (zero | ⟨_, same⟩)
    · cases zero
    · exact pollConfig_changed same
  -- The byte of the erased partition is not the checksum.
  have unconfirmed : crcConfigEnv.crc8Cal (torn (pollConfig.setCrc 106) 663).covered ≠ 0xff := by
    rw [covered_torn, covered_setCrc, crc8Cal_pollConfig]
    decide
  rw [if_neg begun] at result
  simp only [crc8Cal_pollConfig, if_neg (by decide : ¬ configSize < 664)] at result
  rwa [if_neg unconfirmed] at result

/-- An assignment to the checksum keeps every other byte. -/
theorem load_setCrc (config : Config) (crc : UInt8) {place : Fin configSize} (other : place.val ≠ 663) :
    load (config.setCrc crc) place = load config place := by
  refine load_store_other config crc ?_
  intro same
  exact other (congrArg Fin.val same).symm

/-- The subscribed topic is the last thing that the default configuration fills in. -/
theorem load_defaultOf (env : ConfigEnv) (flash : Config) {place : Fin configSize} (topic : place.val = 440) :
    load (defaultOf env flash) place = 100 := by
  have bytes : (Update.copyAll Field.mqttSubscribeTopic (ascii "dev/")).bytes = [100, 101, 118, 47, 0] := by
    decide
  simp only [defaultOf, configDefault, configSave, ConfigStore.writeOut, applyAll, defaultUpdates,
    List.foldl_cons, List.foldl_nil]
  -- Apart from the checksum, the topic is what has been copied last.
  rw [load_setCrc _ _ (by omega), Update.apply, load_patch]
  simp only [bytes, Update.field, topic]
  rfl

/-- No checksum lets the configuration survive a loss of power right behind the erase. -/
theorem survivesPowerLoss_fails : ¬ ∃ crc8Cal, SurvivesPowerLoss crc8Cal := by
  rintro ⟨crc8Cal, survives⟩
  let zero := zeroConfig
  let topic : Fin configSize := ⟨440, by decide⟩
  have valid : (zero.setCrc (crc8Cal zero.covered)).Valid crc8Cal := valid_setCrc zero
  -- The only step that has been performed is the erase.
  have result := survives 0 zero .save _ zero 1 valid
  rw [loaded_interrupted _ _ _ _ _ _ valid] at result
  -- Either the erased partition is loaded or the default, and neither has the zero topic of the configuration.
  have zeroTopic : load (zero.setCrc (crc8Cal zero.covered)) topic = 0 := by
    rw [load_setCrc _ _ (by decide)]
    exact load_replicate _ _
  have lost : ∀ config : Config, load config topic ≠ 0 →
      ¬ (config = zero.setCrc (crc8Cal zero.covered) ∨ config = zero.setCrc (crc8Cal zero.covered)) := by
    rintro config differs (same | same) <;> exact differs (same ▸ zeroTopic)
  have interrupted : ¬ (1 = 0 ∨ (SaveCall.save = .timmingSave ∧ crc8Cal zero.covered = zero.crc)) := by
    rintro (begun | ⟨other, _⟩) <;> contradiction
  rw [if_neg interrupted] at result
  simp only [if_neg (by decide : ¬ configSize < 1)] at result
  split at result
  · refine lost _ ?_ result
    rw [load_torn, if_neg (Nat.not_lt_zero _)]
    decide
  · refine lost _ ?_ result
    rw [load_defaultOf _ _ rfl]
    decide

/-- The configuration is saved exactly if its checksum tells that it has changed, or if it has not. -/
theorem persists_iff (env : ConfigEnv) (stored : Config) (modifications : List Modification) :
    (configTimmingSave env .succeeds { config := modify modifications stored, flash := stored }).flash =
        (configTimmingSave env .succeeds { config := modify modifications stored, flash := stored }).config ↔
      env.crc8Cal (modify modifications stored).covered ≠ (modify modifications stored).crc ∨
        modify modifications stored = stored := by
  rw [configTimmingSave_succeeds]
  by_cases differs : env.crc8Cal (modify modifications stored).covered ≠ (modify modifications stored).crc
  · -- A save writes every byte, so the partition agrees afterwards.
    simp only [if_pos differs, true_iff]
    exact Or.inl differs
  · -- Without a save, the partition holds what was stored before the modifications.
    simp only [if_neg differs]
    constructor
    · intro same
      exact Or.inr same.symm
    · rintro (saved | same)
      · exact absurd saved differs
      · exact same.symm

/-- A message of the server that replaces the temperature threshold. -/
def thresholdMessage (value : Int) : Json := fun name =>
  if name = "type" then some ⟨3, none⟩
  else if name = "temp_threshold" then some ⟨value, none⟩
  else none

/-- The message does just that. -/
theorem updates_thresholdMessage (value : Int) :
    (Modification.message (some (thresholdMessage value))).updates = [.assign Field.tempThreshold value] := by
  simp [Modification.updates, subTopicHandle1, thresholdMessage, assignItem]

/-- A configuration of zeros, but for its temperature threshold. -/
def thresholdConfig (value : Nat) : Config :=
  (Update.assign Field.tempThreshold value).apply zeroConfig

/-- The threshold stays in front of the checksum. -/
theorem threshold_below (value : Int) : (Update.assign Field.tempThreshold value).field.offset +
    (Update.assign Field.tempThreshold value).bytes.length ≤ 663 := by
  rw [length_assign]
  show 514 + 2 ≤ 663
  omega

/-- Two thresholds that fit into their member make different configurations. -/
theorem thresholdConfig_inj {value other : Nat} {crc : UInt8} (fits : value < 65536) (otherFits : other < 65536)
    (same : (thresholdConfig value).setCrc crc = (thresholdConfig other).setCrc crc) : value = other := by
  have inside : Field.tempThreshold.offset + Field.tempThreshold.size ≤ configSize := by decide
  -- The threshold can be read back, so it is determined by the configuration.
  have read (value : Nat) (fits : value < 65536) :
      Field.tempThreshold.value ((thresholdConfig value).setCrc crc) = value := by
    rw [thresholdConfig, ← apply_setCrc _ _ (threshold_below value), value_assign _ _ inside]
    show ((value : Int) % 65536).toNat = value
    omega
  rw [← read value fits, same, read other otherFits]

/-- A new threshold replaces the one before it, whatever the checksum is. -/
theorem modify_thresholdConfig (value other : Nat) (crc : UInt8) :
    modify [.message (some (thresholdMessage other))] ((thresholdConfig value).setCrc crc) =
      (thresholdConfig other).setCrc crc := by
  have length : (Update.assign Field.tempThreshold other).bytes.length =
      (Update.assign Field.tempThreshold value).bytes.length := by
    rw [length_assign, length_assign]
  simp only [modify, updates_thresholdMessage, applyAll, List.foldl_cons, List.foldl_nil]
  rw [apply_setCrc _ _ (threshold_below other), thresholdConfig, Update.apply, Update.apply]
  exact congrArg (Config.setCrc · crc) (patch_patch _ length)

/-- No checksum of one byte notices every change of a threshold. -/
theorem everyChangePersists_fails : ¬ ∃ crc8Cal, EveryChangePersists crc8Cal := by
  rintro ⟨crc8Cal, persists⟩
  -- Among 257 thresholds, two have the same checksum.
  have more : Fintype.card (Fin 256) < Fintype.card (Fin 257) := by
    rw [Fintype.card_fin, Fintype.card_fin]
    decide
  obtain ⟨value, other, differs, same⟩ := Fintype.exists_ne_map_eq_of_card_lt
    (fun value : Fin 257 => (crc8Cal (thresholdConfig value).covered).toFin) more
  have checksum : crc8Cal (thresholdConfig value).covered = crc8Cal (thresholdConfig other).covered :=
    UInt8.toFin_inj.mp same
  have saved := persists 0 _ [.message (some (thresholdMessage other.val))]
    (valid_setCrc (thresholdConfig value))
  -- The change to the other threshold is taken for no change at all.
  rw [modify_thresholdConfig, configTimmingSave_succeeds] at saved
  simp only [covered_setCrc, crc_setCrc, checksum, ne_eq, not_true_eq_false, if_false] at saved
  exact differs (Fin.ext (thresholdConfig_inj (by omega) (by omega) saved))

/-- A save of the controller's loop leaves a checksum that seems to be saved, whatever becomes of it. -/
theorem valid_configTimmingSave (env : ConfigEnv) (outcome : SaveOutcome) (store : ConfigStore)
    (changed : env.crc8Cal store.config.covered ≠ store.config.crc) :
    (configTimmingSave env outcome store).config.Valid env.crc8Cal := by
  have config : (configTimmingSave env outcome store).config =
      store.config.setCrc (env.crc8Cal store.config.covered) := by
    rw [configTimmingSave, if_pos changed]
    -- The flash calls do not write the memory.
    cases outcome <;> rfl
  rw [config]
  exact valid_setCrc store.config

/-- A valid configuration is not saved again, however the flash calls would turn out. -/
theorem configTimmingSave_valid {store : ConfigStore} (valid : store.config.Valid env.crc8Cal)
    (outcome : SaveOutcome) : configTimmingSave env outcome store = store := by
  have same : ¬ env.crc8Cal store.config.covered ≠ store.config.crc := not_not.mpr valid
  rw [configTimmingSave, if_neg same]

/-- What seems to be saved is not pending. -/
theorem not_staysPending {store : ConfigStore} (valid : store.config.Valid env.crc8Cal) : ¬ StaysPending env store := by
  rintro ⟨tries, _⟩
  have same : ¬ env.crc8Cal store.config.covered ≠ store.config.crc := not_not.mpr valid
  exact tries (by rw [saveSteps, if_neg same])

/-- A save that has found a change is forgotten, however it turns out: no later one tries again. -/
theorem failed_save_forgotten (env : ConfigEnv) (outcome : SaveOutcome) (store : ConfigStore)
    (changed : env.crc8Cal store.config.covered ≠ store.config.crc) :
    ¬ StaysPending env (configTimmingSave env outcome store) ∧
      ∀ later : List SaveOutcome, later.foldl (fun store outcome => configTimmingSave env outcome store)
        (configTimmingSave env outcome store) = configTimmingSave env outcome store := by
  have valid := valid_configTimmingSave env outcome store changed
  refine ⟨not_staysPending valid, fun later => ?_⟩
  -- The induction is on the later calls, none of which changes anything.
  induction later with
  | nil => rfl
  | cons next later ih => rw [List.foldl_cons, configTimmingSave_valid valid, ih]

end

/-- When the partition is not found, a new time between reports seems to be saved all the same. -/
theorem failedSavesPending_fails : ¬ FailedSavesPending := by
  intro pending
  have tries := pending crcConfigEnv .notFound ⟨pollConfig, storedConfig⟩ pollConfig_changed
    (by intro same; cases same)
  have valid := valid_configTimmingSave crcConfigEnv .notFound ⟨pollConfig, storedConfig⟩ pollConfig_changed
  exact not_staysPending valid tries

/-- A new time between reports is forgotten, and the old one stays in flash. -/
theorem failed_save_forgotten_poll :
    ¬ StaysPending crcConfigEnv (configTimmingSave crcConfigEnv .notFound ⟨pollConfig, storedConfig⟩) ∧
      ∀ later : List SaveOutcome, (later.foldl (fun store outcome => configTimmingSave crcConfigEnv outcome store)
        (configTimmingSave crcConfigEnv .notFound ⟨pollConfig, storedConfig⟩)).flash = storedConfig := by
  have forgotten := failed_save_forgotten crcConfigEnv .notFound ⟨pollConfig, storedConfig⟩ pollConfig_changed
  refine ⟨forgotten.1, fun later => ?_⟩
  rw [forgotten.2 later, configTimmingSave, if_pos pollConfig_changed]
  rfl

end PkeFire
