import PkeFire.Config.Setters

/-! How the configuration is kept in flash, and how it is loaded from there. -/

namespace PkeFire

/-- What the configuration uses from outside: the checksum function, and the `crc32_cal` of the processor's number. -/
structure ConfigEnv where
  crc8Cal : List UInt8 → UInt8
  uniqueCrc : UInt32

/-- The configuration in memory, and the beginning of the partition, as far as it is ever read. -/
structure ConfigStore where
  config : Config
  flash : Config
  deriving DecidableEq

/-- What a save does to the partition, one step after the other. -/
inductive FlashOp where
  /-- `fal_partition_erase`. -/
  | erase
  /-- One byte of `fal_partition_write`. -/
  | program (place : Fin configSize) (byte : UInt8)
  deriving DecidableEq, Repr

/-- The partition after its erase. -/
def erased : Config :=
  .replicate configSize 0xff

/-- The effect of a step on the partition. -/
def FlashOp.apply (flash : Config) : FlashOp → Config
  | .erase => erased
  | .program place byte => store flash place byte

/-- The steps that write a configuration, in increasing order of the addresses. -/
def saveOps (config : Config) : List FlashOp :=
  .erase :: (List.finRange configSize).map fun place => .program place (load config place)

/-- How the flash calls of a save turn out. -/
inductive SaveOutcome where
  /-- `fal_partition_find` returns a null pointer. -/
  | notFound
  /-- `fal_partition_erase` fails and leaves something in the partition. -/
  | eraseFails (left : Config)
  /-- `fal_partition_write` fails and leaves something in the partition. -/
  | writeFails (left : Config)
  | succeeds
  deriving DecidableEq

/-- The flash calls that `config_save` and `config_timming_save` share. -/
def ConfigStore.writeOut (store : ConfigStore) : SaveOutcome → ConfigStore
  | .notFound => store
  -- The functions return at the first call that fails, and do not look at what it has left.
  | .eraseFails left | .writeFails left => { store with flash := left }
  | .succeeds => { store with flash := (saveOps store.config).foldl FlashOp.apply store.flash }

/-- `config_save`. -/
def configSave (env : ConfigEnv) (outcome : SaveOutcome) (store : ConfigStore) : ConfigStore :=
  -- The checksum is replaced in memory, whether or not flash can be written.
  let config := store.config.setCrc (env.crc8Cal store.config.covered)
  ({ store with config := config } : ConfigStore).writeOut outcome

/-- `config_timming_save`. -/
def configTimmingSave (env : ConfigEnv) (outcome : SaveOutcome) (store : ConfigStore) : ConfigStore :=
  let crc := env.crc8Cal store.config.covered
  -- The checksum tells whether there is anything to save.
  if crc ≠ store.config.crc then
    ({ store with config := store.config.setCrc crc } : ConfigStore).writeOut outcome
  else store

/-- One hexadecimal digit in capitals. -/
def hexDigit (digit : Nat) : UInt8 :=
  if digit < 10 then UInt8.ofNat (48 + digit) else UInt8.ofNat (55 + digit)

/-- A number as `%08X` prints it. -/
def hex8 (value : UInt32) : List UInt8 :=
  (List.range 8).map fun i => hexDigit (value.toNat / 16 ^ (7 - i) % 16)

/-- The statements of `config_default` behind its `rt_memset`. -/
def defaultUpdates (env : ConfigEnv) : List Update :=
  [.copyAll Field.buildingId (hex8 env.uniqueCrc), .assign Field.pollTime 30,
    .assign Field.tempThreshold 500, .assign Field.smokeThreshold 10, .assign Field.loraFreq 433300,
    .assign Field.ver 2021041512, .copyAll Field.updateUri (ascii "http://8.129.145.22:8080/pke_fire"),
    .copyAll Field.mqttHost (ascii "post-cn-zvp255j8c01.mqtt.aliyuncs.com"),
    .copyAll Field.mqttUser (ascii "Signature|LTAI5tCymxkCDJzyhnisq9G4|post-cn-zvp255j8c01"),
    .copyAll Field.mqttPassword (ascii "hCRfYt/oTH9zhcQps8y/1Fz7Oh8="),
    .copyAll Field.mqttId (ascii "GID_osomqtt@@@1_1_v1_440309010100001"),
    .copyAll Field.mqttPublishTopic (ascii "ser"), .copyAll Field.mqttSubscribeTopic (ascii "dev/")]

/-- `config_default`, which clears everything but the checksum before it fills in its values. -/
def configDefault (env : ConfigEnv) (outcome : SaveOutcome) (store : ConfigStore) : ConfigStore :=
  -- The checksum survives `rt_memset`, but the save replaces it.
  let cleared := patch store.config 0 (List.replicate (configSize - 1) 0)
  configSave env outcome { store with config := applyAll (defaultUpdates env) cleared }

/-- `config_init`, less its result: the partition may be missing or unreadable, and the default is saved in turn. -/
def configInit (env : ConfigEnv) (found readable : Bool) (outcome : SaveOutcome) (store : ConfigStore) :
    ConfigStore :=
  -- Without its partition, the memory is left as it is, and the result is an error.
  if !found then store
  else if !readable then configDefault env outcome store
  else
    -- The image is in memory before its checksum is looked at.
    let store := { store with config := store.flash }
    if env.crc8Cal store.config.covered ≠ store.config.crc then configDefault env outcome store else store

section

/-- The partition after the first steps of a save that have come as far as some byte. -/
def torn (config : Config) (count : Nat) : Config :=
  Vector.ofFn fun place => if place.val < count then load config place else 0xff

/-- A byte of a partition that has been written in part. -/
theorem load_torn (config : Config) (count : Nat) (place : Fin configSize) :
    load (torn config count) place = if place.val < count then load config place else 0xff := by
  simp [torn, load]

/-- Nothing has been written into an erased partition. -/
theorem torn_zero (config : Config) : torn config 0 = erased := by
  apply memory_ext
  intro place
  rw [load_torn, if_neg (Nat.not_lt_zero _)]
  exact (load_replicate _ _).symm

/-- The next byte is written behind those that are in place already. -/
theorem store_torn (config : Config) {count : Nat} (more : count < configSize) :
    store (torn config count) ⟨count, more⟩ (load config ⟨count, more⟩) = torn config (count + 1) := by
  apply memory_ext
  intro place
  -- Only the byte at the end of the written part can differ.
  simp only [load_store, load_torn, Fin.ext_iff]
  by_cases here : count = place.val
  · have same : (⟨count, more⟩ : Fin configSize) = place := Fin.ext here
    rw [if_pos here, if_pos (by omega), same]
  · rw [if_neg here]
    split <;> split <;> first | rfl | omega

/-- With all its bytes, a configuration is in flash. -/
theorem torn_full (config : Config) {count : Nat} (all : configSize ≤ count) : torn config count = config := by
  apply memory_ext
  intro place
  have within := place.isLt
  rw [load_torn, if_pos (by omega)]

/-- The programmed bytes after the erase. -/
theorem program_take (config : Config) (count : Nat) :
    (((List.finRange configSize).map fun place => FlashOp.program place (load config place)).take count).foldl
      FlashOp.apply erased = torn config count := by
  -- The steps behind the last byte are none.
  induction count with
  | zero => exact (torn_zero config).symm
  | succ count ih =>
    by_cases more : count < configSize
    · have within : count < (List.finRange configSize).length := by simpa using more
      have last : (List.finRange configSize)[count] = ⟨count, more⟩ := by simp
      rw [List.take_succ_eq_append_getElem (by simpa using more), List.foldl_append, ih]
      simp only [List.getElem_map, last, List.foldl_cons, List.foldl_nil, FlashOp.apply]
      exact store_torn config more
    · rw [List.take_of_length_le (by simp; omega)] at ih ⊢
      rw [ih, torn_full _ (by omega), torn_full _ (by omega)]

/-- The partition after the first steps of a save. -/
theorem saveOps_take (config : Config) (flash : Config) (count : Nat) :
    ((saveOps config).take (count + 1)).foldl FlashOp.apply flash = torn config count := by
  rw [saveOps, List.take_succ_cons, List.foldl_cons, FlashOp.apply]
  exact program_take config count

/-- A save that succeeds leaves the configuration in flash. -/
theorem foldl_saveOps (config : Config) (flash : Config) :
    (saveOps config).foldl FlashOp.apply flash = config := by
  have whole := saveOps_take config flash configSize
  rwa [List.take_of_length_le (by simp [saveOps]), torn_full config (Nat.le_refl _)] at whole

/-- Before its last byte, the checksum of a partition that is being written is that of an erased one. -/
theorem crc_torn (config : Config) {count : Nat} (partly : count < configSize) :
    (torn config count).crc = 0xff := by
  rw [Config.crc, load_torn, if_neg]
  show ¬ 663 < count
  rw [configSize] at partly
  omega

/-- A successful save of the controller's loop, which is skipped when the checksum has not changed. -/
theorem configTimmingSave_succeeds (env : ConfigEnv) (store : ConfigStore) :
    configTimmingSave env .succeeds store =
      if env.crc8Cal store.config.covered ≠ store.config.crc then
        { config := store.config.setCrc (env.crc8Cal store.config.covered)
          flash := store.config.setCrc (env.crc8Cal store.config.covered) }
      else store := by
  simp only [configTimmingSave, ConfigStore.writeOut, foldl_saveOps]

/-- The default configuration is saved with the checksum that belongs to it. -/
theorem configDefault_succeeds (env : ConfigEnv) (store : ConfigStore) :
    (configDefault env .succeeds store).flash = (configDefault env .succeeds store).config ∧
      (configDefault env .succeeds store).config.Valid env.crc8Cal := by
  simp only [configDefault, configSave, ConfigStore.writeOut, foldl_saveOps]
  exact ⟨trivial, valid_setCrc _⟩

/-- Unless flash fails, `config_init` leaves a configuration that is valid and saved, whatever was in the partition. -/
theorem configInit_succeeds (env : ConfigEnv) (store : ConfigStore) :
    (configInit env true true .succeeds store).flash = (configInit env true true .succeeds store).config ∧
      (configInit env true true .succeeds store).config.Valid env.crc8Cal := by
  simp only [configInit, Bool.not_true, Bool.false_eq_true, if_false]
  split
  · exact configDefault_succeeds env _
  · rename_i same
    -- The partition has passed the check, so nothing is written.
    exact ⟨rfl, not_not.mp same⟩

end

end PkeFire
