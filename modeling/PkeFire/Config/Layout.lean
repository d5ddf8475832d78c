import PkeFire.Run.Memory

/-! The configuration of the main unit, byte for byte as the packed `config_t` has it. -/

namespace PkeFire

/-- `sizeof(config_t)`. -/
def configSize : Nat := 664

/-- The bytes of a `config_t`. -/
abbrev Config := Vector UInt8 configSize

/-- A member of `config_t`: where it begins and how many bytes it has. -/
structure Field where
  offset : Nat
  size : Nat
  deriving DecidableEq, Repr

namespace Field

/-- `building_id`. -/
def buildingId : Field := ⟨0, 20⟩

/-- `mqtt.host`. -/
def mqttHost : Field := ⟨20, 100⟩

/-- `mqtt.user`. -/
def mqttUser : Field := ⟨120, 100⟩

/-- `mqtt.password`. -/
def mqttPassword : Field := ⟨220, 100⟩

/-- `mqtt.id`. -/
def mqttId : Field := ⟨320, 100⟩

/-- `mqtt.publish_topic`. -/
def mqttPublishTopic : Field := ⟨420, 20⟩

/-- `mqtt.subscribe_topic`. -/
def mqttSubscribeTopic : Field := ⟨440, 20⟩

/-- `update_uri`. -/
def updateUri : Field := ⟨460, 50⟩

/-- `ver`, of four bytes. -/
def ver : Field := ⟨510, 4⟩

/-- `temp_threshold`, of two bytes. -/
def tempThreshold : Field := ⟨514, 2⟩

/-- `smoke_threshold`, of two bytes. -/
def smokeThreshold : Field := ⟨516, 2⟩

/-- `poll_time`, of one byte. -/
def pollTime : Field := ⟨518, 1⟩

/-- `lora_freq`, of four bytes. -/
def loraFreq : Field := ⟨519, 4⟩

/-- `smoke`, twenty detectors of seven bytes each. -/
def smoke : Field := ⟨523, 140⟩

/-- `crc`, the last byte. -/
def crc : Field := ⟨663, 1⟩

/-- The members in the order of their declaration. -/
def all : List Field :=
  [buildingId, mqttHost, mqttUser, mqttPassword, mqttId, mqttPublishTopic, mqttSubscribeTopic, updateUri, ver,
    tempThreshold, smokeThreshold, pollTime, loraFreq, smoke, crc]

/-- The bytes of a member. -/
def bytes (field : Field) (config : Config) : List UInt8 :=
  slice config field.offset field.size

/-- The number that a member holds. -/
def value (field : Field) (config : Config) : Nat :=
  ofLittleEndian (field.bytes config)

end Field

/-- The place of the checksum. -/
def crcPlace : Fin configSize := ⟨663, by decide⟩

/-- The bytes that the checksum covers, which are all but itself. -/
def Config.covered (config : Config) : List UInt8 :=
  -- The checksum is the last member, so the covered bytes are a prefix.
  config.toList.take (configSize - 1)

/-- `config.crc`. -/
def Config.crc (config : Config) : UInt8 :=
  load config crcPlace

/-- An assignment to `config.crc`. -/
def Config.setCrc (config : Config) (crc : UInt8) : Config :=
  store config crcPlace crc

/-- A configuration whose memory has been cleared. -/
def zeroConfig : Config :=
  .replicate configSize 0

/-- `config.ver`. -/
def Config.ver (config : Config) : UInt32 :=
  UInt32.ofNat (Field.ver.value config)

/-- The checksum in the configuration is the one of its other bytes. -/
def Config.Valid (crc8Cal : List UInt8 → UInt8) (config : Config) : Prop :=
  crc8Cal config.covered = config.crc

/-- The members follow each other without a gap. -/
theorem field_all_chain : Field.all.IsChain fun field next => next.offset = field.offset + field.size := by
  decide

/-- A cleared configuration has nothing but zeros to cover. -/
theorem covered_zeroConfig : zeroConfig.covered = List.replicate 663 0 := by
  rw [Config.covered, zeroConfig, Vector.toList_replicate, List.take_replicate]
  exact congrArg (List.replicate · 0) (by decide)

section

variable {crc8Cal : List UInt8 → UInt8} (config : Config) (crc : UInt8)

/-- The checksum does not cover itself. -/
@[simp] theorem covered_setCrc : (config.setCrc crc).covered = config.covered := by
  -- Only the byte behind the covered ones is written.
  simp only [Config.covered, Config.setCrc, store, Vector.toList_set]
  exact List.take_set_of_le (Nat.le_refl _)

/-- The checksum that has been stored is read back. -/
@[simp] theorem crc_setCrc : (config.setCrc crc).crc = crc :=
  load_store_self _ _ _

/-- With its own checksum, a configuration is valid. -/
theorem valid_setCrc : (config.setCrc (crc8Cal config.covered)).Valid crc8Cal := by
  rw [Config.Valid, covered_setCrc, crc_setCrc]

end

end PkeFire
