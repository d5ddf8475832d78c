import PkeFire.Run.Loop
import PkeFire.Config.Store

/-! A usual checksum of one byte, which notices every change of a member that is sent through it. -/

namespace PkeFire

/-- One bit more in a checksum with the polynomial x^8 + x^2 + x + 1. -/
def crc8Shift (crc : UInt8) : UInt8 :=
  if crc &&& 0x80 ≠ 0 then (crc <<< 1) ^^^ 0x07 else crc <<< 1

/-- One byte more in the checksum. -/
def crc8Byte (crc byte : UInt8) : UInt8 :=
  countedLoop 8 (fun _ => crc8Shift) (crc ^^^ byte)

/-- A usual checksum of one byte. -/
def crc8 (bytes : List UInt8) : UInt8 :=
  bytes.foldl crc8Byte 0

/-- A processor with this checksum, and the checksum of its own number. -/
def crcConfigEnv : ConfigEnv :=
  ⟨crc8, 0x1d0f8a35⟩

/-- The checksum that it calculates. -/
@[simp] theorem crc8Cal_crcConfigEnv : crcConfigEnv.crc8Cal = crc8 := rfl

/-- The shift is undone by the lowest bit, which tells whether the polynomial has been added. -/
def crc8Unshift (crc : UInt8) : UInt8 :=
  if crc &&& 1 ≠ 0 then ((crc ^^^ 0x07) >>> 1) ||| 0x80 else crc >>> 1

/-- The shift confuses no two checksums. -/
theorem crc8Shift_injective : Function.Injective crc8Shift := by
  -- There are 256 of them.
  have undone : ∀ crc : Fin 256, crc8Unshift (crc8Shift (UInt8.ofFin crc)) = UInt8.ofFin crc := by decide +kernel
  exact Function.LeftInverse.injective fun crc => undone crc.toFin

/-- The same byte behind different checksums leaves them different. -/
theorem crc8Byte_injective (byte : UInt8) : Function.Injective fun crc => crc8Byte crc byte := by
  have loop : Function.Injective (countedLoop 8 fun _ => crc8Shift) :=
    countedLoop_injective fun _ => crc8Shift_injective
  exact loop.comp fun crc other same => (UInt8.xor_left_inj byte).mp same

/-- So do the same bytes. -/
theorem foldl_crc8Byte_injective (bytes : List UInt8) : Function.Injective fun crc => bytes.foldl crc8Byte crc := by
  -- The last byte has been added to different checksums, too.
  induction bytes with
  | nil => exact Function.injective_id
  | cons byte bytes ih => exact ih.comp (crc8Byte_injective byte)

/-- The checksum of zeros is zero. -/
theorem crc8_zeros (count : Nat) : crc8 (List.replicate count 0) = 0 := by
  unfold crc8
  induction count with
  | zero => rfl
  | succ count ih =>
    rw [List.replicate_succ, List.foldl_cons, show crc8Byte 0 0 = 0 by decide]
    exact ih

section

variable {config : Config} {update : Update}

/-- The covered bytes are those in front of a stretch, those of the stretch, and those behind it. -/
theorem covered_eq_slices (config : Config) {offset count : Nat} (within : offset + count ≤ 663) :
    config.covered = slice config 0 offset ++ slice config offset count ++
      slice config (offset + count) (663 - (offset + count)) := by
  have whole : 663 = offset + count + (663 - (offset + count)) := by omega
  simp only [Config.covered, slice, List.drop_zero, ← List.take_add, ← whole]
  rfl

/-- A statement replaces a stretch of the covered bytes. -/
theorem covered_apply (within : update.field.offset + update.bytes.length ≤ 663) :
    (update.apply config).covered = slice config 0 update.field.offset ++ update.bytes ++
      slice config (update.field.offset + update.bytes.length)
        (663 - (update.field.offset + update.bytes.length)) := by
  have size : configSize = 664 := rfl
  -- The bytes around the stretch are left alone.
  have front : slice (patch config update.field.offset update.bytes) 0 update.field.offset =
      slice config 0 update.field.offset :=
    slice_congr fun i _ before => load_patch_outside config (Or.inl (by omega))
  have back (count : Nat) : slice (patch config update.field.offset update.bytes)
      (update.field.offset + update.bytes.length) count =
        slice config (update.field.offset + update.bytes.length) count :=
    slice_congr fun i behind _ => load_patch_outside config (Or.inr behind)
  have size : configSize = 664 := rfl
  rw [covered_eq_slices (update.apply config) within, Update.apply, slice_patch_same config (by omega), front, back]

/-- A statement that writes to zeros, with zeros in front of them, is noticed unless its own checksum is zero. -/
theorem crc8_apply_iff (within : update.field.offset + update.bytes.length ≤ 663)
    (zeros : ∀ i : Fin configSize, i.val < update.field.offset + update.bytes.length → load config i = 0) :
    crc8 (update.apply config).covered = crc8 config.covered ↔ crc8 update.bytes = 0 := by
  have cleared {offset count : Nat} (front : offset + count ≤ update.field.offset + update.bytes.length) :
      slice config offset count = List.replicate count 0 := by
    have same : slice config offset count = slice zeroConfig offset count :=
      slice_congr fun i _ before => (zeros i (by omega)).trans (load_replicate 0 i).symm
    have size : configSize = 664 := rfl
    rw [same, slice, zeroConfig, Vector.toList_replicate, List.drop_replicate, List.take_replicate,
      Nat.min_eq_left (by omega)]
  rw [covered_apply within, covered_eq_slices config within, cleared (by omega), cleared (Nat.le_refl _)]
  simp only [crc8, List.foldl_append]
  -- What follows keeps different checksums apart.
  rw [(foldl_crc8Byte_injective _).eq_iff]
  have front := crc8_zeros update.field.offset
  have stretch := crc8_zeros update.bytes.length
  unfold crc8 at front stretch
  rw [front, stretch]

end

/-- A configuration with nothing but its frequency, as it is after a save. -/
def storedConfig : Config :=
  let config := (Update.assign Field.loraFreq 433300).apply zeroConfig
  config.setCrc (crcConfigEnv.crc8Cal config.covered)

/-- It has its own checksum. -/
theorem valid_storedConfig : storedConfig.Valid crcConfigEnv.crc8Cal :=
  valid_setCrc ((Update.assign Field.loraFreq 433300).apply zeroConfig)

/-- In front of its frequency, there are zeros. -/
theorem load_storedConfig {i : Fin configSize} (front : i.val < 519) : load storedConfig i = 0 := by
  have other : crcPlace ≠ i := Fin.ne_of_val_ne (show 663 ≠ i.val by omega)
  rw [storedConfig, Config.setCrc, load_store, if_neg other, Update.apply, load_patch_outside]
  · exact load_replicate 0 i
  · exact Or.inl front

/-- A statement about a member in front of the frequency is pending, unless its own checksum is zero. -/
theorem storedConfig_changed {update : Update} (front : update.field.offset + update.bytes.length ≤ 519)
    (noticed : crc8 update.bytes ≠ 0) :
    crcConfigEnv.crc8Cal (update.apply storedConfig).covered ≠ (update.apply storedConfig).crc := by
  have kept : (update.apply storedConfig).crc = storedConfig.crc :=
    load_patch_outside storedConfig (Or.inr (show _ ≤ 663 by omega))
  have stored := valid_storedConfig
  rw [Config.Valid, crc8Cal_crcConfigEnv] at stored
  -- The old checksum is still that of the old bytes.
  rw [crc8Cal_crcConfigEnv, kept, ← stored, ne_eq,
    crc8_apply_iff (by omega) fun i before => load_storedConfig (by omega)]
  exact noticed

/-- The stored configuration with a new time between reports, which is still to be saved. -/
def pollConfig : Config :=
  (Update.assign Field.pollTime 31).apply storedConfig

/-- Its checksum tells that it has changed. -/
theorem pollConfig_changed : crcConfigEnv.crc8Cal pollConfig.covered ≠ pollConfig.crc :=
  storedConfig_changed (by decide) (by decide)

/-- The checksum itself, for which the zeros at the end are taken in four parts. -/
theorem crc8Cal_pollConfig : crcConfigEnv.crc8Cal pollConfig.covered = 106 := by
  have front : slice pollConfig 0 518 = List.replicate 518 0 := by decide +kernel
  have time : (slice pollConfig 518 5).foldl crc8Byte 0 = 33 := by decide +kernel
  have back : slice pollConfig 523 140 = List.replicate 35 0 ++ (List.replicate 35 0 ++
      (List.replicate 35 0 ++ List.replicate 35 0)) := by decide +kernel
  have first : (List.replicate 35 0).foldl crc8Byte 33 = 160 := by decide +kernel
  have second : (List.replicate 35 0).foldl crc8Byte 160 = 39 := by decide +kernel
  have third : (List.replicate 35 0).foldl crc8Byte 39 = 83 := by decide +kernel
  have fourth : (List.replicate 35 0).foldl crc8Byte 83 = 106 := by decide +kernel
  have zeros := crc8_zeros 518
  rw [crc8Cal_crcConfigEnv, crc8]
  rw [crc8] at zeros
  rw [covered_eq_slices pollConfig (show 518 + 5 ≤ 663 by decide), front, back]
  simp only [List.foldl_append, zeros, time, first, second, third, fourth]

end PkeFire
