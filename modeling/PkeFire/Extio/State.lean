import PkeFire.Run.Loop
import PkeFire.Run.Table

/-! The extended inputs and outputs of the board, as `extio.h` lays them out. -/

namespace PkeFire

/-- What `key.sta` tells its consumer about one key. -/
inductive KeySta where
  /-- EXTIO_KEY_RELEASE: nothing to consume. -/
  | release
  /-- EXTIO_KEY_PRESS: a short press has ended. -/
  | press
  /-- EXTIO_KEY_KEEP: the key has been held down for a long time. -/
  | keep
  deriving DecidableEq, Repr

/-- The debounced serial inputs (`input_t`), three bytes of eight lines. -/
structure Input where
  /-- The bytes last shifted in. -/
  buf : Vector UInt8 3
  /-- The debounced bytes. -/
  save : Vector UInt8 3
  /-- One scan counter for each line. -/
  timer : Vector Nat 24
  deriving DecidableEq, Repr

/-- The two keys (`key_t`). -/
structure Key where
  /-- The event waiting for the consumer. -/
  sta : Vector KeySta 2
  /-- The scans for which the key has been down. -/
  time : Vector Nat 2
  deriving DecidableEq, Repr

/-- The two supervised lines (`check_t`). -/
structure Check where
  /-- Whether the line counts as active. -/
  sta : Vector Bool 2
  /-- The scans for which the line has been active. -/
  time : Vector Nat 2
  deriving DecidableEq, Repr

/-- The shared object `extio`, whose only output byte drives the eight floor alarms. -/
structure Extio where
  input : Input
  output : UInt8
  key : Key
  check : Check
  deriving DecidableEq, Repr

/-- EXTIO_SET_KEY. -/
def extioSetKey : Fin 2 := 0

/-- EXTIO_OPEN_KEY. -/
def extioOpenKey : Fin 2 := 1

/-- EXTIO_CHECK_POWERDOWN. -/
def extioCheckPowerdown : Fin 2 := 0

/-- EXTIO_CHECK_EMERGENCY. -/
def extioCheckEmergency : Fin 2 := 1

/-- The mask `1 << i` within one byte. -/
def bitMask (i : Nat) : UInt8 :=
  1 <<< UInt8.ofNat i

/-- Bit `i` of a byte, read as a truth value. -/
def bitAt (byte : UInt8) (i : Nat) : Bool :=
  byte.toBitVec.getLsbD i

namespace Extio

/-- The serial line `num` is low; the source numbers the lines from one, so it writes `num + 1`. -/
def isSmoke (extio : Extio) (num : Fin 24) : Bool :=
  -- The detectors pull their line down.
  extio.input.save[num.val / 8] &&& bitMask (num % 8) == 0

/-- The last serial line, number 24 in the source, belongs to the fire machine. -/
def isFireMachine (extio : Extio) : Bool :=
  -- The same test as for a detector, with the number written out.
  extio.input.save[23 / 8] &&& bitMask (23 % 8) == 0

/-- The floor alarm `num` is switched on; the source writes `num + 1`. -/
def setAlarm (extio : Extio) (num : Fin 8) : Extio :=
  { extio with output := extio.output ||| bitMask num }

/-- The floor alarm `num` is switched off; the source writes `num + 1`. -/
def clrAlarm (extio : Extio) (num : Fin 8) : Extio :=
  { extio with output := extio.output &&& ~~~bitMask num }

/-- All floor alarms are switched on. -/
def setAllAlarm (extio : Extio) : Extio :=
  { extio with output := 0xff }

/-- All floor alarms are switched off. -/
def clrAllAlarm (extio : Extio) : Extio :=
  { extio with output := 0x00 }

/-- The event waiting at one key. -/
def keySta (extio : Extio) (num : Fin 2) : KeySta :=
  load extio.key.sta num

/-- The event waiting at one key is consumed. -/
def keyClr (extio : Extio) (num : Fin 2) : Extio :=
  -- The hold time goes on counting.
  { extio with key := { extio.key with sta := store extio.key.sta num .release } }

/-- Consuming the event of one key leaves the other key alone. -/
theorem keySta_keyClr (extio : Extio) (num other : Fin 2) :
    (extio.keyClr num).keySta other = if num = other then .release else extio.keySta other :=
  load_store extio.key.sta num other .release

/-- One supervised line counts as active. -/
def isCheck (extio : Extio) (num : Fin 2) : Bool :=
  load extio.check.sta num

end Extio

/-- `extio_init`: everything is cleared, and the serial lines start out high. -/
def extioInit : Extio where
  input := { buf := .replicate 3 0xff, save := .replicate 3 0xff, timer := .replicate 24 0 }
  output := 0
  key := { sta := .replicate 2 .release, time := .replicate 2 0 }
  check := { sta := .replicate 2 false, time := .replicate 2 0 }

section

variable (byte : UInt8) {i j : Nat}

/-- A mask has exactly its own bit. -/
theorem bitAt_bitMask (inside : i < 8) : bitAt (bitMask i) j = decide (i = j) := by
  -- Eight masks of eight bits, and no bit beyond the eighth.
  by_cases within : j < 8
  · have finite : ∀ i j : Fin 8, bitAt (bitMask i) j = decide (i.val = j.val) := by decide
    exact finite ⟨i, inside⟩ ⟨j, within⟩
  · have beyond : bitAt (bitMask i) j = false := BitVec.getLsbD_of_ge _ _ (by omega)
    simp [beyond]
    omega

/-- Setting a mask in a byte sets its bit and keeps the others. -/
theorem bitAt_or_bitMask (inside : i < 8) :
    bitAt (byte ||| bitMask i) j = (bitAt byte j || decide (i = j)) := by
  -- The decided bit is the bit of the mask.
  rw [← bitAt_bitMask inside]
  simp [bitAt]

/-- Clearing a mask in a byte clears its bit and keeps the others. -/
theorem bitAt_and_not_bitMask (inside : i < 8) (within : j < 8) :
    bitAt (byte &&& ~~~bitMask i) j = (bitAt byte j && !decide (i = j)) := by
  -- Within the byte, the complement of the mask has every bit but that of the mask.
  rw [← bitAt_bitMask inside]
  simp [bitAt, within]

/-- The bits of a difference are the differing bits. -/
theorem bitAt_xor (other : UInt8) : bitAt (byte ^^^ other) j = (bitAt byte j ^^ bitAt other j) := by
  simp [bitAt]

/-- Shifting a byte right by one renumbers its bits. -/
theorem bitAt_shiftRight_one : bitAt (byte >>> 1) j = bitAt byte (j + 1) := by
  simp [bitAt, Nat.add_comm]

/-- Two bytes are equal when their eight bits are. -/
theorem eq_of_bitAt {other : UInt8} (same : ∀ i : Fin 8, bitAt byte i = bitAt other i) :
    byte = other := by
  -- Bytes are compared as vectors of eight bits.
  rw [← UInt8.toBitVec_inj]
  exact BitVec.eq_of_getLsbD_eq fun k within => same ⟨k, within⟩

/-- Masking a byte and comparing with zero reads one bit. -/
theorem and_bitMask_eq_zero (inside : i < 8) : (byte &&& bitMask i == 0) = !bitAt byte i := by
  -- The masked byte has at most the bit of the mask, so it is zero exactly when that bit is clear.
  rw [Bool.eq_iff_iff, beq_iff_eq, Bool.not_eq_true', ← UInt8.toBitVec_inj]
  constructor
  · -- A masked byte of zero has a zero at the bit of the mask.
    intro zero
    have bit := congrArg (fun bits => bits.getLsbD i) zero
    have own : (bitMask i).toBitVec.getLsbD i = true := by simpa [bitAt] using bitAt_bitMask (j := i) inside
    simpa [bitAt, own] using bit
  · -- Beyond the bit of the mask, the masked byte is zero anyway.
    intro clear
    apply BitVec.eq_of_getLsbD_eq
    intro k _
    have mask : (bitMask i).toBitVec.getLsbD k = decide (i = k) := bitAt_bitMask inside
    by_cases same : i = k
    · subst same
      have low : byte.toBitVec.getLsbD i = false := clear
      simp [low]
    · simp [mask, same]

/-- The lowest bit is what remains after masking with one. -/
theorem and_one_ne_zero : (byte &&& 0x01 != 0) = bitAt byte 0 := by
  -- The constant one is the mask of bit zero.
  have mask : bitMask 0 = 0x01 := by decide
  rw [bne, ← mask, and_bitMask_eq_zero byte (by omega), Bool.not_not]

/-- Shifting bit `i` down and masking with one reads that bit. -/
theorem shiftRight_and_one (inside : i < 8) :
    ((byte >>> UInt8.ofNat i) &&& 0x01 != 0) = bitAt byte i := by
  -- A shift by less than eight is not reduced, so bit `i` arrives at position zero.
  have amount : i % 256 % 8 = i := by omega
  rw [and_one_ne_zero]
  simp [bitAt, amount]

end

end PkeFire
