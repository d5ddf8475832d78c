import Mathlib.Algebra.Group.Nat.Defs
import PkeFire.Run.Table

/-! Memories of bytes, which are read and written in stretches, and the numbers they hold with the lowest byte first. -/

namespace PkeFire

section

variable {size : Nat}

/-- One byte of a memory is written, unless it lies beyond the end. -/
def poke (memory : Vector UInt8 size) (place : Nat) (byte : UInt8) : Vector UInt8 size :=
  if inside : place < size then store memory ⟨place, inside⟩ byte else memory

/-- The bytes from an offset on are written one after the other. -/
def patch (memory : Vector UInt8 size) : (offset : Nat) → (bytes : List UInt8) → Vector UInt8 size
  | _, [] => memory
  -- The first byte is in place before the others are written.
  | offset, byte :: bytes => patch (poke memory offset byte) (offset + 1) bytes

/-- Some bytes of a memory, from an offset on. -/
def slice (memory : Vector UInt8 size) (offset count : Nat) : List UInt8 :=
  (memory.toList.drop offset).take count

/-- The bytes of a number, the lowest one first. -/
def littleEndian : (count : Nat) → (value : Nat) → List UInt8
  | 0, _ => []
  | count + 1, value => UInt8.ofNat value :: littleEndian count (value / 256)

/-- The number that some bytes hold, the lowest one first. -/
def ofLittleEndian : List UInt8 → Nat
  | [] => 0
  | byte :: bytes => byte.toNat + 256 * ofLittleEndian bytes

/-- A byte of the memory after one byte has been written. -/
theorem load_poke (memory : Vector UInt8 size) (place : Nat) (byte : UInt8) (i : Fin size) :
    load (poke memory place byte) i = if place = i.val then byte else load memory i := by
  unfold poke
  split
  · rename_i inside
    simp only [load_store, Fin.ext_iff]
  · rename_i outside
    rw [if_neg]
    omega

/-- A byte of the memory after a stretch has been written. -/
theorem load_patch (memory : Vector UInt8 size) (offset : Nat) (bytes : List UInt8) (i : Fin size) :
    load (patch memory offset bytes) i =
      if inside : offset ≤ i.val ∧ i.val - offset < bytes.length then bytes.get ⟨i.val - offset, inside.2⟩
      else load memory i := by
  -- Each byte of the stretch is written at its own place and left alone by the later ones.
  induction bytes generalizing memory offset with
  | nil => simp [patch]
  | cons byte bytes ih =>
    rw [patch, ih, load_poke]
    by_cases here : offset = i.val
    · have first : i.val - offset = 0 := by omega
      simp [here]
    · rw [if_neg here]
      by_cases behind : offset + 1 ≤ i.val ∧ i.val - (offset + 1) < bytes.length
      · have next : i.val - offset = i.val - (offset + 1) + 1 := by omega
        -- Behind the first byte, the places are counted from the next offset.
        have whole : offset ≤ i.val ∧ i.val - offset < (byte :: bytes).length := by
          rw [List.length_cons]
          omega
        rw [dif_pos behind, dif_pos whole]
        simp only [List.get_eq_getElem, next, List.getElem_cons_succ]
      · have outside : ¬ (offset ≤ i.val ∧ i.val - offset < (byte :: bytes).length) := by
          rw [List.length_cons]
          omega
        rw [dif_neg behind, dif_neg outside]

/-- Writing a stretch keeps every byte outside it. -/
theorem load_patch_outside (memory : Vector UInt8 size) {offset : Nat} {bytes : List UInt8} {i : Fin size}
    (outside : i.val < offset ∨ offset + bytes.length ≤ i.val) :
    load (patch memory offset bytes) i = load memory i := by
  rw [load_patch, dif_neg]
  omega

/-- Two memories with the same bytes are the same. -/
theorem memory_ext {memory other : Vector UInt8 size} (same : ∀ i, load memory i = load other i) :
    memory = other := by
  apply Vector.ext
  intro i inside
  exact same ⟨i, inside⟩

/-- A stretch that is written twice holds the later bytes. -/
theorem patch_patch (memory : Vector UInt8 size) {offset : Nat} {bytes later : List UInt8}
    (same : later.length = bytes.length) :
    patch (patch memory offset bytes) offset later = patch memory offset later := by
  apply memory_ext
  intro i
  by_cases inside : offset ≤ i.val ∧ i.val - offset < later.length
  · rw [load_patch, dif_pos inside, load_patch, dif_pos inside]
  · rw [load_patch_outside _ (by omega), load_patch_outside _ (by omega), load_patch_outside _ (by omega)]

/-- A stretch that has just been written is read back. -/
theorem slice_patch_same (memory : Vector UInt8 size) {offset : Nat} {bytes : List UInt8}
    (fits : offset + bytes.length ≤ size) :
    slice (patch memory offset bytes) offset bytes.length = bytes := by
  -- The lists are compared byte by byte.
  apply List.ext_getElem?
  intro n
  simp only [slice, List.getElem?_take, List.getElem?_drop]
  split
  · rename_i within
    have cell := load_patch memory offset bytes ⟨offset + n, by omega⟩
    rw [dif_pos ⟨Nat.le_add_right _ _, by simp only; omega⟩] at cell
    simp only [load, Fin.getElem_fin, List.get_eq_getElem, Nat.add_sub_cancel_left] at cell
    have inside : offset + n < size := by omega
    simp [cell, inside, within]
  · rename_i outside
    exact (List.getElem?_eq_none (by omega)).symm

/-- Memories that agree on a stretch have the same bytes there. -/
theorem slice_congr {memory other : Vector UInt8 size} {offset count : Nat}
    (same : ∀ i : Fin size, offset ≤ i.val → i.val < offset + count → load memory i = load other i) :
    slice memory offset count = slice other offset count := by
  apply List.ext_getElem?
  intro n
  simp only [slice, List.getElem?_take, List.getElem?_drop]
  by_cases within : n < count
  · rw [if_pos within, if_pos within]
    by_cases inside : offset + n < size
    · have cell := same ⟨offset + n, inside⟩ (Nat.le_add_right _ _) (by simp only; omega)
      simp only [load, Fin.getElem_fin] at cell
      simp [inside, cell]
    · -- Behind the end of the memory there is nothing to compare.
      rw [List.getElem?_eq_none (by simp; omega), List.getElem?_eq_none (by simp; omega)]
  · rw [if_neg within, if_neg within]

/-- A byte of a memory is the one in a stretch around it. -/
theorem getElem?_slice (memory : Vector UInt8 size) {offset count : Nat} {i : Fin size} (begun : offset ≤ i.val)
    (within : i.val < offset + count) : (slice memory offset count)[i.val - offset]? = some (load memory i) := by
  have place : offset + (i.val - offset) = i.val := by omega
  rw [slice, List.getElem?_take_of_lt (by omega), List.getElem?_drop, place]
  simp [load]

/-- Memories with the same bytes in a stretch agree on it. -/
theorem load_of_slice {memory other : Vector UInt8 size} {offset count : Nat} {i : Fin size}
    (same : slice memory offset count = slice other offset count) (begun : offset ≤ i.val)
    (within : i.val < offset + count) : load memory i = load other i := by
  have cell := getElem?_slice memory begun within
  rw [same, getElem?_slice other begun within] at cell
  exact (Option.some.inj cell).symm

end

/-- A number has as many bytes as it is given. -/
@[simp] theorem length_littleEndian (count value : Nat) : (littleEndian count value).length = count := by
  induction count generalizing value with
  | zero => rfl
  | succ count ih => rw [littleEndian, List.length_cons, ih]

/-- The bytes of a number that fits are read back as this number. -/
theorem ofLittleEndian_littleEndian {count value : Nat} (fits : value < 256 ^ count) :
    ofLittleEndian (littleEndian count value) = value := by
  -- The lowest byte is the remainder, and the others are the quotient.
  induction count generalizing value with
  | zero =>
    rw [Nat.pow_zero] at fits
    simp only [littleEndian, ofLittleEndian]
    omega
  | succ count ih =>
    rw [Nat.pow_succ] at fits
    rw [littleEndian, ofLittleEndian, ih (by omega), UInt8.toNat_ofNat']
    omega

end PkeFire
