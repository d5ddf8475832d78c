import PkeFire.Run.Table

/-! A ring buffer with two indices, seen as the queue of the values between them. -/

namespace PkeFire

universe u

/-- A ring buffer: values are put at one index and read at the other. -/
structure RingBuffer (α : Type u) (size : Nat) where
  buffer : Vector α size
  putIndex : Fin size
  getIndex : Fin size
  isFull : Bool
  deriving DecidableEq, Repr

namespace RingBuffer

variable {α : Type u} {size : Nat}

/-- The index after another one, where the last is followed by the first. -/
def advance (i : Fin size) : Fin size :=
  if inside : i.val + 1 < size then ⟨i.val + 1, inside⟩ else ⟨0, i.pos⟩

/-- How far the index for putting is ahead of the one for reading. -/
def used (r : RingBuffer α size) : Nat :=
  if r.getIndex ≤ r.putIndex then r.putIndex - r.getIndex else size - (r.getIndex - r.putIndex)

/-- Putting a value at the end. -/
def put (r : RingBuffer α size) (value : α) : RingBuffer α size :=
  let r := { r with buffer := store r.buffer r.putIndex value, putIndex := advance r.putIndex }
  -- When the ring has no free cell left, its oldest value is dropped.
  if r.putIndex = r.getIndex then { r with getIndex := advance r.getIndex, isFull := true } else r

/-- Reading the oldest value, if there is one. -/
def get (r : RingBuffer α size) : Option (α × RingBuffer α size) :=
  if r.getIndex = r.putIndex ∧ r.isFull = false then none
  else some (load r.buffer r.getIndex, { r with getIndex := advance r.getIndex, isFull := false })

/-- The ring holds the values of a queue, the oldest one where it is read next. -/
structure Holds (r : RingBuffer α size) (queue : List α) : Prop where
  /-- Nothing has been dropped since the last read. -/
  kept : r.isFull = false
  counted : r.used = queue.length
  /-- The cells follow each other from the index for reading on, around the end of the buffer. -/
  cells : ∀ k (cell : Fin size), k < queue.length →
    (cell.val = r.getIndex + k ∨ cell.val + size = r.getIndex + k) → queue[k]? = some (load r.buffer cell)

/-- The index after another one, as a number. -/
theorem advance_val (i : Fin size) :
    (advance i).val = i.val + 1 ∧ i.val + 1 < size ∨ (advance i).val = 0 ∧ i.val + 1 = size := by
  -- The two cases are those of the comparison with the size.
  rw [advance]
  split
  · rename_i inside
    exact Or.inl ⟨rfl, inside⟩
  · exact Or.inr ⟨rfl, by omega⟩

/-- How far the two indices are apart, as an equation between numbers. -/
theorem used_spec (r : RingBuffer α size) :
    r.used < size ∧ (r.getIndex.val + r.used = r.putIndex ∨ r.getIndex.val + r.used = r.putIndex.val + size) := by
  have put := r.putIndex.isLt
  have get := r.getIndex.isLt
  -- The index for putting may have passed the end of the buffer once more than the other.
  rw [used]
  split
  · rename_i ahead
    rw [Fin.le_def] at ahead
    omega
  · rename_i behind
    rw [Fin.le_def] at behind
    omega

/-- A ring whose indices agree holds nothing. -/
theorem holds_nil {r : RingBuffer α size} (kept : r.isFull = false) (same : r.getIndex = r.putIndex) :
    r.Holds [] where
  kept := kept
  counted := by simp [used, same]
  cells := fun k _ below => absurd below (Nat.not_lt_zero k)

/-- A value that finds room is queued behind the others. -/
theorem Holds.put {r : RingBuffer α size} {queue : List α} (holds : r.Holds queue) (value : α)
    (room : queue.length + 1 < size) : (r.put value).Holds (queue ++ [value]) := by
  obtain ⟨kept, counted, cells⟩ := holds
  have place := used_spec r
  have next := advance_val r.putIndex
  have bound := r.getIndex.isLt
  -- The index for putting does not catch up with the one for reading.
  have apart : advance r.putIndex ≠ r.getIndex := by
    intro same
    have equal := congrArg Fin.val same
    omega
  rw [RingBuffer.put, if_neg apart]
  refine ⟨kept, ?_, ?_⟩
  · have later := used_spec
      { r with buffer := store r.buffer r.putIndex value, putIndex := advance r.putIndex }
    simp only [List.length_append, List.length_singleton] at later ⊢
    omega
  · intro k cell below offset
    simp only [List.length_append, List.length_singleton] at below offset
    rw [load_store]
    split
    · -- The cell that has been written is the last one.
      rename_i written
      have last : k = queue.length := by
        have equal := congrArg Fin.val written
        omega
      rw [last, List.getElem?_append_right (Nat.le_refl _), Nat.sub_self]
      rfl
    · rename_i other
      have before : k < queue.length := by
        by_contra notBefore
        have equal : r.putIndex.val = cell.val := by
          have := cell.isLt
          omega
        exact other (Fin.ext equal)
      rw [List.getElem?_append_left before]
      exact cells k cell before offset

/-- An empty ring has nothing to read. -/
theorem Holds.get_nil {r : RingBuffer α size} (holds : r.Holds []) : r.get = none := by
  -- Nothing between the indices means that they agree, and nothing has been dropped.
  have place := used_spec r
  have none := holds.counted
  simp only [List.length_nil] at none
  have same : r.getIndex = r.putIndex := Fin.ext (by have := r.putIndex.isLt; omega)
  rw [get, if_pos ⟨same, holds.kept⟩]

/-- Reading takes the oldest value off the queue. -/
theorem Holds.get_cons {r : RingBuffer α size} {value : α} {queue : List α} (holds : r.Holds (value :: queue)) :
    ∃ rest, r.get = some (value, rest) ∧ rest.Holds queue := by
  obtain ⟨_, counted, cells⟩ := holds
  simp only [List.length_cons] at counted cells
  have place := used_spec r
  have next := advance_val r.getIndex
  have bound := r.getIndex.isLt
  have apart : ¬ (r.getIndex = r.putIndex ∧ r.isFull = false) := by
    intro empty
    have equal := congrArg Fin.val empty.1
    have := r.putIndex.isLt
    omega
  -- The oldest value is where the index for reading stands.
  have oldest := cells 0 r.getIndex (Nat.zero_lt_succ _) (Or.inl rfl)
  simp only [List.getElem?_cons_zero, Option.some.injEq] at oldest
  refine ⟨{ r with getIndex := advance r.getIndex, isFull := false }, by rw [get, if_neg apart, oldest], ?_⟩
  refine ⟨rfl, ?_, ?_⟩
  · have later := used_spec { r with getIndex := advance r.getIndex, isFull := false }
    have := r.putIndex.isLt
    simp only at later
    omega
  · intro k cell below offset
    simp only at offset
    -- The next cells are one place farther from the old index.
    have shifted := cells (k + 1) cell (by omega) (by have := cell.isLt; omega)
    rwa [List.getElem?_cons_succ] at shifted

/-- A ring that is not ahead of its reader holds an empty queue. -/
theorem Holds.eq_nil {r : RingBuffer α size} {queue : List α} (holds : r.Holds queue) (empty : r.used = 0) :
    queue = [] :=
  -- The queue is as long as the indices are apart.
  List.length_eq_zero_iff.mp (holds.counted ▸ empty)

end RingBuffer

end PkeFire
