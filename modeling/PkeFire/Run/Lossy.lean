import PkeFire.Run.RingBuffer
import Mathlib.Data.List.DropRight

/-! Lossy channels: what passes them in order, and a ring buffer that drops its oldest values. -/

namespace PkeFire

universe u

/-- Values are said in the order in which they have been heard, up to a place: some more than once, and some never. -/
def Echoes {α : Type u} (last : Nat) (heard said : List α) : Prop :=
  ∃ places : List Nat, places.Pairwise (· ≤ ·) ∧ (∀ place ∈ places, place ≤ last) ∧
    said.map some = places.map (heard[·]?)

section

variable {α : Type u} {last : Nat} {heard said : List α}

/-- Nothing has been said. -/
theorem Echoes.nil (last : Nat) (heard : List α) : Echoes last heard [] :=
  ⟨[], .nil, fun _ among => absurd among List.not_mem_nil, rfl⟩

/-- What is heard later leaves the places of what has been heard before. -/
theorem Echoes.hear (echoes : Echoes last heard said) (more : List α) : Echoes last (heard ++ more) said := by
  obtain ⟨places, ordered, bounded, same⟩ := echoes
  refine ⟨places, ordered, bounded, same.trans (List.map_congr_left fun place among => ?_)⟩
  -- A place at which something has been said is inside what had been heard.
  have there : heard[place]? ∈ said.map some := same ▸ List.mem_map_of_mem among
  obtain ⟨value, _, found⟩ := List.mem_map.mp there
  exact (List.getElem?_append_left (List.getElem?_eq_some_iff.mp found.symm).1).symm

/-- A later place leaves room for more. -/
theorem Echoes.mono {later : Nat} (echoes : Echoes last heard said) (further : last ≤ later) :
    Echoes later heard said := by
  obtain ⟨places, ordered, bounded, same⟩ := echoes
  exact ⟨places, ordered, fun place among => Nat.le_trans (bounded place among) further, same⟩

/-- The value at the last place is said once more. -/
theorem Echoes.say {value : α} (echoes : Echoes last heard said) (found : heard[last]? = some value) :
    Echoes last heard (said ++ [value]) := by
  obtain ⟨places, ordered, bounded, same⟩ := echoes
  refine ⟨places ++ [last], List.pairwise_append.mpr ⟨ordered, List.pairwise_singleton _ _, ?_⟩, ?_, ?_⟩
  · intro place among other single
    exact List.mem_singleton.mp single ▸ bounded place among
  · intro place among
    rcases List.mem_append.mp among with before | single
    · exact bounded place before
    · exact Nat.le_of_eq (List.mem_singleton.mp single)
  · rw [List.map_append, List.map_append, same, List.map_singleton, List.map_singleton, found]

end

namespace RingBuffer

variable {α : Type u} {size : Nat}

/-- The ring holds the values of a queue, before which others may have been dropped. -/
structure Keeps (r : RingBuffer α size) (queue : List α) : Prop where
  /-- What has been dropped has made room for something. -/
  nonempty : r.isFull = true → queue ≠ []
  counted : r.used = queue.length
  /-- The cells follow each other from the index for reading on, around the end of the buffer. -/
  cells : ∀ k (cell : Fin size), k < queue.length →
    (cell.val = r.getIndex + k ∨ cell.val + size = r.getIndex + k) → queue[k]? = some (load r.buffer cell)

variable {r : RingBuffer α size} {queue : List α} {value : α}

/-- A ring that has dropped nothing. -/
theorem Holds.keeps (holds : r.Holds queue) : r.Keeps queue where
  nonempty := fun full => absurd (holds.kept.symm.trans full) Bool.false_ne_true
  counted := holds.counted
  cells := holds.cells

/-- When it is forgotten that values have been dropped, the same queue is there. -/
theorem Keeps.forget (keeps : r.Keeps queue) : { r with isFull := false }.Holds queue where
  kept := rfl
  counted := keeps.counted
  cells := keeps.cells

/-- The queue is shorter than the buffer. -/
theorem Keeps.length_lt (keeps : r.Keeps queue) : queue.length < size :=
  keeps.counted ▸ (used_spec r).1

/-- The cell behind the queue takes another value. -/
theorem Keeps.store (keeps : r.Keeps queue) (value : α) {k : Nat} {cell : Fin size}
    (below : k < (queue ++ [value]).length) (offset : cell.val = r.getIndex + k ∨ cell.val + size = r.getIndex + k) :
    (queue ++ [value])[k]? = some (load (PkeFire.store r.buffer r.putIndex value) cell) := by
  have place := used_spec r
  have counted := keeps.counted
  have bound := r.getIndex.isLt
  simp only [List.length_append, List.length_singleton] at below
  rw [load_store]
  split
  · -- The cell that has been written is the last one.
    rename_i written
    have last : k = queue.length := by
      have equal := congrArg Fin.val written
      omega
    rw [last, List.getElem?_append_right (Nat.le_refl _), Nat.sub_self]
    rfl
  -- Any other cell belongs to a value that has been queued before.
  · rename_i other
    have before : k < queue.length := by
      by_contra notBefore
      have equal : r.putIndex.val = cell.val := by
        have := cell.isLt
        omega
      exact other (Fin.ext equal)
    rw [List.getElem?_append_left before]
    exact keeps.cells k cell before offset

/-- A value is queued behind the newest of the others. -/
theorem Keeps.put (keeps : r.Keeps queue) (value : α) (large : 1 < size) :
    (r.put value).Keeps ((queue ++ [value]).rtake (size - 1)) := by
  have place := used_spec r
  have next := advance_val r.putIndex
  have shorter := keeps.length_lt
  have counted := keeps.counted
  have length : (queue ++ [value]).length = queue.length + 1 := List.length_append
  by_cases meet : advance r.putIndex = r.getIndex
  · -- The ring is full, and the oldest value gives way.
    have full : queue.length + 1 = size := by
      have equal := congrArg Fin.val meet
      have := r.getIndex.isLt
      omega
    have newest : (queue ++ [value]).rtake (size - 1) = (queue ++ [value]).drop 1 := by
      rw [List.rtake, length, full, Nat.sub_sub_self (Nat.le_of_lt large)]
    have remains : ((queue ++ [value]).drop 1).length = size - 1 := by rw [List.length_drop, length, full]
    rw [RingBuffer.put, if_pos meet, newest]
    refine ⟨fun _ => ?_, ?_, ?_⟩
    · exact List.ne_nil_of_length_pos (by omega)
    -- The ring remains full, with one less to count and one more.
    · have later := used_spec
        { r with buffer := PkeFire.store r.buffer r.putIndex value, putIndex := advance r.putIndex,
                 getIndex := advance r.getIndex, isFull := true }
      have first := advance_val r.getIndex
      have equal := congrArg Fin.val meet
      simp only at later ⊢
      omega
    -- Every cell but the one written holds what it held.
    · intro k cell below offset
      have first := advance_val r.getIndex
      have inside := cell.isLt
      simp only at offset
      rw [List.getElem?_drop]
      exact keeps.store value (by omega) (by omega)
  · -- There is room behind the others.
    have whole : (queue ++ [value]).rtake (size - 1) = queue ++ [value] := by
      have room : queue.length + 1 < size := by
        have apart : (advance r.putIndex).val ≠ r.getIndex.val := fun same => meet (Fin.ext same)
        have := r.getIndex.isLt
        omega
      rw [List.rtake, length, Nat.sub_eq_zero_of_le (by omega), List.drop_zero]
    -- A ring with room takes the value as any other ring does.
    have queued := keeps.forget.put value (by omega)
    rw [RingBuffer.put, if_neg meet] at queued
    rw [RingBuffer.put, if_neg meet, whole]
    exact ⟨fun _ => List.append_ne_nil_of_right_ne_nil _ (List.cons_ne_nil _ _), queued.counted, queued.cells⟩

/-- The newest values are found among the newest ones of before, and what has come since. -/
theorem rtake_rtake_append (before after : List α) (limit : Nat) :
    (before.rtake limit ++ after).rtake limit = (before ++ after).rtake limit := by
  -- Read from the end, the newest values are the first ones.
  have fewer : min (limit - after.length) limit = limit - after.length := Nat.min_eq_left (Nat.sub_le _ _)
  simp only [List.rtake_eq_reverse_take_reverse, List.reverse_append, List.reverse_reverse, List.take_append,
    List.take_take, List.length_reverse, fewer]

/-- Of several values, the newest are kept. -/
theorem Keeps.puts (keeps : r.Keeps queue) (values : List α) (large : 1 < size) :
    (values.foldl RingBuffer.put r).Keeps ((queue ++ values).rtake (size - 1)) := by
  -- What has been dropped before is not among the newest later on.
  induction values generalizing r queue with
  | nil =>
    have shorter := keeps.length_lt
    rw [List.append_nil, List.rtake, Nat.sub_eq_zero_of_le (by omega), List.drop_zero]
    exact keeps
  | cons value values ih =>
    have rest := ih (keeps.put value large)
    rwa [rtake_rtake_append, ← List.append_cons] at rest

/-- A ring that keeps nothing has nothing to read. -/
theorem Keeps.get_nil (keeps : r.Keeps []) : r.get = none :=
  have kept : r.isFull = false := by
    by_contra full
    exact keeps.nonempty (by simpa using full) rfl
  Holds.get_nil ⟨kept, keeps.counted, keeps.cells⟩

/-- Reading takes the oldest value that has been kept. -/
theorem Keeps.get_cons (keeps : r.Keeps (value :: queue)) : ∃ rest, r.get = some (value, rest) ∧ rest.Keeps queue := by
  obtain ⟨rest, read, holds⟩ := keeps.forget.get_cons
  refine ⟨rest, ?_, holds.keeps⟩
  -- As there is something to read, the indices differ.
  have apart : r.getIndex ≠ r.putIndex := by
    intro same
    have counted := keeps.counted
    simp [used, same] at counted
  rw [get, if_neg fun empty => apart empty.1] at read ⊢
  exact read

end RingBuffer

end PkeFire
