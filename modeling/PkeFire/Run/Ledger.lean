import Mathlib.Data.List.Dedup
import PkeFire.Run.Registry

/-! What a registry of a bounded size admits, and what is known of the admitted keys when the latest value counts. -/

namespace PkeFire

universe u v

section

variable {Key : Type u} {Value : Type v} [DecidableEq Key]

/-- The different keys of a list, in the order in which they come first. -/
def firstSeen (keys : List Key) : List Key :=
  keys.reverse.dedup.reverse

/-- The keys that find a slot, when they are looked for in this order. -/
def admitted (capacity : Nat) (keys : List Key) : List Key :=
  (firstSeen keys).take capacity

/-- The latest value that has been noted under a key. -/
def latest (notes : List (Key × Option Value)) (key : Key) : Option Value :=
  (notes.filterMap fun note => if note.1 = key then note.2 else none).getLast?

/-- What is known of a key behind some notes, if it has been admitted. -/
def ledger (capacity : Nat) (notes : List (Key × Option Value)) (key : Key) : Option (Option Value) :=
  if key ∈ admitted capacity (notes.map Prod.fst) then some (latest notes key) else none

variable {keys : List Key} {capacity : Nat}

/-- Keys are seen if they are in the list. -/
@[simp] theorem mem_firstSeen {key : Key} : key ∈ firstSeen keys ↔ key ∈ keys := by
  simp [firstSeen]

/-- A key that comes again is not seen for the first time. -/
theorem firstSeen_append (keys : List Key) (key : Key) :
    firstSeen (keys ++ [key]) = if key ∈ keys then firstSeen keys else firstSeen keys ++ [key] := by
  rw [firstSeen, List.reverse_append, List.reverse_singleton, List.singleton_append, List.dedup_cons]
  simp only [List.mem_reverse]
  split
  · rfl
  · rw [List.reverse_cons]
    rfl

/-- While there is room, all keys have been admitted. -/
theorem admitted_eq (room : (admitted capacity keys).length < capacity) : admitted capacity keys = firstSeen keys := by
  rw [admitted, List.length_take] at room
  exact List.take_of_length_le (by omega)

/-- A known key changes nothing, and a new one is admitted while there is room. -/
theorem admitted_append (capacity : Nat) (keys : List Key) (key : Key) :
    admitted capacity (keys ++ [key]) = if key ∉ admitted capacity keys ∧ (admitted capacity keys).length < capacity
      then admitted capacity keys ++ [key] else admitted capacity keys := by
  rw [admitted, firstSeen_append]
  by_cases room : (admitted capacity keys).length < capacity
  · have all := admitted_eq room
    rw [all] at room ⊢
    by_cases known : key ∈ keys
    · have refused : ¬ (key ∉ firstSeen keys ∧ (firstSeen keys).length < capacity) :=
        fun both => both.1 (mem_firstSeen.mpr known)
      rw [if_pos known, if_neg refused]
      exact List.take_of_length_le (Nat.le_of_lt room)
    · rw [if_neg known, if_pos ⟨fun seen => known (mem_firstSeen.mp seen), room⟩]
      exact List.take_of_length_le (by rw [List.length_append, List.length_singleton]; omega)
  · -- A full registry stays as it is.
    have refused : ¬ (key ∉ admitted capacity keys ∧ (admitted capacity keys).length < capacity) :=
      fun both => room both.2
    have full : capacity ≤ (firstSeen keys).length := by
      rw [admitted, List.length_take] at room
      omega
    rw [if_neg refused]
    by_cases known : key ∈ keys
    · rw [if_pos known, admitted]
    · rw [if_neg known, List.take_append_of_le_length full, admitted]

/-- Looking for a key in a registry of the admitted keys admits it if there is room. -/
theorem Registry.search_admitted (registry : Registry Key capacity) (admits : registry.keys = admitted capacity keys)
    (key : Key) : (registry.search key).2.keys = admitted capacity (keys ++ [key]) := by
  rw [admitted_append, ← admits]
  by_cases known : key ∈ registry.keys
  · rw [if_neg fun both => both.1 known, search, dif_pos known]
  · by_cases room : registry.keys.length < capacity
    · rw [if_pos ⟨known, room⟩, search_new registry known room]
      rfl
    · rw [if_neg fun both => room both.2, search_full registry known (Nat.le_of_not_lt room)]

/-- A later note counts instead of the earlier ones, unless it has no value. -/
theorem latest_append (notes : List (Key × Option Value)) (note : Key × Option Value) (key : Key) :
    latest (notes ++ [note]) key = if note.1 = key then note.2.or (latest notes key) else latest notes key := by
  rw [latest, List.filterMap_append]
  by_cases own : note.1 = key
  · rw [if_pos own]
    cases value : note.2 <;> simp [own, value, latest]
  · simp [own, latest]

/-- A key that has not been admitted has not been noted before, if there is room for it. -/
theorem latest_of_room {notes : List (Key × Option Value)} {key : Key}
    (new : key ∉ admitted capacity (notes.map Prod.fst))
    (room : (admitted capacity (notes.map Prod.fst)).length < capacity) : latest notes key = none := by
  rw [admitted_eq room, mem_firstSeen, List.mem_map, not_exists] at new
  rw [latest, List.getLast?_eq_none_iff, List.filterMap_eq_nil_iff]
  intro note among
  rw [if_neg fun same => new note ⟨among, same⟩]

end

end PkeFire
