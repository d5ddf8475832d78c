import Mathlib.Data.Fin.SuccPred

/-! Tables of a fixed size, read and written one cell at a time. -/

namespace PkeFire

universe u

section

variable {α : Type u} {size : Nat}

/-- The value of one cell. -/
def load (table : Vector α size) (i : Fin size) : α :=
  table[i]

/-- The table with one cell overwritten. -/
def store (table : Vector α size) (i : Fin size) (value : α) : Vector α size :=
  table.set i value

/-- The overwritten cell holds the new value. -/
@[simp] theorem load_store_self (table : Vector α size) (i : Fin size) (value : α) :
    load (store table i value) i = value := by
  -- The index is the one that has been written.
  simp [load, store]

/-- Overwriting one cell keeps every other one. -/
theorem load_store_other (table : Vector α size) {i j : Fin size} (value : α) (apart : i ≠ j) :
    load (store table i value) j = load table j := by
  -- Different indices are different numbers.
  have distinct : i.val ≠ j.val := Fin.val_ne_of_ne apart
  simp [load, store, distinct]

/-- A cell of an overwritten table holds the new value or the old one. -/
theorem load_store (table : Vector α size) (i j : Fin size) (value : α) :
    load (store table i value) j = if i = j then value else load table j := by
  by_cases same : i = j
  · rw [if_pos same, same, load_store_self]
  · rw [if_neg same, load_store_other table value same]

/-- Every cell of a uniform table holds the same value. -/
@[simp] theorem load_replicate (value : α) (i : Fin size) :
    load (Vector.replicate size value) i = value := by
  simp [load]

/-- A cell of a table is the element at its place in the list of all cells. -/
theorem load_eq_getD (table : Vector α size) (i : Fin size) (default : α) :
    load table i = table.toList.getD i.val default := by
  simp [load]

end

end PkeFire
