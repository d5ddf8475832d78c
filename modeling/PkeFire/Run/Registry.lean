import Mathlib.Data.List.Basic
import Mathlib.Data.List.Nodup

/-! Registries of a bounded size, which give each key a slot when it is first looked for, and never take it back. -/

namespace PkeFire

universe u

/-- The registered keys, each at its slot, in the order in which they have come. -/
structure Registry (Key : Type u) (capacity : Nat) where
  keys : List Key
  /-- No key has two slots. -/
  distinct : keys.Nodup
  /-- There are no more slots than these. -/
  bounded : keys.length ≤ capacity

namespace Registry

variable {Key : Type u} {capacity : Nat}

/-- A registry in which nothing has been registered. -/
def empty : Registry Key capacity where
  keys := []
  distinct := List.nodup_nil
  bounded := Nat.zero_le capacity

/-- A new key takes the next slot. -/
def register (registry : Registry Key capacity) (key : Key) (new : key ∉ registry.keys)
    (room : registry.keys.length < capacity) : Registry Key capacity where
  keys := registry.keys ++ [key]
  distinct := by
    rw [← List.concat_eq_append]
    exact registry.distinct.concat new
  bounded := by
    rw [List.length_append, List.length_singleton]
    exact room

/-- The slot of a key, which is registered for it if it has none and one is left. -/
def search [DecidableEq Key] (registry : Registry Key capacity) (key : Key) :
    Option Nat × Registry Key capacity :=
  if known : key ∈ registry.keys then (some (registry.keys.idxOf key), registry)
  else if room : registry.keys.length < capacity then
    (some registry.keys.length, registry.register key known room)
  -- A full registry turns new keys away.
  else (none, registry)

variable [DecidableEq Key] (registry : Registry Key capacity)

/-- A key that is registered is found at its slot, and nothing changes. -/
theorem search_known {i : Nat} (within : i < registry.keys.length) :
    registry.search registry.keys[i] = (some i, registry) := by
  -- No other slot has the same key.
  rw [search, dif_pos (List.getElem_mem within), registry.distinct.idxOf_getElem i within]

/-- A key that is new takes the next slot, if there is one. -/
theorem search_new {key : Key} (new : key ∉ registry.keys) (room : registry.keys.length < capacity) :
    registry.search key = (some registry.keys.length, registry.register key new room) := by
  rw [search, dif_neg new, dif_pos room]

/-- A key that is new to a full registry is not registered. -/
theorem search_full {key : Key} (new : key ∉ registry.keys) (full : capacity ≤ registry.keys.length) :
    registry.search key = (none, registry) := by
  rw [search, dif_neg new, dif_neg (Nat.not_lt.mpr full)]

/-- A slot that has been found is in use. -/
theorem search_found {key : Key} {i : Nat} (found : (registry.search key).1 = some i) :
    i < (registry.search key).2.keys.length := by
  by_cases known : key ∈ registry.keys
  · rw [search, dif_pos known] at found ⊢
    exact Option.some.inj found ▸ List.idxOf_lt_length_of_mem known
  · by_cases room : registry.keys.length < capacity
    · rw [search_new registry known room] at found ⊢
      rw [← Option.some.inj found, register, List.length_append]
      exact Nat.lt_succ_self _
    · -- A full registry has no slot for a new key.
      rw [search_full registry known (Nat.le_of_not_lt room)] at found
      cases found

/-- Every registered key stays at its slot, whatever is looked for. -/
theorem prefix_search (key : Key) : registry.keys <+: (registry.search key).2.keys := by
  by_cases known : key ∈ registry.keys
  · have same : (registry.search key).2 = registry := by rw [search, dif_pos known]
    exact same.symm ▸ List.prefix_refl _
  · by_cases room : registry.keys.length < capacity
    · -- The new key is put behind the others.
      rw [search_new registry known room]
      exact List.prefix_append _ _
    · have same := congrArg Prod.snd (search_full registry known (Nat.le_of_not_lt room))
      exact same.symm ▸ List.prefix_refl _

end Registry

end PkeFire
