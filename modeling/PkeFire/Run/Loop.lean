import Mathlib.Data.List.Basic

/-! Counted loops and unbroken streaks, the two shapes of repetition used by the firmware. -/

namespace PkeFire

universe u

/-- The loop `for i in [0, count)`, whose body also sees the index. -/
def countedLoop {State : Type u} : (count : Nat) → (Fin count → State → State) → State → State
  | 0, _, state => state
  -- The last index runs after all the earlier ones.
  | count + 1, body, state =>
    body (Fin.last count) (countedLoop count (fun i => body i.castSucc) state)

/-- A loop establishes what every pass through its body advances by one index. -/
theorem countedLoop_invariant {State : Type u} {count : Nat} {body : Fin count → State → State}
    (invariant : Nat → State → Prop) {state : State} (initially : invariant 0 state)
    (kept : ∀ (i : Fin count) state, invariant i state → invariant (i + 1) (body i state)) :
    invariant count (countedLoop count body state) := by
  -- The induction removes the last pass, so the shorter loop has established the invariant for it.
  induction count with
  | zero => exact initially
  | succ count ih =>
    exact kept (Fin.last count) _ (ih fun i state held => kept i.castSucc state held)

/-- A loop looks from a distance like the loop of what its body looks like. -/
theorem countedLoop_map {State View : Type u} {count : Nat} {body : Fin count → State → State}
    {other : Fin count → View → View} (view : State → View)
    (same : ∀ i state, view (body i state) = other i (view state)) (state : State) :
    view (countedLoop count body state) = countedLoop count other (view state) := by
  -- The induction removes the last pass of both loops.
  induction count with
  | zero => rfl
  | succ count ih => rw [countedLoop, same, ih fun i => same i.castSucc, countedLoop]

/-- A loop none of whose passes confuses two states does not confuse them either. -/
theorem countedLoop_injective {State : Type u} {count : Nat} {body : Fin count → State → State}
    (each : ∀ i, Function.Injective (body i)) : Function.Injective (countedLoop count body) := by
  -- The last pass is undone first.
  induction count with
  | zero => exact Function.injective_id
  | succ count ih => exact (each (Fin.last count)).comp (ih fun i => each i.castSucc)

/-- A counter of eight bits goes up by one as long as it is below its limit. -/
theorem toNat_succ {counter : UInt8} {count : Nat} (counted : counter.toNat = count) (below : count < 255) :
    (counter + 1).toNat = count + 1 := by
  rw [UInt8.toNat_add, UInt8.toNat_one, counted]
  -- The sum does not reach the limit, where it would wrap around.
  exact Nat.mod_eq_of_lt (by omega)

section

variable {α : Type u} {value : α} {count : Nat} {history : List α}

/-- A history ending in a streak ends in a longer one after the same value again. -/
theorem streak_snoc (streak : List.replicate count value <:+ history) :
    List.replicate (count + 1) value <:+ history ++ [value] := by
  -- Appending the value on both sides keeps the earlier history in front.
  obtain ⟨older, rfl⟩ := streak
  exact ⟨older, by simp [List.replicate_succ']⟩

/-- A shorter streak is the end of a longer one. -/
theorem streak_shorten {fewer : Nat} (streak : List.replicate count value <:+ history)
    (shorter : fewer ≤ count) : List.replicate fewer value <:+ history := by
  -- The surplus values move to the front of the history.
  refine List.IsSuffix.trans ⟨List.replicate (count - fewer) value, ?_⟩ streak
  rw [List.replicate_append_replicate, Nat.sub_add_cancel shorter]

/-- A streak reaches back no further than the last different value. -/
theorem streak_le {other : α} {longest : Nat} (different : other ≠ value)
    (streak : List.replicate count value <:+ history ++ other :: List.replicate longest value) :
    count ≤ longest := by
  -- A longer streak would have the different value among its entries.
  by_contra exceeds
  have tail : other :: List.replicate longest value <:+
      history ++ other :: List.replicate longest value := List.suffix_append _ _
  have shorter : (other :: List.replicate longest value).length ≤ (List.replicate count value).length := by
    simp only [List.length_cons, List.length_replicate]
    omega
  have inside := List.suffix_of_suffix_length_le tail streak shorter
  exact different (List.eq_of_mem_replicate (inside.subset List.mem_cons_self))

/-- Every history ends in the empty streak. -/
theorem streak_zero : List.replicate 0 value <:+ history :=
  -- No value is asked for.
  List.nil_suffix

/-- A streak that ends with one more of its value was a shorter one before. -/
theorem streak_unsnoc (streak : List.replicate (count + 1) value <:+ history ++ [value]) :
    List.replicate count value <:+ history := by
  rw [List.replicate_succ'] at streak
  -- The last value is the same on both sides.
  exact List.suffix_append_self_iff.mp streak

/-- A counter that stops at a limit has counted the streak in which a history ends. -/
structure CountsStreakTo (limit : Nat) (value : α) (count : Nat) (history : List α) : Prop where
  bounded : count ≤ limit
  streak : List.replicate count value <:+ history
  longest : count < limit → ¬List.replicate (count + 1) value <:+ history

variable {limit : Nat}

/-- The count of an empty history is zero. -/
theorem CountsStreakTo.nil : CountsStreakTo limit value 0 [] := by
  refine ⟨Nat.zero_le limit, streak_zero, ?_⟩
  intro _ streak
  have short := streak.length_le
  simp at short

/-- The value once more advances the count, up to the limit. -/
theorem CountsStreakTo.again (counts : CountsStreakTo limit value count history) :
    CountsStreakTo limit value (if count < limit then count + 1 else count) (history ++ [value]) := by
  have longer := streak_snoc counts.streak
  by_cases below : count < limit
  · rw [if_pos below]
    exact ⟨below, longer, fun _ streak => counts.longest below (streak_unsnoc streak)⟩
  · -- At the limit, the count falls behind the streak.
    rw [if_neg below]
    exact ⟨counts.bounded, streak_shorten longer (Nat.le_succ count), fun more => absurd more below⟩

/-- Any other value makes the count start over. -/
theorem CountsStreakTo.restart {other : α} (different : other ≠ value) :
    CountsStreakTo limit value 0 (history ++ [other]) := by
  refine ⟨Nat.zero_le limit, streak_zero, ?_⟩
  intro _ streak
  have last : List.replicate (0 + 1) value <:+ history ++ other :: List.replicate 0 value := streak
  have short := streak_le different last
  omega

/-- Up to its limit, the count tells how long the streak is. -/
theorem CountsStreakTo.le_iff {length : Nat} (counts : CountsStreakTo limit value count history)
    (within : length ≤ limit) : length ≤ count ↔ List.replicate length value <:+ history := by
  constructor
  · intro reached
    exact streak_shorten counts.streak reached
  · intro streak
    by_contra short
    exact counts.longest (by omega) (streak_shorten streak (by omega))

end

end PkeFire
