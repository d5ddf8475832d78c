import PkeFire.Run.Machine

/-! Counters that fire when they have reached a limit, and start again. -/

namespace PkeFire

universe u v

/-- A counter is compared with its limit before it is incremented: what it leaves, and whether it has fired. -/
def tick (limit time : Nat) : Nat × Bool :=
  if limit ≤ time then (0, true) else (time + 1, false)

section

variable {State : Type u} {Event : Type v} {step : State → Event → Option State}
  {condition : State → Event → Prop}

/-- The first event of a run counts besides those that follow. -/
theorem occurrences_cons {counted : State → Event → Bool} {state next : State} {event : Event} {rest : List Event}
    (taken : step state event = some next) :
    occurrences step counted state (event :: rest) =
      (if counted state event then 1 else 0) + occurrences step counted next rest := by
  rw [occurrences, observations, taken, List.length_append, Option.map_some, Option.getD_some]
  split <;> rfl

/-- Where every step balances what is done against what is due, a whole run does, with what is owed at its ends. -/
theorem balanced_run (owed : State → Nat) {done due : State → Event → Bool}
    (each : ∀ state event next, condition state event → step state event = some next →
      (if done state event then 1 else 0) + owed next = owed state + (if due state event then 1 else 0))
    {state finish : State} {events : List Event} (every : EveryStep step condition state events)
    (ran : run step state events = some finish) :
    occurrences step done state events + owed finish = owed state + occurrences step due state events := by
  -- What the first event leaves owed is what the rest starts with.
  induction events generalizing state with
  | nil =>
    cases Option.some.inj ran
    exact Nat.add_comm _ _
  | cons event rest ih =>
    rw [run_cons, Option.bind_eq_some_iff] at ran
    obtain ⟨next, taken, ran⟩ := ran
    have first := each state event next every.1 taken
    have later := ih (every.2 next taken) ran
    rw [occurrences_cons taken, occurrences_cons taken]
    omega

/--
A counter that ticks with some events fires at every tick in whose number its period divides the ticks.

A counter that stands beyond its limit fires as one that has just reached it.
-/
theorem periodic_run (counter : State → Nat) {ticks fires : State → Event → Bool} {limit : Nat}
    (each : ∀ state event next, condition state event → step state event = some next →
      (counter next, fires state event) = if ticks state event then tick limit (counter state)
        else (counter state, false))
    {state finish : State} {events : List Event} (every : EveryStep step condition state events)
    (ran : run step state events = some finish) :
    occurrences step fires state events =
        (min (counter state) limit + occurrences step ticks state events) / (limit + 1) ∧
      min (counter finish) limit =
        (min (counter state) limit + occurrences step ticks state events) % (limit + 1) := by
  -- The induction takes the first event, from any state of the counter.
  induction events generalizing state with
  | nil =>
    cases Option.some.inj ran
    have none (counted : State → Event → Bool) (state : State) : occurrences step counted state [] = 0 := rfl
    have below (time : Nat) : min time limit < limit + 1 := by omega
    rw [none, none, Nat.add_zero, Nat.div_eq_of_lt (below _), Nat.mod_eq_of_lt (below _)]
    exact ⟨rfl, rfl⟩
  | cons event rest ih =>
    rw [run_cons, Option.bind_eq_some_iff] at ran
    obtain ⟨next, taken, ran⟩ := ran
    obtain ⟨fired, left⟩ := ih (every.2 next taken) ran
    have first := each state event next every.1 taken
    rw [occurrences_cons taken, occurrences_cons taken, fired, left]
    -- Whether the first event counts, and whether it fires, decides what is left for the rest.
    generalize occurrences step ticks next rest = count at fired left ⊢
    by_cases counts : ticks state event = true
    · rw [if_pos counts, tick] at first
      rw [if_pos counts]
      by_cases due : limit ≤ counter state
      · -- The tick that fires completes a period.
        rw [if_pos due] at first
        obtain ⟨again, now⟩ := Prod.mk.inj first
        have whole : min (counter state) limit + (1 + count) = count + (limit + 1) := by omega
        rw [again, if_pos now, whole, Nat.zero_min, Nat.zero_add, Nat.add_div_right _ (Nat.succ_pos limit),
          Nat.add_mod_right]
        exact ⟨Nat.add_comm _ _, rfl⟩
      -- Any other tick is one less to come.
      · rw [if_neg due] at first
        obtain ⟨again, now⟩ := Prod.mk.inj first
        have same : min (counter next) limit + count = min (counter state) limit + (1 + count) := by omega
        rw [if_neg (by rw [now]; exact Bool.false_ne_true), same, Nat.zero_add]
        exact ⟨rfl, rfl⟩
    -- An event that does not tick leaves the counter and the count alone.
    · rw [if_neg counts] at first
      obtain ⟨again, now⟩ := Prod.mk.inj first
      rw [if_neg counts, if_neg (by rw [now]; exact Bool.false_ne_true), again, Nat.zero_add, Nat.zero_add]
      exact ⟨rfl, rfl⟩

end

end PkeFire
