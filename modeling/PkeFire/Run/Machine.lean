import Mathlib.Data.List.Induction

/-! Runs of a system whose steps may be refused, with the rules that lift one step to a whole run. -/

namespace PkeFire

universe u v w

section

variable {State : Type u} {Event : Type v} (step : State → Event → Option State)

/-- Performing a list of events in order, which fails as soon as one of them is refused. -/
def run : State → List Event → Option State
  | state, [] => some state
  -- A refused event leaves no state from which the rest could continue.
  | state, event :: rest => (step state event).bind fun next => run next rest

/-- Every event of the list meets a condition in the state where it is performed. -/
def EveryStep (condition : State → Event → Prop) : State → List Event → Prop
  | _, [] => True
  -- The condition is read before the event, and the rest is judged from the state it leaves.
  | state, event :: rest =>
    condition state event ∧ ∀ next, step state event = some next → EveryStep condition next rest

/-- What an observer sees along a run, one entry for each event it does not ignore. -/
def observations {Seen : Type w} (observe : State → Event → Option Seen) :
    State → List Event → List Seen
  | _, [] => []
  | state, event :: rest =>
    -- The observer sees the event together with the state before it.
    (observe state event).toList ++ ((step state event).map fun next =>
      observations observe next rest).getD []

/-- How many events of a run count, each judged in the state where it is performed. -/
def occurrences (counted : State → Event → Bool) (state : State) (events : List Event) : Nat :=
  -- A counted event is observed without looking at it.
  (observations step (fun state event => if counted state event then some () else none) state events).length

/-- The states that a run from the given state can reach while every event meets the condition. -/
def ReachableFrom (condition : State → Event → Prop) (start state : State) : Prop :=
  -- Reachability keeps the run itself out of the statement.
  ∃ events, EveryStep step condition start events ∧ run step start events = some state

end

section

variable {State : Type u} {Event : Type v} {step : State → Event → Option State}
  {condition : State → Event → Prop}

/-- A run of no events ends where it started. -/
@[simp] theorem run_nil (state : State) : run step state [] = some state := rfl

/-- A run performs its first event and then the rest. -/
@[simp] theorem run_cons (state : State) (event : Event) (rest : List Event) :
    run step state (event :: rest) = (step state event).bind fun next => run step next rest := rfl

/-- Two runs in a row are one run of the joined events. -/
theorem run_append (state : State) (first second : List Event) :
    run step state (first ++ second) =
      (run step state first).bind fun middle => run step middle second := by
  -- The joined list begins with the first event of the first part.
  induction first generalizing state with
  | nil => rfl
  | cons event rest ih =>
    cases taken : step state event with
    | none => simp [taken]
    | some next => simp [taken, ih]

/-- A successful joined run passes through a middle state. -/
theorem run_append_some {state finish : State} {first second : List Event} :
    run step state (first ++ second) = some finish ↔
      ∃ middle, run step state first = some middle ∧ run step middle second = some finish := by
  rw [run_append, Option.bind_eq_some_iff]

/-- A successful run of one event is one successful step. -/
@[simp] theorem run_singleton (state : State) (event : Event) :
    run step state [event] = step state event := by
  -- Nothing follows the only event.
  cases taken : step state event <;> simp [taken]

/-- The condition holds of a joined run when it holds of both parts. -/
theorem everyStep_append {state : State} {first second : List Event} :
    EveryStep step condition state (first ++ second) ↔
      EveryStep step condition state first ∧
        ∀ middle, run step state first = some middle → EveryStep step condition middle second := by
  -- Both sides read the events of the first part in the same states.
  induction first generalizing state with
  | nil => simp [EveryStep]
  | cons event rest ih =>
    simp only [List.cons_append, EveryStep, ih, run_cons]
    cases taken : step state event with
    | none => simp
    | some next => simp [and_assoc]

/-- A weaker condition holds wherever a stronger one does. -/
theorem EveryStep.mono {weaker : State → Event → Prop}
    (weaken : ∀ state event, condition state event → weaker state event)
    {state : State} {events : List Event} (every : EveryStep step condition state events) :
    EveryStep step weaker state events := by
  induction events generalizing state with
  | nil => trivial
  | cons event rest ih =>
    exact ⟨weaken _ _ every.1, fun next taken => ih (every.2 next taken)⟩

/-- Two conditions hold together when each holds at every step. -/
theorem EveryStep.and {other : State → Event → Prop} {state : State} {events : List Event}
    (every : EveryStep step condition state events) (too : EveryStep step other state events) :
    EveryStep step (fun state event => condition state event ∧ other state event) state events := by
  induction events generalizing state with
  | nil => trivial
  | cons event rest ih =>
    exact ⟨⟨every.1, too.1⟩, fun next taken => ih (every.2 next taken) (too.2 next taken)⟩

/-- A condition that always holds holds at every step of every run. -/
theorem everyStep_of_forall (always : ∀ state event, condition state event) (state : State)
    (events : List Event) : EveryStep step condition state events := by
  induction events generalizing state with
  | nil => trivial
  | cons event rest ih => exact ⟨always _ _, fun next _ => ih next⟩

/-- A condition on the events alone holds at every step when it holds of every event of the list. -/
theorem everyStep_of_mem {permitted : Event → Prop} {state : State} {events : List Event}
    (every : ∀ event ∈ events, permitted event) :
    EveryStep step (fun _ event => permitted event) state events := by
  induction events generalizing state with
  | nil => trivial
  | cons event rest ih =>
    exact ⟨every event List.mem_cons_self, fun next _ => ih fun later among =>
      every later (List.mem_cons_of_mem event among)⟩

/-- A decidable condition can be checked along a list of events. -/
instance EveryStep.instDecidable [∀ state event, Decidable (condition state event)] :
    (state : State) → (events : List Event) → Decidable (EveryStep step condition state events)
  | _, [] => .isTrue trivial
  | state, event :: rest =>
    match taken : step state event with
    -- Nothing is asked of the events after a refused one.
    | none => decidable_of_iff (condition state event) (by simp [EveryStep, taken])
    | some next =>
      have := EveryStep.instDecidable next rest
      decidable_of_iff (condition state event ∧ EveryStep step condition next rest)
        (by simp [EveryStep, taken])

/-- Observing a joined run joins the observations of its parts. -/
theorem observations_append {Seen : Type w} {observe : State → Event → Option Seen}
    {state middle : State} {first : List Event} (reached : run step state first = some middle)
    (second : List Event) :
    observations step observe state (first ++ second) =
      observations step observe state first ++ observations step observe middle second := by
  -- The first part succeeds, so no observation of the second part is cut off.
  induction first generalizing state with
  | nil =>
    simp only [run_nil, Option.some.injEq] at reached
    simp [observations, reached]
  | cons event rest ih =>
    simp only [run_cons, Option.bind_eq_some_iff] at reached
    obtain ⟨next, taken, reached⟩ := reached
    simp [observations, taken, ih reached]

/-- Observing one event yields what the observer sees of it. -/
theorem observations_singleton {Seen : Type w} {observe : State → Event → Option Seen}
    (state : State) (event : Event) :
    observations step observe state [event] = (observe state event).toList := by
  cases taken : step state event <;> simp [observations, taken]

/-- Whatever has been observed along a run has been seen at one of its events. -/
theorem mem_observations {Seen : Type w} {observe : State → Event → Option Seen} {state : State}
    {events : List Event} {seen : Seen} (among : seen ∈ observations step observe state events) :
    ∃ event ∈ events, ∃ before, observe before event = some seen := by
  -- The observation is made at the first event or later.
  induction events generalizing state with
  | nil => cases among
  | cons event rest ih =>
    rw [observations, List.mem_append, Option.mem_toList] at among
    rcases among with here | later
    · exact ⟨event, List.mem_cons_self, state, here⟩
    · cases taken : step state event with
      | none => simp [taken] at later
      | some next =>
        rw [taken, Option.map_some, Option.getD_some] at later
        obtain ⟨found, member, before, made⟩ := ih later
        exact ⟨found, List.mem_cons_of_mem event member, before, made⟩

/-- The start itself is reachable. -/
theorem ReachableFrom.start (state : State) : ReachableFrom step condition state state :=
  -- The empty run has no event to judge.
  ⟨[], trivial, rfl⟩

/-- Continuing a reachable state by a run that meets the condition reaches another one. -/
theorem ReachableFrom.run {start state finish : State} (reached : ReachableFrom step condition start state)
    {events : List Event} (every : EveryStep step condition state events)
    (ran : PkeFire.run step state events = some finish) :
    ReachableFrom step condition start finish := by
  obtain ⟨before, judged, arrived⟩ := reached
  refine ⟨before ++ events, everyStep_append.mpr ⟨judged, ?_⟩, run_append_some.mpr ⟨state, arrived, ran⟩⟩
  intro middle same
  cases Option.some.inj (arrived.symm.trans same)
  exact every

/-- What one permitted step preserves holds after every permitted run. -/
theorem run_invariant (invariant : State → Prop)
    (kept : ∀ state event next, invariant state → condition state event →
      step state event = some next → invariant next)
    {state finish : State} {events : List Event} (initially : invariant state)
    (every : EveryStep step condition state events) (ran : run step state events = some finish) :
    invariant finish := by
  -- Each event re-establishes the invariant for the rest of the run.
  induction events generalizing state with
  | nil =>
    simp only [run_nil, Option.some.injEq] at ran
    exact ran ▸ initially
  | cons event rest ih =>
    simp only [run_cons, Option.bind_eq_some_iff] at ran
    obtain ⟨next, taken, ran⟩ := ran
    exact ih (kept _ _ _ initially every.1 taken) (every.2 next taken) ran

/-- What permitted steps preserve holds, together with the permission, at every step of a permitted run. -/
theorem EveryStep.with_invariant (invariant : State → Prop)
    (kept : ∀ state event next, invariant state → condition state event →
      step state event = some next → invariant next)
    {state : State} {events : List Event} (initially : invariant state)
    (every : EveryStep step condition state events) :
    EveryStep step (fun state event => invariant state ∧ condition state event) state events := by
  induction events generalizing state with
  | nil => trivial
  | cons event rest ih =>
    -- The invariant is handed on to the rest by the first step.
    exact ⟨⟨initially, every.1⟩, fun next taken =>
      ih (kept _ _ _ initially every.1 taken) (every.2 next taken)⟩

/-- A condition holds along a run if it holds at the first step, and along the rest. -/
theorem everyStep_cons {state next : State} {event : Event} {rest : List Event}
    (taken : step state event = some next) :
    EveryStep step condition state (event :: rest) ↔ condition state event ∧ EveryStep step condition next rest := by
  constructor
  · exact fun every => ⟨every.1, every.2 next taken⟩
  · rintro ⟨first, later⟩
    refine ⟨first, fun other same => ?_⟩
    -- A step leads to one state only.
    cases Option.some.inj (taken.symm.trans same)
    exact later

/-- What one pair of permitted steps over the same event preserves relates the ends of two runs over the same events. -/
theorem runs_related {Other : Type w} {stepOther : Other → Event → Option Other} (related : State → Other → Prop)
    (kept : ∀ state other event next again, related state other → condition state event →
      step state event = some next → stepOther other event = some again → related next again)
    {state finish : State} {other last : Other} {events : List Event} (initially : related state other)
    (every : EveryStep step condition state events) (ran : run step state events = some finish)
    (ranOther : run stepOther other events = some last) : related finish last := by
  -- The two runs take their events in lockstep.
  induction events generalizing state other with
  | nil =>
    simp only [run_nil, Option.some.injEq] at ran ranOther
    exact ran ▸ ranOther ▸ initially
  | cons event rest ih =>
    simp only [run_cons, Option.bind_eq_some_iff] at ran ranOther
    obtain ⟨next, taken, ran⟩ := ran
    obtain ⟨again, takenOther, ranOther⟩ := ranOther
    exact ih (kept _ _ _ _ _ initially every.1 taken takenOther) (every.2 next taken) ran ranOther

/-- What one permitted step preserves holds in every reachable state. -/
theorem ReachableFrom.invariant (invariant : State → Prop)
    (kept : ∀ state event next, invariant state → condition state event →
      step state event = some next → invariant next)
    {start state : State} (initially : invariant start)
    (reached : ReachableFrom step condition start state) : invariant state := by
  obtain ⟨events, every, ran⟩ := reached
  exact run_invariant invariant kept initially every ran

/-- An invariant relating the state to the observations so far survives a permitted run. -/
theorem observed_invariant {Seen : Type w} (observe : State → Event → Option Seen)
    (invariant : State → List Seen → Prop)
    (kept : ∀ state event next seen, invariant state seen → condition state event →
      step state event = some next → invariant next (seen ++ (observe state event).toList))
    {state finish : State} {events : List Event} {seen : List Seen} (initially : invariant state seen)
    (every : EveryStep step condition state events) (ran : run step state events = some finish) :
    invariant finish (seen ++ observations step observe state events) := by
  -- The observations of the rest are appended to what has been seen up to its first event.
  induction events generalizing state seen with
  | nil =>
    simp only [run_nil, Option.some.injEq] at ran
    simpa [observations, ran] using initially
  | cons event rest ih =>
    simp only [run_cons, Option.bind_eq_some_iff] at ran
    obtain ⟨next, taken, ran⟩ := ran
    have later := ih (kept _ _ _ _ initially every.1 taken) (every.2 next taken) ran
    simpa [observations, taken, List.append_assoc] using later

/-- An invariant relating the state to the events so far survives a run, each step of which extends a run. -/
theorem history_invariant {start : State} (invariant : List Event → State → Prop)
    (kept : ∀ seen state event next, run step start seen = some state → invariant seen state →
      step state event = some next → invariant (seen ++ [event]) next)
    (initially : invariant [] start) {finish : State} {events : List Event}
    (ran : run step start events = some finish) : invariant events finish := by
  -- The induction takes the last event off the run.
  induction events using List.reverseRecOn generalizing finish with
  | nil =>
    simp only [run_nil, Option.some.injEq] at ran
    exact ran ▸ initially
  | append_singleton seen event ih =>
    obtain ⟨state, before, taken⟩ := run_append_some.mp ran
    exact kept _ _ _ _ before (ih before) (by simpa using taken)

/-- Where no event is refused, every run succeeds. -/
theorem run_total (total : ∀ state event, ∃ next, step state event = some next) (state : State)
    (events : List Event) : ∃ finish, run step state events = some finish := by
  induction events generalizing state with
  | nil => exact ⟨state, rfl⟩
  | cons event rest ih =>
    -- The first event leaves some state, and the rest starts from it.
    obtain ⟨next, taken⟩ := total state event
    obtain ⟨finish, ran⟩ := ih next
    exact ⟨finish, by rw [run_cons, taken, Option.bind_some, ran]⟩

/-- A run that fails reaches a state that refuses the next event. -/
theorem run_eq_none {start : State} {events : List Event} (failed : run step start events = none) :
    ∃ before event rest state, events = before ++ event :: rest ∧ run step start before = some state ∧
      step state event = none := by
  -- Either the first event is refused, or the rest of the run fails.
  induction events generalizing start with
  | nil => simp at failed
  | cons event rest ih =>
    cases taken : step start event with
    | none => exact ⟨[], event, rest, start, rfl, rfl, taken⟩
    | some next =>
      rw [run_cons, taken, Option.bind_some] at failed
      obtain ⟨before, refused, later, state, rfl, ran, none⟩ := ih failed
      exact ⟨event :: before, refused, later, state, rfl, by rw [run_cons, taken, Option.bind_some, ran], none⟩

/-- An invariant indexed by how many events have counted reaches the total count of a permitted run. -/
theorem counted_invariant {counted : State → Event → Bool} (invariant : Nat → State → Prop)
    (kept : ∀ count state event next, invariant count state → condition state event →
      step state event = some next →
        invariant (if counted state event then count + 1 else count) next)
    {state finish : State} {events : List Event} (initially : invariant 0 state)
    (every : EveryStep step condition state events) (ran : run step state events = some finish) :
    invariant (occurrences step counted state events) finish := by
  -- Each event that counts is one more observation.
  have started : invariant ([] : List Unit).length state := initially
  refine observed_invariant _ (fun state seen => invariant seen.length state) ?_ started every ran
  intro state event next seen held permitted taken
  have later := kept _ _ _ _ held permitted taken
  by_cases counts : counted state event = true
  · simpa [counts] using later
  · simpa [counts] using later

end

end PkeFire
