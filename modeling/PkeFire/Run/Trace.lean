import PkeFire.Run.Machine

/-! Traces: successful runs together with what an observer has seen of them, composed from their parts. -/

namespace PkeFire

universe u v w x

section

variable {State : Type u} {Event : Type v} {Seen : Type w}

/-- A run of some events from one state to another, during which the observer has seen just this. -/
def Trace (step : State → Event → Option State) (observe : State → Event → Option Seen)
    (start : State) (events : List Event) (seen : List Seen) (finish : State) : Prop :=
  run step start events = some finish ∧ observations step observe start events = seen

variable {step : State → Event → Option State} {observe : State → Event → Option Seen}
  {start middle finish : State} {events later : List Event} {seen more : List Seen}

/-- Nothing happens in a trace of no events. -/
theorem Trace.nil : Trace step observe start [] [] start :=
  ⟨rfl, rfl⟩

/-- A step that succeeds is a trace of one event. -/
theorem Trace.single {event : Event} (taken : step start event = some finish) :
    Trace step observe start [event] (observe start event).toList finish :=
  ⟨(run_singleton start event).trans taken, observations_singleton start event⟩

/-- A trace of an event and later ones begins with the step of that event. -/
theorem Trace.uncons {event : Event} (trace : Trace step observe start (event :: events) seen finish) :
    ∃ middle rest, step start event = some middle ∧ seen = (observe start event).toList ++ rest ∧
      Trace step observe middle events rest finish := by
  obtain ⟨ran, observed⟩ := trace
  rw [run_cons, Option.bind_eq_some_iff] at ran
  obtain ⟨middle, taken, ran⟩ := ran
  -- What is seen behind the first event is what the rest shows.
  rw [observations, taken, Option.map_some, Option.getD_some] at observed
  exact ⟨middle, _, taken, observed.symm, ran, rfl⟩

/-- Two traces in a row are one trace. -/
theorem Trace.append (first : Trace step observe start events seen middle)
    (second : Trace step observe middle later more finish) :
    Trace step observe start (events ++ later) (seen ++ more) finish := by
  refine ⟨run_append_some.mpr ⟨middle, first.1, second.1⟩, ?_⟩
  -- The second part is observed from the state that the first part has reached.
  rw [observations_append first.1, first.2, second.2]

/-- Blocks of events that each lead from a ready state to a ready state may follow each other. -/
theorem Trace.blocks {Item : Type x} (ready : State → Prop) {block : Item → List Event}
    {report : Item → List Seen} {items : List Item}
    (each : ∀ item ∈ items, ∀ state, ready state →
      ∃ next, Trace step observe state (block item) (report item) next ∧ ready next)
    (initially : ready start) :
    ∃ finish, Trace step observe start (items.flatMap block) (items.flatMap report) finish ∧
      ready finish := by
  -- Each block leaves a state that is ready for the next one.
  induction items generalizing start with
  | nil => exact ⟨start, Trace.nil, initially⟩
  | cons item items ih =>
    obtain ⟨middle, first, again⟩ := each item List.mem_cons_self start initially
    obtain ⟨finish, rest, last⟩ := ih (fun later among => each later (List.mem_cons_of_mem item among)) again
    exact ⟨finish, first.append rest, last⟩

/-- A machine that shows a view, and makes it move by what is observed, shows what the observations make of it. -/
theorem fold_run {View : Type x} {condition : State → Event → Prop} (next : View → Seen → View)
    (shows : State → View → Prop)
    (kept : ∀ state event after view, shows state view → condition state event → step state event = some after →
      shows after ((observe state event).toList.foldl next view))
    {view : View} (initially : shows start view) (every : EveryStep step condition start events)
    (ran : run step start events = some finish) :
    shows finish ((observations step observe start events).foldl next view) := by
  have started : shows start (([] : List Seen).foldl next view) := initially
  refine observed_invariant observe (fun state seen => shows state (seen.foldl next view)) ?_ started every ran
  intro state event after seen held permitted taken
  -- The view has moved by what was observed before.
  rw [List.foldl_append]
  exact kept state event after _ held permitted taken

/-- The last event of a trace that hides nothing is seen in the state that the events before it have reached. -/
theorem Trace.last {see : State → Event → Seen} {latest : Seen}
    (trace : Trace step (fun state event => some (see state event)) start events (seen ++ [latest]) finish) :
    ∃ before event middle, events = before ++ [event] ∧ run step start before = some middle ∧
      see middle event = latest := by
  obtain ⟨ran, observed⟩ := trace
  cases events using List.reverseRecOn with
  | nil => simp [observations] at observed
  | append_singleton before event =>
    obtain ⟨middle, reached, _⟩ := run_append_some.mp ran
    rw [observations_append reached, observations_singleton, Option.toList_some] at observed
    exact ⟨before, event, middle, rfl, reached, List.singleton_inj.mp (List.append_inj' observed rfl).2⟩

end

end PkeFire
