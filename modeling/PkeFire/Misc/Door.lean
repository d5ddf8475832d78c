import PkeFire.Misc.Effects

/-! The door and its alarms over whole runs without factory tests and shell commands. -/

namespace PkeFire

/-- The value that an executed iteration gives to `open`. -/
def openSeen (c : Controller) : Event → Option Bool
  -- A stopped task evaluates nothing.
  | .iterate _ => if c.runStopFlag then some c.sampled.openCause else none
  | .surround _ => none

/-- The values of `open` in the executed iterations of a run from the start, oldest first. -/
def openHistory (fireMachine : Bool) (events : List Event) : List Bool :=
  observations (controllerStep fireMachine) openSeen controllerInit events

/-- Pin, flag, alarms, and lock timer of a run, given its history of `open`. -/
structure DoorInvariant (c : Controller) (seen : List Bool) : Prop where
  /-- The door output follows the flag. -/
  output : c.doorPin = c.doorOpen
  /-- No alarm is on while the door is closed. -/
  silent : c.doorOpen = false → c.alarmPin = false ∧ c.extio.output = 0
  /-- The lock timer never exceeds the streak of iterations without a cause. -/
  counts : List.replicate c.lockTime false <:+ seen

/-- A surrounding event that drives no pin keeps the door invariant. -/
theorem DoorInvariant.surround {fireMachine : Bool} {c : Controller} {seen : List Bool}
    {event : Surrounding} (held : DoorInvariant c seen) (quiet : event.drivesPin = false) :
    DoorInvariant (surround fireMachine event c) seen := by
  -- Without a shell command, the other threads write none of what the invariant reads.
  obtain ⟨door, lock, _, _, siren, output, _⟩ := surround_frame fireMachine event c
  refine ⟨?_, ?_, ?_⟩
  · rw [surround_doorPin fireMachine event c quiet, door, held.output]
  · rw [door, siren, output]
    exact held.silent
  · rw [lock]
    exact held.counts

/-- The door phase of an executed iteration keeps the invariant, with the new value of `open` appended. -/
theorem DoorInvariant.driveDoor {c : Controller} {seen : List Bool} (held : DoorInvariant c seen)
    (stack : BuildingStatus) :
    DoorInvariant (c.sampled.driveDoor stack) (seen ++ [c.sampled.openCause]) := by
  rw [Controller.driveDoor]
  by_cases open_ : c.sampled.openCause = true
  · -- An open cause drives the door to its flag and restarts the timer.
    rw [if_pos open_]
    have opened := Controller.openBranch_opened stack c.sampled
    refine ⟨?_, ?_, ?_⟩
    · rw [opened.doorPin, opened.doorOpen]
      split
      · rename_i already
        exact held.output.trans already
      · rfl
    · simp [opened.doorOpen]
    · rw [opened.lockTime]
      exact streak_zero
  · -- Without a cause, the streak of quiet iterations has become longer by one.
    rw [if_neg open_]
    have quiet : c.sampled.openCause = false := by simpa using open_
    rw [quiet]
    have longer := streak_snoc held.counts
    cases Controller.closeBranch_closed c.sampled with
    | waits lockTime same advanced =>
      -- Waiting advances the timer by at most the one iteration that has been appended.
      rw [same]
      refine ⟨held.output, held.silent, streak_shorten longer ?_⟩
      have before : c.sampled.lockTime = c.lockTime := rfl
      rcases advanced with ⟨kept, _⟩ | ⟨_, more, _⟩ <;> simp only <;> omega
    | locks _ _ _ same =>
      -- Locking switches the alarms off, too.
      obtain ⟨lockTime, calls, bounded, same⟩ := same
      rw [same]
      exact ⟨rfl, fun _ => ⟨rfl, rfl⟩, streak_shorten longer bounded⟩

/-- The rest of an iteration keeps the door invariant. -/
theorem DoorInvariant.congr {c next : Controller} {seen : List Bool} (held : DoorInvariant c seen)
    (same : SameDoor c next) : DoorInvariant next seen := by
  refine ⟨?_, ?_, ?_⟩
  · rw [same.doorPin, same.doorOpen, held.output]
  · rw [same.doorOpen, same.alarmPin, same.output]
    exact held.silent
  · rw [same.lockTime]
    exact held.counts

/-- Every plain event keeps the door invariant. -/
theorem DoorInvariant.step {fireMachine : Bool} {c next : Controller} {seen : List Bool} {event : Event}
    (held : DoorInvariant c seen) (plain : Plain c event)
    (taken : controllerStep fireMachine c event = some next) :
    DoorInvariant next (seen ++ (openSeen c event).toList) := by
  cases event with
  | surround event =>
    cases Option.some.inj taken
    simpa [openSeen] using held.surround plain
  | iterate stimulus =>
    by_cases running : c.runStopFlag = true
    · rw [iterate_plain plain running taken]
      simp only [openSeen, running, if_true, Option.toList_some]
      exact (held.driveDoor stimulus.stack).congr (served_sameDoor fireMachine _)
    · -- A halted iteration changes nothing and is not part of the history.
      rcases iterate_cases taken with ⟨_, same⟩ | ⟨executed, _⟩
      · rw [same]
        simpa [openSeen, running] using (⟨held.output, held.silent, held.counts⟩ :
          DoorInvariant { c with calls := [] } seen)
      · exact absurd executed running

/-- Every plain run establishes the door invariant for its own history. -/
theorem doorInvariant_run {fireMachine : Bool} {events : List Event} {c : Controller}
    (plain : EveryStep (controllerStep fireMachine) Plain controllerInit events)
    (ran : run (controllerStep fireMachine) controllerInit events = some c) :
    DoorInvariant c (openHistory fireMachine events) := by
  have initially : DoorInvariant controllerInit [] := ⟨rfl, fun _ => ⟨rfl, rfl⟩, streak_zero⟩
  exact observed_invariant openSeen DoorInvariant
    (fun _ _ _ _ held plain taken => held.step plain taken) initially plain ran

/-- An executed iteration that takes the door output from unlocked to locked has found no cause for a long time. -/
theorem relock_conditions {fireMachine : Bool} {stimulus : Stimulus} {c next : Controller}
    {seen : List Bool} (held : DoorInvariant c seen) (plain : Plain c (.iterate stimulus))
    (done : iterate fireMachine stimulus c = some next) (unlocked : c.doorPin = true)
    (locked : next.doorPin = false) :
    c.runStopFlag = true ∧ c.sampled.openCause = false ∧ miscSmokeTarget c.extio = false ∧
      List.replicate 101 false <:+ seen ++ [c.sampled.openCause] := by
  rcases iterate_cases done with ⟨_, same⟩ | ⟨running, _⟩
  · -- A halted iteration drives nothing.
    rw [same] at locked
    simp [unlocked] at locked
  · rw [iterate_plain plain running done, (served_sameDoor fireMachine _).doorPin,
      Controller.driveDoor] at locked
    refine ⟨running, ?_⟩
    by_cases open_ : c.sampled.openCause = true
    · -- An open cause leaves the output unlocked.
      rw [if_pos open_, (Controller.openBranch_opened stimulus.stack c.sampled).doorPin] at locked
      have before : c.sampled.doorPin = true := unlocked
      simp [before] at locked
    · have quiet : c.sampled.openCause = false := by simpa using open_
      rw [if_neg open_] at locked
      cases Controller.closeBranch_closed c.sampled with
      | waits lockTime same =>
        -- Waiting leaves the output as it was.
        rw [same] at locked
        have before : c.sampled.doorPin = true := unlocked
        simp [before] at locked
      | locks _ noSmoke elapsed _ =>
        -- The timer has counted a hundred quiet iterations before this one.
        have hundred : 100 ≤ c.lockTime := elapsed
        rw [quiet]
        exact ⟨rfl, noSmoke, streak_snoc (streak_shorten held.counts hundred)⟩

/-- The door is relocked only after 101 iterations without a cause, and output, flag, and alarms agree throughout. -/
theorem relock_safety (fireMachine : Bool) (events : List Event) (c : Controller)
    (plain : EveryStep (controllerStep fireMachine) Plain controllerInit events)
    (ran : run (controllerStep fireMachine) controllerInit events = some c) :
    (∀ stimulus next, Plain c (.iterate stimulus) → iterate fireMachine stimulus c = some next →
      c.doorPin = true → next.doorPin = false →
        c.sampled.openCause = false ∧ miscSmokeTarget c.extio = false ∧
          List.replicate 101 false <:+ openHistory fireMachine (events ++ [.iterate stimulus])) ∧
    c.doorPin = c.doorOpen ∧
    (c.alarmPin = true ∨ c.extio.output ≠ 0 → c.doorOpen = true) := by
  have held := doorInvariant_run plain ran
  refine ⟨?_, held.output, ?_⟩
  -- The iteration that locks the door has ended a streak without a cause.
  · intro stimulus next still done unlocked locked
    obtain ⟨running, quiet, noSmoke, streak⟩ := relock_conditions held still done unlocked locked
    refine ⟨quiet, noSmoke, ?_⟩
    have last : (openSeen c (.iterate stimulus)).toList = [c.sampled.openCause] := by
      simp [openSeen, running]
    rw [openHistory, observations_append ran, observations_singleton, last]
    exact streak
  · -- With the door closed neither alarm can be on.
    intro sounding
    by_contra closed
    obtain ⟨siren, floors⟩ := held.silent (by simpa using closed)
    rcases sounding with on | on
    · simp [siren] at on
    · exact on floors

/-- A door opened by its key stays unlocked for a hundred quiet iterations and is locked by the next. -/
theorem relock_safety_key : ∃ c next,
    run (controllerStep true) controllerInit
      (pressDoorKey ++ .iterate idle :: .replicate 100 (.iterate idle)) = some c ∧
    iterate true idle c = some next ∧ c.doorPin = true ∧ next.doorPin = false ∧
    List.replicate 101 false <:+ openHistory true
      (pressDoorKey ++ .iterate idle :: .replicate 100 (.iterate idle) ++ [.iterate idle]) := by
  -- The run and its last iteration are evaluated, and the theorem explains the history.
  have ends : (run (controllerStep true) controllerInit
      (pressDoorKey ++ .iterate idle :: .replicate 100 (.iterate idle))).any (fun c =>
        decide (Plain c (.iterate idle)) && c.doorPin &&
          (iterate true idle c).any fun next => !next.doorPin) = true := by decide +kernel
  obtain ⟨c, ran, ends⟩ := (Option.any_eq_true _ _).mp ends
  simp only [Bool.and_eq_true, decide_eq_true_eq] at ends
  obtain ⟨⟨still, unlocked⟩, relocked⟩ := ends
  obtain ⟨next, done, locked⟩ := (Option.any_eq_true _ _).mp relocked
  rw [Bool.not_eq_true'] at locked
  have safe := relock_safety true _ c (by decide +kernel) ran
  exact ⟨c, next, ran, done, unlocked, locked, (safe.1 idle next still done unlocked locked).2.2⟩

end PkeFire
