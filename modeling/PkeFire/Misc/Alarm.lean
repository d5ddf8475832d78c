import PkeFire.Misc.Emergency

/-! Which openings sound the alarms, and why later causes of the same opening are not heard. -/

namespace PkeFire

/-- A cause that ought to sound the alarms is active. -/
def alarmDue (c : Controller) : Bool :=
  c.emergencyOpen || c.smokeOpen != 0 || c.fireMachineOpen

/-- Both the main alarm and every floor alarm are on. -/
def AlarmsSound (c : Controller) : Prop :=
  c.alarmPin = true ∧ c.extio.output = 0xff

/--
A run without shell commands and factory tests, cut where an iteration evaluates `open` and where the iteration ends.

The other threads may act anywhere, also between the evaluation and the end.
-/
structure Evaluated (fireMachine : Bool) (events : List TaskEvent) (choice : Choice) (rest : List TaskEvent)
    (t finish : Task) : Prop where
  undriven : EveryStep (taskEvent fireMachine) Undriven taskInit events
  ran : run (taskEvent fireMachine) taskInit events = some t
  evaluates : t.pc = .evalOpen
  within : EveryStep (taskEvent fireMachine) (fun t event => Undriven t event ∧ SameIteration t event)
    (taskStep fireMachine choice t) rest
  continued : run (taskEvent fireMachine) (taskStep fireMachine choice t) rest = some finish
  ended : finish.pc = .delay

/-- Every iteration that evaluates `open` while an alarm is due ends with all alarms on. -/
def AlarmComplete (fireMachine : Bool) : Prop :=
  ∀ events choice rest t finish, Evaluated fireMachine events choice rest t finish →
    alarmDue t.c = true → AlarmsSound finish.c

/-- The leading cause that the message of an opening is given, which is the one whose branch is taken. -/
def openingSeen (t : Task) : TaskEvent → Option (Option Cause)
  -- Every cause may be gone by now, although `open` was one.
  | .step _ => if t.pc = .announce then some t.c.leadingCause else none
  | .surround _ => none

/-- The leading causes of the openings in a run from the start, oldest first. -/
def openings (fireMachine : Bool) (events : List TaskEvent) : List (Option Cause) :=
  observations (taskEvent fireMachine) openingSeen taskInit events

/-- The latest opening has found a cause that sounds the alarms. -/
def heard (seen : List (Option Cause)) : Bool :=
  seen.getLast?.any fun leading => leading.any Cause.sounds

/-- An open door sounds its alarms exactly when its announced opening did, and a closed one is silent. -/
def SirenInvariant (t : Task) (seen : List (Option Cause)) : Prop :=
  (t.c.alarmPin, t.c.extio.output) =
    if t.c.doorOpen && t.pc != .announce && heard seen then (true, 0xff) else (false, 0)

/-- The statements that begin or announce an opening, end one, or test the alarms. -/
def Pc.drivesAlarms : Pc → Bool
  | .opening | .announce | .lockDoor | .clearSetKey | .factory _ => true
  | _ => false

section

variable {fireMachine : Bool} {choice : Choice} {t next : Task} {seen : List (Option Cause)} {event : TaskEvent}

/-- The other statements leave the alarms alone, and do not lead to an announcement. -/
theorem taskStep_keepsAlarms (fireMachine : Bool) (choice : Choice) (still : t.pc.drivesAlarms = false) :
    (taskStep fireMachine choice t).c.alarmPin = t.c.alarmPin ∧
      (taskStep fireMachine choice t).c.extio.output = t.c.extio.output ∧
      (taskStep fireMachine choice t).pc ≠ .announce := by
  obtain ⟨pc, opens, c⟩ := t
  cases pc with
  | opening | announce | lockDoor | clearSetKey | factory pc => simp [Pc.drivesAlarms] at still
  | closing =>
    -- Counting the quiet time drives nothing yet.
    simp only [taskStep, Controller.countQuiet]
    split <;> [(split <;> split); skip] <;> simp
  | powerdown =>
    have reported := reportPowerdown_supervised c
    exact ⟨reported.alarmPin, congrArg Extio.output reported.extio, by simp [taskStep]⟩
  | smokeReport =>
    have reported := miscSmokeReport_supervised c
    cases fireMachine with
    | true => exact ⟨reported.alarmPin, congrArg Extio.output reported.extio, by simp [taskStep]⟩
    | false => exact ⟨rfl, rfl, by simp [taskStep]⟩
  | saveConfig =>
    have saved := tickSave_supervised c
    exact ⟨saved.alarmPin, congrArg Extio.output saved.extio, by simp [taskStep]⟩
  | top | evalOpen | setPress | setKeep | openKeep =>
    -- The tests of the loop lead elsewhere, whatever they find.
    simp only [taskStep]
    split <;> simp
  | _ => exact ⟨rfl, rfl, by simp [taskStep]⟩

/-- Every statement outside of the factory test keeps the siren invariant. -/
theorem SirenInvariant.taskStep (held : SirenInvariant t seen) (safe : FailSafe t)
    (untested : t.pc.testing = false) :
    SirenInvariant (taskStep fireMachine choice t) (seen ++ (openingSeen t (.step choice)).toList) := by
  by_cases drives : t.pc.drivesAlarms = true
  · obtain ⟨pc, opens, c⟩ := t
    cases pc with
    | opening =>
      by_cases already : c.doorOpen = true
      · -- A door that is open goes on sounding as it did.
        simpa [SirenInvariant, PkeFire.taskStep, openingSeen, already, Controller.restartLock] using held
      · -- A closed door was silent, and stays so until its opening is announced.
        have closed : c.doorOpen = false := by simpa using already
        simpa [SirenInvariant, PkeFire.taskStep, openingSeen, closed, Controller.restartLock, Controller.unlockDoor,
          extioDoorOpen] using held
    | announce =>
      -- The alarms were off, and the leading cause decides about them.
      have isOpen : c.doorOpen = true := safe.acted rfl (safe.opening rfl)
      have silent : (c.alarmPin, c.extio.output) = (false, 0) := by simpa [SirenInvariant] using held
      obtain ⟨floor, described⟩ := Controller.describeOpening_frame choice.stack c
      have latest : heard (seen ++ [c.leadingCause]) = c.leadingCause.any Cause.sounds := by simp [heard]
      simp only [SirenInvariant, PkeFire.taskStep, openingSeen, described, if_true, Option.toList_some, latest]
      by_cases sounds : c.leadingCause.any Cause.sounds = true
      · simp [sounds, isOpen, Controller.soundAlarms, extioMainAlarm, Extio.setAllAlarm]
      · simpa [sounds] using silent
    | lockDoor =>
      -- A closed door is silent, whatever its opening did.
      simp [SirenInvariant, PkeFire.taskStep, Controller.lockDoor, extioDoorOpen, extioMainAlarm, Extio.clrAllAlarm]
    | clearSetKey | factory pc => simp [Pc.testing] at untested
    | _ => simp [Pc.drivesAlarms] at drives
  · have still : t.pc.drivesAlarms = false := by simpa using drives
    obtain ⟨siren, output, elsewhere⟩ := taskStep_keepsAlarms fireMachine choice still
    -- What does not drive the alarms does not drive the door either, nor does it announce an opening.
    have door : (PkeFire.taskStep fireMachine choice t).c.doorOpen = t.c.doorOpen := by
      refine (taskStep_keepsDoor fireMachine choice ?_).1
      cases pc : t.pc <;> simp_all [Pc.drivesAlarms, Pc.drivesDoor]
    have here : t.pc ≠ .announce := by
      intro announces
      simp [announces, Pc.drivesAlarms] at still
    rw [SirenInvariant, siren, output, door, openingSeen, if_neg here, Option.toList_none, List.append_nil]
    simpa [SirenInvariant, here, elsewhere] using held

/-- Every event of a run without shell commands and factory tests keeps the siren invariant. -/
theorem SirenInvariant.step (held : SirenInvariant t seen) (safe : FailSafe t) (untested : t.pc.testing = false)
    (taken : taskEvent fireMachine t event = some next) :
    SirenInvariant next (seen ++ (openingSeen t event).toList) := by
  cases event with
  | surround event =>
    -- Other threads open nothing and sound nothing.
    cases Option.some.inj taken
    obtain ⟨door, _, _, _, siren, output, _⟩ := surround_frame fireMachine event t.c
    simpa [SirenInvariant, openingSeen, door, siren, output] using held
  | step choice =>
    cases Option.some.inj taken
    exact held.taskStep safe untested

/-- Every run without shell commands and factory tests establishes the siren invariant for its own openings. -/
theorem sirenInvariant_run {events : List TaskEvent}
    (undriven : EveryStep (taskEvent fireMachine) Undriven taskInit events)
    (ran : run (taskEvent fireMachine) taskInit events = some t) :
    SirenInvariant t (openings fireMachine events) := by
  have initially : FailSafe taskInit ∧ taskInit.pc.testing = false ∧ SirenInvariant taskInit [] :=
    ⟨failSafe_init, rfl, rfl⟩
  -- Flag and output stay fail-safe, so that an announced opening has an open door.
  have held : FailSafe t ∧ t.pc.testing = false ∧ SirenInvariant t ([] ++ openings fireMachine events) := by
    refine observed_invariant openingSeen
      (fun t seen => FailSafe t ∧ t.pc.testing = false ∧ SirenInvariant t seen) ?_ initially undriven ran
    rintro t event next seen ⟨safe, untested, held⟩ permitted taken
    exact ⟨safe.step (permitted.keepsFlag untested) taken, permitted.untested untested taken,
      held.step safe untested taken⟩
  exact held.2.2

end

section

variable {fireMachine : Bool} {events rest : List TaskEvent} {choice : Choice} {t finish : Task}

/-- Both parts of the run are one run, without shell commands and factory tests throughout. -/
theorem Evaluated.whole (evaluated : Evaluated fireMachine events choice rest t finish) :
    EveryStep (taskEvent fireMachine) Undriven taskInit (events ++ .step choice :: rest) ∧
      run (taskEvent fireMachine) taskInit (events ++ .step choice :: rest) = some finish := by
  have taken : taskEvent fireMachine t (.step choice) = some (taskStep fireMachine choice t) := rfl
  constructor
  · refine everyStep_append.mpr ⟨evaluated.undriven, fun middle ran => ?_⟩
    cases Option.some.inj (evaluated.ran.symm.trans ran)
    -- The statement that evaluates `open` is not the one that tests the set key.
    refine (everyStep_cons taken).mpr ⟨fun presses => ?_, evaluated.within.mono fun _ _ both => both.1⟩
    simp [evaluated.evaluates] at presses
  · exact run_append_some.mpr ⟨t, evaluated.ran, evaluated.continued⟩

/-- An iteration that evaluates `open` to one ends with the door open. -/
theorem Evaluated.isOpen (evaluated : Evaluated fireMachine events choice rest t finish)
    (active : t.c.openCause = true) : finish.c.doorOpen = true := by
  obtain ⟨undriven, ran⟩ := evaluated.whole
  have safe := (undriven_run failSafe_init rfl undriven ran).1
  -- The rest of the iteration keeps to the value, which the opening branch acts on first.
  have kept : (finish.pc = .opening ∨ finish.pc.acted = true) ∧ finish.opens = true := by
    refine run_invariant (fun t => (t.pc = .opening ∨ t.pc.acted = true) ∧ t.opens = true) ?_ ?_
      evaluated.within evaluated.continued
    · rintro t event next ⟨place, opens⟩ ⟨_, same⟩ taken
      cases event with
      | surround event =>
        cases Option.some.inj taken
        exact ⟨place, opens⟩
      | step choice =>
        cases Option.some.inj taken
        rcases place with begins | acted
        · -- Either the branch is skipped, or it goes on to the announcement.
          simp only [taskStep, begins]
          split <;> exact ⟨Or.inr rfl, opens⟩
        · obtain ⟨later, _, _, unchanged⟩ := taskStep_acted fireMachine choice acted same
          exact ⟨Or.inr later, unchanged.trans opens⟩
    · simp [taskStep, evaluated.evaluates, active]
  exact safe.acted (by rw [evaluated.ended]; rfl) kept.2

end

/--
After an iteration with an alarm due, the alarms are on exactly when the latest opening has found a cause that sounds
them, at the moment at which it looked for its cause.
-/
theorem alarmsSound_iff_latest_opening {fireMachine : Bool} {events rest : List TaskEvent} {choice : Choice}
    {t finish : Task} (evaluated : Evaluated fireMachine events choice rest t finish) (due : alarmDue t.c = true) :
    AlarmsSound finish.c ↔ ∃ cause,
      (openings fireMachine (events ++ .step choice :: rest)).getLast? = some (some cause) ∧
        cause.sounds = true := by
  obtain ⟨undriven, ran⟩ := evaluated.whole
  have held := sirenInvariant_run undriven ran
  -- The three causes that ought to sound are among the five that open.
  have active : t.c.openCause = true := by
    simp only [alarmDue, Bool.or_eq_true] at due
    simp only [Controller.openCause, Bool.or_eq_true]
    tauto
  have elsewhere : (finish.pc != .announce) = true := by
    rw [evaluated.ended]
    rfl
  rw [SirenInvariant, evaluated.isOpen active, elsewhere, Bool.true_and, Bool.true_and] at held
  have pair : AlarmsSound finish.c ↔ (finish.c.alarmPin, finish.c.extio.output) = (true, 0xff) := by
    rw [AlarmsSound, Prod.mk.injEq]
  -- Both sides say that the latest opening is heard.
  have latest : heard (openings fireMachine (events ++ .step choice :: rest)) = true ↔ ∃ cause,
      (openings fireMachine (events ++ .step choice :: rest)).getLast? = some (some cause) ∧
        cause.sounds = true := by
    simp [heard, Option.any_eq_true]
  rw [pair, held, ← latest]
  split <;> rename_i sounds <;> simp [sounds]

/-- An emergency sounds all alarms, although a message asks for the door while its opening begins. -/
theorem alarmsSound_emergency : ∃ t finish,
    run (taskEvent true) taskInit (scans 11 emergencyPins ++ statements 4) = some t ∧
      run (taskEvent true) (taskStep true plainChoice t) (.surround (.door 1) :: statements 9) = some finish ∧
      finish.pc = .delay ∧ AlarmsSound finish.c := by
  have ends : (run (taskEvent true) taskInit (scans 11 emergencyPins ++ statements 4)).any (fun t =>
      decide (t.pc = .evalOpen) && alarmDue t.c &&
        decide (EveryStep (taskEvent true) (fun t event => Undriven t event ∧ SameIteration t event)
          (taskStep true plainChoice t) (.surround (.door 1) :: statements 9)) &&
        (run (taskEvent true) (taskStep true plainChoice t) (.surround (.door 1) :: statements 9)).any
          fun finish => decide (finish.pc = .delay)) = true := by decide +kernel
  obtain ⟨t, ran, ends⟩ := (Option.any_eq_true _ _).mp ends
  simp only [Bool.and_eq_true, decide_eq_true_eq] at ends
  obtain ⟨⟨⟨evaluates, due⟩, within⟩, finishes⟩ := ends
  obtain ⟨finish, continued, ended⟩ := (Option.any_eq_true _ _).mp finishes
  have delayed : finish.pc = .delay := of_decide_eq_true ended
  have sounds := (alarmsSound_iff_latest_opening
    ⟨by decide +kernel, ran, evaluates, within, continued, delayed⟩ due).mpr ⟨.emergency, by decide +kernel, rfl⟩
  exact ⟨t, finish, ran, continued, delayed, sounds⟩

/-- A press of the door key that ends during an emergency takes the opening, and no alarm sounds. -/
theorem alarmComplete_fails : ¬ AlarmComplete true := by
  intro complete
  -- The key is released in the last eleven scans before the iteration.
  let events := scans 11 { emergencyPins with doorKey := false } ++ scans 11 emergencyPins ++ statements 4
  have silent : (run (taskEvent true) taskInit events).any (fun t =>
      decide (t.pc = .evalOpen) && alarmDue t.c &&
        decide (EveryStep (taskEvent true) (fun t event => Undriven t event ∧ SameIteration t event)
          (taskStep true plainChoice t) (statements 9)) &&
        (run (taskEvent true) (taskStep true plainChoice t) (statements 9)).any
          fun finish => decide (finish.pc = .delay) && !finish.c.alarmPin) = true := by decide +kernel
  obtain ⟨t, ran, silent⟩ := (Option.any_eq_true _ _).mp silent
  simp only [Bool.and_eq_true, decide_eq_true_eq] at silent
  obtain ⟨⟨⟨evaluates, due⟩, within⟩, quiet⟩ := silent
  obtain ⟨finish, continued, quiet⟩ := (Option.any_eq_true _ _).mp quiet
  simp only [Bool.and_eq_true, decide_eq_true_eq, Bool.not_eq_true'] at quiet
  obtain ⟨ended, off⟩ := quiet
  have sounds := complete events plainChoice (statements 9) t finish
    ⟨by decide +kernel, ran, evaluates, within, continued, ended⟩ due
  simp [sounds.1] at off

end PkeFire
