import PkeFire.Extio.Supervision
import PkeFire.Misc.Requests

/-! The path of an emergency from the scans of its line to the door. -/

namespace PkeFire

/-- The sample of the emergency line in an event, which is active while the line is low. -/
def TaskEvent.emergency? : TaskEvent → Option Bool
  | .surround (.scan pins) => some !pins.emergency
  | _ => none

/-- The samples of the emergency line in a run, oldest first. -/
def emergencies (events : List TaskEvent) : List Bool :=
  events.filterMap TaskEvent.emergency?

/-- An event adds its own sample, if it has one. -/
theorem emergencies_snoc (events : List TaskEvent) (event : TaskEvent) :
    emergencies (events ++ [event]) = emergencies events ++ event.emergency?.toList := by
  rw [emergencies, List.filterMap_append, emergencies]
  cases sample : event.emergency? <;> simp [sample]

/-- The event is no shell command that drives an output, and does not start the factory test. -/
def Undriven (t : Task) : TaskEvent → Prop
  | .surround event => event.drivesPin = false
  | .step _ => t.pc = .setPress → t.c.extio.keySta extioSetKey ≠ .press

instance (t : Task) : DecidablePred (Undriven t)
  | .surround event => inferInstanceAs (Decidable (event.drivesPin = false))
  | .step _ => inferInstanceAs (Decidable (t.pc = .setPress → t.c.extio.keySta extioSetKey ≠ .press))

/-- The event is a statement of the task. -/
def isStatement (_ : Task) : TaskEvent → Bool
  | .step _ => true
  | .surround _ => false

/-- The statements of the factory test, and the one that leads to it. -/
def Pc.testing : Pc → Bool
  | .clearSetKey | .factory _ => true
  | _ => false

/-- How many statements an iteration without a factory test still has at most. -/
def Pc.remaining : Pc → Nat
  | .top => 17
  | .sampleKey => 16
  | .sampleEmergency => 15
  | .clearOpenKey => 14
  | .evalOpen => 13
  | .opening | .closing => 12
  | .announce | .lockDoor => 11
  | .publishOpening _ | .clearCauses => 10
  | .clearRequests | .publishClosing => 9
  | .powerdown => 8
  | .smokeReport => 7
  | .saveConfig => 6
  | .setPress => 5
  | .setKeep => 4
  | .openKeep => 3
  | .clearSetKeep => 2
  | .clearOpenKeep => 1
  | .delay | .clearSetKey | .factory _ => 0

/-- The iteration has sampled an emergency, and opens the door for it. -/
def Task.Alarmed (t : Task) : Prop :=
  -- Between its sample and `open`, the emergency is still a variable of its own.
  match t.pc with
  | .top | .sampleKey | .sampleEmergency => False
  | .clearOpenKey | .evalOpen => t.c.emergencyOpen = true
  | _ => t.opens = true

section

variable {fireMachine : Bool} {choice : Choice} {t next : Task} {event : TaskEvent}

/-- The emergency line follows its samples in every run. -/
theorem emergency_follows {events : List TaskEvent} (ran : run (taskEvent fireMachine) taskInit events = some t) :
    t.c.extio.check.Follows extioCheckEmergency (emergencies events) := by
  -- The induction is on the run, along which the counter follows the samples.
  refine history_invariant (fun events t => t.c.extio.check.Follows extioCheckEmergency (emergencies events))
    ?_ (follows_init extioCheckEmergency) ran
  intro seen t event next _ follows taken
  rw [emergencies_snoc]
  cases event with
  | step choice =>
    cases Option.some.inj taken
    -- The task reads the lines without counting them.
    rw [(taskStep_frame fireMachine choice t).1]
    simpa [TaskEvent.emergency?] using follows
  | surround event =>
    cases Option.some.inj taken
    simp only [surround_check]
    cases event with
    | scan pins =>
      -- The emergency line is the second of the two levels.
      exact follows.extioCheck
    | _ => simpa [TaskEvent.emergency?] using follows

/-- Outside of a factory test, the next statement is outside of it as well, unless it has just been asked for. -/
theorem Undriven.untested (undriven : Undriven t event) (untested : t.pc.testing = false)
    (taken : taskEvent fireMachine t event = some next) : next.pc.testing = false := by
  cases event with
  | surround event =>
    cases Option.some.inj taken
    exact untested
  | step choice =>
    cases Option.some.inj taken
    obtain ⟨pc, opens, c⟩ := t
    cases pc with
    | clearSetKey | factory pc => simp [Pc.testing] at untested
    | setPress =>
      -- The set key is what leads to a factory test.
      have unpressed : c.extio.keySta extioSetKey ≠ .press := undriven rfl
      simp only [taskStep, if_neg unpressed]
      rfl
    | closing =>
      -- The door is locked, or left alone.
      simp only [taskStep]
      split
      · split <;> rfl
      · rfl
    | top | evalOpen | opening | setKeep | openKeep =>
      simp only [taskStep]
      split <;> rfl
    | _ => rfl

/-- Without shell commands and factory tests, nothing locks the door output behind the back of the task. -/
theorem Undriven.keepsFlag (undriven : Undriven t event) (untested : t.pc.testing = false) :
    KeepsFlag t event := by
  cases event with
  | surround event =>
    intro locks
    have quiet : event.drivesPin = false := undriven
    -- Among the surrounding events, only a command of the shell locks the door.
    cases event with
    | shell argv => simp [Surrounding.drivesPin] at quiet
    | _ => simp [Surrounding.locks] at locks
  | step choice =>
    intro testing
    simp [testing, Pc.testing] at untested

/-- Every statement but the last brings the end of its iteration closer. -/
theorem remaining_taskStep (fireMachine : Bool) (choice : Choice) (untested : t.pc.testing = false)
    (awake : t.pc ≠ .delay) (begun : t.pc ≠ .top) (undriven : Undriven t (.step choice)) :
    (taskStep fireMachine choice t).pc.remaining < t.pc.remaining := by
  obtain ⟨pc, opens, c⟩ := t
  cases pc with
  | clearSetKey | factory pc => simp [Pc.testing] at untested
  | delay => exact absurd rfl awake
  | top => exact absurd rfl begun
  | setPress =>
    have unpressed : c.extio.keySta extioSetKey ≠ .press := undriven rfl
    simp only [taskStep, if_neg unpressed]
    decide
  | closing =>
    simp only [taskStep]
    split
    · -- Whether the time to lock has come or not, the branch ends soon.
      split <;> simp [Pc.remaining]
    · simp [Pc.remaining]
  | evalOpen | opening | setKeep | openKeep =>
    -- Either branch has fewer statements left than there were before the test.
    simp only [taskStep]
    split <;> simp [Pc.remaining]
  | _ => simp [taskStep, Pc.remaining]

/-- An iteration that has sampled an emergency keeps to it until it ends. -/
theorem Task.Alarmed.step (alarmed : t.Alarmed) (untested : t.pc.testing = false) (undriven : Undriven t event)
    (same : SameIteration t event) (taken : taskEvent fireMachine t event = some next) : next.Alarmed := by
  obtain ⟨pc, opens, c⟩ := t
  cases event with
  | surround event =>
    cases Option.some.inj taken
    -- A scan may end the emergency, but not the one that has been sampled.
    have kept := (surround_frame fireMachine event c).2.2.2.2.2.2.2
    cases pc with
    | clearOpenKey | evalOpen => exact kept.trans alarmed
    | _ => exact alarmed
  | step choice =>
    cases Option.some.inj taken
    cases pc with
    | top | sampleKey | sampleEmergency => exact alarmed.elim
    | delay => exact absurd rfl same
    | clearSetKey | factory pc => simp [Pc.testing] at untested
    | evalOpen =>
      -- The sampled emergency is one of the causes.
      have sampled : c.emergencyOpen = true := alarmed
      have active : c.openCause = true := by simp [Controller.openCause, sampled]
      simp only [taskStep, active]
      exact rfl
    | closing =>
      simp only [taskStep]
      split
      · split <;> exact alarmed
      · exact alarmed
    | setPress =>
      have unpressed : c.extio.keySta extioSetKey ≠ .press := undriven rfl
      simp only [taskStep, if_neg unpressed]
      exact alarmed
    | opening | setKeep | openKeep =>
      simp only [taskStep]
      split <;> exact alarmed
    | _ => exact alarmed

/-- A run without shell commands and factory tests stays fail-safe, and outside of the test. -/
theorem undriven_run {start : Task} {events : List TaskEvent} (safe : FailSafe start)
    (untested : start.pc.testing = false) (undriven : EveryStep (taskEvent fireMachine) Undriven start events)
    (ran : run (taskEvent fireMachine) start events = some t) : FailSafe t ∧ t.pc.testing = false := by
  refine run_invariant (fun t => FailSafe t ∧ t.pc.testing = false) ?_ ⟨safe, untested⟩ undriven ran
  intro t event next held permitted taken
  exact ⟨held.1.step (permitted.keepsFlag held.2) taken, permitted.untested held.2 taken⟩

/-- From its sample of an emergency on, an iteration keeps to it and approaches its end. -/
theorem alarmed_run {start finish : Task} {rest : List TaskEvent} (alarmed : start.Alarmed)
    (untested : start.pc.testing = false)
    (within : EveryStep (taskEvent fireMachine) (fun t event => Undriven t event ∧ SameIteration t event) start rest)
    (ran : run (taskEvent fireMachine) start rest = some finish) :
    finish.Alarmed ∧
      occurrences (taskEvent fireMachine) isStatement start rest + finish.pc.remaining ≤ start.pc.remaining := by
  -- The statements made and those still to come never exceed those at the start.
  let invariant : Nat → Task → Prop := fun count t =>
    t.Alarmed ∧ t.pc.testing = false ∧ count + t.pc.remaining ≤ start.pc.remaining
  have held : invariant (occurrences (taskEvent fireMachine) isStatement start rest) finish := by
    refine counted_invariant invariant ?_ ⟨alarmed, untested, by omega⟩ within ran
    rintro count t event next ⟨alarmed, untested, bound⟩ ⟨undriven, same⟩ taken
    refine ⟨alarmed.step untested undriven same taken, undriven.untested untested taken, ?_⟩
    cases event with
    | surround event =>
      cases Option.some.inj taken
      exact bound
    | step choice =>
      -- The loop has been entered, so it is not its head that comes next.
      have begun : t.pc ≠ .top := by
        intro head
        simp [Task.Alarmed, head] at alarmed
      have closer := remaining_taskStep fireMachine choice untested same begun undriven
      cases Option.some.inj taken
      simp only [isStatement, if_true]
      omega
  exact ⟨held.1, held.2.2⟩

end

/--
The emergency line is active exactly while its last eleven samples have been, and then every iteration that samples
it ends within fourteen more statements, with the door open and unlocked.
-/
theorem emergency_unlocks (fireMachine : Bool) (events : List TaskEvent) (t : Task)
    (undriven : EveryStep (taskEvent fireMachine) Undriven taskInit events)
    (ran : run (taskEvent fireMachine) taskInit events = some t) :
    (t.c.extio.isCheck extioCheckEmergency = true ↔ List.replicate 11 true <:+ emergencies events) ∧
    (t.pc = .sampleEmergency → List.replicate 11 true <:+ emergencies events → ∀ choice rest finish,
      EveryStep (taskEvent fireMachine) (fun t event => Undriven t event ∧ SameIteration t event)
        (taskStep fireMachine choice t) rest →
      run (taskEvent fireMachine) (taskStep fireMachine choice t) rest = some finish →
        occurrences (taskEvent fireMachine) isStatement (taskStep fireMachine choice t) rest ≤ 14 ∧
          (finish.pc = .delay → finish.c.doorOpen = true ∧ finish.c.doorPin = true)) := by
  have active : t.c.extio.isCheck extioCheckEmergency = true ↔ List.replicate 11 true <:+ emergencies events :=
    (emergency_follows ran).active_iff
  refine ⟨active, ?_⟩
  intro samples streak choice rest finish within continued
  have held := undriven_run failSafe_init rfl undriven ran
  -- The statement samples the flag that the scans have raised.
  have sampled : taskStep fireMachine choice t = { t with pc := .clearOpenKey, c := t.c.sampleEmergency } := by
    simp only [taskStep, samples]
  -- From this statement on, the emergency is a cause.
  have alarmed : (taskStep fireMachine choice t).Alarmed := by
    rw [sampled]
    exact active.mpr streak
  have untested : (taskStep fireMachine choice t).pc.testing = false := by
    rw [sampled]
    rfl
  have permitted : Undriven t (.step choice) := by
    intro pressed
    simp [samples] at pressed
  have safe : FailSafe (taskStep fireMachine choice t) := held.1.taskStep (permitted.keepsFlag held.2)
  have ends := undriven_run safe untested (within.mono fun _ _ both => both.1) continued
  obtain ⟨later, bound⟩ := alarmed_run alarmed untested within continued
  -- Fourteen statements lead from here to the end of the iteration.
  have whole : (taskStep fireMachine choice t).pc.remaining = 14 := by
    rw [sampled]
    rfl
  refine ⟨by omega, ?_⟩
  -- At the end of the iteration, its value of `open` has been acted on.
  intro ended
  rw [Task.Alarmed, ended] at later
  have isOpen : finish.c.doorOpen = true := ends.1.acted (by rw [ended]; rfl) later
  exact ⟨isOpen, ends.1.unlocked isOpen⟩

/-- After eleven active scans, the first iteration unlocks the door within eleven more statements. -/
theorem emergency_unlocks_first : ∃ t finish,
    run (taskEvent true) taskInit (scans 11 emergencyPins ++ statements 2) = some t ∧
      run (taskEvent true) (taskStep true plainChoice t) (statements 11) = some finish ∧
      finish.pc = .delay ∧ finish.c.doorPin = true := by
  have course : ((run (taskEvent true) taskInit (scans 11 emergencyPins ++ statements 2)).any fun t =>
      decide (t.pc = .sampleEmergency) &&
        decide (EveryStep (taskEvent true) (fun t event => Undriven t event ∧ SameIteration t event)
          (taskStep true plainChoice t) (statements 11)) &&
        (run (taskEvent true) (taskStep true plainChoice t) (statements 11)).any fun finish =>
          decide (finish.pc = .delay)) = true := by decide +kernel
  obtain ⟨t, ran, course⟩ := (Option.any_eq_true _ _).mp course
  simp only [Bool.and_eq_true, decide_eq_true_eq] at course
  obtain ⟨⟨samples, within⟩, ended⟩ := course
  obtain ⟨finish, continued, ended⟩ := (Option.any_eq_true _ _).mp ended
  have delayed : finish.pc = .delay := of_decide_eq_true ended
  have streak : List.replicate 11 true <:+ emergencies (scans 11 emergencyPins ++ statements 2) := by
    decide +kernel
  have unlocks :=
    (emergency_unlocks true _ t (by decide +kernel) ran).2 samples streak plainChoice _ finish within continued
  exact ⟨t, finish, ran, continued, delayed, (unlocks.2 delayed).2⟩

end PkeFire
