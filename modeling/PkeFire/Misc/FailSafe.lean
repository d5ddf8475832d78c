import PkeFire.Misc.Interleaving

/-! Whether the door output is unlocked after every iteration that found a cause. -/

namespace PkeFire

/-- The shell command that locks the door output. -/
def Surrounding.locks : Surrounding → Bool
  | .shell [_, arg] => arg = "close"
  | _ => false

/-- Neither the shell nor the factory test locks the output of a door that the task takes to be open. -/
def KeepsFlag (t : Task) : TaskEvent → Prop
  | .surround event => event.locks = true → t.c.doorOpen = false
  | .step _ => t.pc = .factory .doorLock → t.c.doorOpen = false

instance (t : Task) : DecidablePred (KeepsFlag t)
  | .surround event => inferInstanceAs (Decidable (event.locks = true → t.c.doorOpen = false))
  | .step _ => inferInstanceAs (Decidable (t.pc = .factory .doorLock → t.c.doorOpen = false))

/-- Every iteration that evaluated `open` to one ends with the door output unlocked. -/
def UnlockedWhileOpen (fireMachine : Bool) : Prop :=
  ∀ events t, run (taskEvent fireMachine) taskInit events = some t →
    t.pc = .delay → t.opens = true → t.c.doorPin = true

/-- The statements of the opening branch, which is taken only when `open` is one. -/
def Pc.inOpening : Pc → Bool
  | .opening | .announce | .publishOpening _ | .clearRequests => true
  | _ => false

/-- The statements of the closing branch, which is taken only when `open` is zero. -/
def Pc.inClosing : Pc → Bool
  | .closing | .lockDoor | .clearCauses | .publishClosing => true
  | _ => false

/-- The statements from the first write of the opening branch to the end of the iteration. -/
def Pc.acted : Pc → Bool
  | .top | .sampleKey | .sampleEmergency | .clearOpenKey | .evalOpen | .opening => false
  | pc => !pc.inClosing

/-- The statements that may drive the door output or write the flag `door_open`. -/
def Pc.drivesDoor : Pc → Bool
  | .opening | .lockDoor | .factory .doorUnlock | .factory .doorLock => true
  | _ => false

/-- The flag is never set over a locked output, each branch has its value of `open`, and an acted one sets the flag. -/
structure FailSafe (t : Task) : Prop where
  unlocked : t.c.doorOpen = true → t.c.doorPin = true
  opening : t.pc.inOpening = true → t.opens = true
  closing : t.pc.inClosing = true → t.opens = false
  acted : t.pc.acted = true → t.opens = true → t.c.doorOpen = true

/-- Only the shell command that locks the door can take its output from unlocked to locked between statements. -/
theorem surround_unlocked {fireMachine : Bool} {event : Surrounding} {c : Controller}
    (unlocked : c.doorPin = true) (harmless : event.locks = false) :
    (surround fireMachine event c).doorPin = true := by
  -- Scans and messages do not drive the outputs.
  cases event with
  | shell argv =>
    -- With the locking argument excluded, the command unlocks the door or does nothing.
    simp only [surround, miscDoorOpen]
    split
    · rename_i arg
      have other : arg ≠ "close" := by simpa [Surrounding.locks] using harmless
      rw [if_neg other]
      split
      · rfl
      · exact unlocked
    · exact unlocked
  | _ => exact unlocked

/-- The statements of the factory test other than the two that drive the door leave it alone. -/
theorem factoryStep_keepsDoor (fileOk : Bool) {pc : FactoryPc} (c : Controller)
    (still : (Pc.factory pc).drivesDoor = false) :
    (factoryStep fileOk pc c).2.doorOpen = c.doorOpen ∧ (factoryStep fileOk pc c).2.doorPin = c.doorPin := by
  cases pc with
  | doorUnlock => simp [Pc.drivesDoor] at still
  | doorLock => simp [Pc.drivesDoor] at still
  | awaitLine num =>
    -- Waiting and going on differ in the program counter only.
    rw [factoryStep]
    split <;> exact ⟨rfl, rfl⟩
  | _ => exact ⟨rfl, rfl⟩

/-- A statement that does not drive the door leaves its flag and its output alone. -/
theorem taskStep_keepsDoor (fireMachine : Bool) (choice : Choice) {t : Task} (still : t.pc.drivesDoor = false) :
    (taskStep fireMachine choice t).c.doorOpen = t.c.doorOpen ∧
      (taskStep fireMachine choice t).c.doorPin = t.c.doorPin := by
  obtain ⟨pc, opens, c⟩ := t
  cases pc with
  | opening => simp [Pc.drivesDoor] at still
  | lockDoor => simp [Pc.drivesDoor] at still
  | announce =>
    -- The message and the alarms are all that an announcement writes.
    obtain ⟨floor, described⟩ := Controller.describeOpening_frame choice.stack c
    simp only [taskStep, described]
    split <;> exact ⟨rfl, rfl⟩
  | closing =>
    -- Counting the time and choosing the next statement write no output.
    simp only [taskStep, Controller.countQuiet]
    split <;> [split; skip] <;> exact ⟨rfl, rfl⟩
  | powerdown => exact ⟨(reportPowerdown_supervised c).doorOpen, (reportPowerdown_supervised c).doorPin⟩
  | smokeReport =>
    have reported := miscSmokeReport_supervised c
    cases fireMachine with
    | true => exact ⟨reported.doorOpen, reported.doorPin⟩
    | false => exact ⟨rfl, rfl⟩
  | saveConfig => exact ⟨(tickSave_supervised c).doorOpen, (tickSave_supervised c).doorPin⟩
  | factory pc =>
    -- Of the factory test, only two statements drive the door, and these are excluded.
    by_cases returned : pc = .returned
    · subst returned
      exact ⟨rfl, rfl⟩
    · rw [taskStep_factory choice opens c returned]
      exact factoryStep_keepsDoor choice.fileOk c still
  | _ => exact ⟨rfl, rfl⟩

/-- A statement outside both branches continues with statements of the same kind. -/
theorem taskStep_acted (fireMachine : Bool) (choice : Choice) {t : Task} (acted : t.pc.acted = true)
    (awake : t.pc ≠ .delay) :
    (taskStep fireMachine choice t).pc.acted = true ∧ (taskStep fireMachine choice t).pc.inClosing = false ∧
      ((taskStep fireMachine choice t).pc.inOpening = true → t.pc.inOpening = true) ∧
      (taskStep fireMachine choice t).opens = t.opens := by
  obtain ⟨pc, opens, c⟩ := t
  cases pc with
  | factory pc =>
    by_cases returned : pc = .returned
    · subst returned
      exact ⟨rfl, rfl, fun opening => opening, rfl⟩
    · rw [taskStep_factory choice opens c returned]
      exact ⟨rfl, rfl, fun opening => opening, rfl⟩
  | setPress | setKeep | openKeep =>
    -- Either outcome of the test belongs to the rest of the iteration.
    refine ⟨?_, ?_, ?_, rfl⟩ <;> simp only [taskStep] <;> split <;> simp [Pc.acted, Pc.inClosing, Pc.inOpening]
  | delay => exact absurd rfl awake
  | top | sampleKey | sampleEmergency | clearOpenKey | evalOpen | opening | closing | lockDoor | clearCauses
    | publishClosing => simp [Pc.acted, Pc.inClosing] at acted
  | _ => exact ⟨rfl, rfl, by simp [taskStep, Pc.inOpening], rfl⟩

/-- Every statement keeps flag and output fail-safe, unless the factory test locks an open door. -/
theorem FailSafe.taskStep {fireMachine : Bool} {choice : Choice} {t : Task} (held : FailSafe t)
    (kept : KeepsFlag t (.step choice)) : FailSafe (taskStep fireMachine choice t) := by
  -- Once `open` has been acted on, the rest of the iteration has to keep what has been achieved.
  by_cases acted : t.pc.acted = true ∧ t.pc ≠ .delay
  · obtain ⟨later, outside, inside, same⟩ := taskStep_acted fireMachine choice acted.1 acted.2
    by_cases drives : t.pc.drivesDoor = true
    · -- Of these statements, only the factory test drives the door, and it leaves the flag alone.
      obtain ⟨pc, opens, c⟩ := t
      cases pc with
      | factory pc =>
        cases pc with
        | doorUnlock =>
          exact ⟨fun _ => rfl, fun opening => held.opening (inside opening),
            fun closing => by simp [closing] at outside, fun _ => held.acted rfl⟩
        | doorLock =>
          -- The test may lock a door that is closed for the task as well.
          have closed : c.doorOpen = false := kept rfl
          refine ⟨fun isOpen => ?_, fun opening => held.opening (inside opening),
            fun closing => by simp [closing] at outside, fun _ => held.acted rfl⟩
          have still : c.doorOpen = true := isOpen
          simp [closed] at still
        | _ => simp [Pc.drivesDoor] at drives
      | opening => simp [Pc.acted] at acted
      | lockDoor => simp [Pc.acted, Pc.inClosing] at acted
      | _ => simp [Pc.drivesDoor] at drives
    · obtain ⟨flag, output⟩ := taskStep_keepsDoor fireMachine choice (by simpa using drives)
      refine ⟨?_, ?_, ?_, ?_⟩
      · rw [flag, output]
        exact held.unlocked
      · intro opening
        rw [same]
        exact held.opening (inside opening)
      · intro closing
        simp [closing] at outside
      · rw [same, flag]
        exact fun _ => held.acted acted.1
  · obtain ⟨pc, opens, c⟩ := t
    cases pc with
    | evalOpen =>
      -- The branch is chosen by the value just computed.
      by_cases active : c.openCause = true
      · refine ⟨held.unlocked, ?_, ?_, ?_⟩ <;> simp [PkeFire.taskStep, active, Pc.inClosing, Pc.acted]
      · refine ⟨held.unlocked, ?_, ?_, ?_⟩ <;>
          simp [PkeFire.taskStep, active, Pc.acted, Pc.inOpening, Pc.inClosing]
    | opening =>
      -- A door that is open already is unlocked, and another one is unlocked now.
      have active : opens = true := held.opening rfl
      by_cases already : c.doorOpen = true
      · have unlocked : c.doorPin = true := held.unlocked already
        refine ⟨?_, ?_, ?_, ?_⟩ <;>
          simp [PkeFire.taskStep, already, unlocked, active, Pc.inClosing, Controller.restartLock]
      · refine ⟨?_, ?_, ?_, ?_⟩ <;>
          simp [PkeFire.taskStep, already, active, Pc.inClosing, Controller.unlockDoor, extioDoorOpen]
    | closing =>
      have none : opens = false := held.closing rfl
      obtain ⟨flag, output⟩ := taskStep_keepsDoor fireMachine choice (t := ⟨.closing, opens, c⟩) rfl
      -- The closing branch is entered without a cause, and does not write `open`.
      have same : (PkeFire.taskStep fireMachine choice ⟨.closing, opens, c⟩).opens = false := by
        simp only [PkeFire.taskStep]
        split <;> exact none
      have outside : (PkeFire.taskStep fireMachine choice ⟨.closing, opens, c⟩).pc.inOpening = false := by
        simp only [PkeFire.taskStep]
        split <;> [split; skip] <;> rfl
      refine ⟨?_, fun opening => by simp [outside] at opening, fun _ => same,
        fun _ active => by simp [same] at active⟩
      rw [flag, output]
      exact held.unlocked
    | lockDoor =>
      have none : opens = false := held.closing rfl
      -- The flag is cleared together with the output.
      exact ⟨fun isOpen => by simp [PkeFire.taskStep, Controller.lockDoor] at isOpen,
        fun opening => by simp [PkeFire.taskStep, Pc.inOpening] at opening, fun _ => none,
        fun _ active => by simp [PkeFire.taskStep, none] at active⟩
    | clearCauses | publishClosing =>
      have none : opens = false := held.closing rfl
      exact ⟨held.unlocked, fun opening => by simp [PkeFire.taskStep, Pc.inOpening] at opening,
        fun _ => none, fun _ active => by simp [PkeFire.taskStep, none] at active⟩
    | top =>
      refine ⟨held.unlocked, ?_, ?_, ?_⟩ <;> simp only [PkeFire.taskStep] <;> split <;>
        simp [Pc.inOpening, Pc.inClosing, Pc.acted]
    | sampleKey | sampleEmergency | clearOpenKey | delay =>
      refine ⟨held.unlocked, ?_, ?_, ?_⟩ <;> simp [PkeFire.taskStep, Pc.inOpening, Pc.inClosing, Pc.acted]
    | _ => simp [Pc.acted, Pc.inClosing] at acted

/-- Every permitted event keeps flag and output fail-safe. -/
theorem FailSafe.step {fireMachine : Bool} {t next : Task} {event : TaskEvent} (held : FailSafe t)
    (kept : KeepsFlag t event) (taken : taskEvent fireMachine t event = some next) : FailSafe next := by
  cases event with
  | surround event =>
    cases Option.some.inj taken
    have flag := (surround_frame fireMachine event t.c).1
    refine ⟨fun isOpen => ?_, held.opening, held.closing, ?_⟩
    · -- The output of an open door is locked by no permitted command.
      rw [flag] at isOpen
      have harmless : event.locks = false := by
        by_contra locks
        have closed : t.c.doorOpen = false := kept (by simpa using locks)
        simp [closed] at isOpen
      exact surround_unlocked (held.unlocked isOpen) harmless
    · rw [flag]
      exact held.acted
  | step choice =>
    cases Option.some.inj taken
    exact held.taskStep kept

/-- The task starts with the door closed, before either branch. -/
theorem failSafe_init : FailSafe taskInit := by
  refine ⟨?_, ?_, ?_, ?_⟩ <;> simp [taskInit, controllerInit, Pc.inOpening, Pc.inClosing, Pc.acted]

/-- As long as nothing locks an open door, every iteration that found a cause ends with flag and output unlocked. -/
theorem unlocked_while_open (fireMachine : Bool) (events : List TaskEvent) (t : Task)
    (kept : EveryStep (taskEvent fireMachine) KeepsFlag taskInit events)
    (ran : run (taskEvent fireMachine) taskInit events = some t) (ended : t.pc = .delay)
    (opens : t.opens = true) : t.c.doorPin = true ∧ t.c.doorOpen = true := by
  have held : FailSafe t :=
    run_invariant FailSafe (fun _ _ _ held kept taken => held.step kept taken) failSafe_init kept ran
  -- At the end of the iteration, the value of `open` has been acted on.
  have isOpen : t.c.doorOpen = true := held.acted (by rw [ended]; rfl) opens
  exact ⟨held.unlocked isOpen, isOpen⟩

/-- A choice with a cleared stack and a working file system. -/
def plainChoice : Choice :=
  { stack := ⟨0, 0, 0, 0, 0, 0, 0, 0, 0⟩, fileOk := true }

/-- Some statements of the task in a row, or some scans of the same levels. -/
def statements (count : Nat) : List TaskEvent :=
  .replicate count (.step plainChoice)

/-- Some scans of the same levels in a row. -/
def scans (count : Nat) (pins : Pins) : List TaskEvent :=
  .replicate count (.surround (.scan pins))

/-- The levels of a board in an emergency. -/
def emergencyPins : Pins :=
  { restingPins with emergency := false }

/-- The shell locks the closed door, at last right before an emergency opens it, and unlocks the open one once more. -/
def shellAroundEmergency : List TaskEvent :=
  .surround (.shell ["misc_door_open", "close"]) :: scans 11 emergencyPins ++ statements 5 ++
    .surround (.shell ["misc_door_open", "close"]) :: statements 9 ++
    .surround (.shell ["misc_door_open", "open"]) :: statements 12

/-- An emergency unlocks a door that the shell has locked while it was closed. -/
theorem unlocked_in_emergency : ∃ t,
    run (taskEvent true) taskInit shellAroundEmergency = some t ∧ t.pc = .delay ∧ t.c.doorPin = true := by
  have ends : (run (taskEvent true) taskInit shellAroundEmergency).any
      (fun t => decide (t.pc = .delay) && t.opens) = true := by decide +kernel
  obtain ⟨t, ran, ends⟩ := (Option.any_eq_true _ _).mp ends
  simp only [Bool.and_eq_true, decide_eq_true_eq] at ends
  have safe := unlocked_while_open true _ t (by decide +kernel) ran ends.1 ends.2
  exact ⟨t, ran, ends.1, safe.1⟩

/--
An emergency with a press of the set key, which starts a factory test that is served to its end.

The presses of both keys and a failure of the mains supply serve the input test.
-/
def testInEmergency : List TaskEvent :=
  scans 11 { emergencyPins with setKey := false } ++ scans 1 emergencyPins ++ statements 36 ++
    scans 3 { emergencyPins with setKey := false } ++ scans 1 emergencyPins ++ statements 2 ++
    scans 3 { emergencyPins with doorKey := false } ++ scans 1 emergencyPins ++ statements 2 ++
    scans 11 { emergencyPins with powerdown := true } ++ statements 28

/-- A factory test that is started in an emergency ends with the door locked. -/
theorem unlockedWhileOpen_fails : ¬ UnlockedWhileOpen true := by
  intro unlocked
  have ends : (run (taskEvent true) taskInit testInEmergency).any
      (fun t => decide (t.pc = .delay) && t.opens && !t.c.doorPin) = true := by decide +kernel
  obtain ⟨t, ran, ends⟩ := (Option.any_eq_true _ _).mp ends
  simp only [Bool.and_eq_true, decide_eq_true_eq, Bool.not_eq_true'] at ends
  obtain ⟨⟨ended, opens⟩, locked⟩ := ends
  have pin := unlocked _ t ran ended opens
  simp [locked] at pin

end PkeFire
