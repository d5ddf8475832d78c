import PkeFire.Misc.Effects

/-! The thread `misc_task` one statement at a time, with the other threads acting in between. -/

namespace PkeFire

/-- The statement that `misc_task` performs next, none of which touches two shared variables of other threads. -/
inductive Pc where
  /-- The head of the loop, where a stopped task sleeps and starts over. -/
  | top
  /-- The open key is about to be sampled. -/
  | sampleKey
  /-- The emergency line is about to be sampled. -/
  | sampleEmergency
  /-- The event of the open key is about to be consumed. -/
  | clearOpenKey
  /-- The local `open` is about to be computed. -/
  | evalOpen
  /-- The opening branch begins. -/
  | opening
  /-- The opening message is about to be built. -/
  | announce
  /-- The opening message is about to be published. -/
  | publishOpening (status : BuildingStatus)
  /-- The requests are about to be cleared. -/
  | clearRequests
  /-- The closing branch begins. -/
  | closing
  /-- The door is about to be locked. -/
  | lockDoor
  /-- The remaining causes are about to be cleared. -/
  | clearCauses
  /-- The closing message is about to be published. -/
  | publishClosing
  /-- The mains supply is about to be supervised. -/
  | powerdown
  /-- The inputs are about to be reported on. -/
  | smokeReport
  /-- The configuration is about to be saved, if its time has come. -/
  | saveConfig
  /-- The set key is about to be tested for a press. -/
  | setPress
  /-- The press of the set key is about to be consumed. -/
  | clearSetKey
  /-- The factory test is running. -/
  | factory (pc : FactoryPc)
  /-- The set key is about to be tested for being held. -/
  | setKeep
  /-- The open key is about to be tested for being held. -/
  | openKeep
  /-- The held set key is about to be consumed. -/
  | clearSetKeep
  /-- The held open key is about to be consumed. -/
  | clearOpenKeep
  /-- The iteration is over, and the task sleeps. -/
  | delay
  deriving DecidableEq, Repr

/-- The thread with its program counter, its local `open`, and everything it shares. -/
structure Task where
  pc : Pc
  opens : Bool
  c : Controller
  deriving DecidableEq, Repr

/-- The task before its first statement. -/
def taskInit : Task where
  pc := .top
  opens := false
  c := controllerInit

/-- What a statement is given from outside the model. -/
structure Choice where
  /-- The uninitialised stack memory in which the opening message is built. -/
  stack : BuildingStatus
  /-- The verdict of the file system test. -/
  fileOk : Bool
  deriving DecidableEq, Repr

/-- One statement of `misc_task`. -/
def taskStep (fireMachine : Bool) (choice : Choice) (t : Task) : Task :=
  let c := t.c
  match t.pc with
  -- The calls of the previous iteration are forgotten when a new one begins.
  | .top => { t with pc := if c.runStopFlag then .sampleKey else .top, c := { c with calls := [] } }
  | .sampleKey => { t with pc := .sampleEmergency, c := c.sampleKey }
  | .sampleEmergency => { t with pc := .clearOpenKey, c := c.sampleEmergency }
  | .clearOpenKey => { t with pc := .evalOpen, c := c.clearOpenKey }
  | .evalOpen => { t with pc := if c.openCause then .opening else .closing, opens := c.openCause }
  -- A door that is already open skips the rest of its branch.
  | .opening =>
    if c.doorOpen then { t with pc := .powerdown, c := c.restartLock }
    else { t with pc := .announce, c := c.restartLock.unlockDoor }
  | .announce =>
    { t with pc := .publishOpening (c.describeOpening choice.stack).1, c := (c.describeOpening choice.stack).2 }
  | .publishOpening status => { t with pc := .clearRequests, c := c.publishBuilding status }
  | .clearRequests => { t with pc := .powerdown, c := c.clearRequests }
  | .closing =>
    if c.doorOpen && !miscSmokeTarget c.extio then
      { t with pc := if c.countQuiet.lockTime > 100 then .lockDoor else .powerdown, c := c.countQuiet }
    else { t with pc := .powerdown }
  | .lockDoor => { t with pc := .clearCauses, c := c.lockDoor }
  | .clearCauses => { t with pc := .publishClosing, c := c.clearCauses }
  | .publishClosing => { t with pc := .powerdown, c := c.publishBuilding c.closingStatus }
  | .powerdown => { t with pc := .smokeReport, c := c.reportPowerdown }
  | .smokeReport => { t with pc := .saveConfig, c := if fireMachine then miscSmokeReport c else c }
  | .saveConfig => { t with pc := .setPress, c := c.tickSave }
  | .setPress => { t with pc := if c.extio.keySta extioSetKey = .press then .clearSetKey else .setKeep }
  | .clearSetKey => { t with pc := .factory .filesystem, c := c.clearSetKey }
  -- A test that has returned hands over to the rest of the iteration.
  | .factory .returned => { t with pc := .setKeep }
  | .factory pc =>
    { t with pc := .factory (factoryStep choice.fileOk pc c).1, c := (factoryStep choice.fileOk pc c).2 }
  | .setKeep => { t with pc := if c.extio.keySta extioSetKey = .keep then .openKeep else .delay }
  | .openKeep => { t with pc := if c.extio.keySta extioOpenKey = .keep then .clearSetKeep else .delay }
  | .clearSetKeep => { t with pc := .clearOpenKeep, c := c.clearSetKey }
  | .clearOpenKeep => { t with pc := .delay, c := c.clearOpenKey }
  | .delay => { t with pc := .top }

/-- Either another thread acts, or the task performs a statement. -/
inductive TaskEvent where
  | surround (event : Surrounding)
  | step (choice : Choice)
  deriving DecidableEq, Repr

/-- One event of the interleaving, which is never refused. -/
def taskEvent (fireMachine : Bool) (t : Task) : TaskEvent → Option Task
  | .surround event => some { t with c := surround fireMachine event t.c }
  | .step choice => some (taskStep fireMachine choice t)

section

variable {fireMachine : Bool}

/-- Some interleaving leads from one state of the task to another. -/
def Leads (fireMachine : Bool) (t next : Task) : Prop :=
  ∃ events, run (taskEvent fireMachine) t events = some next

/-- Interleavings can be continued. -/
theorem Leads.trans {first second third : Task} (before : Leads fireMachine first second)
    (after : Leads fireMachine second third) : Leads fireMachine first third := by
  -- The two lists of events are performed one after the other.
  obtain ⟨events, ran⟩ := before
  obtain ⟨more, continued⟩ := after
  exact ⟨events ++ more, run_append_some.mpr ⟨second, ran, continued⟩⟩

/-- Each statement leads to the next state. -/
theorem Leads.step (choice : Choice) (t : Task) : Leads fireMachine t (taskStep fireMachine choice t) :=
  -- The only event is the statement itself.
  ⟨[.step choice], run_singleton t _⟩

/-- A continued interleaving ends with one more statement. -/
theorem Leads.then {t next : Task} (before : Leads fireMachine t next) (choice : Choice) :
    Leads fireMachine t (taskStep fireMachine choice next) :=
  before.trans (.step choice next)

/-- A step of the factory test is a statement of the task. -/
theorem taskStep_factory (choice : Choice) {pc : FactoryPc} (opens : Bool) (c : Controller)
    (unreturned : pc ≠ .returned) :
    taskStep fireMachine choice ⟨.factory pc, opens, c⟩ =
      ⟨.factory (factoryStep choice.fileOk pc c).1, opens, (factoryStep choice.fileOk pc c).2⟩ := by
  -- Only a test that has returned is treated on its own.
  cases pc <;> first | rfl | exact absurd rfl unreturned

/-- No statement touches the supervised lines, and only one of them touches the flag of the mains supply. -/
theorem taskStep_frame (fireMachine : Bool) (choice : Choice) (t : Task) :
    (taskStep fireMachine choice t).c.extio.check = t.c.extio.check ∧
      (t.pc ≠ .powerdown →
        (taskStep fireMachine choice t).c.smokeReport.powerdownFlag = t.c.smokeReport.powerdownFlag) := by
  obtain ⟨pc, opens, c⟩ := t
  cases pc with
  | opening =>
    simp only [taskStep]
    split <;> exact ⟨rfl, fun _ => rfl⟩
  | announce =>
    -- Only the floor alarms are switched on.
    obtain ⟨floor, described⟩ := Controller.describeOpening_frame choice.stack c
    simp only [taskStep, described]
    split <;> exact ⟨rfl, fun _ => rfl⟩
  | closing =>
    simp only [taskStep, Controller.countQuiet]
    split <;> [split; skip] <;> exact ⟨rfl, fun _ => rfl⟩
  | powerdown => exact ⟨congrArg Extio.check (reportPowerdown_supervised c).extio, fun other => absurd rfl other⟩
  | smokeReport =>
    -- A report on the inputs writes the record, but not the flag of the supply.
    cases fireMachine with
    | true =>
      exact ⟨congrArg Extio.check (miscSmokeReport_supervised c).extio, fun _ => (miscSmokeReport_frame c).1⟩
    | false => exact ⟨rfl, fun _ => rfl⟩
  | saveConfig =>
    simp only [taskStep, Controller.tickSave]
    split <;> exact ⟨rfl, fun _ => rfl⟩
  | factory pc =>
    by_cases returned : pc = .returned
    · subst returned
      exact ⟨rfl, fun _ => rfl⟩
    · rw [taskStep_factory choice opens c returned]
      obtain ⟨⟨_, _, _, report⟩, _, _, check⟩ := factoryStep_frame choice.fileOk pc c
      exact ⟨check, fun _ => congrArg SmokeReport.powerdownFlag report⟩
  | _ => exact ⟨rfl, fun _ => rfl⟩

/-- The factory test, as part of the task, can take the course that it takes on its own. -/
theorem factory_leads (stack : BuildingStatus) {opens : Bool} {schedule : List FactoryEvent}
    {before after : FactoryPc × Controller}
    (ran : run (factoryEvent fireMachine) before schedule = some after) :
    Leads fireMachine ⟨.factory before.1, opens, before.2⟩ ⟨.factory after.1, opens, after.2⟩ := by
  -- Each event of the schedule is one event of the task.
  induction schedule generalizing before with
  | nil =>
    simp only [run_nil, Option.some.injEq] at ran
    exact ran ▸ ⟨[], rfl⟩
  | cons event rest ih =>
    simp only [run_cons, Option.bind_eq_some_iff] at ran
    obtain ⟨middle, taken, ran⟩ := ran
    refine Leads.trans ?_ (ih ran)
    cases event with
    | surround event =>
      cases Option.some.inj taken
      exact ⟨[.surround event], rfl⟩
    | step fileOk =>
      rw [factoryEvent] at taken
      split at taken
      · cases taken
      · -- A test that is still going on takes the same step within the task.
        rename_i unreturned
        rw [← Option.some.inj taken, ← taskStep_factory ⟨stack, fileOk⟩ opens before.2 unreturned]
        exact Leads.step _ _

/-- Without interference, the door phase is the opening or the closing branch. -/
theorem driveDoor_leads (stack : BuildingStatus) (opens : Bool) (c : Controller) :
    Leads fireMachine ⟨.evalOpen, opens, c⟩ ⟨.powerdown, c.openCause, c.driveDoor stack⟩ := by
  -- The same choice serves every statement.
  let choice : Choice := ⟨stack, true⟩
  refine (Leads.step choice _).trans ?_
  rw [Controller.driveDoor]
  by_cases active : c.openCause = true
  · have begun : taskStep fireMachine choice ⟨.evalOpen, opens, c⟩ = ⟨.opening, c.openCause, c⟩ := by
      simp [taskStep, active]
    rw [begun, if_pos active]
    by_cases already : c.doorOpen = true
    · have ended : taskStep fireMachine choice ⟨.opening, c.openCause, c⟩ =
          ⟨.powerdown, c.openCause, c.openBranch stack⟩ := by
        simp [taskStep, already, Controller.openBranch, Controller.restartLock]
      rw [← ended]
      exact Leads.step choice _
    · -- The door is unlocked, and its opening is announced, published, and cleared.
      have opened : taskStep fireMachine choice ⟨.opening, c.openCause, c⟩ =
          ⟨.announce, c.openCause, c.restartLock.unlockDoor⟩ := by
        simp [taskStep, already]
      have branch : c.openBranch stack = ((c.restartLock.unlockDoor.describeOpening stack).2.publishBuilding
          (c.restartLock.unlockDoor.describeOpening stack).1).clearRequests := by
        simp [Controller.openBranch, Controller.restartLock, already]
      rw [branch]
      refine (Leads.step choice _).trans ?_
      rw [opened]
      exact (((Leads.step choice _).then choice).then choice)
  · have begun : taskStep fireMachine choice ⟨.evalOpen, opens, c⟩ = ⟨.closing, c.openCause, c⟩ := by
      simp [taskStep, active]
    rw [begun, if_neg active, Controller.closeBranch]
    refine (Leads.step choice _).trans ?_
    by_cases counting : (c.doorOpen && !miscSmokeTarget c.extio) = true
    · rw [if_pos counting]
      by_cases elapsed : c.countQuiet.lockTime > 100
      · -- The door is locked, the causes are cleared, and the closing is published.
        have locking : taskStep fireMachine choice ⟨.closing, c.openCause, c⟩ =
            ⟨.lockDoor, c.openCause, c.countQuiet⟩ := by
          simp [taskStep, counting, elapsed]
        rw [locking, if_pos elapsed]
        exact (((Leads.step choice _).then choice).then choice)
      · have waiting : taskStep fireMachine choice ⟨.closing, c.openCause, c⟩ =
            ⟨.powerdown, c.openCause, c.countQuiet⟩ := by
          simp [taskStep, counting, elapsed]
        rw [waiting, if_neg elapsed]
        exact ⟨[], rfl⟩
    · have skipping : taskStep fireMachine choice ⟨.closing, c.openCause, c⟩ =
          ⟨.powerdown, c.openCause, c⟩ := by
        simp [taskStep, counting]
      rw [skipping, if_neg counting]
      exact ⟨[], rfl⟩

/-- Without interference, the set key is served as a whole. -/
theorem setKeyPress_leads (stack : BuildingStatus) {opens : Bool} {schedule : List FactoryEvent}
    {c served : Controller} (pressed : c.setKeyPress fireMachine schedule = some served) :
    Leads fireMachine ⟨.setPress, opens, c⟩ ⟨.setKeep, opens, served⟩ := by
  let choice : Choice := ⟨stack, true⟩
  rw [Controller.setKeyPress] at pressed
  by_cases press : c.extio.keySta extioSetKey = .press
  · -- The test runs to its end, as its schedule says.
    rw [if_pos press, factoryTestcase, Option.bind_eq_some_iff] at pressed
    obtain ⟨⟨pc, last⟩, ran, ended⟩ := pressed
    have begun : taskStep fireMachine choice ⟨.setPress, opens, c⟩ = ⟨.clearSetKey, opens, c⟩ := by
      simp [taskStep, press]
    have started : Leads fireMachine ⟨.setPress, opens, c⟩ ⟨.factory .filesystem, opens, c.clearSetKey⟩ := by
      refine (Leads.step choice _).trans ?_
      rw [begun]
      exact Leads.step choice _
    split at ended
    · rename_i returned
      have tested := started.trans (factory_leads stack ran)
      rw [returned, ← Option.some.inj ended] at *
      exact tested.then choice
    · cases ended
  -- Without a press, the task goes on to the hold of the key.
  · rw [if_neg press, Option.some.injEq] at pressed
    have skipped : taskStep fireMachine choice ⟨.setPress, opens, c⟩ = ⟨.setKeep, opens, c⟩ := by
      simp [taskStep, press]
    rw [← pressed, ← skipped]
    exact Leads.step choice _

/-- Without interference, both held keys are consumed together. -/
theorem setKeyKeep_leads (stack : BuildingStatus) (opens : Bool) (c : Controller) :
    Leads fireMachine ⟨.setKeep, opens, c⟩ ⟨.delay, opens, c.setKeyKeep⟩ := by
  let choice : Choice := ⟨stack, true⟩
  rw [Controller.setKeyKeep]
  refine (Leads.step choice _).trans ?_
  -- The two keys are tested by two statements, between which nothing happens here.
  by_cases setKeep : c.extio.keySta extioSetKey = .keep
  · have tested : taskStep fireMachine choice ⟨.setKeep, opens, c⟩ = ⟨.openKeep, opens, c⟩ := by
      simp [taskStep, setKeep]
    rw [tested]
    refine (Leads.step choice _).trans ?_
    by_cases openKeep : c.extio.keySta extioOpenKey = .keep
    · have both : taskStep fireMachine choice ⟨.openKeep, opens, c⟩ = ⟨.clearSetKeep, opens, c⟩ := by
        simp [taskStep, openKeep]
      rw [both, if_pos ⟨setKeep, openKeep⟩]
      exact (Leads.step choice _).then choice
    · have alone : taskStep fireMachine choice ⟨.openKeep, opens, c⟩ = ⟨.delay, opens, c⟩ := by
        simp [taskStep, openKeep]
      rw [alone, if_neg fun both => openKeep both.2]
      exact ⟨[], rfl⟩
  · have untested : taskStep fireMachine choice ⟨.setKeep, opens, c⟩ = ⟨.delay, opens, c⟩ := by
      simp [taskStep, setKeep]
    rw [untested, if_neg fun both => setKeep both.1]
    exact ⟨[], rfl⟩

/-- Every executed iteration taken as a whole is one of the interleavings of its statements. -/
theorem iterate_leads {stimulus : Stimulus} {opens : Bool} {c next : Controller}
    (running : c.runStopFlag = true) (done : iterate fireMachine stimulus c = some next) :
    Leads fireMachine ⟨.top, opens, c⟩ ⟨.delay, c.sampled.openCause, next⟩ := by
  let choice : Choice := ⟨stimulus.stack, true⟩
  rcases iterate_cases done with ⟨halted, _⟩ | ⟨_, served, pressed, same⟩
  · simp [running] at halted
  · have begun : taskStep fireMachine choice ⟨.top, opens, c⟩ = ⟨.sampleKey, opens, { c with calls := [] }⟩ := by
      simp [taskStep, running]
    -- The causes are sampled, the door is driven, the inputs are supervised, and the keys are served.
    have sampled : Leads fireMachine ⟨.top, opens, c⟩ ⟨.evalOpen, opens, c.sampled⟩ := by
      refine (Leads.step choice _).trans ?_
      rw [begun]
      exact (((Leads.step choice _).then choice).then choice)
    have driven := sampled.trans (driveDoor_leads stimulus.stack opens c.sampled)
    have supervised := ((driven.then choice).then choice).then choice
    -- The supervision is the same three statements, whether there is a fire machine or not.
    have supervision : ∀ c : Controller, c.supervise fireMachine =
        (if fireMachine then miscSmokeReport c.reportPowerdown else c.reportPowerdown).tickSave := fun _ => rfl
    rw [same]
    rw [supervision] at pressed
    exact (supervised.trans (setKeyPress_leads stimulus.stack pressed)).trans
      (setKeyKeep_leads stimulus.stack _ served)

/-- Every run of whole iterations is one of the interleavings of their statements. -/
theorem reachable_leads {c : Controller} (reached : Reachable fireMachine c) :
    ∃ opens, Leads fireMachine taskInit ⟨.top, opens, c⟩ := by
  refine reached.invariant (fun c => ∃ opens, Leads fireMachine taskInit ⟨.top, opens, c⟩) ?_
    ⟨false, [], rfl⟩
  rintro c event next ⟨opens, before⟩ _ taken
  cases event with
  | surround event =>
    -- Other threads act while the task sleeps.
    cases Option.some.inj taken
    exact ⟨opens, before.trans ⟨[.surround event], rfl⟩⟩
  | iterate stimulus =>
    by_cases running : c.runStopFlag = true
    · exact ⟨_, (before.trans (iterate_leads running taken)).then ⟨stimulus.stack, true⟩⟩
    · rcases iterate_cases taken with ⟨halted, same⟩ | ⟨ran, _⟩
      · have slept : taskStep fireMachine ⟨stimulus.stack, true⟩ ⟨.top, opens, c⟩ = ⟨.top, opens, next⟩ := by
          simp [taskStep, halted, same]
        exact ⟨opens, slept ▸ before.then ⟨stimulus.stack, true⟩⟩
      · exact absurd ran running

end

end PkeFire
