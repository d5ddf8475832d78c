import PkeFire.Misc.Iteration

/-! What each phase of an iteration changes, and what it leaves alone. -/

namespace PkeFire

namespace Controller

section

variable (stack : BuildingStatus) (c : Controller)

/-- A cause is active exactly when some branch of the opening message is taken. -/
theorem leadingCause_isSome : c.leadingCause.isSome = c.openCause := by
  -- The branches test the same five flags.
  simp only [leadingCause, openCause]
  cases c.keyOpen <;> cases c.emergencyOpen <;> cases c.remoteOpen != 0 <;>
    cases c.smokeOpen != 0 <;> cases c.fireMachineOpen <;> rfl

/-- Describing an opening remembers the cause of the stack and a raised floor, and sounds the alarms of its cause. -/
theorem describeOpening_snd :
    (c.describeOpening stack).2 =
      let described := { c with
        lastCause := stack.cause
        lastSmokeOpen := if c.smokeOpen != 0 && c.smokeOpen ≤ 20 then c.smokeOpen else c.lastSmokeOpen }
      if c.leadingCause.any Cause.sounds then described.soundAlarms else described := by
  -- The leading cause reads none of the remembered values.
  by_cases onFloor : (c.smokeOpen != 0 && decide (c.smokeOpen ≤ 20)) = true
  · -- The floor that is raised is written into the message, and remembered.
    simp only [describeOpening, onFloor, if_true]
    have same : leadingCause { c with lastCause := stack.cause, lastSmokeOpen := c.smokeOpen } =
        c.leadingCause := rfl
    rw [same]
    cases c.leadingCause <;> simp
  · simp only [describeOpening, onFloor, if_false, Bool.false_eq_true]
    have same : leadingCause { c with lastCause := stack.cause } = c.leadingCause := rfl
    rw [same]
    cases c.leadingCause <;> simp

/-- Describing an opening writes the remembered cause and floor, and the alarms if the leading cause sounds them. -/
theorem describeOpening_frame :
    ∃ floor, (c.describeOpening stack).2 =
      let described := { c with lastCause := stack.cause, lastSmokeOpen := floor }
      if c.leadingCause.any Cause.sounds then described.soundAlarms else described :=
  ⟨_, describeOpening_snd stack c⟩

/-- The alarms after an opening branch that finds the door closed. -/
def alarmsAfter (c : Controller) : Bool × UInt8 :=
  if c.leadingCause.any Cause.sounds then (true, 0xff) else (c.alarmPin, c.extio.output)

/-- An open cause leaves the door open with its timer restarted. -/
structure Opened (c next : Controller) : Prop where
  doorOpen : next.doorOpen = true
  lockTime : next.lockTime = 0
  doorPin : next.doorPin = if c.doorOpen then c.doorPin else true
  alarms : (next.alarmPin, next.extio.output) =
    if c.doorOpen then (c.alarmPin, c.extio.output) else c.alarmsAfter
  remoteOpen : next.remoteOpen = if c.doorOpen then c.remoteOpen else 0
  fireMachineOpen : next.fireMachineOpen = c.fireMachineOpen
  smokeOpen : next.smokeOpen = c.smokeOpen
  smokeReport : next.smokeReport = c.smokeReport
  runStopFlag : next.runStopFlag = c.runStopFlag
  extio : { next.extio with output := c.extio.output } = c.extio

/-- The opening branch opens the door. -/
theorem openBranch_opened : Opened c (c.openBranch stack) := by
  by_cases already : c.doorOpen = true
  · -- A door that is already open keeps its outputs and every request.
    simp only [openBranch, restartLock]
    constructor <;> simp [already]
  · -- A closed door is unlocked first, so that the message is built over the unlocked state.
    obtain ⟨floor, described⟩ := describeOpening_frame stack c.restartLock.unlockDoor
    have closed : c.doorOpen = false := by simpa using already
    have lead : (c.restartLock.unlockDoor).leadingCause = c.leadingCause := rfl
    have branch : c.openBranch stack = (((c.restartLock.unlockDoor).describeOpening stack).2.publishBuilding
        ((c.restartLock.unlockDoor).describeOpening stack).1).clearRequests := by
      simp [openBranch, restartLock, closed]
    rw [branch, described, lead]
    by_cases sounds : c.leadingCause.any Cause.sounds = true
    · constructor <;>
        simp [sounds, closed, alarmsAfter, clearRequests, publishBuilding, soundAlarms, extioMainAlarm,
          unlockDoor, extioDoorOpen, restartLock, Extio.setAllAlarm]
    · constructor <;>
        simp [sounds, closed, alarmsAfter, clearRequests, publishBuilding, unlockDoor, extioDoorOpen,
          restartLock]

/-- A closing branch either only counts, or locks the door. -/
inductive Closed (c next : Controller) : Prop where
  /-- The door stays as it is, and at most the quiet time has advanced. -/
  | waits (lockTime : Nat) (same : next = { c with lockTime := lockTime })
      (advanced : lockTime = c.lockTime ∧ (c.doorOpen && !miscSmokeTarget c.extio) = false ∨
        (c.doorOpen && !miscSmokeTarget c.extio) = true ∧ lockTime = c.lockTime + 1 ∧ c.lockTime < 100)
  /-- The quiet time has elapsed: the door is locked, the alarms are off, and the causes are cleared. -/
  | locks (wasOpen : c.doorOpen = true) (noSmoke : miscSmokeTarget c.extio = false)
      (elapsed : 100 ≤ c.lockTime)
      (same : ∃ lockTime calls, lockTime ≤ c.lockTime + 1 ∧ next = { c with
        lockTime := lockTime, calls := calls, doorOpen := false, doorPin := false, alarmPin := false,
        extio := c.extio.clrAllAlarm, keyOpen := false, emergencyOpen := false, remoteOpen := 0,
        fireMachineOpen := false })

/-- The closing branch closes or waits. -/
theorem closeBranch_closed : Closed c c.closeBranch := by
  by_cases counting : (c.doorOpen && !miscSmokeTarget c.extio) = true
  · obtain ⟨wasOpen, noSmoke⟩ : c.doorOpen = true ∧ miscSmokeTarget c.extio = false := by
      simpa using counting
    rw [closeBranch, if_pos counting]
    by_cases elapsed : c.countQuiet.lockTime > 100
    · rw [if_pos elapsed]
      -- Saturation only matters long after the limit.
      rw [countQuiet] at elapsed ⊢
      split at elapsed <;> rename_i below
      · exact .locks wasOpen noSmoke (by simp only at elapsed; omega)
          ⟨c.lockTime + 1, _, Nat.le_refl _, by rw [if_pos below]; rfl⟩
      · exact .locks wasOpen noSmoke (by omega) ⟨c.lockTime, _, Nat.le_succ _, by rw [if_neg below]; rfl⟩
    · -- Below the limit, the quiet iteration is only counted.
      rw [if_neg elapsed]
      rw [countQuiet] at elapsed ⊢
      split at elapsed <;> rename_i below
      · rw [if_pos below]
        exact .waits (c.lockTime + 1) rfl (Or.inr ⟨counting, rfl, by simp only at elapsed; omega⟩)
      · omega
  · -- A closed door, or one with smoke before it, is left as it is.
    rw [closeBranch, if_neg counting]
    exact .waits c.lockTime rfl (Or.inl ⟨rfl, by simpa using counting⟩)

end

end Controller

/-- A poll of the inputs and the count of a target keep the supply flag and the reported fire machine. -/
theorem poll_frame (active : Bool) (report : SmokeReport) :
    (report.poll active).powerdownFlag = report.powerdownFlag ∧
      (report.poll active).fireMachineUpdate = report.fireMachineUpdate := by
  -- The poll writes its own counter, the target, and the time of the target.
  simp only [SmokeReport.poll]
  split <;> [split <;> [split; skip]; skip] <;> simp

/-- The supervision that follows the door changes the report, the fire machine, and nothing of the door. -/
structure Supervised (c next : Controller) : Prop where
  doorOpen : next.doorOpen = c.doorOpen
  doorPin : next.doorPin = c.doorPin
  alarmPin : next.alarmPin = c.alarmPin
  lockTime : next.lockTime = c.lockTime
  remoteOpen : next.remoteOpen = c.remoteOpen
  runStopFlag : next.runStopFlag = c.runStopFlag
  extio : next.extio = c.extio
  smokeOpen : next.smokeOpen = c.smokeOpen ∨ next.smokeOpen = 0

/-- Reporting on the inputs writes the record, less its flag of the mains supply, and perhaps the flags of a fire. -/
theorem miscSmokeReport_writes (c : Controller) :
    ∃ report floor fire, report.powerdownFlag = c.smokeReport.powerdownFlag ∧ (floor = c.smokeOpen ∨ floor = 0) ∧
      miscSmokeReport c = { c with smokeReport := report, smokeOpen := floor, fireMachineOpen := fire } := by
  have polled := (poll_frame (miscSmokeTarget c.extio || c.extio.isFireMachine) c.smokeReport).1
  have counted : ∀ report : SmokeReport, report.count.powerdownFlag = report.powerdownFlag := by
    intro report
    rw [SmokeReport.count]
    split <;> rfl
  -- Each branch writes a report that was polled, and perhaps counted, beforehand.
  simp only [miscSmokeReport]
  split <;> [split <;> [split <;> [split; split]; skip]; skip] <;>
    exact ⟨_, _, _, by simp only [polled, counted], by simp only [true_or, or_true], rfl⟩

/-- Reporting on the inputs leaves the door alone. -/
theorem miscSmokeReport_supervised (c : Controller) : Supervised c (miscSmokeReport c) := by
  obtain ⟨_, _, _, _, raised, same⟩ := miscSmokeReport_writes c
  rw [same]
  exact ⟨rfl, rfl, rfl, rfl, rfl, rfl, rfl, raised⟩

/-- Reporting on the inputs leaves the flag of the mains supply and the remembered cause alone, and makes no call. -/
theorem miscSmokeReport_frame (c : Controller) :
    (miscSmokeReport c).smokeReport.powerdownFlag = c.smokeReport.powerdownFlag ∧
      (miscSmokeReport c).lastCause = c.lastCause ∧ (miscSmokeReport c).calls = c.calls := by
  obtain ⟨_, _, _, supply, _, same⟩ := miscSmokeReport_writes c
  rw [same]
  exact ⟨supply, rfl, rfl⟩

/-- Reporting on the supply leaves the door alone. -/
theorem reportPowerdown_supervised (c : Controller) : Supervised c c.reportPowerdown := by
  rw [Controller.reportPowerdown]
  split <;> [skip; split] <;> constructor <;> simp

/-- Asking for the configuration to be saved leaves the door alone. -/
theorem tickSave_supervised (c : Controller) : Supervised c c.tickSave := by
  rw [Controller.tickSave]
  split <;> constructor <;> simp

/-- Supervision in two parts leaves the door alone when both parts do. -/
theorem Supervised.trans {first second third : Controller} (before : Supervised first second)
    (after : Supervised second third) : Supervised first third where
  doorOpen := after.doorOpen.trans before.doorOpen
  doorPin := after.doorPin.trans before.doorPin
  alarmPin := after.alarmPin.trans before.alarmPin
  lockTime := after.lockTime.trans before.lockTime
  remoteOpen := after.remoteOpen.trans before.remoteOpen
  runStopFlag := after.runStopFlag.trans before.runStopFlag
  extio := after.extio.trans before.extio
  smokeOpen := by
    rcases after.smokeOpen with same | zero
    · exact same ▸ before.smokeOpen
    · exact Or.inr zero

/-- The whole supervision leaves the door alone. -/
theorem supervise_supervised (fireMachine : Bool) (c : Controller) :
    Supervised c (c.supervise fireMachine) := by
  -- The three parts follow each other, and the middle one is left out without a fire machine.
  have supply := reportPowerdown_supervised c
  cases fireMachine with
  | false => exact supply.trans (tickSave_supervised _)
  | true => exact (supply.trans (miscSmokeReport_supervised _)).trans (tickSave_supervised _)

/-- Consuming both held keys leaves everything but the key events alone. -/
theorem setKeyKeep_frame (c : Controller) :
    ∃ sta, c.setKeyKeep = { c with extio := { c.extio with key := { c.extio.key with sta := sta } } } := by
  rw [Controller.setKeyKeep]
  split
  · exact ⟨store (store c.extio.key.sta extioSetKey .release) extioOpenKey .release, rfl⟩
  · exact ⟨c.extio.key.sta, rfl⟩

/-- The state in which an executed iteration has sampled its causes. -/
def Controller.sampled (c : Controller) : Controller :=
  { c with calls := [] }.sampleCauses

/-- An iteration is halted, or it samples, drives the door, supervises, and serves the set key. -/
theorem iterate_cases {fireMachine : Bool} {stimulus : Stimulus} {c next : Controller}
    (done : iterate fireMachine stimulus c = some next) :
    (c.runStopFlag = false ∧ next = { c with calls := [] }) ∨
    (c.runStopFlag = true ∧ ∃ served, ((c.sampled.driveDoor stimulus.stack).supervise
      fireMachine).setKeyPress fireMachine stimulus.schedule = some served ∧
      next = served.setKeyKeep) := by
  -- A stopped task neither samples nor drives anything.
  rw [iterate] at done
  by_cases running : c.runStopFlag = true
  · simp only [running, Bool.not_true, Bool.false_eq_true, if_false, Option.map_eq_some_iff] at done
    obtain ⟨served, pressed, same⟩ := done
    refine Or.inr ⟨running, served, ?_, same.symm⟩
    rw [← pressed, Controller.sampled, ← running]
  · have halted : c.runStopFlag = false := by simpa using running
    simp only [halted, Bool.not_false, if_true, Option.some.injEq] at done
    exact Or.inl ⟨halted, by rw [← done, ← halted]⟩

/-- Driving the door changes nothing in the shared object but the floor alarms. -/
theorem driveDoor_extio (stack : BuildingStatus) (c : Controller) :
    { (c.driveDoor stack).extio with output := c.extio.output } = c.extio := by
  -- Both branches say so in their effects.
  rw [Controller.driveDoor]
  split
  · exact (Controller.openBranch_opened stack c).extio
  · cases Controller.closeBranch_closed c with
    | waits lockTime same => rw [same]
    | locks _ _ _ same =>
      obtain ⟨_, _, _, same⟩ := same
      rw [same]
      rfl

/-- The door phase of an iteration and the state at its end agree about the door. -/
structure SameDoor (c next : Controller) : Prop where
  doorOpen : next.doorOpen = c.doorOpen
  doorPin : next.doorPin = c.doorPin
  alarmPin : next.alarmPin = c.alarmPin
  output : next.extio.output = c.extio.output
  lockTime : next.lockTime = c.lockTime
  remoteOpen : next.remoteOpen = c.remoteOpen

/-- The look at the set key finds the event that the iteration has begun with. -/
theorem keySta_supervise (fireMachine : Bool) (stack : BuildingStatus) (c : Controller) :
    ((c.sampled.driveDoor stack).supervise fireMachine).extio.keySta extioSetKey = c.extio.keySta extioSetKey := by
  rw [(supervise_supervised fireMachine _).extio]
  have keys := congrArg (fun extio => extio.keySta extioSetKey) (driveDoor_extio stack c.sampled)
  refine Eq.trans keys ?_
  -- Sampling consumes the event of the other key.
  have other : extioOpenKey ≠ extioSetKey := by decide
  exact (Extio.keySta_keyClr c.extio extioOpenKey extioSetKey).trans (if_neg other)

/-- An executed plain iteration runs no factory test, and ends with both held keys consumed. -/
theorem iterate_eq_of_plain {fireMachine : Bool} {stimulus : Stimulus} {c : Controller}
    (plain : Plain c (.iterate stimulus)) (running : c.runStopFlag = true) :
    iterate fireMachine stimulus c =
      some ((c.sampled.driveDoor stimulus.stack).supervise fireMachine).setKeyKeep := by
  have unpressed : ((c.sampled.driveDoor stimulus.stack).supervise fireMachine).extio.keySta extioSetKey ≠ .press := by
    rw [keySta_supervise]
    exact plain running
  rw [iterate, if_neg (by simp [running])]
  show (((c.sampled.driveDoor stimulus.stack).supervise fireMachine).setKeyPress fireMachine stimulus.schedule).map
    Controller.setKeyKeep = _
  rw [Controller.setKeyPress, if_neg unpressed, Option.map_some]

/-- The state after an executed plain iteration. -/
theorem iterate_plain {fireMachine : Bool} {stimulus : Stimulus} {c next : Controller}
    (plain : Plain c (.iterate stimulus)) (running : c.runStopFlag = true)
    (done : iterate fireMachine stimulus c = some next) :
    next = ((c.sampled.driveDoor stimulus.stack).supervise fireMachine).setKeyKeep := by
  rw [iterate_eq_of_plain plain running] at done
  exact (Option.some.inj done).symm

/-- A plain run never gets stuck. -/
theorem run_plain {fireMachine : Bool} {events : List Event} {c : Controller}
    (plain : EveryStep (controllerStep fireMachine) Plain c events) :
    ∃ finish, run (controllerStep fireMachine) c events = some finish := by
  -- Only a factory test that is still waiting fails to complete.
  have steps : ∀ c event, Plain c event → ∃ next, controllerStep fireMachine c event = some next := by
    intro c event plain
    cases event with
    | surround event => exact ⟨_, rfl⟩
    | iterate stimulus =>
      by_cases running : c.runStopFlag = true
      · exact ⟨_, iterate_eq_of_plain plain running⟩
      · exact ⟨{ c with calls := [] }, by simp [controllerStep, iterate, running]⟩
  induction events generalizing c with
  | nil => exact ⟨c, rfl⟩
  | cons event rest ih =>
    obtain ⟨next, taken⟩ := steps c event plain.1
    obtain ⟨finish, ran⟩ := ih (plain.2 next taken)
    exact ⟨finish, by rw [run_cons, taken, Option.bind_some, ran]⟩

/-- The rest of an iteration agrees with its door phase. -/
theorem served_sameDoor (fireMachine : Bool) (c : Controller) :
    SameDoor c (c.supervise fireMachine).setKeyKeep := by
  have rest := supervise_supervised fireMachine c
  obtain ⟨sta, same⟩ := setKeyKeep_frame (c.supervise fireMachine)
  rw [same]
  have output : (c.supervise fireMachine).extio.output = c.extio.output := by rw [rest.extio]
  exact ⟨rest.doorOpen, rest.doorPin, rest.alarmPin, output, rest.lockTime, rest.remoteOpen⟩

end PkeFire
