import PkeFire.Run.Machine
import PkeFire.Misc.Statements

/-! The factory test, which `misc_task` runs in its own thread when the set key is pressed. -/

namespace PkeFire

/-- Where `factory_testcase` stands. -/
inductive FactoryPc where
  /-- The file system is about to be tried. -/
  | filesystem
  /-- The network test prints the time. -/
  | nbiot
  /-- The main alarm is about to be switched on. -/
  | mainAlarmOn
  /-- The floor alarm `i` is about to be switched on. -/
  | setAlarm (i : Fin 8)
  /-- The door is about to be unlocked. -/
  | doorUnlock
  /-- The main alarm is about to be switched off. -/
  | mainAlarmOff
  /-- The floor alarm `i` is about to be switched off. -/
  | clrAlarm (i : Fin 8)
  /-- The door is about to be locked. -/
  | doorLock
  /-- The input test waits for a press of the set key. -/
  | awaitSetKey
  /-- The press of the set key is about to be consumed. -/
  | clearSetKey
  /-- The input test waits for a press of the open key. -/
  | awaitOpenKey
  /-- The press of the open key is about to be consumed. -/
  | clearOpenKey
  /-- The input test waits for the mains supply to fail. -/
  | awaitPowerdown
  /-- The input test waits for the emergency line. -/
  | awaitEmergency
  /-- The input test waits for the serial line `num` to be high. -/
  | awaitLine (num : Fin 24)
  /-- The test has returned. -/
  | returned
  deriving DecidableEq, Repr

/-- One step of the factory test; the file system passes or fails as the environment decides. -/
def factoryStep (fileOk : Bool) (pc : FactoryPc) (c : Controller) : FactoryPc × Controller :=
  match pc with
  -- A failed file system ends the whole test case.
  | .filesystem => (if fileOk then .nbiot else .returned, c)
  | .nbiot => (.mainAlarmOn, c)
  | .mainAlarmOn => (.setAlarm 0, extioMainAlarm true c)
  | .setAlarm i =>
    (if last : i.val + 1 < 8 then .setAlarm ⟨i + 1, last⟩ else .doorUnlock,
      { c with extio := c.extio.setAlarm i })
  | .doorUnlock => (.mainAlarmOff, extioDoorOpen true c)
  | .mainAlarmOff => (.clrAlarm 0, extioMainAlarm false c)
  | .clrAlarm i =>
    (if last : i.val + 1 < 8 then .clrAlarm ⟨i + 1, last⟩ else .doorLock,
      { c with extio := c.extio.clrAlarm i })
  -- The alarm test leaves the door locked, whatever it was before.
  | .doorLock => (.awaitSetKey, extioDoorOpen false c)
  | .awaitSetKey => (if c.extio.keySta extioSetKey = .press then .clearSetKey else .awaitSetKey, c)
  | .clearSetKey => (.awaitOpenKey, c.clearSetKey)
  | .awaitOpenKey => (if c.extio.keySta extioOpenKey = .press then .clearOpenKey else .awaitOpenKey, c)
  | .clearOpenKey => (.awaitPowerdown, c.clearOpenKey)
  -- These inputs are waited for without being consumed.
  | .awaitPowerdown =>
    (if c.extio.isCheck extioCheckPowerdown then .awaitEmergency else .awaitPowerdown, c)
  | .awaitEmergency => (if c.extio.isCheck extioCheckEmergency then .awaitLine 0 else .awaitEmergency, c)
  | .awaitLine num =>
    if c.extio.isSmoke num then (.awaitLine num, c)
    else (if last : num.val + 1 < 24 then .awaitLine ⟨num + 1, last⟩ else .returned, c)
  | .returned => (.returned, c)

/-- During the factory test either another thread acts or the test takes a step. -/
inductive FactoryEvent where
  | surround (event : Surrounding)
  | step (fileOk : Bool)
  deriving DecidableEq, Repr

/-- One event during the factory test, which accepts no further step once it has returned. -/
def factoryEvent (fireMachine : Bool) (at_ : FactoryPc × Controller) (event : FactoryEvent) :
    Option (FactoryPc × Controller) :=
  match event with
  | .surround event => some (at_.1, surround fireMachine event at_.2)
  | .step fileOk => if at_.1 = .returned then none else some (factoryStep fileOk at_.1 at_.2)

/-- `factory_testcase`, interleaved with other threads until it returns. -/
def factoryTestcase (fireMachine : Bool) (schedule : List FactoryEvent) (c : Controller) :
    Option Controller :=
  -- A schedule after which the test is still waiting is no complete run of it.
  (run (factoryEvent fireMachine) (.filesystem, c) schedule).bind fun at_ =>
    if at_.1 = .returned then some at_.2 else none

/-- What every permitted event of a factory test preserves holds when the test has returned. -/
theorem factoryTestcase_invariant {fireMachine : Bool} {schedule : List FactoryEvent} {before after : Controller}
    {permitted : FactoryEvent → Prop} (invariant : Controller → Prop)
    (kept : ∀ at_ event next, invariant at_.2 → permitted event →
      factoryEvent fireMachine at_ event = some next → invariant next.2)
    (initially : invariant before) (every : ∀ event ∈ schedule, permitted event)
    (ran : factoryTestcase fireMachine schedule before = some after) : invariant after := by
  rw [factoryTestcase, Option.bind_eq_some_iff] at ran
  obtain ⟨⟨pc, c⟩, arrived, ended⟩ := ran
  have held : invariant c :=
    run_invariant (fun at_ => invariant at_.2) kept initially (everyStep_of_mem every) arrived
  -- Returning hands over the state reached.
  split at ended
  · cases Option.some.inj ended
    exact held
  · cases ended

/-- The factory test and other threads leave everything alone but keys, inputs, outputs, and messages. -/
def SameTask (before after : Controller) : Prop :=
  after.doorOpen = before.doorOpen ∧ after.lockTime = before.lockTime ∧
    after.fireMachineOpen = before.fireMachineOpen ∧ after.smokeReport = before.smokeReport

/-- A statement of the test writes no more than pins, alarm bits, and key events. -/
theorem factoryStep_writes (fileOk : Bool) (pc : FactoryPc) (c : Controller) :
    ∃ doorPin alarmPin output key, (factoryStep fileOk pc c).2 =
      { c with doorPin := doorPin, alarmPin := alarmPin, extio := { c.extio with output := output, key := key } } := by
  cases pc with
  | awaitLine num =>
    -- Waiting and going on differ in the program counter only.
    rw [factoryStep]
    split <;> exact ⟨_, _, _, _, rfl⟩
  | _ => exact ⟨_, _, _, _, rfl⟩

/-- No statement of the test touches the other variables of the task, the calls, or the supervised lines. -/
theorem factoryStep_frame (fileOk : Bool) (pc : FactoryPc) (c : Controller) :
    SameTask c (factoryStep fileOk pc c).2 ∧ (factoryStep fileOk pc c).2.remoteOpen = c.remoteOpen ∧
      (factoryStep fileOk pc c).2.calls = c.calls ∧
      (factoryStep fileOk pc c).2.extio.check = c.extio.check := by
  -- None of these is among what the test writes.
  obtain ⟨_, _, _, _, same⟩ := factoryStep_writes fileOk pc c
  rw [same]
  exact ⟨⟨rfl, rfl, rfl, rfl⟩, rfl, rfl, rfl⟩

/-- One event of the factory test keeps the locals and private flags of `misc_task`. -/
theorem factoryEvent_sameTask {fireMachine : Bool} {before after : FactoryPc × Controller}
    {event : FactoryEvent} (taken : factoryEvent fireMachine before event = some after) :
    SameTask before.2 after.2 := by
  cases event with
  | surround event =>
    cases Option.some.inj taken
    obtain ⟨door, lock, fire, report, _⟩ := surround_frame fireMachine event before.2
    exact ⟨door, lock, fire, report⟩
  | step fileOk =>
    rw [factoryEvent] at taken
    split at taken
    · cases taken
    · cases Option.some.inj taken
      exact (factoryStep_frame fileOk before.1 before.2).1

/-- A complete factory test keeps the locals and private flags of `misc_task`. -/
theorem factoryTestcase_sameTask {fireMachine : Bool} {schedule : List FactoryEvent}
    {before after : Controller}
    (ran : factoryTestcase fireMachine schedule before = some after) : SameTask before after := by
  have initially : SameTask before before := ⟨rfl, rfl, rfl, rfl⟩
  refine factoryTestcase_invariant (SameTask before) ?_ initially (fun _ _ => trivial) ran
  intro at_ event next held _ taken
  obtain ⟨door, lock, fire, report⟩ := factoryEvent_sameTask taken
  exact ⟨door.trans held.1, lock.trans held.2.1, fire.trans held.2.2.1, report.trans held.2.2.2⟩

/-- The event is a message CMD_DOWN_DOOR. -/
def FactoryEvent.isDoor : FactoryEvent → Bool
  | .surround event => event.isDoor
  | .step _ => false

/-- A complete factory test during which no message arrives keeps the remote request. -/
theorem factoryTestcase_remoteOpen {fireMachine : Bool} {schedule : List FactoryEvent}
    {before after : Controller} (quiet : ∀ event ∈ schedule, event.isDoor = false)
    (ran : factoryTestcase fireMachine schedule before = some after) :
    after.remoteOpen = before.remoteOpen := by
  refine factoryTestcase_invariant (fun c => c.remoteOpen = before.remoteOpen) ?_ rfl quiet ran
  intro at_ event next held silent taken
  cases event with
  | surround event =>
    cases Option.some.inj taken
    exact (surround_remoteOpen fireMachine event at_.2 silent).trans held
  | step fileOk =>
    rw [factoryEvent] at taken
    split at taken
    · cases taken
    · cases Option.some.inj taken
      exact (factoryStep_frame fileOk at_.1 at_.2).2.1.trans held

end PkeFire
