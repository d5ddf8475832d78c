import PkeFire.Misc.FactoryTest
import PkeFire.Run.Waiting

/-! What the input test of `factory_testcase` waits for, in which order, and how the outputs are meanwhile. -/

namespace PkeFire

/-- What the input test waits for. -/
inductive FactoryGoal where
  /-- A press of the set key. -/
  | setKey
  /-- A press of the open key. -/
  | openKey
  /-- The mains supply has failed. -/
  | powerdown
  /-- The emergency line is active. -/
  | emergency
  /-- The serial line `num` is high. -/
  | line (num : Fin 24)
  deriving DecidableEq, Repr

/-- The condition under which `factory_input_test` goes on. -/
def FactoryGoal.meets : FactoryGoal → Extio → Bool
  | .setKey, extio => extio.keySta extioSetKey = .press
  | .openKey, extio => extio.keySta extioOpenKey = .press
  | .powerdown, extio => extio.isCheck extioCheckPowerdown
  | .emergency, extio => extio.isCheck extioCheckEmergency
  | .line num, extio => !extio.isSmoke num

/-- The serial lines from some number on. -/
def lineGoals (num : Nat) : List FactoryGoal :=
  ((List.finRange 24).drop num).map .line

/-- Everything that the input test waits for, in its order. -/
def factoryGoals : List FactoryGoal :=
  .setKey :: .openKey :: .powerdown :: .emergency :: lineGoals 0

namespace FactoryPc

/-- The test looks at an input, and stays where it is unless the input is as it should be. -/
def polls : FactoryPc → Bool
  | .awaitSetKey | .awaitOpenKey | .awaitPowerdown | .awaitEmergency | .awaitLine _ => true
  | _ => false

/-- What the input test has still to wait for. -/
def pending : FactoryPc → List FactoryGoal
  | .clearSetKey | .awaitOpenKey => .openKey :: .powerdown :: .emergency :: lineGoals 0
  | .clearOpenKey | .awaitPowerdown => .powerdown :: .emergency :: lineGoals 0
  | .awaitEmergency => .emergency :: lineGoals 0
  | .awaitLine num => lineGoals num
  | .returned => []
  -- The input test comes last.
  | _ => factoryGoals

/-- The test has gone through the alarms. -/
def afterAlarms : FactoryPc → Bool
  | .awaitSetKey | .clearSetKey | .awaitOpenKey | .clearOpenKey | .awaitPowerdown | .awaitEmergency
  | .awaitLine _ | .returned => true
  | _ => false

end FactoryPc

/-- What the input test looks at in a step. -/
def polled (at_ : FactoryPc × Controller) : FactoryEvent → Option Extio
  | .surround _ => none
  | .step _ => if at_.1.polls then some at_.2.extio else none

/-- How the file system has turned out in the first step of the test, if there has been one. -/
def fileSystem (schedule : List FactoryEvent) : Option Bool :=
  schedule.findSome? fun
    | .surround _ => none
    | .step fileOk => some fileOk

/-- The event is a shell command. -/
def FactoryEvent.isShell : FactoryEvent → Bool
  | .surround event => event.drivesPin
  | .step _ => false

/-- The outputs that the alarm test is done with are off. -/
def OutputsDone (at_ : FactoryPc × Controller) : Prop :=
  match at_.1 with
  | .clrAlarm i => at_.2.alarmPin = false ∧ ∀ j < i.val, bitAt at_.2.extio.output j = false
  | .doorLock => at_.2.alarmPin = false ∧ at_.2.extio.output = 0
  | pc => pc.afterAlarms = true → at_.2.doorPin = false ∧ at_.2.alarmPin = false ∧ at_.2.extio.output = 0

section

variable {at_ next : FactoryPc × Controller} {fireMachine : Bool}

/-- The lines from some number on begin with the line of that number. -/
theorem lineGoals_cons {num : Nat} (within : num < 24) :
    lineGoals num = .line ⟨num, within⟩ :: lineGoals (num + 1) := by
  rw [lineGoals, List.drop_eq_getElem_cons (by simpa using within), List.map_cons, List.getElem_finRange, lineGoals]
  rfl

/-- Behind the last line nothing is waited for. -/
theorem lineGoals_end : lineGoals 24 = [] := rfl

/-- One step meets the goal that is waited for, if what it looks at is as it should be. -/
theorem factoryStep_pending {fileOk : Bool} {pc : FactoryPc} (c : Controller)
    (works : pc = .filesystem → fileOk = true) :
    (factoryStep fileOk pc c).1.pending =
      (polled (pc, c) (.step fileOk)).toList.foldl (meetNext FactoryGoal.meets) pc.pending := by
  -- Only the steps that wait depend on what they see.
  cases pc with
  | filesystem =>
    rw [works rfl]
    rfl
  | setAlarm i =>
    -- The alarm test waits for nothing.
    rw [factoryStep]
    split <;> rfl
  | clrAlarm i =>
    rw [factoryStep]
    split <;> rfl
  | awaitSetKey =>
    -- A wait ends when the key has its state, and its goal is met with it.
    show (if _ then _ else _ : FactoryPc).pending = meetNext _ (.setKey :: _) c.extio
    simp only [meetNext, FactoryGoal.meets, decide_eq_true_eq]
    split <;> rfl
  | awaitOpenKey =>
    show (if _ then _ else _ : FactoryPc).pending = meetNext _ (.openKey :: _) c.extio
    simp only [meetNext, FactoryGoal.meets, decide_eq_true_eq]
    split <;> rfl
  | awaitPowerdown =>
    show (if _ then _ else _ : FactoryPc).pending = meetNext _ (.powerdown :: _) c.extio
    rw [meetNext, FactoryGoal.meets]
    split <;> rfl
  | awaitEmergency =>
    show (if _ then _ else _ : FactoryPc).pending = meetNext _ (.emergency :: _) c.extio
    rw [meetNext, FactoryGoal.meets]
    split <;> rfl
  | awaitLine num =>
    -- The lines are waited for one after the other.
    show _ = meetNext _ (lineGoals num) c.extio
    rw [lineGoals_cons num.isLt, meetNext, FactoryGoal.meets, factoryStep]
    cases low : c.extio.isSmoke num with
    | true => exact lineGoals_cons num.isLt
    | false =>
      -- The last line leads to the end of the test.
      by_cases last : num.val + 1 < 24
      · simp only [Bool.false_eq_true, if_false, dif_pos last, Bool.not_false, if_true]
        rfl
      · have beyond : num.val + 1 = 24 := by omega
        simp only [Bool.false_eq_true, if_false, Bool.not_false, if_true, beyond, lineGoals_end]
        rfl
  | _ => rfl

/-- One event meets at most the goal that is waited for. -/
theorem factoryEvent_pending {event : FactoryEvent} (works : at_.1 = .filesystem → event ≠ .step false)
    (taken : factoryEvent fireMachine at_ event = some next) :
    next.1.pending = (polled at_ event).toList.foldl (meetNext FactoryGoal.meets) at_.1.pending := by
  cases event with
  | surround event =>
    cases Option.some.inj taken
    rfl
  | step fileOk =>
    rw [factoryEvent] at taken
    split at taken
    · cases taken
    · cases Option.some.inj taken
      -- Only the first step has a verdict to look at.
      refine factoryStep_pending at_.2 fun first => ?_
      cases fileOk with
      | true => rfl
      | false => exact absurd rfl (works first)

/-- The test has returned when nothing is waited for. -/
theorem FactoryPc.pending_eq_nil {pc : FactoryPc} : pc.pending = [] ↔ pc = .returned := by
  cases pc with
  | awaitLine num =>
    rw [pending, lineGoals_cons num.isLt]
    simp
  | _ => simp [pending, factoryGoals]

/-- No step leads back to the file system. -/
theorem factoryStep_ne_filesystem (fileOk : Bool) (pc : FactoryPc) (c : Controller) :
    (factoryStep fileOk pc c).1 ≠ .filesystem := by
  cases pc <;> simp only [factoryStep] <;> (repeat' split) <;> exact FactoryPc.noConfusion

/-- Behind the file system, no event leads back to it. -/
theorem factoryEvent_ne_filesystem {event : FactoryEvent} (behind : at_.1 ≠ .filesystem)
    (taken : factoryEvent fireMachine at_ event = some next) : next.1 ≠ .filesystem := by
  cases event with
  | surround event =>
    cases Option.some.inj taken
    exact behind
  | step fileOk =>
    rw [factoryEvent] at taken
    split at taken
    · cases taken
    · cases Option.some.inj taken
      exact factoryStep_ne_filesystem fileOk at_.1 at_.2

/-- The file system works. -/
def FileWorks (at_ : FactoryPc × Controller) (event : FactoryEvent) : Prop :=
  at_.1 = .filesystem → event ≠ .step false

/-- Behind the file system, it does not matter any more how it has turned out. -/
theorem fileWorks_behind (behind : at_.1 ≠ .filesystem) (schedule : List FactoryEvent) :
    EveryStep (factoryEvent fireMachine) FileWorks at_ schedule := by
  have always : EveryStep (factoryEvent fireMachine) (fun _ _ => True) at_ schedule :=
    everyStep_of_forall (fun _ _ => trivial) at_ schedule
  have held := always.with_invariant (fun at_ => at_.1 ≠ .filesystem)
    (fun _ _ _ behind _ taken => factoryEvent_ne_filesystem behind taken) behind
  exact held.mono fun at_ _ both first => absurd first both.1

/-- Unless the first step fails, the file system works. -/
theorem fileWorks_of_ne {schedule : List FactoryEvent} (works : fileSystem schedule ≠ some false) (c : Controller) :
    EveryStep (factoryEvent fireMachine) FileWorks (.filesystem, c) schedule := by
  -- The first step is the one of the file system.
  induction schedule generalizing c with
  | nil => trivial
  | cons event schedule ih =>
    cases event with
    | surround event =>
      refine ⟨fun _ same => (by cases same), fun next taken => ?_⟩
      cases Option.some.inj taken
      exact ih works _
    | step fileOk =>
      cases fileOk with
      | false => exact absurd rfl works
      | true =>
        refine ⟨fun _ same => (by cases same), fun next taken => ?_⟩
        cases Option.some.inj taken
        exact fileWorks_behind FactoryPc.noConfusion schedule

/-- A failed file system ends the test. -/
theorem returned_of_fails {schedule : List FactoryEvent} {c finish : Controller} {pc : FactoryPc}
    (fails : fileSystem schedule = some false)
    (ran : run (factoryEvent fireMachine) (.filesystem, c) schedule = some (pc, finish)) : pc = .returned := by
  -- The induction takes the first event, which may come before the check of the file system.
  induction schedule generalizing c with
  | nil => cases fails
  | cons event schedule ih =>
    rw [run_cons, Option.bind_eq_some_iff] at ran
    obtain ⟨next, taken, ran⟩ := ran
    cases event with
    | surround event =>
      cases Option.some.inj taken
      exact ih fails ran
    | step fileOk =>
      cases fileOk with
      | true => cases fails
      | false =>
        cases Option.some.inj taken
        -- Behind its end, the test does nothing more.
        have always : EveryStep (factoryEvent fireMachine) (fun _ _ => True) (.returned, c) schedule :=
          -- The end is kept by every event.
          everyStep_of_forall (fun _ _ => trivial) _ _
        refine run_invariant (fun at_ : FactoryPc × Controller => at_.1 = .returned) ?_ rfl always ran
        intro at_ event next ended _ taken
        cases event with
        | surround event =>
          cases Option.some.inj taken
          exact ended
        | step fileOk =>
          rw [factoryEvent, if_pos ended] at taken
          cases taken

/-- No other thread touches the outputs, unless it is a shell command. -/
theorem surround_outputs {event : Surrounding} (quiet : event.drivesPin = false) (c : Controller) :
    (surround fireMachine event c).doorPin = c.doorPin ∧ (surround fireMachine event c).alarmPin = c.alarmPin ∧
      (surround fireMachine event c).extio.output = c.extio.output := by
  obtain ⟨_, _, _, _, alarm, output, _⟩ := surround_frame fireMachine event c
  exact ⟨surround_doorPin fireMachine event c quiet, alarm, output⟩

/-- Whatever leaves the outputs alone leaves them switched off. -/
theorem OutputsDone.congr {pc : FactoryPc} {c other : Controller} (done : OutputsDone (pc, c))
    (door : other.doorPin = c.doorPin) (alarm : other.alarmPin = c.alarmPin)
    (output : other.extio.output = c.extio.output) : OutputsDone (pc, other) := by
  cases pc <;> simp only [OutputsDone, door, alarm, output] <;> exact done

/-- One step of the test keeps what it has switched off. -/
theorem OutputsDone.step {fileOk : Bool} {pc : FactoryPc} {c : Controller} (done : OutputsDone (pc, c))
    (works : pc = .filesystem → fileOk = true) : OutputsDone (factoryStep fileOk pc c) := by
  cases pc with
  -- Before the alarm test ends, nothing has been promised.
  | filesystem =>
    rw [works rfl]
    exact fun never => by cases never
  | nbiot | mainAlarmOn | doorUnlock => exact fun never => by cases never
  | setAlarm i =>
    rw [factoryStep]
    split <;> exact fun never => by cases never
  | mainAlarmOff => exact ⟨rfl, fun j below => absurd below (Nat.not_lt_zero j)⟩
  | clrAlarm i =>
    obtain ⟨alarm, cleared⟩ := done
    -- One more bit of the output is clear.
    have bits (j : Nat) (below : j < i.val + 1) : bitAt (c.extio.clrAlarm i).output j = false := by
      rw [Extio.clrAlarm, bitAt_and_not_bitMask _ i.isLt (by omega)]
      by_cases own : i.val = j
      · simp [own]
      · rw [cleared j (by omega), Bool.false_and]
    by_cases last : i.val + 1 < 8
    · simp only [factoryStep, dif_pos last]
      exact ⟨alarm, bits⟩
    · simp only [factoryStep, dif_neg last]
      -- When the last bit is clear, so is the byte.
      refine ⟨alarm, eq_of_bitAt _ fun j => ?_⟩
      rw [bits j (by omega)]
      revert j
      decide
  | doorLock => exact fun _ => ⟨rfl, done.1, done.2⟩
  | clearSetKey | clearOpenKey => exact fun _ => done rfl
  | awaitSetKey | awaitOpenKey | awaitPowerdown | awaitEmergency =>
    -- Waiting for an input changes no output.
    simp only [factoryStep]
    split <;> exact fun _ => done rfl
  | awaitLine num =>
    simp only [factoryStep]
    repeat' split
    all_goals exact fun _ => done rfl
  | returned => exact done

/-- Without shell commands, the outputs stay off behind the test of the alarms. -/
theorem OutputsDone.event {event : FactoryEvent} (done : OutputsDone at_) (works : FileWorks at_ event)
    (quiet : event.isShell = false) (taken : factoryEvent fireMachine at_ event = some next) : OutputsDone next := by
  cases event with
  | surround event =>
    cases Option.some.inj taken
    -- Another thread that is no shell command drives nothing.
    obtain ⟨door, alarm, output⟩ := surround_outputs quiet at_.2
    exact done.congr door alarm output
  | step fileOk =>
    rw [factoryEvent] at taken
    split at taken
    · cases taken
    · cases Option.some.inj taken
      refine done.step fun first => ?_
      cases fileOk with
      | true => rfl
      | false => exact absurd rfl (works first)

end

/--
A factory test comes to its end if and only if its file system fails, or everything it waits for is met in its order.

Meanwhile the door stays locked and all alarms off, whatever the inputs are.
-/
theorem factory_order (fireMachine : Bool) (schedule : List FactoryEvent) (c finish : Controller) (pc : FactoryPc)
    (ran : run (factoryEvent fireMachine) (.filesystem, c) schedule = some (pc, finish)) :
    (pc = .returned ↔ fileSystem schedule = some false ∨ MetInOrder FactoryGoal.meets factoryGoals
      (observations (factoryEvent fireMachine) polled (.filesystem, c) schedule)) ∧
    ((∀ event ∈ schedule, event.isShell = false) → fileSystem schedule ≠ some false → pc.afterAlarms = true →
      finish.doorPin = false ∧ finish.alarmPin = false ∧ finish.extio.output = 0) := by
  constructor
  · by_cases fails : fileSystem schedule = some false
    · exact ⟨fun _ => Or.inl fails, fun _ => returned_of_fails fails ran⟩
    · have left := pending_run (fun at_ : FactoryPc × Controller => at_.1.pending)
        (fun _ _ _ works taken => factoryEvent_pending works taken) (fileWorks_of_ne fails c) ran
      -- The test is over when no goal is left.
      have met : pc.pending = [] ↔ _ := left ▸ foldl_meetNext_eq_nil
      rw [← FactoryPc.pending_eq_nil, met]
      exact ⟨Or.inr, fun either => either.resolve_left fails⟩
  · intro quiet works after
    have working : EveryStep (factoryEvent fireMachine) FileWorks (.filesystem, c) schedule := fileWorks_of_ne works c
    have every := working.and (everyStep_of_mem quiet)
    have started : OutputsDone (.filesystem, c) := fun never => by cases never
    have done : OutputsDone (pc, finish) :=
      run_invariant OutputsDone (fun _ _ _ done both taken => done.event both.1 both.2 taken) started every ran
    cases pc <;> first | exact done after | cases after

/-- A controller on which both keys have been pressed, without mains supply, and in an emergency. -/
def readyForTest : Controller :=
  { controllerInit with extio := { extioInit with
      key := { extioInit.key with sta := .replicate 2 .press }
      check := { extioInit.check with sta := .replicate 2 true } } }

/-- Such a controller goes through the whole test in fifty-two steps, and has met everything in order. -/
theorem factory_order_ready :
    ∃ finish, run (factoryEvent true) (.filesystem, readyForTest) (.replicate 52 (.step true)) =
      some (.returned, finish) ∧ MetInOrder FactoryGoal.meets factoryGoals
        (observations (factoryEvent true) polled (.filesystem, readyForTest) (.replicate 52 (.step true))) := by
  have ended : (run (factoryEvent true) (.filesystem, readyForTest) (.replicate 52 (.step true))).map Prod.fst =
      some .returned := by decide +kernel
  obtain ⟨⟨pc, finish⟩, ran, rfl⟩ := Option.map_eq_some_iff.mp ended
  have both := factory_order true (.replicate 52 (.step true)) readyForTest finish .returned ran
  exact ⟨finish, ran, (both.1.mp rfl).resolve_left (by decide)⟩

end PkeFire
