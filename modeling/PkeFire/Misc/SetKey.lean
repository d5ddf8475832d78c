import PkeFire.Extio.Keys
import PkeFire.Misc.Emergency

/-! Whether the event of the set key is consumed in every iteration, so that the next press of it is served. -/

namespace PkeFire

/-- The level that an event samples of the set key. -/
def TaskEvent.setLevel? : TaskEvent → Option Bool
  | .surround (.scan pins) => some pins.setKey
  | _ => none

/-- The levels sampled of the set key in a run, oldest first. -/
def setLevels (events : List TaskEvent) : List Bool :=
  events.filterMap TaskEvent.setLevel?

/-- The set key is up in a scan, and the event does not leave the iteration in progress. -/
def Resting (t : Task) (event : TaskEvent) : Prop :=
  SameIteration t event ∧ ∀ level ∈ event.setLevel?, level = true

/-- The set key is up in a scan, and a statement is neither the test for a press nor the sleep of a stopped task. -/
def BeforeTest (t : Task) (event : TaskEvent) : Prop :=
  match event with
  | .surround _ => ∀ level ∈ event.setLevel?, level = true
  | .step _ => t.pc ≠ .setPress ∧ (t.pc = .top → t.c.runStopFlag = true)

/-- The test of the set key finds the press, and starts the factory test. -/
def StartsTest (fireMachine : Bool) (t : Task) : Prop :=
  ∀ choice again, (taskStep fireMachine again (taskStep fireMachine choice t)).pc = .factory .filesystem

/-- A press of three to twenty scans is reported, and the next test of the set key, within reach, starts the test. -/
def PressServed (fireMachine : Bool) (ended : Task) : Prop :=
  ∀ press released pressed, (∀ level ∈ setLevels press, level = false) → 3 ≤ (setLevels press).length →
    (setLevels press).length ≤ 20 → released.setKey = true →
    run (taskEvent fireMachine) ended (press ++ [.surround (.scan released)]) = some pressed →
    pressed.c.extio.keySta extioSetKey = .press ∧
      ∀ rest tested, EveryStep (taskEvent fireMachine) BeforeTest pressed rest →
        run (taskEvent fireMachine) pressed rest = some tested →
          occurrences (taskEvent fireMachine) isStatement pressed rest ≤ 14 ∧
            (tested.pc = .setPress → StartsTest fireMachine tested)

/--
A complete iteration in which the set key is up consumes its event, and the next press is served.

The set key has been up in its last scan when the iteration begins.
-/
def SetKeyRecovers : Prop :=
  ∀ fireMachine history begun iteration ended,
    run (taskEvent fireMachine) taskInit history = some begun → (setLevels history).getLast? = some true →
    begun.pc = .top → EveryStep (taskEvent fireMachine) Resting begun iteration →
    run (taskEvent fireMachine) begun iteration = some ended → ended.pc = .delay →
      ended.c.extio.keySta extioSetKey = .release ∧ PressServed fireMachine ended

/-- Where the set key is found to be held, the open key is found to be held as well. -/
def BothHeld (t : Task) : TaskEvent → Prop
  | .surround _ => True
  | .step _ => t.pc = .openKeep → t.c.extio.keySta extioOpenKey = .keep

instance (t : Task) : DecidablePred (Resting t) :=
  fun event => inferInstanceAs (Decidable (SameIteration t event ∧ ∀ level ∈ event.setLevel?, level = true))

instance (t : Task) : DecidablePred (BothHeld t)
  | .surround _ => inferInstanceAs (Decidable True)
  | .step _ => inferInstanceAs (Decidable (t.pc = .openKeep → t.c.extio.keySta extioOpenKey = .keep))

/-- The statements that consume the event of the set key. -/
def Pc.clearsSet : Pc → Bool
  | .clearSetKey | .factory .clearSetKey | .clearSetKeep => true
  | _ => false

/-- The statements that are made only because of an event at the set key. -/
def Pc.servesSet : Pc → Bool
  | .clearSetKey | .factory _ | .openKeep | .clearSetKeep => true
  | _ => false

/-- How many statements a task that serves no event of the set key is away from its test for a press, at most. -/
def Pc.untilTest : Pc → Nat
  | .setKeep | .clearOpenKeep => 14
  | .delay => 13
  | pc => pc.remaining - 5

section

variable {fireMachine : Bool} {t next : Task} {event : TaskEvent}

/-- Of the other threads, only a scan touches the set key. -/
theorem surround_setKey (event : Surrounding) (c : Controller) :
    (surround fireMachine event c).extio.key.line extioSetKey =
      (TaskEvent.surround event).setLevel?.elim (c.extio.key.line extioSetKey)
        (c.extio.key.line extioSetKey).scan := by
  cases event with
  | scan pins =>
    -- The set key is the first of the two levels.
    exact extioKeyScan_line c.extio.key _ extioSetKey
  | shell argv =>
    -- The command for the door writes its pin only.
    obtain ⟨pin, same⟩ := miscDoorOpen_frame argv c
    simp only [surround, same, TaskEvent.setLevel?, Option.elim_none]
  | _ => rfl

/-- A statement leaves the set key alone, or consumes its event. -/
theorem taskStep_setKey (fireMachine : Bool) (choice : Choice) (t : Task) :
    (taskStep fireMachine choice t).c.extio.key.line extioSetKey =
      if t.pc.clearsSet then { t.c.extio.key.line extioSetKey with sta := .release }
      else t.c.extio.key.line extioSetKey := by
  obtain ⟨pc, opens, c⟩ := t
  -- The two keys have different lines, so that clearing one leaves the other.
  have other : extioOpenKey ≠ extioSetKey := by decide
  have untouched : (c.extio.keyClr extioOpenKey).key.line extioSetKey = c.extio.key.line extioSetKey :=
    (keyClr_line c.extio extioOpenKey).trans (if_neg other)
  have consumed : (c.extio.keyClr extioSetKey).key.line extioSetKey =
      { c.extio.key.line extioSetKey with sta := .release } :=
    (keyClr_line c.extio extioSetKey).trans (if_pos rfl)
  cases pc with
  | clearOpenKey | clearOpenKeep => exact untouched
  | clearSetKey | clearSetKeep => exact consumed
  | opening =>
    simp only [taskStep]
    split <;> rfl
  | announce =>
    -- Sounding the alarms writes the output byte only.
    obtain ⟨floor, described⟩ := Controller.describeOpening_frame choice.stack c
    simp only [taskStep, described]
    split <;> rfl
  | closing =>
    simp only [taskStep, Controller.countQuiet]
    split <;> [split; skip] <;> rfl
  | powerdown => exact congrArg (fun extio => extio.key.line extioSetKey) (reportPowerdown_supervised c).extio
  | smokeReport =>
    cases fireMachine with
    | true => exact congrArg (fun extio => extio.key.line extioSetKey) (miscSmokeReport_supervised c).extio
    | false => rfl
  | saveConfig => exact congrArg (fun extio => extio.key.line extioSetKey) (tickSave_supervised c).extio
  | factory pc =>
    -- The factory test consumes the events of both keys.
    cases pc with
    | clearSetKey => exact consumed
    | clearOpenKey => exact untouched
    | awaitLine num =>
      simp only [taskStep, factoryStep]
      split <;> rfl
    | _ => rfl
  | _ => rfl

/-- No event changes the time of the set key but a scan of it. -/
theorem setKey_time (unsampled : event.setLevel? = none) (taken : taskEvent fireMachine t event = some next) :
    (next.c.extio.key.line extioSetKey).time = (t.c.extio.key.line extioSetKey).time := by
  cases event with
  | surround event =>
    cases Option.some.inj taken
    simp only [surround_setKey, unsampled, Option.elim_none]
  | step choice =>
    cases Option.some.inj taken
    rw [taskStep_setKey]
    split <;> rfl

/-- A set key that was up in its last scan has no time. -/
theorem setTime_up {history : List TaskEvent} (ran : run (taskEvent fireMachine) taskInit history = some t)
    (up : (setLevels history).getLast? = some true) : (t.c.extio.key.line extioSetKey).time = 0 := by
  refine history_invariant (fun history t => (setLevels history).getLast? = some true →
    (t.c.extio.key.line extioSetKey).time = 0) ?_ (fun up => by cases up) ran up
  intro seen t event next _ held taken up
  cases sampled : event.setLevel? with
  | none =>
    -- The last sample is an earlier one.
    have same : setLevels (seen ++ [event]) = setLevels seen := by simp [setLevels, sampled]
    rw [same] at up
    exact (setKey_time sampled taken).trans (held up)
  | some level =>
    have high : level = true := by simpa [setLevels, sampled] using up
    cases event with
    | step choice => cases sampled
    | surround event =>
      cases Option.some.inj taken
      simp only [surround_setKey, sampled, Option.elim_some, high, KeyLine.scan, if_true]

/-- While the key is up and has no time, no other thread touches it. -/
theorem surround_resting {event : Surrounding} {c : Controller} (up : (c.extio.key.line extioSetKey).time = 0)
    (high : ∀ level ∈ (TaskEvent.surround event).setLevel?, level = true) :
    (surround fireMachine event c).extio.key.line extioSetKey = c.extio.key.line extioSetKey := by
  rw [surround_setKey]
  cases sampled : (TaskEvent.surround event).setLevel? with
  | none => rfl
  | some level =>
    -- The scan of a key without time reports nothing.
    have idle : ¬(c.extio.key.line extioSetKey).time > 2 := by omega
    rw [Option.elim_some, high level sampled, KeyLine.scan, if_pos rfl, if_neg (fun both => idle both.2), ← up]

/-- What is known about the event of a resting set key at a statement that depends on it. -/
def Task.Settles (t : Task) : Prop :=
  match t.pc with
  | .factory _ | .clearOpenKeep => t.c.extio.keySta extioSetKey = .release
  | .setKeep => t.c.extio.keySta extioSetKey ≠ .press
  | .openKeep => t.c.extio.keySta extioSetKey = .keep
  | _ => True

/-- Every statement leads to what is known at the next one. -/
theorem Task.Settles.taskStep (settles : t.Settles) (choice : Choice) : (taskStep fireMachine choice t).Settles := by
  have line := taskStep_setKey fireMachine choice t
  have sta := congrArg KeyLine.sta line
  obtain ⟨pc, opens, c⟩ := t
  cases pc with
  | clearSetKey => exact sta
  | clearSetKeep => exact sta
  | factory pc =>
    -- The event has been consumed before the test, and nothing in the test brings it back.
    have before : (c.extio.key.line extioSetKey).sta = .release := settles
    have released : (PkeFire.taskStep fireMachine choice ⟨.factory pc, opens, c⟩).c.extio.keySta extioSetKey =
        .release := by
      refine sta.trans ?_
      split
      · rfl
      · exact before
    by_cases returned : pc = .returned
    · subst returned
      exact fun pressed => by cases released.symm.trans pressed
    · rw [taskStep_factory choice opens c returned] at released ⊢
      exact released
  | setPress =>
    simp only [PkeFire.taskStep]
    split
    · trivial
    · -- The test for a hold comes after a test that has found no press.
      rename_i unpressed
      exact unpressed
  | setKeep =>
    simp only [PkeFire.taskStep]
    split
    · -- The open key is only looked at while the set key is held.
      rename_i held
      exact held
    · trivial
  | closing =>
    simp only [PkeFire.taskStep]
    split <;> [split; skip] <;> trivial
  | top | evalOpen | opening | openKeep =>
    -- Neither branch leads to a statement that depends on the event.
    simp only [PkeFire.taskStep]
    split <;> trivial
  | _ => trivial

/-- What is known about the event survives the other threads while the key rests. -/
theorem Task.Settles.surround {event : Surrounding} (settles : t.Settles)
    (up : (t.c.extio.key.line extioSetKey).time = 0)
    (high : ∀ level ∈ (TaskEvent.surround event).setLevel?, level = true) :
    Task.Settles { t with c := PkeFire.surround fireMachine event t.c } := by
  have sta : (PkeFire.surround fireMachine event t.c).extio.keySta extioSetKey = t.c.extio.keySta extioSetKey :=
    congrArg KeyLine.sta (surround_resting up high)
  rw [Settles] at settles ⊢
  simp only [sta]
  exact settles

/-- An event of a resting iteration keeps the set key without time, and what is known about it. -/
theorem settles_event (settles : t.Settles) (up : (t.c.extio.key.line extioSetKey).time = 0)
    (high : ∀ level ∈ event.setLevel?, level = true) (taken : taskEvent fireMachine t event = some next) :
    next.Settles ∧ (next.c.extio.key.line extioSetKey).time = 0 := by
  cases event with
  | surround event =>
    cases Option.some.inj taken
    exact ⟨settles.surround up high, by rw [surround_resting up high]; exact up⟩
  | step choice =>
    refine ⟨?_, (setKey_time rfl taken).trans up⟩
    cases Option.some.inj taken
    exact settles.taskStep choice

/-- While the task sleeps at the end of an iteration, it stays asleep, and nothing changes a resting set key. -/
theorem asleep_event {line : KeyLine} (up : line.time = 0) (asleep : t.pc = .delay)
    (same : t.c.extio.key.line extioSetKey = line) (resting : Resting t event)
    (taken : taskEvent fireMachine t event = some next) :
    next.pc = .delay ∧ next.c.extio.key.line extioSetKey = line := by
  cases event with
  -- The next statement would begin another iteration.
  | step choice => exact absurd asleep resting.1
  | surround event =>
    cases Option.some.inj taken
    exact ⟨asleep, (surround_resting (by rw [same]; exact up) resting.2).trans same⟩

/-- What follows the end of an iteration leaves a resting set key alone, and looks at no key. -/
theorem asleep_run {finish : Task} {events : List TaskEvent} (asleep : t.pc = .delay)
    (up : (t.c.extio.key.line extioSetKey).time = 0)
    (resting : EveryStep (taskEvent fireMachine) Resting t events)
    (ran : run (taskEvent fireMachine) t events = some finish) :
    finish.c.extio.key.line extioSetKey = t.c.extio.key.line extioSetKey ∧
      EveryStep (taskEvent fireMachine) BothHeld t events := by
  let invariant : Task → Prop := fun other =>
    other.pc = .delay ∧ other.c.extio.key.line extioSetKey = t.c.extio.key.line extioSetKey
  have kept : ∀ other event next, invariant other → Resting other event →
      taskEvent fireMachine other event = some next → invariant next :=
    fun _ _ _ held rests taken => asleep_event up held.1 held.2 rests taken
  refine ⟨(run_invariant invariant kept ⟨asleep, rfl⟩ resting ran).2, ?_⟩
  refine (resting.with_invariant invariant kept ⟨asleep, rfl⟩).mono ?_
  rintro other event ⟨⟨delayed, _⟩, _⟩
  cases event with
  | surround event => trivial
  | step choice =>
    -- A sleeping task does not look at the open key.
    intro looks
    rw [delayed] at looks
    cases looks

/-- An iteration ends where neither key needs to be served, or where the open key is not held. -/
theorem delay_cases {choice : Choice} (ends : (taskStep fireMachine choice t).pc = .delay) :
    t.pc = .setKeep ∧ t.c.extio.keySta extioSetKey ≠ .keep ∨
      t.pc = .openKeep ∧ t.c.extio.keySta extioOpenKey ≠ .keep ∨ t.pc = .clearOpenKeep := by
  obtain ⟨pc, opens, c⟩ := t
  cases pc with
  | setKeep =>
    -- A set key that is held leads on to the open key.
    refine Or.inl ⟨rfl, fun held => ?_⟩
    simp only [taskStep, if_pos held] at ends
    cases ends
  | openKeep =>
    -- An open key that is held as well leads on to clearing both.
    refine Or.inr (Or.inl ⟨rfl, fun held => ?_⟩)
    simp only [taskStep, if_pos held] at ends
    cases ends
  | clearOpenKeep => exact Or.inr (Or.inr rfl)
  | closing =>
    simp only [taskStep] at ends
    split at ends <;> [split at ends; skip] <;> cases ends
  | top | evalOpen | opening | setPress =>
    -- Either branch leads elsewhere.
    simp only [taskStep] at ends
    split at ends <;> cases ends
  | factory pc =>
    -- The test ends in front of the tests for a hold.
    by_cases returned : pc = .returned
    · subst returned
      cases ends
    · rw [taskStep_factory choice opens c returned] at ends
      cases ends
  | _ => cases ends

/-- A statement that ends an iteration leaves no event exactly if it finds both keys held, or looks at neither. -/
theorem delay_iff_bothHeld {choice : Choice} (settles : t.Settles)
    (ends : (taskStep fireMachine choice t).pc = .delay) :
    (taskStep fireMachine choice t).c.extio.keySta extioSetKey = .release ↔ BothHeld t (.step choice) := by
  have unchanged : t.pc.clearsSet = false →
      (taskStep fireMachine choice t).c.extio.keySta extioSetKey = t.c.extio.keySta extioSetKey := by
    intro keeps
    have line := congrArg KeyLine.sta (taskStep_setKey fireMachine choice t)
    rwa [keeps, if_neg Bool.false_ne_true] at line
  rcases delay_cases ends with ⟨at_, free⟩ | ⟨at_, free⟩ | at_
  · -- The event is neither a press nor a hold.
    have unpressed : t.c.extio.keySta extioSetKey ≠ .press := by simpa [Task.Settles, at_] using settles
    rw [unchanged (by rw [at_]; rfl)]
    refine ⟨fun _ looks => Pc.noConfusion (at_.symm.trans looks), fun _ => ?_⟩
    cases event : t.c.extio.keySta extioSetKey with
    | release => rfl
    | press => exact absurd event unpressed
    | keep => exact absurd event free
  · -- The set key is held alone, so its event stays.
    have held : t.c.extio.keySta extioSetKey = .keep := by simpa [Task.Settles, at_] using settles
    rw [unchanged (by rw [at_]; rfl), held]
    exact ⟨KeySta.noConfusion, fun both => absurd (both at_) free⟩
  · -- The event of the set key has been consumed just before that of the open key.
    have released : t.c.extio.keySta extioSetKey = .release := by simpa [Task.Settles, at_] using settles
    rw [unchanged (by rw [at_]; rfl)]
    exact ⟨fun _ looks => Pc.noConfusion (at_.symm.trans looks), fun _ => released⟩

/-- A resting iteration ends with the event consumed exactly if both keys are held where it finds the set key held. -/
theorem settled_iff_bothHeld {finish : Task} {events : List TaskEvent} (settles : t.Settles)
    (awake : t.pc ≠ .delay) (up : (t.c.extio.key.line extioSetKey).time = 0)
    (resting : EveryStep (taskEvent fireMachine) Resting t events)
    (ran : run (taskEvent fireMachine) t events = some finish) (ended : finish.pc = .delay) :
    finish.c.extio.keySta extioSetKey = .release ↔ EveryStep (taskEvent fireMachine) BothHeld t events := by
  induction events generalizing t with
  | nil =>
    cases Option.some.inj ran
    exact absurd ended awake
  | cons event rest ih =>
    rw [run_cons, Option.bind_eq_some_iff] at ran
    obtain ⟨next, taken, ran⟩ := ran
    obtain ⟨later, idle⟩ := settles_event settles up resting.1.2 taken
    have restful := resting.2 next taken
    rw [everyStep_cons taken]
    by_cases asleep : next.pc = .delay
    · -- The iteration ends here, with what the present statement leaves of the event.
      obtain ⟨same, nothing⟩ := asleep_run asleep idle restful ran
      have sta : finish.c.extio.keySta extioSetKey = next.c.extio.keySta extioSetKey := congrArg KeyLine.sta same
      rw [sta, iff_true_intro nothing, and_true]
      cases event with
      | surround event =>
        cases Option.some.inj taken
        exact absurd asleep awake
      | step choice =>
        have line := congrArg KeyLine.sta (taskStep_setKey fireMachine choice t)
        cases Option.some.inj taken
        exact delay_iff_bothHeld settles asleep
    · -- A statement that finds only the set key held would have ended the iteration.
      rw [ih later asleep idle restful ran]
      refine ⟨fun rest => ⟨?_, rest⟩, And.right⟩
      cases event with
      | surround event => trivial
      | step choice =>
        -- A hold of the set key alone would end the iteration.
        intro looks
        by_contra other
        cases Option.some.inj taken
        exact asleep (by simp only [taskStep, looks, if_neg other])

/-- A statement of a task that serves no event of the set key brings its next test for a press closer. -/
theorem untilTest_taskStep (fireMachine : Bool) (choice : Choice) (free : t.pc.servesSet = false)
    (before : t.pc ≠ .setPress) (running : t.pc = .top → t.c.runStopFlag = true)
    (unheld : t.c.extio.keySta extioSetKey ≠ .keep) :
    (taskStep fireMachine choice t).pc.servesSet = false ∧
      (taskStep fireMachine choice t).pc.untilTest < t.pc.untilTest := by
  obtain ⟨pc, opens, c⟩ := t
  cases pc with
  | clearSetKey | factory pc | openKeep | clearSetKeep => simp [Pc.servesSet] at free
  | setPress => exact absurd rfl before
  | top =>
    -- A task that is not stopped goes on with its iteration.
    have awake : c.runStopFlag = true := running rfl
    simp [taskStep, awake, Pc.servesSet, Pc.untilTest, Pc.remaining]
  | setKeep =>
    -- Without a hold, the iteration ends.
    have other : c.extio.keySta extioSetKey ≠ .keep := unheld
    simp [taskStep, other, Pc.servesSet, Pc.untilTest]
  | evalOpen | opening =>
    -- Either branch is closer to the test.
    simp only [taskStep]
    split <;> simp [Pc.servesSet, Pc.untilTest, Pc.remaining]
  | closing =>
    simp only [taskStep]
    split <;> [split; skip] <;> simp [Pc.servesSet, Pc.untilTest, Pc.remaining]
  | _ => simp [taskStep, Pc.servesSet, Pc.untilTest, Pc.remaining]

/-- A task that serves no event of the set key goes on without one while there is none. -/
theorem servesSet_taskStep {choice : Choice} (free : t.pc.servesSet = false)
    (idle : t.c.extio.keySta extioSetKey = .release) : (taskStep fireMachine choice t).pc.servesSet = false := by
  have unpressed : t.c.extio.keySta extioSetKey ≠ .press := by rw [idle]; decide
  have unheld : t.c.extio.keySta extioSetKey ≠ .keep := by rw [idle]; decide
  by_cases test : t.pc = .setPress
  · -- The test finds no press.
    simp [taskStep, test, unpressed, Pc.servesSet]
  · by_cases halted : t.pc = .top ∧ t.c.runStopFlag = false
    · -- A stopped task goes straight to its sleep.
      simp [taskStep, halted, Pc.servesSet]
    · refine (untilTest_taskStep fireMachine choice free test (fun head => ?_) unheld).1
      simpa using fun stopped => halted ⟨head, stopped⟩

/-- Consuming the event of the set key is part of serving it. -/
theorem clearsSet_eq_false {pc : Pc} (free : pc.servesSet = false) : pc.clearsSet = false := by
  cases pc with
  | clearSetKey | factory pc | clearSetKeep => simp [Pc.servesSet] at free
  | _ => rfl

/-- During a press that is neither short nor long, the key only counts its scans. -/
theorem pressing_run {ended : Task} {press : List TaskEvent} (asleep : ended.pc = .delay)
    (idle : ended.c.extio.key.line extioSetKey = ⟨.release, 0⟩) (down : ∀ level ∈ setLevels press, level = false)
    (limit : (setLevels press).length ≤ 20) (ran : run (taskEvent fireMachine) ended press = some t) :
    t.pc.servesSet = false ∧ t.c.extio.key.line extioSetKey = ⟨.release, (setLevels press).length⟩ := by
  refine history_invariant (fun press t => (∀ level ∈ setLevels press, level = false) →
    (setLevels press).length ≤ 20 → t.pc.servesSet = false ∧
      t.c.extio.key.line extioSetKey = ⟨.release, (setLevels press).length⟩) ?_ ?_ ran down limit
  · intro seen t event next _ held taken down limit
    have split : setLevels (seen ++ [event]) = setLevels seen ++ event.setLevel?.toList := by
      cases sampled : event.setLevel? <;> simp [setLevels, sampled]
    rw [split] at down limit ⊢
    rw [List.length_append] at limit ⊢
    obtain ⟨free, line⟩ := held (fun level among => down level (List.mem_append_left _ among)) (by omega)
    cases event with
    | step choice =>
      -- There is no event that a statement could consume.
      cases Option.some.inj taken
      refine ⟨servesSet_taskStep free (congrArg KeyLine.sta line), ?_⟩
      rw [taskStep_setKey, clearsSet_eq_false free, if_neg Bool.false_ne_true]
      exact line
    | surround event =>
      cases Option.some.inj taken
      refine ⟨free, ?_⟩
      simp only [surround_setKey, line]
      cases sampled : (TaskEvent.surround event).setLevel? with
      | none => rfl
      | some level =>
        have low : level = false := down level (List.mem_append_right _ (by simp [sampled]))
        rw [sampled, Option.toList_some, List.length_singleton] at limit
        rw [Option.elim_some, low, KeyLine.scan, if_neg Bool.false_ne_true, Option.toList_some, List.length_singleton]
        -- The count stays within the limit of a press, and far below its saturation.
        simp only [show (setLevels seen).length < 255 by omega, if_true,
          show ¬(setLevels seen).length + 1 > 20 by omega, if_false]
  · exact fun _ _ => ⟨by rw [asleep]; rfl, idle⟩

/-- A press that is waiting is found by the next test of the set key, within fourteen statements. -/
theorem waiting_run {pressed tested : Task} {rest : List TaskEvent} (free : pressed.pc.servesSet = false)
    (line : pressed.c.extio.key.line extioSetKey = ⟨.press, 0⟩)
    (before : EveryStep (taskEvent fireMachine) BeforeTest pressed rest)
    (ran : run (taskEvent fireMachine) pressed rest = some tested) :
    occurrences (taskEvent fireMachine) isStatement pressed rest ≤ 14 ∧
      (tested.pc = .setPress → StartsTest fireMachine tested) := by
  let invariant : Nat → Task → Prop := fun count t =>
    t.pc.servesSet = false ∧ t.c.extio.key.line extioSetKey = ⟨.press, 0⟩ ∧ count + t.pc.untilTest ≤ 14
  have initially : invariant 0 pressed := by
    refine ⟨free, line, ?_⟩
    cases pressed.pc <;> simp [Pc.untilTest, Pc.remaining]
  have held : invariant (occurrences (taskEvent fireMachine) isStatement pressed rest) tested := by
    refine counted_invariant invariant ?_ initially before ran
    rintro count t event next ⟨free, line, bound⟩ permitted taken
    cases event with
    | surround event =>
      cases Option.some.inj taken
      have up : (t.c.extio.key.line extioSetKey).time = 0 := by rw [line]
      -- A scan of a key that is up leaves the press waiting.
      exact ⟨free, (surround_resting up permitted).trans line, bound⟩
    | step choice =>
      have sta : t.c.extio.keySta extioSetKey = .press := congrArg KeyLine.sta line
      -- A statement comes closer to the test, and consumes nothing before it.
      obtain ⟨later, closer⟩ := untilTest_taskStep fireMachine choice free permitted.1 permitted.2 (by rw [sta]; decide)
      cases Option.some.inj taken
      refine ⟨later, ?_, ?_⟩
      · rw [taskStep_setKey, clearsSet_eq_false free, if_neg Bool.false_ne_true]
        exact line
      · simp only [isStatement, if_true]
        omega
  refine ⟨by have bound := held.2.2; omega, fun test choice again => ?_⟩
  have sta : tested.c.extio.keySta extioSetKey = .press := congrArg KeyLine.sta held.2.1
  simp only [taskStep, test, sta, if_true]

/-- From an iteration that has consumed the event of a resting set key on, the next press is served. -/
theorem pressServed_of_released {ended : Task} (asleep : ended.pc = .delay)
    (idle : ended.c.extio.key.line extioSetKey = ⟨.release, 0⟩) : PressServed fireMachine ended := by
  intro press released pressed down enough limit high ran
  obtain ⟨t, held, taken⟩ := run_append_some.mp ran
  obtain ⟨free, line⟩ := pressing_run asleep idle down limit held
  rw [run_singleton] at taken
  cases Option.some.inj taken
  -- The releasing scan reports the press.
  have reported : (surround fireMachine (.scan released) t.c).extio.key.line extioSetKey = ⟨.press, 0⟩ := by
    have long : (setLevels press).length > 2 := by omega
    simp [surround_setKey, TaskEvent.setLevel?, line, high, KeyLine.scan, long]
  exact ⟨congrArg KeyLine.sta reported, fun rest tested before continued =>
    waiting_run free reported before continued⟩

end

/-- The set key recovers in a resting iteration exactly if it is found to be held only together with the open key. -/
theorem setKey_recovers_iff {fireMachine : Bool} {history iteration : List TaskEvent} {begun ended : Task}
    (ran : run (taskEvent fireMachine) taskInit history = some begun)
    (up : (setLevels history).getLast? = some true) (start : begun.pc = .top)
    (resting : EveryStep (taskEvent fireMachine) Resting begun iteration)
    (continued : run (taskEvent fireMachine) begun iteration = some ended) (finished : ended.pc = .delay) :
    (ended.c.extio.keySta extioSetKey = .release ∧ PressServed fireMachine ended) ↔
      EveryStep (taskEvent fireMachine) BothHeld begun iteration := by
  have idle := setTime_up ran up
  have settles : begun.Settles := by simp [Task.Settles, start]
  have awake : begun.pc ≠ .delay := by rw [start]; decide
  rw [← settled_iff_bothHeld settles awake idle resting continued finished]
  refine ⟨And.left, fun released => ⟨released, pressServed_of_released finished ?_⟩⟩
  -- The key has rested throughout the iteration, so it has no time either.
  have kept : ∀ t event next, t.Settles ∧ (t.c.extio.key.line extioSetKey).time = 0 → Resting t event →
      taskEvent fireMachine t event = some next →
        next.Settles ∧ (next.c.extio.key.line extioSetKey).time = 0 :=
    fun _ _ _ held rests taken => settles_event held.1 held.2 rests.2 taken
  have rested := (run_invariant _ kept ⟨settles, idle⟩ resting continued).2
  exact congrArg₂ KeyLine.mk released rested

/-- The levels of a board whose set key is pressed. -/
def setPins : Pins :=
  { restingPins with setKey := false }

/-- The first iteration leaves no event at a set key that has never been pressed. -/
theorem setKey_recovers_iff_unpressed : ∃ ended,
    run (taskEvent true) taskInit (scans 1 restingPins ++ statements 11) = some ended ∧ PressServed true ended := by
  have course : ((run (taskEvent true) taskInit (scans 1 restingPins)).any fun begun => decide (begun.pc = .top) &&
      decide (EveryStep (taskEvent true) (fun t event => Resting t event ∧ BothHeld t event) begun (statements 11)) &&
      (run (taskEvent true) begun (statements 11)).any fun ended => decide (ended.pc = .delay)) = true := by
    decide +kernel
  obtain ⟨begun, ran, course⟩ := (Option.any_eq_true _ _).mp course
  simp only [Bool.and_eq_true, decide_eq_true_eq] at course
  obtain ⟨⟨start, within⟩, ended⟩ := course
  obtain ⟨finish, continued, ended⟩ := (Option.any_eq_true _ _).mp ended
  -- Neither key is held, so the condition holds.
  have served := (setKey_recovers_iff ran (by decide) start (within.mono fun _ _ both => both.1) continued
    (of_decide_eq_true ended)).mpr (within.mono fun _ _ both => both.2)
  exact ⟨finish, run_append_some.mpr ⟨begun, ran, continued⟩, served.2⟩

/-- A set key that has been held alone for twenty-one scans keeps its event after it is released. -/
theorem setKey_stuck : ¬SetKeyRecovers := by
  intro recovers
  have course : ((run (taskEvent true) taskInit (scans 21 setPins ++ scans 1 restingPins)).any fun begun =>
      decide (begun.pc = .top) && decide (EveryStep (taskEvent true) Resting begun (statements 12)) &&
        (run (taskEvent true) begun (statements 12)).any fun ended =>
          decide (ended.pc = .delay) && decide (ended.c.extio.keySta extioSetKey = .keep)) = true := by
    decide +kernel
  obtain ⟨begun, ran, course⟩ := (Option.any_eq_true _ _).mp course
  simp only [Bool.and_eq_true, decide_eq_true_eq] at course
  obtain ⟨⟨start, resting⟩, course⟩ := course
  obtain ⟨ended, continued, course⟩ := (Option.any_eq_true _ _).mp course
  simp only [Bool.and_eq_true, decide_eq_true_eq] at course
  -- The iteration has found the set key held, but not the open key.
  have released := (recovers true _ begun _ ended ran (by decide +kernel) start resting continued course.1).1
  cases released.symm.trans course.2

end PkeFire
