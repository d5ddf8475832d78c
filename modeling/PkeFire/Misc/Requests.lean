import PkeFire.Misc.FailSafe

/-! Whether every request to open the door is honoured, whenever it arrives within an iteration. -/

namespace PkeFire

/-- A request to open is recorded for the next iteration. -/
def Controller.Recorded (c : Controller) : Prop :=
  c.remoteOpen ≠ 0 ∨ c.extio.keySta extioOpenKey ≠ .release

instance (c : Controller) : Decidable c.Recorded :=
  inferInstanceAs (Decidable (_ ∨ _))

/-- The other threads only scan the board, ask for the door, and stop or run the task. -/
def Requesting : TaskEvent → Prop
  | .surround (.scan _) => True
  -- A message that withdraws the request is none.
  | .surround (.door valueint) => UInt8.ofInt valueint ≠ 0
  | .surround (.runStop _) => True
  | .surround (.raiseSmoke _) => False
  | .surround (.shell _) => False
  | .step _ => True

instance : DecidablePred Requesting
  | .surround (.scan _) => inferInstanceAs (Decidable True)
  | .surround (.door valueint) => inferInstanceAs (Decidable (UInt8.ofInt valueint ≠ 0))
  | .surround (.runStop _) => inferInstanceAs (Decidable True)
  | .surround (.raiseSmoke _) => inferInstanceAs (Decidable False)
  | .surround (.shell _) => inferInstanceAs (Decidable False)
  | .step _ => inferInstanceAs (Decidable True)

/-- The event asks for the door: a message, or a scan that leaves an event at the open key. -/
def Asks (event : TaskEvent) (after : Task) : Prop :=
  match event with
  | .surround (.door _) => True
  | .surround (.scan _) => after.c.extio.keySta extioOpenKey ≠ .release
  | _ => False

/-- The event does not leave the iteration in progress. -/
def SameIteration (t : Task) : TaskEvent → Prop
  | .surround _ => True
  | .step _ => t.pc ≠ .delay

instance (t : Task) : DecidablePred (SameIteration t)
  | .surround _ => inferInstanceAs (Decidable True)
  | .step _ => inferInstanceAs (Decidable (t.pc ≠ .delay))

/-- The event is not the statement that computes `open`. -/
def BeforeOpen (t : Task) : TaskEvent → Prop
  | .surround _ => True
  | .step _ => t.pc ≠ .evalOpen

/--
In every run under a condition, a request leaves the door unlocked, or itself recorded, when its iteration ends.

The run is cut at the request and at the end of the iteration in which the request arrived.
-/
def Honours (fireMachine : Bool) (condition : Task → TaskEvent → Prop) : Prop :=
  ∀ before asked event after during finish,
    (∀ other ∈ before ++ event :: during, Requesting other) →
    EveryStep (taskEvent fireMachine) condition taskInit (before ++ event :: during) →
    run (taskEvent fireMachine) taskInit before = some asked →
    taskEvent fireMachine asked event = some after → Asks event after →
    EveryStep (taskEvent fireMachine) SameIteration after during →
    run (taskEvent fireMachine) after during = some finish → finish.pc = .delay →
      finish.c.doorPin = true ∨ finish.c.Recorded

/-- A request that is recorded when an iteration ends makes the next computation of `open` yield one. -/
def Serves (fireMachine : Bool) : Prop :=
  ∀ ended events next, ended.pc = .delay → ended.c.Recorded → (∀ event ∈ events, Requesting event) →
    EveryStep (taskEvent fireMachine) BeforeOpen ended events →
    run (taskEvent fireMachine) ended events = some next → next.pc = .evalOpen →
      next.c.openCause = true

/--
No statement erases a request that the iteration has not seen, unless the door stays unlocked anyway.

The closing branch and the factory test lock the door, so their statements are judged by what they leave.
-/
def KeepsRequests (t : Task) : TaskEvent → Prop
  | .surround _ => True
  | .step _ => match t.pc with
    | .clearOpenKey => t.c.extio.keySta extioOpenKey = .release ∨ t.c.openCause = true ∨
        t.c.doorOpen = true ∧ t.c.lockTime < 100
    | .clearCauses => t.c.remoteOpen = 0 ∨ t.c.extio.keySta extioOpenKey ≠ .release
    | .clearOpenKeep => t.c.doorOpen = true ∨ t.c.remoteOpen ≠ 0
    | .factory .clearOpenKey => t.c.doorOpen = true ∨ t.c.remoteOpen ≠ 0
    | .factory .doorLock => t.c.doorOpen = false
    | _ => True

instance (t : Task) : DecidablePred (KeepsRequests t) := fun event => by
  unfold KeepsRequests
  split
  · infer_instance
  · split <;> infer_instance

/-- The statements that erase a recorded request. -/
def Pc.erases : Pc → Bool
  | .clearOpenKey | .clearRequests | .clearCauses | .clearOpenKeep | .factory .clearOpenKey => true
  | _ => false

/-- The factory test erases no request but by its own look at the open key. -/
theorem factoryStep_keepsRequests (fileOk : Bool) {pc : FactoryPc} (c : Controller)
    (keeps : (Pc.factory pc).erases = false) :
    (factoryStep fileOk pc c).2.remoteOpen = c.remoteOpen ∧
      (factoryStep fileOk pc c).2.extio.keySta extioOpenKey = c.extio.keySta extioOpenKey := by
  cases pc with
  | clearOpenKey => simp [Pc.erases] at keeps
  | clearSetKey =>
    -- The event of the set key is another one.
    have other : extioSetKey ≠ extioOpenKey := by decide
    exact ⟨rfl, (Extio.keySta_keyClr c.extio extioSetKey extioOpenKey).trans (if_neg other)⟩
  | awaitLine num =>
    rw [factoryStep]
    split <;> exact ⟨rfl, rfl⟩
  | _ => exact ⟨rfl, rfl⟩

/-- A statement that erases no request leaves both records alone. -/
theorem taskStep_keepsRequests (fireMachine : Bool) (choice : Choice) {t : Task} (keeps : t.pc.erases = false) :
    (taskStep fireMachine choice t).c.remoteOpen = t.c.remoteOpen ∧
      (taskStep fireMachine choice t).c.extio.keySta extioOpenKey = t.c.extio.keySta extioOpenKey := by
  obtain ⟨pc, opens, c⟩ := t
  have other : extioSetKey ≠ extioOpenKey := by decide
  cases pc with
  | clearOpenKey | clearRequests | clearCauses | clearOpenKeep => simp [Pc.erases] at keeps
  | opening =>
    -- The branches of the loop change the door, the alarms and the timer.
    simp only [taskStep]
    split <;> exact ⟨rfl, rfl⟩
  | announce =>
    -- Sounding the alarms writes the output byte only.
    obtain ⟨floor, described⟩ := Controller.describeOpening_frame choice.stack c
    simp only [taskStep, described]
    split <;> exact ⟨rfl, rfl⟩
  | closing =>
    simp only [taskStep, Controller.countQuiet]
    split <;> [split; skip] <;> exact ⟨rfl, rfl⟩
  | powerdown =>
    -- The reports read the inputs and publish, which is no request.
    have reported := reportPowerdown_supervised c
    exact ⟨reported.remoteOpen, congrArg (fun extio => extio.keySta extioOpenKey) reported.extio⟩
  | smokeReport =>
    have reported := miscSmokeReport_supervised c
    cases fireMachine with
    | true => exact ⟨reported.remoteOpen, congrArg (fun extio => extio.keySta extioOpenKey) reported.extio⟩
    | false => exact ⟨rfl, rfl⟩
  | saveConfig =>
    have saved := tickSave_supervised c
    exact ⟨saved.remoteOpen, congrArg (fun extio => extio.keySta extioOpenKey) saved.extio⟩
  | clearSetKey | clearSetKeep =>
    -- The event of the other key is cleared.
    exact ⟨rfl, (Extio.keySta_keyClr c.extio extioSetKey extioOpenKey).trans (if_neg other)⟩
  | factory pc =>
    by_cases returned : pc = .returned
    · subst returned
      exact ⟨rfl, rfl⟩
    · rw [taskStep_factory choice opens c returned]
      exact factoryStep_keepsRequests choice.fileOk c keeps
  | _ => exact ⟨rfl, rfl⟩

/-- What keeps a request of the present iteration alive at each statement. -/
def Alive (t : Task) : Prop :=
  match t.pc with
  | .top | .sampleKey | .sampleEmergency | .clearOpenKey => t.c.Recorded
  | .evalOpen => t.c.openCause = true ∨ t.c.doorOpen = true ∧ t.c.lockTime < 100 ∨ t.c.Recorded
  -- The opening branch unlocks the door in any case.
  | .opening | .announce | .publishOpening _ | .clearRequests => True
  | .closing => t.c.doorOpen = true ∧ t.c.lockTime < 100 ∨ t.c.Recorded
  | .lockDoor | .clearCauses | .publishClosing => t.c.Recorded
  | _ => t.c.doorOpen = true ∨ t.c.Recorded

/-- A recorded request is alive at every statement. -/
theorem Alive.of_recorded {t : Task} (recorded : t.c.Recorded) : Alive t := by
  obtain ⟨pc, opens, c⟩ := t
  -- Every condition that is asked for has the record as one of its alternatives.
  cases pc with
  | top | sampleKey | sampleEmergency | clearOpenKey | lockDoor | clearCauses | publishClosing => exact recorded
  | evalOpen => exact Or.inr (Or.inr recorded)
  | opening | announce | publishOpening status | clearRequests => trivial
  | _ => exact Or.inr recorded

section

variable (fireMachine : Bool) (c : Controller) {event : Surrounding}

/-- The other threads take back no record and no cause, and leave the flag and the timer alone. -/
theorem surround_requesting (requesting : Requesting (.surround event)) :
    (c.Recorded → (surround fireMachine event c).Recorded) ∧
      (c.remoteOpen ≠ 0 → (surround fireMachine event c).remoteOpen ≠ 0) ∧
      (c.openCause = true → (surround fireMachine event c).openCause = true) := by
  cases event with
  | scan pins =>
    -- A scan keeps the message, every flag of the task, and a waiting key event.
    refine ⟨fun recorded => ?_, fun remote => remote, fun cause => cause⟩
    exact recorded.imp_right fun waiting => extioTask_keySta waiting
  | door valueint =>
    refine ⟨fun _ => Or.inl requesting, fun _ => requesting, fun _ => ?_⟩
    have asked : (UInt8.ofInt valueint != 0) = true := bne_iff_ne.mpr requesting
    simp only [surround, Controller.openCause, asked, Bool.or_true, Bool.true_or]
  | runStop running => exact ⟨fun recorded => recorded, fun remote => remote, fun cause => cause⟩
  | raiseSmoke floor => exact requesting.elim
  | shell argv => exact requesting.elim

/-- The other threads keep a request alive. -/
theorem Alive.surround {pc : Pc} {opens : Bool} (alive : Alive ⟨pc, opens, c⟩)
    (requesting : Requesting (.surround event)) :
    Alive ⟨pc, opens, PkeFire.surround fireMachine event c⟩ := by
  obtain ⟨recorded, _, cause⟩ := surround_requesting fireMachine c requesting
  obtain ⟨flag, timer, _⟩ := surround_frame fireMachine event c
  cases pc with
  | top | sampleKey | sampleEmergency | clearOpenKey | lockDoor | clearCauses | publishClosing =>
    exact recorded alive
  | evalOpen =>
    simp only [Alive, flag, timer]
    exact alive.imp cause (Or.imp_right recorded)
  | opening | announce | publishOpening status | clearRequests => trivial
  | closing =>
    simp only [Alive, flag, timer]
    exact alive.imp_right recorded
  | _ =>
    simp only [Alive, flag]
    exact alive.imp_right recorded

end

/-- Statements after both branches leave the flag alone, whatever they do to the output. -/
theorem taskStep_keepsFlag (fireMachine : Bool) (choice : Choice) {t : Task} (acted : t.pc.acted = true)
    (outside : t.pc.inOpening = false) : (taskStep fireMachine choice t).c.doorOpen = t.c.doorOpen := by
  by_cases drives : t.pc.drivesDoor = true
  · -- Of the statements that drive the door, only those of the factory test come after both branches.
    obtain ⟨pc, opens, c⟩ := t
    cases pc with
    | factory pc =>
      cases pc with
      | doorUnlock | doorLock => rfl
      | _ => simp [Pc.drivesDoor] at drives
    | opening => simp [Pc.inOpening] at outside
    | lockDoor => simp [Pc.acted, Pc.inClosing] at acted
    | _ => simp [Pc.drivesDoor] at drives
  · exact (taskStep_keepsDoor fireMachine choice (by simpa using drives)).1

/-- After both branches, a request is alive when the flag is set or the request is recorded. -/
theorem alive_iff_of_acted {t : Task} (acted : t.pc.acted = true) (outside : t.pc.inOpening = false) :
    Alive t ↔ t.c.doorOpen = true ∨ t.c.Recorded := by
  obtain ⟨pc, opens, c⟩ := t
  cases pc with
  | top | sampleKey | sampleEmergency | clearOpenKey | evalOpen | opening | closing | lockDoor | clearCauses
    | publishClosing => simp [Pc.acted, Pc.inClosing] at acted
  | announce | publishOpening status | clearRequests => simp [Pc.inOpening] at outside
  | _ => exact Iff.rfl

/-- An erasing statement that keeps requests keeps a request of the present iteration alive. -/
theorem Alive.erase {fireMachine : Bool} {choice : Choice} {t : Task} (alive : Alive t) (safe : FailSafe t)
    (keeps : KeepsRequests t (.step choice)) (erases : t.pc.erases = true) :
    Alive (PkeFire.taskStep fireMachine choice t) := by
  obtain ⟨pc, opens, c⟩ := t
  cases pc with
  | clearOpenKey =>
    -- Either the message is recorded, or the cause that saved the key event is left.
    rcases keeps with none | cause | counting
    · have remote : c.remoteOpen ≠ 0 := alive.resolve_right (not_not.mpr none)
      exact Or.inr (Or.inr (Or.inl remote))
    · exact Or.inl cause
    · exact Or.inr (Or.inl counting)
  | clearRequests =>
    -- The opening branch has set the flag.
    exact Or.inl (safe.acted rfl (safe.opening rfl))
  | clearCauses =>
    -- The message is cleared, so the key event has to be the record.
    have key : c.extio.keySta extioOpenKey ≠ .release := by
      rcases keeps with none | waiting
      · exact alive.resolve_left (not_not.mpr none)
      · exact waiting
    exact Or.inr key
  | clearOpenKeep => exact keeps.imp_right Or.inl
  | factory pc =>
    cases pc with
    | clearOpenKey => exact keeps.imp_right Or.inl
    | _ => simp [Pc.erases] at erases
  | _ => simp [Pc.erases] at erases

/-- A statement that erases nothing keeps a request of the present iteration alive. -/
theorem Alive.keep {fireMachine : Bool} {choice : Choice} {t : Task} (alive : Alive t)
    (keeps : t.pc.erases = false) (awake : t.pc ≠ .delay) : Alive (PkeFire.taskStep fireMachine choice t) := by
  obtain ⟨remote, key⟩ := taskStep_keepsRequests fireMachine choice keeps
  have recorded : t.c.Recorded → (PkeFire.taskStep fireMachine choice t).c.Recorded := by
    rw [Controller.Recorded, Controller.Recorded, remote, key]
    exact id
  by_cases acted : t.pc.acted = true ∧ t.pc.inOpening = false
  · -- After both branches, neither the flag nor the record is touched.
    obtain ⟨later, _, inside, _⟩ := taskStep_acted fireMachine choice acted.1 awake
    have outside : (PkeFire.taskStep fireMachine choice t).pc.inOpening = false := by
      by_contra opening
      have before := inside (by simpa using opening)
      simp [acted.2] at before
    rw [alive_iff_of_acted later outside, taskStep_keepsFlag fireMachine choice acted.1 acted.2]
    exact ((alive_iff_of_acted acted.1 acted.2).mp alive).imp_right recorded
  · obtain ⟨pc, opens, c⟩ := t
    cases pc with
    | top | sampleKey | sampleEmergency | lockDoor => exact Alive.of_recorded (recorded alive)
    | publishClosing => exact Alive.of_recorded (recorded alive)
    | announce | publishOpening status => trivial
    | clearOpenKey | clearRequests | clearCauses => simp [Pc.erases] at keeps
    | evalOpen =>
      by_cases active : c.openCause = true
      · simp [PkeFire.taskStep, active, Alive]
      · -- Without a cause, what else kept the request alive still does.
        have rest := alive.resolve_left active
        simpa [PkeFire.taskStep, active, Alive] using rest
    | opening =>
      -- An open door skips the branch, and a closed one is opened in it.
      by_cases already : c.doorOpen = true
      · simp [PkeFire.taskStep, already, Alive, Controller.restartLock]
      · simp [PkeFire.taskStep, already, Alive]
    | closing =>
      rcases alive with ⟨isOpen, early⟩ | waiting
      · -- The timer does not reach its limit in this iteration, so the door stays open.
        have below : c.lockTime < 100 := early
        have waits : (PkeFire.taskStep fireMachine choice ⟨.closing, opens, c⟩).pc = .powerdown := by
          simp only [PkeFire.taskStep]
          split
          · have counted : ¬ c.countQuiet.lockTime > 100 := by
              rw [Controller.countQuiet]
              split
              · simp only
                omega
              · omega
            rw [if_neg counted]
          · rfl
        have flag := (taskStep_keepsDoor fireMachine choice (t := ⟨.closing, opens, c⟩) rfl).1
        exact (alive_iff_of_acted (by rw [waits]; rfl) (by rw [waits]; rfl)).mpr (Or.inl (flag.trans isOpen))
      · exact Alive.of_recorded (recorded waiting)
    | _ => simp [Pc.acted, Pc.inClosing, Pc.inOpening] at acted

/-- A permitted event within the iteration keeps the door fail-safe and a request alive. -/
theorem Alive.step {fireMachine : Bool} {t next : Task} {event : TaskEvent} (alive : Alive t) (safe : FailSafe t)
    (requesting : Requesting event) (keeps : KeepsRequests t event) (same : SameIteration t event)
    (taken : taskEvent fireMachine t event = some next) : Alive next := by
  cases event with
  | surround event =>
    cases Option.some.inj taken
    exact Alive.surround fireMachine t.c alive requesting
  | step choice =>
    cases Option.some.inj taken
    by_cases erases : t.pc.erases = true
    · exact alive.erase safe keeps erases
    · exact alive.keep (by simpa using erases) same

/-- Keeping requests, with nobody at the shell, also keeps the flag from being set over a locked output. -/
theorem KeepsRequests.keepsFlag {t : Task} {event : TaskEvent} (keeps : KeepsRequests t event)
    (requesting : Requesting event) : KeepsFlag t event := by
  cases event with
  | surround event =>
    intro locks
    cases event with
    | shell argv => exact requesting.elim
    | _ => simp [Surrounding.locks] at locks
  | step choice =>
    intro locking
    simpa [KeepsRequests, locking] using keeps

/-- A recorded request survives until it is sampled, and is a cause from then on. -/
def Pending (t : Task) : Prop :=
  match t.pc with
  | .delay | .top | .sampleKey => t.c.Recorded
  -- The event of the key may be consumed once it has been sampled.
  | .sampleEmergency | .clearOpenKey | .evalOpen => t.c.keyOpen = true ∨ t.c.remoteOpen ≠ 0
  | _ => False

/-- Every event before `open` is computed keeps a recorded request pending. -/
theorem Pending.step {fireMachine : Bool} {t next : Task} {event : TaskEvent} (pending : Pending t)
    (requesting : Requesting event) (before : BeforeOpen t event)
    (taken : taskEvent fireMachine t event = some next) : Pending next := by
  obtain ⟨pc, opens, c⟩ := t
  cases event with
  | surround event =>
    -- No other thread takes a request back.
    cases Option.some.inj taken
    obtain ⟨recorded, remote, _⟩ := surround_requesting fireMachine c requesting
    obtain ⟨_, _, _, _, _, _, key, _⟩ := surround_frame fireMachine event c
    cases pc with
    | delay | top | sampleKey => exact recorded pending
    | sampleEmergency | clearOpenKey | evalOpen => exact pending.imp key.trans remote
    | _ => exact pending.elim
  | step choice =>
    cases Option.some.inj taken
    cases pc with
    | delay | sampleEmergency | clearOpenKey => exact pending
    | top =>
      -- A stopped task and a running one both keep the records.
      have kept : ({ c with calls := [] } : Controller).Recorded := pending
      simp only [taskStep]
      split <;> exact kept
    | sampleKey =>
      -- The sample takes the key over into its flag.
      rcases pending with remote | key
      · exact Or.inr remote
      · exact Or.inl (bne_iff_ne.mpr key)
    | evalOpen => exact absurd rfl before
    | _ => exact pending.elim

/-- A request is recorded right after its event. -/
theorem recorded_of_asks {fireMachine : Bool} {asked after : Task} {event : TaskEvent}
    (requesting : Requesting event) (taken : taskEvent fireMachine asked event = some after)
    (asks : Asks event after) : after.c.Recorded := by
  cases event with
  | step choice => exact asks.elim
  | surround event =>
    cases event with
    | door valueint =>
      cases Option.some.inj taken
      exact Or.inl requesting
    | scan pins => exact Or.inr asks
    | _ => exact asks.elim

/-- Where no statement erases an unseen request, every request is honoured by the end of its iteration. -/
theorem honours_of_keeps (fireMachine : Bool) : Honours fireMachine KeepsRequests := by
  intro before asked event after during finish requesting keeps ran taken asks same arrived ended
  have permitted := (everyStep_of_mem requesting).and keeps
  obtain ⟨first, rest⟩ := everyStep_append.mp permitted
  obtain ⟨here, later⟩ := rest asked ran
  -- Up to the request, flag and output are fail-safe.
  have initially : FailSafe taskInit := failSafe_init
  have safe : FailSafe asked := run_invariant FailSafe
    (fun _ _ _ held permitted taken => held.step (permitted.2.keepsFlag permitted.1) taken) initially first ran
  have safeAfter : FailSafe after := safe.step (here.2.keepsFlag here.1) taken
  have alive : Alive after := Alive.of_recorded (recorded_of_asks here.1 taken asks)
  -- From the request to the end of its iteration, it stays alive.
  have held : FailSafe finish ∧ Alive finish := by
    refine run_invariant (fun t => FailSafe t ∧ Alive t) ?_ ⟨safeAfter, alive⟩
      ((later after taken).and same) arrived
    intro t event next held permitted taken
    obtain ⟨⟨requesting, keeps⟩, same⟩ := permitted
    exact ⟨held.1.step (keeps.keepsFlag requesting) taken, held.2.step held.1 requesting keeps same taken⟩
  -- At the end of the iteration, a set flag means an unlocked output.
  have left := (alive_iff_of_acted (by rw [ended]; rfl) (by rw [ended]; rfl)).mp held.2
  exact left.imp_left held.1.unlocked

/-- Every request that is recorded when an iteration ends is a cause of the next one. -/
theorem serves (fireMachine : Bool) : Serves fireMachine := by
  intro ended events next atEnd recorded requesting before ran arrived
  have started : Pending ended := by
    rw [Pending, atEnd]
    exact recorded
  have pending : Pending next := run_invariant Pending
    (fun _ _ _ pending permitted taken => pending.step permitted.1 permitted.2 taken) started
    ((everyStep_of_mem requesting).and before) ran
  rw [Pending, arrived] at pending
  -- The sampled key and the message are both among the causes.
  rcases pending with key | remote
  · simp [Controller.openCause, key]
  · simp [Controller.openCause, remote]

/-- Requests are honoured where no statement erases an unseen one, and recorded requests are always served. -/
theorem requests_honoured (fireMachine : Bool) : Honours fireMachine KeepsRequests ∧ Serves fireMachine :=
  ⟨honours_of_keeps fireMachine, serves fireMachine⟩

/-- A message that arrives while an opening is being published finds the door unlocked when the iteration ends. -/
theorem requests_honoured_message : ∃ finish,
    run (taskEvent true) taskInit (scans 3 { restingPins with doorKey := false } ++ scans 1 restingPins ++
      statements 8 ++ .surround (.door 1) :: statements 6) = some finish ∧ finish.pc = .delay ∧
      (finish.c.doorPin = true ∨ finish.c.Recorded) := by
  let before := scans 3 { restingPins with doorKey := false } ++ scans 1 restingPins ++ statements 8
  have ends : (run (taskEvent true) taskInit before).any (fun asked =>
      (taskEvent true asked (.surround (.door 1))).any fun after =>
        decide (EveryStep (taskEvent true) SameIteration after (statements 6)) &&
        (run (taskEvent true) after (statements 6)).any fun finish => decide (finish.pc = .delay)) = true := by
    decide +kernel
  obtain ⟨asked, ran, ends⟩ := (Option.any_eq_true _ _).mp ends
  obtain ⟨after, taken, ends⟩ := (Option.any_eq_true _ _).mp ends
  rw [Bool.and_eq_true, decide_eq_true_eq] at ends
  obtain ⟨same, ends⟩ := ends
  obtain ⟨finish, arrived, ended⟩ := (Option.any_eq_true _ _).mp ends
  rw [decide_eq_true_eq] at ended
  have honoured := (requests_honoured true).1 before asked (.surround (.door 1)) after (statements 6) finish
    (by decide) (by decide +kernel) ran taken trivial same arrived ended
  refine ⟨finish, run_append_some.mpr ⟨asked, ran, ?_⟩, ended, honoured⟩
  rw [run_cons, taken, Option.bind_some, arrived]

/-- A press of the door key is lost when its end is scanned between the sample of the key and its clearing. -/
theorem requests_lost : ¬ Honours true fun _ _ => True := by
  intro honours
  -- The key is pressed, the loop samples it, and the release is scanned before the loop clears the key.
  let press := scans 3 { restingPins with doorKey := false } ++ statements 2
  let release : TaskEvent := .surround (.scan restingPins)
  have lost : (run (taskEvent true) taskInit press).any (fun asked =>
      (taskEvent true asked release).any fun after =>
        decide (after.c.extio.keySta extioOpenKey ≠ .release) &&
        decide (EveryStep (taskEvent true) SameIteration after (statements 9)) &&
        (run (taskEvent true) after (statements 9)).any fun finish =>
          decide (finish.pc = .delay) && !finish.c.doorPin && decide (¬ finish.c.Recorded)) = true := by
    decide +kernel
  -- The run is taken apart into the request, the scan that ends it and the rest of the iteration.
  obtain ⟨asked, ran, lost⟩ := (Option.any_eq_true _ _).mp lost
  obtain ⟨after, taken, lost⟩ := (Option.any_eq_true _ _).mp lost
  simp only [Bool.and_eq_true, decide_eq_true_eq] at lost
  obtain ⟨⟨asks, same⟩, lost⟩ := lost
  obtain ⟨finish, arrived, lost⟩ := (Option.any_eq_true _ _).mp lost
  simp only [Bool.and_eq_true, decide_eq_true_eq, Bool.not_eq_true'] at lost
  obtain ⟨⟨ended, locked⟩, forgotten⟩ := lost
  -- Although the key was reported to the task, the iteration neither unlocks the door nor remembers the key.
  have kept := honours press asked release after (statements 9) finish (by decide)
    (everyStep_of_forall (fun _ _ => trivial) _ _) ran taken asks same arrived ended
  rcases kept with unlocked | recorded
  · simp [locked] at unlocked
  · exact forgotten recorded

end PkeFire
