import PkeFire.Run.Report
import PkeFire.Misc.FailSafe

/-! What the server knows about the door and the mains supply when messages may get lost. -/

namespace PkeFire

/-- The value of `door_open` that a call publishes, if it publishes one. -/
def Call.doorOpen? : Call → Option UInt8
  | .publishBuilding status => some status.doorOpen
  | .publishPowerdown _ | .configTimmingSave => none

/-- The value of `powerdown` that a call publishes, if it publishes one. -/
def Call.powerdown? : Call → Option UInt8
  | .publishPowerdown powerdown => some powerdown
  | .publishBuilding _ | .configTimmingSave => none

/-- A flag as it is published. -/
def flagByte (flag : Bool) : UInt8 :=
  if flag then 1 else 0

/-- The calls made between one state of the task and the next. -/
def Task.made (t next : Task) : List Call :=
  -- The head of the loop empties the list, and every other statement only appends to it.
  next.c.calls.drop t.c.calls.length

/-- The task, and what has become of its reports on the door and on the mains supply. -/
structure Watched where
  t : Task
  door : Reports UInt8
  powerdown : Reports UInt8
  deriving DecidableEq, Repr

/-- An event of the task, and whether a publishing call made in it succeeds. -/
structure WatchedEvent where
  event : TaskEvent
  delivered : Bool
  deriving DecidableEq, Repr

namespace Watched

/-- Before its first report, the server takes both flags to be zero. -/
def init : Watched where
  t := taskInit
  door := ⟨0, 0⟩
  powerdown := ⟨0, 0⟩

/-- The calls that lead to the next state of the task are delivered or lost. -/
def receive (delivered : Bool) (next : Task) (w : Watched) : Watched where
  t := next
  door := ((w.t.made next).filterMap Call.doorOpen?).foldl (fun reports value => reports.send delivered value) w.door
  powerdown :=
    ((w.t.made next).filterMap Call.powerdown?).foldl (fun reports value => reports.send delivered value) w.powerdown

/-- One event; the task ignores the results of its publishing calls but for a line in its log. -/
def step (fireMachine : Bool) (w : Watched) (event : WatchedEvent) : Option Watched :=
  -- An event makes one publishing call at most, so one outcome is enough for it.
  (taskEvent fireMachine w.t event.event).map fun next => w.receive event.delivered next

end Watched

/-- The event is the last one of an iteration. -/
def endsIteration (w : Watched) (event : WatchedEvent) : Bool :=
  match event.event with
  | .step _ => w.t.pc = .delay
  | .surround _ => false

/-- Publishing is possible during the event, and neither flag changes in it. -/
def Steady (fireMachine : Bool) (w : Watched) (event : WatchedEvent) : Prop :=
  event.delivered = true ∧ ∀ next ∈ w.step fireMachine event,
    next.t.c.doorOpen = w.t.c.doorOpen ∧ next.t.c.smokeReport.powerdownFlag = w.t.c.smokeReport.powerdownFlag

instance (fireMachine : Bool) (w : Watched) : DecidablePred (Steady fireMachine w) := fun _ =>
  inferInstanceAs (Decidable (_ ∧ _))

/-- The server knows both flags. -/
def Watched.Agrees (w : Watched) : Prop :=
  w.door.view = flagByte w.t.c.doorOpen ∧ w.powerdown.view = flagByte w.t.c.smokeReport.powerdownFlag

/-- The server knows both flags once twelve iterations in a row could publish and have left them alone. -/
def CatchesUp (fireMachine : Bool) : Prop :=
  ∀ events w, run (Watched.step fireMachine) Watched.init events = some w → ∀ recent later,
    EveryStep (Watched.step fireMachine) (Steady fireMachine) w recent →
    run (Watched.step fireMachine) w recent = some later →
    12 ≤ occurrences (Watched.step fireMachine) endsIteration w recent → later.Agrees

/-- The door flag has been written, and the message about it is still to be published. -/
def Pc.reporting : Pc → Bool
  | .announce | .publishOpening _ | .clearCauses | .publishClosing => true
  | _ => false

/-- Each statement between a change of the door flag and its message belongs to one value of the flag. -/
def Task.FlagAt (t : Task) : Prop :=
  match t.pc with
  | .announce | .lockDoor => t.c.doorOpen = true
  | .publishOpening status => t.c.doorOpen = true ∧ status.doorOpen = 1
  | .clearCauses | .publishClosing => t.c.doorOpen = false
  | _ => True

/-- What happens to a flag and to its report during an event. -/
inductive FlagStep (pending : Bool) (flag : Bool) (sent : List UInt8) (next : Bool) (awaited : Bool) : Prop
  /-- The flag stays, and nothing is reported. -/
  | silent (unsent : sent = []) (still : next = flag) (same : awaited = pending)
  /-- The flag turns, and the report is still to come. -/
  | turned (unsent : sent = []) (moved : next = !flag) (before : pending = false) (after : awaited = true)
  /-- The report that was to come is made. -/
  | reported (told : sent = [flagByte flag]) (still : next = flag) (before : pending = true)
      (after : awaited = false)
  /-- The flag turns, and is reported at once. -/
  | both (told : sent = [flagByte next]) (moved : next = !flag) (before : pending = false)
      (after : awaited = false)

/-- The calls that each statement makes. -/
def Task.calling (t : Task) : List Call :=
  match t.pc with
  | .publishOpening status => [.publishBuilding status]
  | .publishClosing => [.publishBuilding t.c.closingStatus]
  | .powerdown => t.c.reportPowerdown.calls.drop t.c.calls.length
  | .saveConfig => if t.c.saveTime > 10 then [.configTimmingSave] else []
  | _ => []

/-- A statement makes the calls that stand in it. -/
theorem taskStep_made (fireMachine : Bool) (choice : Choice) (t : Task) :
    t.made (taskStep fireMachine choice t) = t.calling := by
  obtain ⟨pc, opens, c⟩ := t
  -- Apart from the head of the loop, a statement appends its calls to those already made.
  cases pc with
  | opening =>
    simp only [Task.made, taskStep]
    split <;> exact List.drop_length
  | announce =>
    -- The message is built without being published.
    obtain ⟨floor, described⟩ := Controller.describeOpening_frame choice.stack c
    simp only [Task.made, taskStep, described]
    split <;> exact List.drop_length
  | publishOpening status => exact List.drop_left
  | publishClosing => exact List.drop_left
  | closing =>
    simp only [Task.made, taskStep, Controller.countQuiet]
    split <;> [split; skip] <;> exact List.drop_length
  | powerdown => rfl
  | smokeReport =>
    -- The report of the detectors makes no call.
    cases fireMachine with
    | true =>
      show (miscSmokeReport c).calls.drop c.calls.length = []
      rw [(miscSmokeReport_frame c).2.2, List.drop_length]
    | false => exact List.drop_length
  | saveConfig =>
    show c.tickSave.calls.drop c.calls.length = if c.saveTime > 10 then [.configTimmingSave] else []
    rw [Controller.tickSave]
    split
    · exact List.drop_left
    · exact List.drop_length
  -- Neither does the factory test.
  | factory pc =>
    by_cases returned : pc = .returned
    · subst returned
      exact List.drop_length
    · simp only [Task.made, taskStep_factory choice opens c returned, (factoryStep_frame choice.fileOk pc c).2.2.1]
      exact List.drop_length
  | top => exact List.drop_nil
  | _ => exact List.drop_length

/-- A statement writes the door flag, reports on it, or has nothing to do with it. -/
theorem taskStep_door (fireMachine : Bool) (choice : Choice) {t : Task} (held : t.FlagAt) :
    FlagStep t.pc.reporting t.c.doorOpen (t.calling.filterMap Call.doorOpen?)
      (taskStep fireMachine choice t).c.doorOpen (taskStep fireMachine choice t).pc.reporting := by
  obtain ⟨pc, opens, c⟩ := t
  -- The cases follow the flag: it is written in two statements, and reported on in two others.
  cases pc with
  | opening =>
    simp only [taskStep]
    by_cases already : c.doorOpen = true
    · rw [if_pos already]
      exact .silent rfl rfl rfl
    · have closed : c.doorOpen = false := by simpa using already
      rw [if_neg already]
      -- The message about the opening is still to be built.
      exact .turned rfl (by simp only [closed]; rfl) rfl rfl
  | announce => exact .silent rfl (taskStep_keepsDoor fireMachine choice rfl).1 rfl
  | publishOpening status =>
    have opened : c.doorOpen = true ∧ status.doorOpen = 1 := held
    refine .reported ?_ rfl rfl rfl
    show [status.doorOpen] = [flagByte c.doorOpen]
    rw [opened.1, opened.2]
    rfl
  | closing =>
    -- Whether the time to lock has come or not, the flag is not written yet.
    refine .silent rfl (taskStep_keepsDoor fireMachine choice rfl).1 ?_
    simp only [taskStep]
    split <;> [split; skip] <;> rfl
  | lockDoor =>
    have opened : c.doorOpen = true := held
    -- The message about the closing follows two statements later.
    exact .turned rfl (by simp only [opened]; rfl) rfl rfl
  | clearCauses => exact .silent rfl rfl rfl
  | publishClosing =>
    have closed : c.doorOpen = false := held
    refine .reported ?_ rfl rfl rfl
    show [(0 : UInt8)] = [flagByte c.doorOpen]
    rw [closed]
    rfl
  | powerdown =>
    -- Only the supply is reported here.
    refine .silent ?_ (reportPowerdown_supervised c).doorOpen rfl
    simp only [Task.calling, Controller.reportPowerdown]
    split <;> [skip; split] <;> simp [Call.doorOpen?]
  | smokeReport => exact .silent rfl (taskStep_keepsDoor fireMachine choice rfl).1 rfl
  | saveConfig =>
    refine .silent ?_ (tickSave_supervised c).doorOpen rfl
    simp only [Task.calling]
    split <;> rfl
  | factory pc =>
    by_cases returned : pc = .returned
    · subst returned
      exact .silent rfl rfl rfl
    · rw [taskStep_factory choice opens c returned]
      exact .silent rfl (factoryStep_frame choice.fileOk pc c).1.1 rfl
  | top | evalOpen | setPress | setKeep | openKeep =>
    -- Either outcome of the test lies before or behind the messages.
    refine .silent rfl rfl ?_
    simp only [taskStep]
    split <;> rfl
  | _ => exact .silent rfl rfl rfl

/-- Every statement leads to one that belongs to the value of the flag. -/
theorem taskStep_flagAt (fireMachine : Bool) (choice : Choice) {t : Task} (held : t.FlagAt) :
    (taskStep fireMachine choice t).FlagAt := by
  obtain ⟨pc, opens, c⟩ := t
  cases pc with
  | opening =>
    -- The statement goes on with the announcement only after it has opened the door.
    simp only [taskStep]
    split
    · exact trivial
    · exact rfl
  | announce =>
    have opened : c.doorOpen = true := held
    refine ⟨(taskStep_keepsDoor fireMachine choice rfl).1.trans opened, ?_⟩
    -- Every part of the message that is written later leaves its door alone.
    simp only [Controller.describeOpening]
    split <;> split <;> split <;> rfl
  | closing =>
    simp only [taskStep]
    split
    · rename_i counting
      -- Counting towards the lock needs an open door, and keeps it.
      have opened : c.doorOpen = true := (Bool.and_eq_true_iff.mp counting).1
      split
      · show c.countQuiet.doorOpen = true
        rw [Controller.countQuiet]
        split <;> exact opened
      · exact trivial
    · exact trivial
  | lockDoor => exact rfl
  | clearCauses => exact held
  | factory pc =>
    by_cases returned : pc = .returned
    -- The factory test comes after the door phase.
    · subst returned
      exact trivial
    · rw [taskStep_factory choice opens c returned]
      exact trivial
  | top | evalOpen | setPress | setKeep | openKeep =>
    simp only [taskStep]
    split <;> exact trivial
  | _ => exact trivial

/-- Each change of the supply flag is reported at once. -/
theorem taskStep_powerdown (fireMachine : Bool) (choice : Choice) (t : Task) :
    FlagStep false t.c.smokeReport.powerdownFlag (t.calling.filterMap Call.powerdown?)
      (taskStep fireMachine choice t).c.smokeReport.powerdownFlag false := by
  have frame := (taskStep_frame fireMachine choice t).2
  obtain ⟨pc, opens, c⟩ := t
  cases pc with
  | powerdown =>
    simp only [Task.calling, taskStep, Controller.reportPowerdown]
    -- The two branches look for the flag that the supply has left.
    split
    · rename_i failed
      have clear : c.smokeReport.powerdownFlag = false := by simpa using (Bool.and_eq_true_iff.mp failed).2
      exact .both (by rw [List.drop_left]; rfl) (by simp only [clear]; rfl) rfl rfl
    · split
      · rename_i returned
        have raised : c.smokeReport.powerdownFlag = true := (Bool.and_eq_true_iff.mp returned).2
        exact .both (by rw [List.drop_left]; rfl) (by simp only [raised]; rfl) rfl rfl
      · exact .silent (by rw [List.drop_length]; rfl) rfl rfl
  | saveConfig =>
    -- Asking for the configuration to be saved is no report.
    refine .silent ?_ (frame (by simp)) rfl
    simp only [Task.calling]
    split <;> rfl
  | _ => exact .silent rfl (frame (by simp)) rfl

section

variable {pending flag next awaited : Bool} {sent : List UInt8} {reports : Reports UInt8}

/-- A flag whose pending report is discounted stays in step with its reports. -/
theorem FlagStep.alternates (taken : FlagStep pending flag sent next awaited) (delivered : Bool)
    (held : reports.Alternates flagByte (flag ^^ pending)) :
    (sent.foldl (fun reports value => reports.send delivered value) reports).Alternates flagByte
      (next ^^ awaited) := by
  cases taken with
  | silent unsent still same => rw [unsent, still, same]; exact held
  | turned unsent moved before after =>
    -- The turn and the pending report cancel out.
    rw [before, Bool.xor_false] at held
    rw [unsent, moved, after, Bool.xor_true, Bool.not_not]
    exact held
  | reported told still before after =>
    rw [before, Bool.xor_true] at held
    have turned := held.turn delivered
    rw [Bool.not_not] at turned
    rw [told, still, after, Bool.xor_false]
    exact turned
  | both told moved before after =>
    rw [before, Bool.xor_false] at held
    rw [told, moved, after, Bool.xor_false]
    exact held.turn delivered

/-- A flag that stays, with no report to come, has nothing to report. -/
theorem FlagStep.unsent (taken : FlagStep pending flag sent next awaited) (settled : pending = false)
    (still : next = flag) : sent = [] ∧ awaited = false := by
  cases taken with
  | silent unsent _ same => exact ⟨unsent, same.trans settled⟩
  | turned _ moved => simp [still] at moved
  | reported _ _ before => simp [settled] at before
  | both _ moved => simp [still] at moved

end

/-- Both flags are in step with their reports. -/
structure Watched.Tracks (w : Watched) : Prop where
  flagAt : w.t.FlagAt
  door : w.door.Alternates flagByte (w.t.c.doorOpen ^^ w.t.pc.reporting)
  powerdown : w.powerdown.Alternates flagByte w.t.c.smokeReport.powerdownFlag

/-- What an event does to both flags and to their reports. -/
structure Watched.Moves (delivered : Bool) (w next : Watched) : Prop where
  flagAt : next.t.FlagAt
  door : ∃ sent, FlagStep w.t.pc.reporting w.t.c.doorOpen sent next.t.c.doorOpen next.t.pc.reporting ∧
    next.door = sent.foldl (fun reports value => reports.send delivered value) w.door
  powerdown : ∃ sent, FlagStep false w.t.c.smokeReport.powerdownFlag sent
      next.t.c.smokeReport.powerdownFlag false ∧
    next.powerdown = sent.foldl (fun reports value => reports.send delivered value) w.powerdown

/-- Every event moves flags and reports in one of the ways described. -/
theorem Watched.step_moves {fireMachine : Bool} {w next : Watched} {event : WatchedEvent}
    (held : w.t.FlagAt) (taken : w.step fireMachine event = some next) : w.Moves event.delivered next := by
  obtain ⟨event, delivered⟩ := event
  cases event with
  | surround event =>
    cases Option.some.inj taken
    -- No call is made, so nothing is reported.
    have frame := surround_frame fireMachine event w.t.c
    have made : w.t.made { w.t with c := surround fireMachine event w.t.c } = [] := by
      simp only [Task.made, surround_calls]
      exact List.drop_length
    refine ⟨?_, ⟨[], .silent rfl frame.1 rfl, ?_⟩,
      ⟨[], .silent rfl (congrArg SmokeReport.powerdownFlag frame.2.2.2.1) rfl, ?_⟩⟩
    · show Task.FlagAt { w.t with c := surround fireMachine event w.t.c }
      unfold Task.FlagAt at held ⊢
      rw [frame.1]
      exact held
    · simp only [Watched.receive, made]
      rfl
    · simp only [Watched.receive, made]
      rfl
  | step choice =>
    -- A statement moves each of the two flags and reports the change, as its own lemma says.
    cases Option.some.inj taken
    refine ⟨taskStep_flagAt fireMachine choice held, ⟨_, taskStep_door fireMachine choice held, ?_⟩,
      ⟨_, taskStep_powerdown fireMachine choice w.t, ?_⟩⟩
    · rw [← taskStep_made fireMachine choice w.t]
      rfl
    · rw [← taskStep_made fireMachine choice w.t]
      rfl

/-- The server starts out right. -/
theorem Watched.tracks_init : Watched.init.Tracks := by
  -- Both flags are zero, which is what the server assumes.
  refine ⟨trivial, ?_, ?_⟩ <;> rfl

/-- Every event keeps both flags in step with their reports. -/
theorem Watched.Tracks.step {fireMachine : Bool} {w next : Watched} {event : WatchedEvent} (held : w.Tracks)
    (taken : w.step fireMachine event = some next) : next.Tracks := by
  obtain ⟨flagAt, ⟨sent, door, reported⟩, ⟨told, powerdown, announced⟩⟩ := step_moves held.flagAt taken
  refine ⟨flagAt, ?_, ?_⟩
  · rw [reported]
    exact door.alternates event.delivered held.door
  · -- A report on the supply is never pending.
    have before : w.powerdown.Alternates flagByte (w.t.c.smokeReport.powerdownFlag ^^ false) := by
      rw [Bool.xor_false]
      exact held.powerdown
    have after := powerdown.alternates event.delivered before
    rw [Bool.xor_false, ← announced] at after
    exact after

/-- Both flags are in step with their reports after every run. -/
theorem Watched.tracks_of_run {fireMachine : Bool} {events : List WatchedEvent} {w : Watched}
    (ran : run (Watched.step fireMachine) Watched.init events = some w) : w.Tracks := by
  have always : EveryStep (Watched.step fireMachine) (fun _ _ => True) Watched.init events :=
    everyStep_of_forall (fun _ _ => trivial) _ events
  exact run_invariant Watched.Tracks (fun _ _ _ held _ taken => held.step taken) tracks_init always ran

/-- As long as both flags stay, with no report to come, nothing more is reported. -/
theorem Watched.steady_run {fireMachine : Bool} {w later : Watched} {recent : List WatchedEvent}
    (held : w.t.FlagAt) (settled : w.t.pc.reporting = false)
    (steady : EveryStep (Watched.step fireMachine) (Steady fireMachine) w recent)
    (ran : run (Watched.step fireMachine) w recent = some later) :
    later.door = w.door ∧ later.powerdown = w.powerdown := by
  -- The invariant carries that no message is under way, which a flag that stays preserves.
  let invariant : Watched → Prop := fun state =>
    state.t.FlagAt ∧ state.t.pc.reporting = false ∧ state.door = w.door ∧ state.powerdown = w.powerdown
  have kept : invariant later := by
    refine run_invariant invariant ?_ ⟨held, settled, rfl, rfl⟩ steady ran
    rintro state event next ⟨flagAt, quiet, door, powerdown⟩ ⟨_, same⟩ taken
    obtain ⟨after, ⟨sent, doorStep, reported⟩, ⟨told, powerdownStep, announced⟩⟩ := step_moves flagAt taken
    -- Neither flag turns, so neither report is made.
    obtain ⟨doorStill, powerdownStill⟩ := same next taken
    obtain ⟨unsent, still⟩ := doorStep.unsent quiet doorStill
    obtain ⟨untold, _⟩ := powerdownStep.unsent rfl powerdownStill
    refine ⟨after, still, ?_, ?_⟩
    · rw [reported, unsent]
      exact door
    · rw [announced, untold]
      exact powerdown
  exact kept.2.2

/-- Steady iterations leave no report to come, once one of them has ended. -/
theorem Watched.steady_settles {fireMachine : Bool} {w later : Watched} {recent : List WatchedEvent}
    (held : w.t.FlagAt) (steady : EveryStep (Watched.step fireMachine) (Steady fireMachine) w recent)
    (ran : run (Watched.step fireMachine) w recent = some later)
    (ended : 0 < occurrences (Watched.step fireMachine) endsIteration w recent) :
    later.t.pc.reporting = false := by
  -- One end of an iteration is enough, since no message is begun behind it.
  let invariant : Nat → Watched → Prop := fun count state =>
    state.t.FlagAt ∧ (0 < count → state.t.pc.reporting = false)
  have kept : invariant (occurrences (Watched.step fireMachine) endsIteration w recent) later := by
    refine counted_invariant invariant ?_ ⟨held, fun some => absurd some (Nat.lt_irrefl 0)⟩ steady ran
    rintro count state event next ⟨flagAt, quiet⟩ ⟨_, same⟩ taken
    obtain ⟨after, ⟨sent, doorStep, _⟩, _⟩ := step_moves flagAt taken
    refine ⟨after, ?_⟩
    by_cases last : endsIteration state event = true
    · -- The end of an iteration leads to the head of the next one.
      intro _
      obtain ⟨event, delivered⟩ := event
      cases event with
      | surround event => simp [endsIteration] at last
      | step choice =>
        have asleep : state.t.pc = .delay := by simpa [endsIteration] using last
        cases Option.some.inj taken
        simp only [Watched.receive, taskStep, asleep]
        rfl
    · -- Within an iteration, a flag that stays has nothing to announce.
      rw [if_neg last]
      intro some
      exact (doorStep.unsent (quiet some) (same next taken).1).2
  exact kept.2 ended

/-- Unless a message about it is being built, the server is right about a flag after an even number of losses. -/
theorem Watched.knows_iff_even_lost {fireMachine : Bool} {events : List WatchedEvent} {w : Watched}
    (ran : run (Watched.step fireMachine) Watched.init events = some w) (settled : w.t.pc.reporting = false) :
    (w.door.view = flagByte w.t.c.doorOpen ↔ Even w.door.lost) ∧
      (w.powerdown.view = flagByte w.t.c.smokeReport.powerdownFlag ↔ Even w.powerdown.lost) := by
  have tracks := Watched.tracks_of_run ran
  have distinct : flagByte true ≠ flagByte false := by decide
  have door : w.door.Alternates flagByte w.t.c.doorOpen := by
    have discounted := tracks.door
    rw [settled, Bool.xor_false] at discounted
    exact discounted
  exact ⟨door.view_eq_iff distinct, tracks.powerdown.view_eq_iff distinct⟩

/--
After twelve steady iterations with a working connection, the server is right about a flag exactly when an even
number of reports on it has been lost since the last one delivered, and these iterations have repeated none.
-/
theorem agrees_iff_even_lost (fireMachine : Bool) (events : List WatchedEvent) (w : Watched)
    (ran : run (Watched.step fireMachine) Watched.init events = some w) (recent : List WatchedEvent)
    (later : Watched) (steady : EveryStep (Watched.step fireMachine) (Steady fireMachine) w recent)
    (continued : run (Watched.step fireMachine) w recent = some later)
    (long : 12 ≤ occurrences (Watched.step fireMachine) endsIteration w recent) :
    (later.door.view = flagByte later.t.c.doorOpen ↔ Even later.door.lost) ∧
      (later.powerdown.view = flagByte later.t.c.smokeReport.powerdownFlag ↔ Even later.powerdown.lost) ∧
      (w.t.pc.reporting = false → later.door = w.door ∧ later.powerdown = w.powerdown) := by
  have tracks := Watched.tracks_of_run ran
  have settled : later.t.pc.reporting = false :=
    Watched.steady_settles tracks.flagAt steady continued (by omega)
  have whole : run (Watched.step fireMachine) Watched.init (events ++ recent) = some later :=
    run_append_some.mpr ⟨w, ran, continued⟩
  obtain ⟨door, powerdown⟩ := Watched.knows_iff_even_lost whole settled
  exact ⟨door, powerdown, fun quiet => Watched.steady_run tracks.flagAt quiet steady continued⟩

/-- Some events of the task during which every publishing call succeeds, or every one fails. -/
def watched (delivered : Bool) (events : List TaskEvent) : List WatchedEvent :=
  events.map fun event => ⟨event, delivered⟩

/-- A press of the door key, and an iteration that opens the door while nothing can be published. -/
def openOffline : List WatchedEvent :=
  watched false (scans 3 { restingPins with doorKey := false } ++ scans 1 restingPins ++ statements 16)

/-- The opening that was not published leaves an odd number of losses behind, for as long as the door stays open. -/
theorem agrees_iff_even_lost_offline : ∃ w later,
    run (Watched.step true) Watched.init openOffline = some w ∧
      run (Watched.step true) w (watched true (statements 144)) = some later ∧ later.door.lost = 1 ∧
      later.door.view ≠ flagByte later.t.c.doorOpen := by
  have missed : ((run (Watched.step true) Watched.init openOffline).any fun w =>
      decide (EveryStep (Watched.step true) (Steady true) w (watched true (statements 144))) &&
        decide (12 ≤ occurrences (Watched.step true) endsIteration w (watched true (statements 144))) &&
        (run (Watched.step true) w (watched true (statements 144))).any fun later =>
          decide (later.door.lost = 1)) = true := by decide +kernel
  obtain ⟨w, ran, missed⟩ := (Option.any_eq_true _ _).mp missed
  simp only [Bool.and_eq_true, decide_eq_true_eq] at missed
  obtain ⟨⟨steady, long⟩, ended⟩ := missed
  obtain ⟨later, continued, lost⟩ := (Option.any_eq_true _ _).mp ended
  have one : later.door.lost = 1 := of_decide_eq_true lost
  have parity := (agrees_iff_even_lost true _ w ran _ later steady continued long).1
  refine ⟨w, later, ran, continued, one, fun agrees => ?_⟩
  have even : Even later.door.lost := parity.mp agrees
  rw [one] at even
  exact absurd even (by decide)

/-- Twelve iterations with a working connection do not tell the server of an opening that it has missed. -/
theorem catchesUp_fails : ¬ CatchesUp true := by
  intro catches
  have missed : ((run (Watched.step true) Watched.init openOffline).any fun w =>
      decide (EveryStep (Watched.step true) (Steady true) w (watched true (statements 144))) &&
        decide (12 ≤ occurrences (Watched.step true) endsIteration w (watched true (statements 144))) &&
        (run (Watched.step true) w (watched true (statements 144))).any fun later =>
          decide (later.door.view ≠ flagByte later.t.c.doorOpen)) = true := by decide +kernel
  obtain ⟨w, ran, missed⟩ := (Option.any_eq_true _ _).mp missed
  simp only [Bool.and_eq_true, decide_eq_true_eq] at missed
  obtain ⟨⟨steady, enough⟩, ended⟩ := missed
  obtain ⟨later, continued, differs⟩ := (Option.any_eq_true _ _).mp ended
  have agrees := catches _ w ran _ later steady continued enough
  exact absurd agrees.1 (of_decide_eq_true differs)

end PkeFire
