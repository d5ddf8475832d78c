import PkeFire.Misc.FireReport
import PkeFire.Misc.FailSafe

/-! How long the inputs have been active before the fire machine opens the door. -/

namespace PkeFire

/-- What a report on the inputs has met, and what it has made of its target. -/
structure Look where
  /-- The report has polled the inputs. -/
  polls : Bool
  /-- The mains supply has failed. -/
  failed : Bool
  /-- One of the inputs is active, or the fire machine is. -/
  active : Bool
  /-- The target before the report. -/
  before : Bool
  /-- The target after the report. -/
  target : Bool
  deriving DecidableEq, Repr

/-- The look that a report takes at some record. -/
def SmokeReport.look (active : Bool) (report : SmokeReport) : Look where
  polls := report.pollTime > 10
  failed := report.powerdownFlag
  active := active
  before := report.powerdownTarget
  target := (report.poll active).powerdownTarget

/-- The look of an event, which only a report on the inputs takes. -/
def Task.look (t : Task) : TaskEvent → Option Look
  | .surround _ => none
  | .step _ => if t.pc = .smokeReport then some (t.c.smokeReport.look t.c.extio.active) else none

/-- The looks of a run from the start of the task, oldest first: one for each executed iteration. -/
def looks (events : List TaskEvent) : List Look :=
  observations (taskEvent true) Task.look taskInit events

/-- The look has raised the target: its poll has met an active input while there was mains supply. -/
def Look.Raises (look : Look) : Prop :=
  look.polls = true ∧ look.failed = false ∧ look.active = true ∧ look.before = false ∧ look.target = true

/-- The look has left a target as it was: it has not polled, or it has met an active input. -/
def Look.Keeps (look : Look) : Prop :=
  look.before = true ∧ look.target = true ∧ (look.polls = true → look.active = true)

/-- The latest looks, at least as many as asked for, have raised the target and kept it ever since. -/
def Targeted (count : Nat) (seen : List Look) : Prop :=
  ∃ earlier raising later, seen = earlier ++ raising :: later ∧ count ≤ later.length + 1 ∧
    raising.Raises ∧ ∀ look ∈ later, look.Keeps

/-- Every twelfth report polls, counted from the start. -/
def PollsEveryTwelfth (seen : List Look) : Prop :=
  ∀ i look, seen[i]? = some look → (look.polls = true ↔ i % 12 = 11)

/-- The counters of the record tell the history of the reports. -/
structure SmokeReport.Recalls (report : SmokeReport) (seen : List Look) : Prop where
  pollTime : report.pollTime = seen.length % 12
  idle : report.powerdownTarget = false → report.powerdownTime = 0
  counted : report.powerdownTarget = true → Targeted report.powerdownTime seen
  periodic : PollsEveryTwelfth seen

/-- The statement begins an executed iteration, since the task is not stopped. -/
def Task.begins (t : Task) : TaskEvent → Bool
  | .surround _ => false
  | .step _ => t.pc = .top && t.c.runStopFlag

/-- The statements of an executed iteration up to its report on the inputs. -/
def Pc.unreported : Pc → Bool
  | .sampleKey | .sampleEmergency | .clearOpenKey | .evalOpen | .powerdown | .smokeReport => true
  | pc => pc.inOpening || pc.inClosing

section

variable {report : SmokeReport} {seen : List Look} {active fire : Bool}

/-- A report does not poll, or it polls an active input without or with mains supply, or it polls an inactive one. -/
theorem SmokeReport.poll_cases (active : Bool) (report : SmokeReport) :
    (report.pollTime ≤ 10 ∧ report.poll active = { report with pollTime := (report.pollTime + 1) % 256 }) ∨
    (10 < report.pollTime ∧ active = true ∧ report.powerdownFlag = true ∧
      report.poll active = { report with pollTime := 0 }) ∨
    (10 < report.pollTime ∧ active = true ∧ report.powerdownFlag = false ∧
      report.poll active = { report with pollTime := 0, powerdownTarget := true }) ∨
    (10 < report.pollTime ∧ active = false ∧
      report.poll active = { report with pollTime := 0, powerdownTarget := false, powerdownTime := 0 }) := by
  by_cases due : report.pollTime > 10
  · cases active with
    | false => exact Or.inr (Or.inr (Or.inr ⟨due, rfl, by simp [poll, due]⟩))
    | true =>
      -- Without mains supply, an active input does not raise the target.
      cases down : report.powerdownFlag with
      | true => exact Or.inr (Or.inl ⟨due, rfl, rfl, by simp [poll, due, down]⟩)
      | false => exact Or.inr (Or.inr (Or.inl ⟨due, rfl, rfl, by simp [poll, due, down]⟩))
  · -- Between two polls only the counter moves.
    exact Or.inl ⟨by omega, by simp [poll, due]⟩

/-- A report polls, then counts a target, and leaves everything else of its record to the fire machine. -/
theorem SmokeReport.observe_counts (active fire : Bool) (report : SmokeReport) :
    (report.observe active fire).pollTime = (report.poll active).pollTime ∧
      (report.observe active fire).powerdownTarget = (report.poll active).powerdownTarget ∧
      (report.observe active fire).powerdownTime =
        if (report.poll active).powerdownTarget ∧ (report.poll active).powerdownTime < 255 then
          (report.poll active).powerdownTime + 1
        else (report.poll active).powerdownTime := by
  by_cases target : (report.poll active).powerdownTarget = true
  · -- Counting saturates, and neither counting nor reporting writes the other two.
    by_cases below : (report.poll active).powerdownTime < 255
    · -- A count above fifty is reported, which touches none of the three.
      by_cases confirmed : (report.poll active).powerdownTime + 1 > 50
      · simp [observe, count, target, below, confirmed]
      · simp [observe, count, target, below, confirmed]
    · have confirmed : (report.poll active).powerdownTime > 50 := by omega
      simp [observe, count, target, below, confirmed]
  · simp [observe, target]

/-- A poll is due in every twelfth report. -/
theorem SmokeReport.Recalls.polls (recalls : report.Recalls seen) (active : Bool) :
    (report.look active).polls = true ↔ seen.length % 12 = 11 := by
  simp only [look, recalls.pollTime, decide_eq_true_eq]
  omega

/-- A target that is kept is counted once more. -/
theorem Targeted.again {count : Nat} {look : Look} (targeted : Targeted count seen) (keeps : look.Keeps) :
    Targeted (count + 1) (seen ++ [look]) := by
  obtain ⟨earlier, raising, later, rfl, enough, raised, kept⟩ := targeted
  -- The look that has raised the target stays the same.
  refine ⟨earlier, raising, later ++ [look], by simp, by simp only [List.length_append, List.length_singleton]; omega,
    raised, ?_⟩
  simp only [List.mem_append, List.mem_singleton]
  rintro other (among | rfl)
  · exact kept other among
  · exact keeps

/-- Fewer looks are asked for. -/
theorem Targeted.fewer {count fewer : Nat} (targeted : Targeted count seen) (le : fewer ≤ count) :
    Targeted fewer seen := by
  obtain ⟨earlier, raising, later, same, enough, rest⟩ := targeted
  exact ⟨earlier, raising, later, same, by omega, rest⟩

/-- A look that raises the target is the first to count. -/
theorem Look.Raises.targeted {look : Look} (raises : look.Raises) : Targeted 1 (seen ++ [look]) :=
  ⟨seen, look, [], rfl, by simp, raises, by simp⟩

/-- The looks poll periodically for one look more. -/
theorem SmokeReport.Recalls.periodic_snoc (recalls : report.Recalls seen) (active : Bool) :
    PollsEveryTwelfth (seen ++ [report.look active]) := by
  intro i look found
  rcases Nat.lt_trichotomy i seen.length with earlier | here | beyond
  · -- An earlier look has been settled before.
    exact recalls.periodic i look (by rwa [List.getElem?_append_left earlier] at found)
  · -- The counter has told when this look is due.
    subst here
    simp only [List.getElem?_concat_length, Option.some.injEq] at found
    exact found ▸ recalls.polls active
  · -- There is no look behind this one.
    rw [List.getElem?_eq_none (by simp only [List.length_append, List.length_singleton]; omega)] at found
    cases found

/-- A target after the poll has been kept or raised, and without a target the time is zero. -/
theorem SmokeReport.poll_target (active : Bool) (report : SmokeReport) :
    ((report.poll active).powerdownTarget = true → (report.poll active).powerdownTime = report.powerdownTime ∧
      (report.powerdownTarget = true ∧ (report.look active).Keeps ∨
        report.powerdownTarget = false ∧ (report.look active).Raises)) ∧
    ((report.poll active).powerdownTarget = false → (report.poll active).powerdownTime = 0 ∨
      report.powerdownTarget = false ∧ (report.poll active).powerdownTime = report.powerdownTime) := by
  have polls : (report.look active).polls = decide (report.pollTime > 10) := rfl
  have target : (report.look active).target = (report.poll active).powerdownTarget := rfl
  rcases report.poll_cases active with ⟨quiet, same⟩ | ⟨_, on, down, same⟩ | ⟨due, on, down, same⟩ | ⟨_, off, same⟩
  · -- Between two polls, and without mains supply, the target is what it was.
    refine ⟨fun kept => ⟨by rw [same], Or.inl ?_⟩, fun clear => Or.inr ?_⟩
    · rw [same] at kept target
      exact ⟨kept, kept, target.trans kept, fun due => by simp only [polls, decide_eq_true_eq] at due; omega⟩
    · rw [same] at clear ⊢
      exact ⟨clear, rfl⟩
  · -- Such a poll has met an active input, though.
    refine ⟨fun kept => ⟨by rw [same], Or.inl ?_⟩, fun clear => Or.inr ?_⟩
    · rw [same] at kept target
      exact ⟨kept, kept, target.trans kept, fun _ => on⟩
    · rw [same] at clear ⊢
      exact ⟨clear, rfl⟩
  · -- With mains supply, the target is raised, or it is raised already.
    rw [same] at target ⊢
    refine ⟨fun _ => ⟨rfl, ?_⟩, fun clear => absurd clear (by simp)⟩
    cases before : report.powerdownTarget with
    | true => exact Or.inl ⟨rfl, before, target, fun _ => on⟩
    | false => exact Or.inr ⟨rfl, by rw [polls, decide_eq_true due], down, on, before, target⟩
  · -- An inactive input takes the target away, and its time with it.
    rw [same]
    exact ⟨fun kept => absurd kept (by simp), fun _ => Or.inl rfl⟩

/-- A report looks at the inputs, and its record goes on recalling the history. -/
theorem SmokeReport.Recalls.observe (recalls : report.Recalls seen) (active fire : Bool) :
    (report.observe active fire).Recalls (seen ++ [report.look active]) := by
  obtain ⟨pollTime, target, time⟩ := report.observe_counts active fire
  obtain ⟨kept, clear⟩ := report.poll_target active
  refine ⟨?_, fun off => ?_, fun on => ?_, recalls.periodic_snoc active⟩
  · -- The counter starts over where a poll is due.
    have within := recalls.pollTime
    rw [pollTime, List.length_append, List.length_singleton]
    rcases report.poll_cases active with ⟨quiet, same⟩ | ⟨due, _, _, same⟩ | ⟨due, _, _, same⟩ | ⟨due, _, same⟩ <;>
      rw [same] <;> simp only <;> omega
  · -- Without a target, nothing is counted.
    rw [target] at off
    rw [time, if_neg (by simp [off])]
    rcases clear off with zero | ⟨before, same⟩
    · exact zero
    · exact same.trans (recalls.idle before)
  · -- With one, the present look counts too.
    rw [target] at on
    obtain ⟨same, continued⟩ := kept on
    have least : (report.observe active fire).powerdownTime ≤ report.powerdownTime + 1 := by
      rw [time, same]
      split <;> omega
    rcases continued with ⟨before, keeps⟩ | ⟨before, raises⟩
    · exact ((recalls.counted before).again keeps).fewer least
    · -- A target that has just been raised is counted from zero.
      rw [recalls.idle before] at least
      exact raises.targeted.fewer least

end

/-- The record from the start recalls the empty history. -/
theorem recalls_init : taskInit.c.smokeReport.Recalls [] :=
  ⟨rfl, fun _ => rfl, fun on => absurd on (by decide), fun i look found => by simp at found⟩

/-- What a record recalls depends on its counters and its target alone. -/
theorem SmokeReport.Recalls.supplied {report : SmokeReport} {seen : List Look} (recalls : report.Recalls seen)
    (down : Bool) : (report.supplied down).Recalls seen :=
  ⟨recalls.pollTime, recalls.idle, recalls.counted, recalls.periodic⟩

/-- No statement but the report on the inputs raises the fire machine, or writes more than the flag of the supply. -/
theorem taskStep_record (fireMachine : Bool) (choice : Choice) {t : Task} (other : t.pc ≠ .smokeReport) :
    (∃ down, (taskStep fireMachine choice t).c.smokeReport = t.c.smokeReport.supplied down) ∧
      ((taskStep fireMachine choice t).c.fireMachineOpen = true → t.c.fireMachineOpen = true) := by
  obtain ⟨pc, opens, c⟩ := t
  have same : ∃ down, c.smokeReport = c.smokeReport.supplied down := ⟨c.smokeReport.powerdownFlag, rfl⟩
  cases pc with
  | opening =>
    simp only [taskStep]
    split <;> exact ⟨same, id⟩
  | announce =>
    -- Only the floor alarms are switched on.
    obtain ⟨floor, described⟩ := Controller.describeOpening_frame choice.stack c
    simp only [taskStep, described]
    split <;> exact ⟨same, id⟩
  | closing =>
    simp only [taskStep, Controller.countQuiet]
    split <;> [split; skip] <;> exact ⟨same, id⟩
  -- Closing lowers the flag of the fire machine, and keeps the record.
  | clearCauses => exact ⟨same, fun raised => absurd raised (by simp [taskStep, Controller.clearCauses])⟩
  | powerdown =>
    -- The report on the supply writes the flag of the supply.
    obtain ⟨fire, record⟩ := reportPowerdown_frame c
    exact ⟨⟨_, record⟩, fire.symm.trans⟩
  | smokeReport => exact absurd rfl other
  | saveConfig =>
    obtain ⟨fire, record⟩ := tickSave_fire c
    exact ⟨⟨_, record⟩, fire.symm.trans⟩
  | factory pc =>
    by_cases returned : pc = .returned
    · subst returned
      exact ⟨same, id⟩
    · -- The factory test writes neither of the two.
      rw [taskStep_factory choice opens c returned]
      obtain ⟨_, _, fire, record⟩ := (factoryStep_frame choice.fileOk pc c).1
      exact ⟨⟨_, record⟩, fire.symm.trans⟩
  | _ => exact ⟨same, id⟩

/-- Every event of a run extends the history that the record recalls by what it looks at. -/
theorem SmokeReport.Recalls.event {t next : Task} {event : TaskEvent} {seen : List Look}
    (recalls : t.c.smokeReport.Recalls seen) (taken : taskEvent true t event = some next) :
    next.c.smokeReport.Recalls (seen ++ (t.look event).toList) := by
  cases event with
  | surround event =>
    cases Option.some.inj taken
    obtain ⟨_, _, _, record, _⟩ := surround_frame true event t.c
    simpa only [Task.look, Option.toList_none, List.append_nil, record] using recalls
  | step choice =>
    cases Option.some.inj taken
    by_cases reporting : t.pc = .smokeReport
    · -- The record after the report is the one that its observation leaves.
      have reported := miscSmokeReport_report t.c
      simp only [Task.look, Option.toList_some, taskStep, reporting, if_true, reported]
      exact recalls.observe _ _
    · -- No other statement takes a look.
      obtain ⟨⟨down, record⟩, _⟩ := taskStep_record true choice reporting
      simp only [Task.look, if_neg reporting, Option.toList_none, List.append_nil, record]
      exact recalls.supplied down

/-- After every run, the record recalls the looks of the run. -/
theorem recalls_run {events : List TaskEvent} {t : Task} (ran : run (taskEvent true) taskInit events = some t) :
    t.c.smokeReport.Recalls (looks events) := by
  have everywhere : EveryStep (taskEvent true) (fun _ _ => True) taskInit events :=
    everyStep_of_forall (fun _ _ => trivial) _ _
  exact observed_invariant Task.look (fun t seen => t.c.smokeReport.Recalls seen)
    (fun _ _ _ _ held _ taken => held.event taken) recalls_init everywhere ran

/-- Every statement of an executed iteration stays before its report, or has just made it. -/
theorem taskStep_unreported (fireMachine : Bool) (choice : Choice) {t : Task} (running : t.pc ≠ .top) :
    (taskStep fireMachine choice t).pc.unreported = (t.pc.unreported && !decide (t.pc = .smokeReport)) := by
  obtain ⟨pc, opens, c⟩ := t
  cases pc with
  | top => exact absurd rfl running
  | evalOpen | opening | setPress | setKeep | openKeep =>
    simp only [taskStep]
    split <;> rfl
  | closing =>
    -- A door that is locked is locked within the branch.
    simp only [taskStep]
    split <;> [split; skip] <;> rfl
  | factory pc =>
    by_cases returned : pc = .returned
    · subst returned
      rfl
    · rw [taskStep_factory choice opens c returned]
      rfl
  | _ => rfl

/-- Every executed iteration takes one look, once it has come to its report. -/
theorem looks_length {events : List TaskEvent} {t : Task} (ran : run (taskEvent true) taskInit events = some t) :
    occurrences (taskEvent true) Task.begins taskInit events =
      (looks events).length + if t.pc.unreported then 1 else 0 := by
  refine history_invariant (fun events t => occurrences (taskEvent true) Task.begins taskInit events =
    (looks events).length + if t.pc.unreported then 1 else 0) ?_ rfl ran
  intro seen t event next before counted taken
  simp only [occurrences, looks, observations_append before, observations_singleton, List.length_append] at counted ⊢
  rw [counted]
  cases event with
  | surround event =>
    -- Other threads neither begin an iteration nor take a look.
    cases Option.some.inj taken
    simp [Task.begins, Task.look]
  | step choice =>
    cases Option.some.inj taken
    by_cases beginning : t.pc = .top
    · -- A task that is not stopped owes a look from here on.
      cases running : t.c.runStopFlag <;> simp [Task.begins, Task.look, taskStep, beginning, running, Pc.unreported,
        Pc.inOpening, Pc.inClosing]
    · rw [taskStep_unreported true choice beginning]
      by_cases reporting : t.pc = .smokeReport
      · -- The look that was owed is taken.
        simp [Task.begins, Task.look, reporting, Pc.unreported]
      · simp [Task.begins, Task.look, beginning, reporting]

/-- The fire machine is raised by a report that finds its line active after a target has lasted. -/
theorem miscSmokeReport_raises {c : Controller} (closed : c.fireMachineOpen = false)
    (opened : (miscSmokeReport c).fireMachineOpen = true) :
    c.extio.isFireMachine = true ∧ (miscSmokeReport c).smokeReport.powerdownTarget = true ∧
      51 ≤ (miscSmokeReport c).smokeReport.powerdownTime := by
  have counted : ∀ report : SmokeReport, report.count.powerdownTarget = report.powerdownTarget := by
    intro report
    rw [SmokeReport.count]
    split <;> rfl
  -- The poll has looked at the same line, but only its result matters from here on.
  rw [miscSmokeReport] at opened ⊢
  generalize c.smokeReport.poll (miscSmokeTarget c.extio || c.extio.isFireMachine) = report at opened ⊢
  by_cases target : report.powerdownTarget = true
  · by_cases lasting : report.count.powerdownTime > 50
    · cases fire : c.extio.isFireMachine with
      | false =>
        -- An inactive line only lowers the flag.
        cases raised : report.count.fireMachineUpdate <;> simp [target, lasting, fire, raised, closed] at opened
      | true =>
        have enough : 51 ≤ report.count.powerdownTime := lasting
        cases raised : report.count.fireMachineUpdate <;> simp [target, lasting, fire, raised, counted, enough]
    · simp [target, lasting, closed] at opened
  · -- Without a target that has lasted, the report leaves the flag alone.
    simp [target, closed] at opened

/--
A fire machine that opens the door has been confirmed.

The looks include the one that opens it, and each stands for one executed iteration.
-/
theorem fireMachine_confirmed {events : List TaskEvent} {t next : Task} {event : TaskEvent}
    (ran : run (taskEvent true) taskInit events = some t) (taken : taskEvent true t event = some next)
    (closed : t.c.fireMachineOpen = false) (opened : next.c.fireMachineOpen = true) :
    t.pc = .smokeReport ∧ t.c.extio.isFireMachine = true ∧ Targeted 51 (looks (events ++ [event])) ∧
      PollsEveryTwelfth (looks (events ++ [event])) ∧
      occurrences (taskEvent true) Task.begins taskInit (events ++ [event]) =
        (looks (events ++ [event])).length := by
  have continued : run (taskEvent true) taskInit (events ++ [event]) = some next :=
    run_append_some.mpr ⟨t, ran, (run_singleton t event).trans taken⟩
  have recalls := recalls_run continued
  have iterations := looks_length continued
  cases event with
  | surround event =>
    -- No other thread opens the door for the fire machine.
    cases Option.some.inj taken
    obtain ⟨_, _, fire, _⟩ := surround_frame true event t.c
    exact absurd (closed.symm.trans (fire.symm.trans opened)) (by decide)
  | step choice =>
    cases Option.some.inj taken
    by_cases reporting : t.pc = .smokeReport
    · -- The record behind the report recalls the whole history, its own look included.
      simp only [taskStep, reporting, if_true] at opened recalls iterations
      simp only [Pc.unreported, Pc.inOpening, Pc.inClosing] at iterations
      obtain ⟨fire, target, lasting⟩ := miscSmokeReport_raises closed opened
      exact ⟨reporting, fire, (recalls.counted target).fewer lasting, recalls.periodic, iterations⟩
    · -- Every other statement would have found the flag raised already.
      have raised := (taskStep_record true choice reporting).2 opened
      exact absurd (closed.symm.trans raised) (by decide)

/-- The levels of a board whose fire machine pulls its line. -/
def firePins : Pins :=
  { restingPins with sample := #v[0xff, 0xff, 0x7f] }

/-- A fire that is debounced and then lasts for sixty-two iterations, of which the last stands at its report. -/
def lastingFire : List TaskEvent :=
  scans 31 firePins ++ statements 739

/-- The fire opens the door in the sixty-second iteration. -/
theorem fireMachine_confirmed_lasting : ∃ t, run (taskEvent true) taskInit lastingFire = some t ∧
    t.pc = .smokeReport ∧ Targeted 51 (looks (lastingFire ++ [.step plainChoice])) := by
  have course : (run (taskEvent true) taskInit lastingFire).any (fun t => !t.c.fireMachineOpen &&
      (taskStep true plainChoice t).c.fireMachineOpen) = true := by decide +kernel
  obtain ⟨t, ran, opens⟩ := (Option.any_eq_true _ _).mp course
  rw [Bool.and_eq_true, Bool.not_eq_true'] at opens
  -- The run that has been evaluated is the one that the theorem is about.
  have taken : taskEvent true t (.step plainChoice) = some (taskStep true plainChoice t) := rfl
  obtain ⟨reporting, _, targeted, _⟩ := fireMachine_confirmed ran taken opens.1 opens.2
  exact ⟨t, ran, reporting, targeted⟩

end PkeFire
