import PkeFire.Misc.Door
import PkeFire.Misc.FireReport

/-! How long the fire machine takes to open the door, and when its release is missed. -/

namespace PkeFire

/-- The event is no executed iteration that sees an active input. -/
def Released (c : Controller) : Event → Prop
  | .surround _ => True
  | .iterate _ => c.runStopFlag = true → c.extio.isFireMachine = false ∧ miscSmokeTarget c.extio = false

instance (c : Controller) : DecidablePred (Released c)
  | .surround _ => inferInstanceAs (Decidable True)
  | .iterate _ => inferInstanceAs (Decidable (c.runStopFlag = true →
      c.extio.isFireMachine = false ∧ miscSmokeTarget c.extio = false))

/-- Twelve executed iterations without an active input clear both fire machine flags. -/
def FireReleases : Prop :=
  ∀ c, Reachable true c → ∀ events finish, EveryStep (controllerStep true) Released c events →
    run (controllerStep true) c events = some finish →
    occurrences (controllerStep true) executed c events = 12 →
      finish.fireMachineOpen = false ∧ finish.smokeReport.fireMachineUpdate = false

/-- The count of a standing target passes its limit before the next poll withdraws the target. -/
def SmokeReport.Releasable (report : SmokeReport) : Prop :=
  report.powerdownTarget = true ∧ report.pollTime < 11 ∧ 50 < report.powerdownTime + (11 - report.pollTime)

/-- One iteration without an active input never raises the fire machine. -/
theorem observe_unraised {report : SmokeReport} (clear : report.fireMachineUpdate = false) :
    (report.observe false false).fireMachineUpdate = false := by
  -- The only write of the flag copies the inactive input.
  have polled := (poll_frame false report).2
  rw [SmokeReport.observe]
  simp only
  split
  · split
    · rfl
    · rw [SmokeReport.count]
      split <;> exact polled.trans clear
  · -- Without a target, only the poll has taken place.
    exact polled.trans clear

/-- One iteration without an active input releases a releasable fire machine, or leaves it releasable. -/
theorem observe_releasable {report : SmokeReport} (releasable : report.Releasable) :
    (report.observe false false).fireMachineUpdate = false ∨
      (report.observe false false).Releasable ∧
        (report.observe false false).pollTime = report.pollTime + 1 := by
  obtain ⟨target, early, enough⟩ := releasable
  -- No poll takes place yet, so the target stands and is counted.
  have polled : report.poll false = { report with pollTime := report.pollTime + 1 } := by
    rw [SmokeReport.poll, if_neg (by omega), Nat.mod_eq_of_lt (by omega)]
  rw [SmokeReport.observe, polled]
  dsimp only
  rw [if_pos target]
  split
  · -- The count has passed its limit, so the release is seen.
    exact Or.inl rfl
  · rename_i unconfirmed
    rw [SmokeReport.count] at unconfirmed ⊢
    split at unconfirmed
    · rename_i unsaturated
      simp only at unsaturated unconfirmed
      rw [if_pos unsaturated]
      refine Or.inr ⟨⟨target, ?_, ?_⟩, rfl⟩ <;> simp only <;> omega
    · rename_i saturated
      simp only at saturated unconfirmed
      omega

/-- One iteration without an active input keeps a fire machine that is not releasable. -/
theorem observe_stuck {report : SmokeReport} (raised : report.fireMachineUpdate = true)
    (stuck : ¬ report.Releasable) :
    (report.observe false false).fireMachineUpdate = true ∧ ¬ (report.observe false false).Releasable := by
  by_cases due : report.pollTime > 10
  · -- The poll withdraws the target before it is looked at.
    have polled : report.poll false =
        { report with pollTime := 0, powerdownTarget := false, powerdownTime := 0 } := by
      simp [SmokeReport.poll, due]
    rw [SmokeReport.observe, polled]
    refine ⟨raised, fun releasable => ?_⟩
    have withdrawn := releasable.1
    simp at withdrawn
  · have polled : report.poll false = { report with pollTime := report.pollTime + 1 } := by
      rw [SmokeReport.poll, if_neg due, Nat.mod_eq_of_lt (by omega)]
    rw [SmokeReport.observe, polled]
    by_cases target : report.powerdownTarget = true
    · -- The count is too far from its limit, now and at the poll.
      have few : report.powerdownTime + (11 - report.pollTime) ≤ 50 := by
        by_contra enough
        exact stuck ⟨target, by omega, by omega⟩
      have counted : SmokeReport.count { report with pollTime := report.pollTime + 1 } =
          { report with pollTime := report.pollTime + 1, powerdownTime := report.powerdownTime + 1 } := by
        rw [SmokeReport.count, if_pos (by simp only; omega)]
      dsimp only
      rw [if_pos target, counted, if_neg (by simp only; omega)]
      refine ⟨raised, fun releasable => ?_⟩
      have early := releasable.2.1
      have enough := releasable.2.2
      simp only at early enough
      omega
    · -- Without a target, the release is not even looked for.
      dsimp only
      rw [if_neg target]
      exact ⟨raised, fun releasable => target releasable.1⟩

section

variable {c next : Controller} {event : Event}

/-- What an event without an active input does to the record: nothing, or one observation. -/
theorem Released.cases (released : Released c event) (taken : controllerStep true c event = some next) :
    executed c event = false ∧ next.smokeReport = c.smokeReport ∨
      executed c event = true ∧ ∃ down, next.smokeReport = (c.smokeReport.supplied down).observe false false := by
  cases event with
  | surround event =>
    -- No other thread writes the record.
    cases Option.some.inj taken
    obtain ⟨_, _, _, report, _⟩ := surround_frame true event c
    exact Or.inl ⟨rfl, report⟩
  | iterate stimulus =>
    by_cases running : c.runStopFlag = true
    · obtain ⟨fire, smoke⟩ := released running
      have report := (iterate_report running taken).1
      rw [Extio.active, fire, smoke, Bool.or_self] at report
      exact Or.inr ⟨running, _, report⟩
    · rcases iterate_cases taken with ⟨_, same⟩ | ⟨ran, _⟩
      · rw [same]
        exact Or.inl ⟨by simpa [executed] using running, rfl⟩
      · exact absurd ran running

/-- The release is complete, or a releasable record has advanced with the iterations. -/
def Releasing (count : Nat) (c : Controller) : Prop :=
  c.smokeReport.fireMachineUpdate = false ∨ c.smokeReport.Releasable ∧ count ≤ c.smokeReport.pollTime

/-- An event without an active input advances the release if it is an executed iteration. -/
theorem Releasing.step {count : Nat} (held : Releasing count c) (released : Released c event)
    (taken : controllerStep true c event = some next) :
    Releasing (if executed c event then count + 1 else count) next := by
  rcases released.cases taken with ⟨skipped, same⟩ | ⟨ran, down, observed⟩
  · simpa [skipped, Releasing, same] using held
  · -- Looking at the supply first makes no difference to the release.
    rw [if_pos ran, Releasing, observed]
    rcases held with clear | ⟨releasable, behind⟩
    · exact Or.inl (observe_unraised clear)
    · have suppliedToo : (c.smokeReport.supplied down).Releasable := releasable
      rcases observe_releasable suppliedToo with clear | ⟨still, advanced⟩
      · exact Or.inl clear
      · refine Or.inr ⟨still, ?_⟩
        have before : (c.smokeReport.supplied down).pollTime = c.smokeReport.pollTime := rfl
        omega

/-- An event without an active input keeps a fire machine that is not releasable. -/
theorem stuck_step
    (held : c.smokeReport.fireMachineUpdate = true ∧ ¬ c.smokeReport.Releasable) (released : Released c event)
    (taken : controllerStep true c event = some next) :
    next.smokeReport.fireMachineUpdate = true ∧ ¬ next.smokeReport.Releasable := by
  rcases released.cases taken with ⟨_, same⟩ | ⟨_, down, observed⟩
  · rw [same]
    exact held
  · rw [observed]
    have raised : (c.smokeReport.supplied down).fireMachineUpdate = true := held.1
    exact observe_stuck raised held.2

end

/-- Twelve iterations without an active input release the fire machine exactly when it was down or releasable. -/
theorem fire_released_iff (c : Controller) (reached : Reachable true c) (events : List Event)
    (finish : Controller) (released : EveryStep (controllerStep true) Released c events)
    (ran : run (controllerStep true) c events = some finish)
    (long : 12 ≤ occurrences (controllerStep true) executed c events) :
    finish.fireMachineOpen = false ∧ finish.smokeReport.fireMachineUpdate = false ↔
      c.smokeReport.fireMachineUpdate = false ∨ c.smokeReport.Releasable := by
  -- Both flags agree at the end, so one of them is enough.
  have ended : Reachable true finish := reached.run (everyStep_of_forall (fun _ _ => trivial) _ _) ran
  rw [fireMachine_agree ended, and_self]
  constructor
  · -- A raised flag that is not releasable stays so to the end.
    intro clear
    by_contra kept
    rw [not_or, Bool.not_eq_false] at kept
    have still := run_invariant (fun state : Controller =>
      state.smokeReport.fireMachineUpdate = true ∧ ¬ state.smokeReport.Releasable)
      (fun _ _ _ held released taken => stuck_step held released taken) kept released ran
    simp [clear] at still
  · intro starts
    -- The poll time counts the iterations, because no poll resets it before the release.
    have started : Releasing 0 c := starts.imp_right fun releasable => ⟨releasable, Nat.zero_le _⟩
    have done : Releasing (occurrences (controllerStep true) executed c events) finish :=
      counted_invariant Releasing (fun _ _ _ _ held released taken => held.step released taken) started released ran
    -- The poll comes before the twelfth iteration, so the record cannot be releasable still.
    rcases done with clear | ⟨⟨_, early, _⟩, behind⟩
    · exact clear
    · omega

/-- The scans by which the debounced fire machine line goes low, or returns to high. -/
def scanFire (low : Bool) : List Event :=
  .replicate 31 (.surround (.scan { restingPins with sample := #v[0xff, 0xff, if low then 0x7f else 0xff] }))

/-- A fire machine that is released two iterations after a poll is cleared. -/
theorem fire_released_early : ∃ c finish,
    run (controllerStep true) controllerInit (scanFire true ++ .replicate 62 (.iterate idle) ++ scanFire false) =
      some c ∧ c.fireMachineOpen = true ∧
    run (controllerStep true) c (.replicate 12 (.iterate idle)) = some finish ∧
      finish.fireMachineOpen = false := by
  have ends : (run (controllerStep true) controllerInit
      (scanFire true ++ .replicate 62 (.iterate idle) ++ scanFire false)).any (fun c =>
        c.fireMachineOpen && c.smokeReport.powerdownTarget && decide (c.smokeReport.pollTime < 11) &&
        decide (50 < c.smokeReport.powerdownTime + (11 - c.smokeReport.pollTime)) &&
        decide (EveryStep (controllerStep true) Released c (.replicate 12 (.iterate idle))) &&
        decide (12 ≤ occurrences (controllerStep true) executed c (.replicate 12 (.iterate idle))) &&
        (run (controllerStep true) c (.replicate 12 (.iterate idle))).isSome) = true := by decide +kernel
  obtain ⟨c, ran, ends⟩ := (Option.any_eq_true _ _).mp ends
  simp only [Bool.and_eq_true, decide_eq_true_eq] at ends
  obtain ⟨⟨⟨⟨⟨⟨raised, target⟩, early⟩, enough⟩, released⟩, long⟩, finishes⟩ := ends
  obtain ⟨finish, ended⟩ := Option.isSome_iff_exists.mp finishes
  have reached : Reachable true c := ⟨_, everyStep_of_forall (fun _ _ => trivial) _ _, ran⟩
  have cleared := (fire_released_iff c reached _ finish released ended long).mpr
    (Or.inr ⟨target, early, enough⟩)
  exact ⟨c, finish, ran, raised, ended, cleared.1⟩

/-- A fire machine that is released just before a poll is never cleared. -/
theorem fireReleases_fails : ¬ FireReleases := by
  intro releases
  -- After 71 iterations the next one polls, so the target is withdrawn before the release is seen.
  have ends : (run (controllerStep true) controllerInit
      (scanFire true ++ .replicate 71 (.iterate idle) ++ scanFire false)).any (fun c =>
        decide (EveryStep (controllerStep true) Released c (.replicate 12 (.iterate idle))) &&
        decide (occurrences (controllerStep true) executed c (.replicate 12 (.iterate idle)) = 12) &&
        (run (controllerStep true) c (.replicate 12 (.iterate idle))).any fun finish =>
          finish.fireMachineOpen) = true := by decide +kernel
  obtain ⟨c, ran, ends⟩ := (Option.any_eq_true _ _).mp ends
  simp only [Bool.and_eq_true, decide_eq_true_eq] at ends
  obtain ⟨⟨released, twelve⟩, kept⟩ := ends
  obtain ⟨finish, ended, raised⟩ := (Option.any_eq_true _ _).mp kept
  have reached : Reachable true c := ⟨_, everyStep_of_forall (fun _ _ => trivial) _ _, ran⟩
  have cleared := releases c reached _ finish released ended twelve
  simp [cleared.1] at raised

/--
The event keeps the door to the controller, and an executed iteration sees the fire machine under supply.

The supply flag is read after the only statement of the iteration that writes it.
-/
def FireHeld (c : Controller) (event : Event) : Prop :=
  Plain c event ∧ match event with
    | .surround _ => True
    | .iterate stimulus => c.runStopFlag = true → c.extio.isFireMachine = true ∧
        (c.sampled.driveDoor stimulus.stack).reportPowerdown.smokeReport.powerdownFlag = false

instance (c : Controller) (event : Event) : Decidable (FireHeld c event) :=
  match event with
  | .surround event => inferInstanceAs (Decidable (Plain c (.surround event) ∧ True))
  | .iterate stimulus => inferInstanceAs (Decidable (Plain c (.iterate stimulus) ∧
      (c.runStopFlag = true → c.extio.isFireMachine = true ∧
        (c.sampled.driveDoor stimulus.stack).reportPowerdown.smokeReport.powerdownFlag = false)))

/-- How many iterations with an active fire machine it takes at most until the fire machine is raised. -/
def SmokeReport.untilRaised (report : SmokeReport) : Nat :=
  -- A target is confirmed by the 51st count, and without one the next poll has to come first.
  if report.powerdownTarget then 51 - min report.powerdownTime 50 else 62 - min report.pollTime 11

/-- How many iterations with an active fire machine it takes at most until the door is open for it. -/
def Controller.untilOpen (c : Controller) : Nat :=
  if c.fireMachineOpen then if c.doorOpen then 0 else 1 else 1 + c.smokeReport.untilRaised

/-- An active fire machine stays raised. -/
theorem observe_raised {active : Bool} {report : SmokeReport} (raised : report.fireMachineUpdate = true) :
    (report.observe active true).fireMachineUpdate = true := by
  have polled := (poll_frame active report).2
  rw [SmokeReport.observe]
  dsimp only
  split
  · split
    · rfl
    · rw [SmokeReport.count]
      split <;> exact polled.trans raised
  · exact polled.trans raised

/-- Counting a target confirms it, or brings it closer to being confirmed. -/
theorem count_progress {report : SmokeReport} (target : report.powerdownTarget = true) :
    50 < report.count.powerdownTime ∨ report.count.untilRaised + 1 ≤ 51 - min report.powerdownTime 50 := by
  rw [SmokeReport.count]
  split
  · rw [SmokeReport.untilRaised]
    dsimp only
    rw [if_pos target]
    omega
  · -- A count that is saturated has passed its limit.
    left
    omega

/-- Under supply, an active fire machine is raised, or comes closer to being raised. -/
theorem observe_progress {report : SmokeReport} (supplied : report.powerdownFlag = false) :
    (report.observe true true).fireMachineUpdate = true ∨
      (report.observe true true).untilRaised + 1 ≤ report.untilRaised := by
  -- A polled target is counted at once.
  have confirmed : ∀ polled : SmokeReport, polled.powerdownTarget = true →
      51 - min polled.powerdownTime 50 ≤ report.untilRaised → report.poll true = polled →
      (report.observe true true).fireMachineUpdate = true ∨
        (report.observe true true).untilRaised + 1 ≤ report.untilRaised := by
    intro polled target closer same
    rw [SmokeReport.observe, same]
    dsimp only
    rw [if_pos target]
    split
    · exact Or.inl rfl
    · rename_i unconfirmed
      rcases count_progress target with above | progress
      · exact absurd above unconfirmed
      · exact Or.inr (Nat.le_trans progress closer)
  by_cases due : report.pollTime > 10
  · -- The poll is due, and makes a target of the input.
    refine confirmed { report with pollTime := 0, powerdownTarget := true } rfl ?_
      (by simp [SmokeReport.poll, due, supplied])
    rw [SmokeReport.untilRaised]
    split <;> simp only <;> omega
  · have polled : report.poll true = { report with pollTime := report.pollTime + 1 } := by
      rw [SmokeReport.poll, if_neg due, Nat.mod_eq_of_lt (by omega)]
    by_cases target : report.powerdownTarget = true
    · -- The target stands from an earlier poll.
      refine confirmed { report with pollTime := report.pollTime + 1 } target ?_ polled
      rw [SmokeReport.untilRaised, if_pos target]
    · -- Without a target, the next poll has come one iteration closer.
      right
      rw [SmokeReport.observe, polled]
      dsimp only
      rw [if_neg target, SmokeReport.untilRaised, SmokeReport.untilRaised]
      dsimp only
      rw [if_neg target, if_neg target]
      omega

/-- The record is never closer than one iteration to raising the fire machine. -/
theorem untilRaised_pos (report : SmokeReport) : 1 ≤ report.untilRaised ∧ report.untilRaised ≤ 62 := by
  rw [SmokeReport.untilRaised]
  split <;> omega

section

variable {c next : Controller} {event : Event}

/-- An executed iteration that sees the fire machine under supply brings the open door closer. -/
theorem untilOpen_iterate {stimulus : Stimulus} (agree : c.fireMachineOpen = c.smokeReport.fireMachineUpdate)
    (held : FireHeld c (.iterate stimulus)) (running : c.runStopFlag = true)
    (taken : controllerStep true c (.iterate stimulus) = some next) :
    next.untilOpen ≤ c.untilOpen - 1 := by
  obtain ⟨plain, held⟩ := held
  obtain ⟨fire, supplied⟩ := held running
  obtain ⟨report, agrees⟩ := iterate_report running taken
  have agree' := agrees agree
  have active : c.extio.active = true := by rw [Extio.active, fire, Bool.or_true]
  -- The flag of the supply is what this iteration has sampled.
  have up : c.extio.isCheck extioCheckPowerdown = false := by
    rw [(reportPowerdown_frame _).2, Extio.isCheck, (driveDoor_inputs _ _).2] at supplied
    exact supplied
  rw [active, fire, up] at report
  by_cases raised : c.fireMachineOpen = true
  · -- A raised fire machine is a cause, so the door is open at the end.
    have stays : next.fireMachineOpen = true := by
      rw [agree', report]
      exact observe_raised (agree ▸ raised)
    have cause : c.sampled.openCause = true := by
      have kept : c.sampled.fireMachineOpen = c.fireMachineOpen := rfl
      simp [Controller.openCause, kept, raised]
    have isOpen : next.doorOpen = true := by
      rw [iterate_plain plain running taken, (served_sameDoor true _).doorOpen, Controller.driveDoor,
        if_pos cause, (Controller.openBranch_opened stimulus.stack c.sampled).doorOpen]
    rw [Controller.untilOpen, if_pos stays, if_pos isOpen]
    exact Nat.zero_le _
  · -- The door waits for the fire machine, which this iteration brings closer.
    have before : c.untilOpen = 1 + c.smokeReport.untilRaised := by rw [Controller.untilOpen, if_neg raised]
    rw [before, Controller.untilOpen]
    by_cases stays : next.fireMachineOpen = true
    · rw [if_pos stays]
      have positive := (untilRaised_pos c.smokeReport).1
      split <;> omega
    · rw [if_neg stays]
      have supply : (c.smokeReport.supplied false).powerdownFlag = false := rfl
      rcases observe_progress supply with up | progress
      · rw [agree', report] at stays
        exact absurd up stays
      · rw [← report] at progress
        have same : (c.smokeReport.supplied false).untilRaised = c.smokeReport.untilRaised := rfl
        omega

/-- An event under an active fire machine brings the open door closer if it is an executed iteration. -/
theorem untilOpen_step (agree : c.fireMachineOpen = c.smokeReport.fireMachineUpdate)
    (held : FireHeld c event) (taken : controllerStep true c event = some next) :
    next.untilOpen ≤ if executed c event then c.untilOpen - 1 else c.untilOpen := by
  cases event with
  | surround event =>
    -- Other threads change neither the door nor what it waits for.
    cases Option.some.inj taken
    obtain ⟨door, _, fire, report, _⟩ := surround_frame true event c
    simp only [executed, Bool.false_eq_true, if_false, Controller.untilOpen, door, fire, report, Nat.le_refl]
  | iterate stimulus =>
    by_cases running : c.runStopFlag = true
    · simpa [executed, running] using untilOpen_iterate agree held running taken
    · rcases iterate_cases taken with ⟨_, same⟩ | ⟨ran, _⟩
      · rw [same]
        simp [executed, running, Controller.untilOpen]
      · exact absurd ran running

end

/-- The fire machine flags agree, and 63 iterations under an active fire machine open the door for it. -/
theorem fire_detected (c : Controller) (reached : PlainReachable true c) :
    c.fireMachineOpen = c.smokeReport.fireMachineUpdate ∧
    ∀ events finish, EveryStep (controllerStep true) FireHeld c events →
      run (controllerStep true) c events = some finish →
      63 ≤ occurrences (controllerStep true) executed c events →
        finish.fireMachineOpen = true ∧ finish.doorOpen = true ∧ finish.doorPin = true := by
  have any : ∀ {state}, PlainReachable true state → Reachable true state := by
    rintro state ⟨events, plain, ran⟩
    exact ⟨events, plain.mono fun _ _ _ => trivial, ran⟩
  refine ⟨fireMachine_agree (any reached), fun events finish held ran long => ?_⟩
  -- The bound on the remaining iterations shrinks with each executed one.
  have bounded : finish.fireMachineOpen = finish.smokeReport.fireMachineUpdate ∧
      finish.untilOpen ≤ 63 - occurrences (controllerStep true) executed c events := by
    refine counted_invariant (fun count state =>
      state.fireMachineOpen = state.smokeReport.fireMachineUpdate ∧ state.untilOpen ≤ 63 - count)
      ?_ ⟨fireMachine_agree (any reached), ?_⟩ held ran
    · intro count state event next invariant held taken
      refine ⟨fireMachine_agree_step invariant.1 taken, ?_⟩
      have closer := untilOpen_step invariant.1 held taken
      have before := invariant.2
      split at closer <;> rename_i counts <;> simp only [counts, if_true, if_false, Bool.false_eq_true] <;> omega
    · have longest := (untilRaised_pos c.smokeReport).2
      rw [Controller.untilOpen]
      split <;> [split <;> omega; omega]
  -- With nothing left to wait for, the fire machine has been reported and the door is open.
  have raised : finish.fireMachineOpen = true ∧ finish.doorOpen = true := by
    have none : finish.untilOpen = 0 := by omega
    rw [Controller.untilOpen] at none
    split at none
    · rename_i raised
      split at none
      · rename_i isOpen
        exact ⟨raised, isOpen⟩
      · omega
    · omega
  -- The output follows the flag in every plain run.
  obtain ⟨whole, plain, arrived⟩ : PlainReachable true finish :=
    reached.run (held.mono fun _ _ held => held.1) ran
  exact ⟨raised.1, raised.2, (doorInvariant_run plain arrived).output.trans raised.2⟩

/-- A fire machine that is active from the start opens the door within 63 iterations. -/
theorem fire_detected_start : ∃ finish,
    run (controllerStep true) controllerInit (scanFire true ++ .replicate 63 (.iterate idle)) = some finish ∧
      finish.doorPin = true := by
  have held : EveryStep (controllerStep true) FireHeld controllerInit
      (scanFire true ++ .replicate 63 (.iterate idle)) := by decide +kernel
  obtain ⟨finish, ran⟩ := run_plain (held.mono fun _ _ held => held.1)
  have detected := (fire_detected controllerInit (ReachableFrom.start _)).2 _ finish held ran (by decide +kernel)
  exact ⟨finish, ran, detected.2.2⟩

end PkeFire
