import PkeFire.Misc.Effects

/-! The supervision record over whole iterations, and the agreement of the two fire machine flags. -/

namespace PkeFire

/-- What `misc_smoke_report` does to its record, given whether any input and whether the fire machine is active. -/
def SmokeReport.observe (active fire : Bool) (report : SmokeReport) : SmokeReport :=
  let report := report.poll active
  if report.powerdownTarget then
    let report := report.count
    -- Raising and releasing on edges keeps the reported flag equal to the input.
    if report.powerdownTime > 50 then { report with fireMachineUpdate := fire } else report
  else report

/-- Writing the reported flag with its own value changes nothing. -/
theorem SmokeReport.update_self {report : SmokeReport} {fire : Bool} (same : report.fireMachineUpdate = fire) :
    { report with fireMachineUpdate := fire } = report := by
  rw [← same]

/-- An input that counts as a target is active. -/
def Extio.active (extio : Extio) : Bool :=
  miscSmokeTarget extio || extio.isFireMachine

section

variable (c : Controller)

/-- The record is changed as observed. -/
theorem miscSmokeReport_report :
    (miscSmokeReport c).smokeReport = c.smokeReport.observe c.extio.active c.extio.isFireMachine := by
  rw [miscSmokeReport, SmokeReport.observe, Extio.active]
  by_cases target : (c.smokeReport.poll (miscSmokeTarget c.extio || c.extio.isFireMachine)).powerdownTarget = true
  · simp only [target, if_true]
    by_cases confirmed :
        (c.smokeReport.poll (miscSmokeTarget c.extio || c.extio.isFireMachine)).count.powerdownTime > 50
    · simp only [confirmed, if_true]
      -- Where no edge is seen, the flag already has the value of the input.
      split
      · rename_i fire
        split
        · rw [fire]
        · rename_i raised
          rw [SmokeReport.update_self]
          simpa [fire] using raised
      · rename_i clear
        have released : c.extio.isFireMachine = false := by simpa using clear
        split
        · rw [released]
        · rename_i lowered
          rw [SmokeReport.update_self]
          simpa [released] using lowered
    · simp only [confirmed, if_false]
  · simp only [target, if_false, Bool.false_eq_true]

/-- The flag that opens the door is raised and released together with the reported flag. -/
theorem miscSmokeReport_fireMachineOpen (agree : c.fireMachineOpen = c.smokeReport.fireMachineUpdate) :
    (miscSmokeReport c).fireMachineOpen = (miscSmokeReport c).smokeReport.fireMachineUpdate := by
  have polled := (poll_frame (miscSmokeTarget c.extio || c.extio.isFireMachine) c.smokeReport).2
  have counted : ∀ report : SmokeReport, report.count.fireMachineUpdate = report.fireMachineUpdate := by
    intro report
    rw [SmokeReport.count]
    split <;> rfl
  -- Poll and count keep the reported flag, and each edge writes both flags.
  simp only [miscSmokeReport]
  split
  · split
    · split
      · split
        · rfl
        · simp only [counted, polled, agree]
      · split
        · rfl
        · simp only [counted, polled, agree]
    · simp only [counted, polled, agree]
  · simp only [polled, agree]

/-- Reporting on the supply leaves both fire machine flags alone, and records the level of the supply. -/
theorem reportPowerdown_frame :
    c.reportPowerdown.fireMachineOpen = c.fireMachineOpen ∧
      c.reportPowerdown.smokeReport =
        { c.smokeReport with powerdownFlag := c.extio.isCheck extioCheckPowerdown } := by
  rw [Controller.reportPowerdown]
  split
  · -- A failure that is new sets the flag.
    rename_i fails
    simp only [Bool.and_eq_true] at fails
    exact ⟨rfl, by rw [fails.1]⟩
  · rename_i unchanged
    split
    · rename_i returns
      simp only [Bool.and_eq_true, Bool.not_eq_true'] at returns
      exact ⟨rfl, by rw [returns.1]⟩
    · -- The record agrees with the line already.
      rename_i settled
      have same : c.smokeReport.powerdownFlag = c.extio.isCheck extioCheckPowerdown := by
        cases down : c.extio.isCheck extioCheckPowerdown <;> simp_all
      exact ⟨rfl, by rw [← same]⟩

/-- Locking the door clears the fire machine only when it is clear already. -/
theorem driveDoor_fire (stack : BuildingStatus) :
    (c.driveDoor stack).fireMachineOpen = c.fireMachineOpen ∧
      (c.driveDoor stack).smokeReport = c.smokeReport := by
  rw [Controller.driveDoor]
  by_cases open_ : c.openCause = true
  · rw [if_pos open_]
    have opened := Controller.openBranch_opened stack c
    exact ⟨opened.fireMachineOpen, opened.smokeReport⟩
  · rw [if_neg open_]
    cases Controller.closeBranch_closed c with
    | waits lockTime same =>
      rw [same]
      exact ⟨rfl, rfl⟩
    | locks _ _ _ same =>
      obtain ⟨_, _, _, same⟩ := same
      -- A raised fire machine would have been a cause.
      have clear : c.fireMachineOpen = false := by
        simp only [Controller.openCause, Bool.or_eq_true, not_or] at open_
        simpa using open_.2
      rw [same, clear]
      exact ⟨rfl, rfl⟩

/-- Driving the door leaves the inputs and the supervised lines alone. -/
theorem driveDoor_inputs (stack : BuildingStatus) :
    (c.driveDoor stack).extio.input = c.extio.input ∧ (c.driveDoor stack).extio.check = c.extio.check := by
  -- The output byte is the only part of the shared object that differs.
  have same := driveDoor_extio stack c
  rw [← same]
  exact ⟨rfl, rfl⟩

end

/-- What counts as active depends on the inputs alone. -/
theorem active_congr {extio other : Extio} (same : extio.input = other.input) :
    miscSmokeTarget extio = miscSmokeTarget other ∧ extio.isFireMachine = other.isFireMachine ∧
      extio.active = other.active := by
  -- With equal inputs, both sides read the same bytes.
  obtain ⟨input, _, _, _⟩ := extio
  obtain ⟨_, _, _, _⟩ := other
  cases same
  exact ⟨rfl, rfl, rfl⟩

/-- Asking for the configuration to be saved leaves the record and the fire machine alone. -/
theorem tickSave_fire (c : Controller) :
    c.tickSave.fireMachineOpen = c.fireMachineOpen ∧ c.tickSave.smokeReport = c.smokeReport := by
  rw [Controller.tickSave]
  split <;> exact ⟨rfl, rfl⟩

/-- The record after the mains supply has been looked at. -/
def SmokeReport.supplied (down : Bool) (report : SmokeReport) : SmokeReport :=
  { report with powerdownFlag := down }

/-- Serving the set key leaves the record and the fire machine alone. -/
theorem setKeyPress_fire {fireMachine : Bool} {schedule : List FactoryEvent} {c served : Controller}
    (pressed : c.setKeyPress fireMachine schedule = some served) :
    served.fireMachineOpen = c.fireMachineOpen ∧ served.smokeReport = c.smokeReport := by
  rw [Controller.setKeyPress] at pressed
  split at pressed
  · -- A factory test keeps everything that belongs to the task alone.
    obtain ⟨_, _, fire, report⟩ := factoryTestcase_sameTask pressed
    exact ⟨fire, report⟩
  · rw [← Option.some.inj pressed]
    exact ⟨rfl, rfl⟩

/-- An executed iteration observes its inputs and keeps an agreement of the two flags. -/
theorem iterate_report {stimulus : Stimulus} {c next : Controller} (running : c.runStopFlag = true)
    (done : iterate true stimulus c = some next) :
    next.smokeReport = (c.smokeReport.supplied (c.extio.isCheck extioCheckPowerdown)).observe
        c.extio.active c.extio.isFireMachine ∧
      (c.fireMachineOpen = c.smokeReport.fireMachineUpdate →
        next.fireMachineOpen = next.smokeReport.fireMachineUpdate) := by
  rcases iterate_cases done with ⟨halted, _⟩ | ⟨_, served, pressed, same⟩
  -- A stopped controller executes no iteration.
  · simp [running] at halted
  · obtain ⟨servedFire, servedReport⟩ := setKeyPress_fire pressed
    obtain ⟨sta, keys⟩ := setKeyKeep_frame served
    obtain ⟨savedFire, savedReport⟩ := tickSave_fire (miscSmokeReport (c.sampled.driveDoor
      stimulus.stack).reportPowerdown)
    -- Up to the report, the record, the flag, and everything that the report reads are kept.
    obtain ⟨doorFire, doorReport⟩ := driveDoor_fire c.sampled stimulus.stack
    obtain ⟨input, check⟩ := driveDoor_inputs c.sampled stimulus.stack
    obtain ⟨supplyFire, supplyReport⟩ := reportPowerdown_frame (c.sampled.driveDoor stimulus.stack)
    have supplyExtio := (reportPowerdown_supervised (c.sampled.driveDoor stimulus.stack)).extio
    -- The report reads the inputs as they were at the beginning of the iteration.
    have inputs : (c.sampled.driveDoor stimulus.stack).reportPowerdown.extio.input = c.extio.input := by
      rw [supplyExtio, input]
      rfl
    obtain ⟨_, fire, active⟩ := active_congr inputs
    have record : (c.sampled.driveDoor stimulus.stack).reportPowerdown.smokeReport =
        c.smokeReport.supplied (c.extio.isCheck extioCheckPowerdown) := by
      rw [supplyReport, doorReport, Extio.isCheck, check]
      rfl
    -- Behind the report, nothing writes its record or the flag.
    have nextReport : next.smokeReport =
        (miscSmokeReport (c.sampled.driveDoor stimulus.stack).reportPowerdown).smokeReport := by
      rw [same, keys]
      exact servedReport.trans savedReport
    have nextFire : next.fireMachineOpen =
        (miscSmokeReport (c.sampled.driveDoor stimulus.stack).reportPowerdown).fireMachineOpen := by
      rw [same, keys]
      exact servedFire.trans savedFire
    -- Both parts are now facts about the report alone.
    refine ⟨?_, fun agree => ?_⟩
    · rw [nextReport, miscSmokeReport_report, record, active, fire]
    · rw [nextFire, nextReport]
      apply miscSmokeReport_fireMachineOpen
      rw [supplyFire, doorFire, record]
      exact agree

/-- Every event keeps an agreement of the two fire machine flags. -/
theorem fireMachine_agree_step {c next : Controller} {event : Event}
    (agree : c.fireMachineOpen = c.smokeReport.fireMachineUpdate)
    (taken : controllerStep true c event = some next) :
    next.fireMachineOpen = next.smokeReport.fireMachineUpdate := by
  cases event with
  | surround event =>
    cases Option.some.inj taken
    obtain ⟨_, _, fire, report, _⟩ := surround_frame true event c
    rw [fire, report, agree]
  | iterate stimulus =>
    by_cases running : c.runStopFlag = true
    · exact (iterate_report running taken).2 agree
    · rcases iterate_cases taken with ⟨_, same⟩ | ⟨ran, _⟩
      · rw [same]
        exact agree
      · exact absurd ran running

/-- The two fire machine flags agree in every reachable state, whatever is interleaved. -/
theorem fireMachine_agree {c : Controller} (reached : Reachable true c) :
    c.fireMachineOpen = c.smokeReport.fireMachineUpdate :=
  reached.invariant (fun c => c.fireMachineOpen = c.smokeReport.fireMachineUpdate)
    (fun _ _ _ agree _ taken => fireMachine_agree_step agree taken) rfl

end PkeFire
