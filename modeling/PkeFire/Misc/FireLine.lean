import PkeFire.Extio.Chain
import PkeFire.Misc.FireMachine

/-! The whole plant, from the levels at the serial inputs to the door. -/

namespace PkeFire

/-- The controller with the registers that its serial inputs are clocked through. -/
structure Plant where
  chain : InputChain
  controller : Controller

/-- The levels that one pass of `extio_task` finds, those of the serial inputs at the registers. -/
structure PlantPins where
  lines : Nat → Bool
  setKey : Bool
  doorKey : Bool
  powerdown : Bool
  emergency : Bool

/-- What happens in the plant. -/
inductive PlantEvent where
  /-- One pass of `extio_task`. -/
  | pass (pins : PlantPins)
  /-- An iteration of `misc_task`, or what another thread does. -/
  | task (event : Event)

/-- The event is a pass of `extio_task` that is given the serial inputs as bytes. -/
def Event.isScan : Event → Bool
  | .surround (.scan _) => true
  | _ => false

/-- What a pass reads: the serial inputs are clocked into the buffer behind the byte of the floor alarms. -/
def Plant.read (plant : Plant) (pins : PlantPins) : Option (Pins × InputChain) :=
  (serialPass (plant.controller.extio.input.buf, plant.chain) ⟨plant.controller.extio.output, pins.lines⟩).map
    fun (sample, chain) =>
      (⟨sample, pins.setKey, pins.doorKey, pins.powerdown, pins.emergency⟩, chain)

/-- The plant performs one event. -/
def plantStep (plant : Plant) : PlantEvent → Option Plant
  | .pass pins => do
    let (levels, chain) ← plant.read pins
    let controller ← controllerStep true plant.controller (.surround (.scan levels))
    return ⟨chain, controller⟩
  | .task event =>
    -- In a plant, the bytes come from the registers.
    if event.isScan then none
    else (controllerStep true plant.controller event).map fun controller => { plant with controller := controller }

/-- The plant after `extio_init` and `misc_init`. -/
def plantInit (chain : InputChain) : Plant :=
  ⟨chainInit chain, controllerInit⟩

/-- Neither a factory test nor a shell command drives outputs. -/
def PlantPlain (plant : Plant) : PlantEvent → Prop
  | .pass _ => True
  | .task event => Plain plant.controller event

/-- The contact of the fire machine, the first line of the registers, is closed, and there is mains supply. -/
def FireAtLine (plant : Plant) : PlantEvent → Prop
  | .pass pins => pins.lines 0 = false ∧ pins.powerdown = false
  | .task event => Plain plant.controller event

instance (plant : Plant) (event : PlantEvent) : Decidable (FireAtLine plant event) :=
  match event with
  | .pass pins => inferInstanceAs (Decidable (pins.lines 0 = false ∧ pins.powerdown = false))
  | .task event => inferInstanceAs (Decidable (Plain plant.controller event))

/-- The event is a pass of `extio_task`. -/
def isPass (_ : Plant) : PlantEvent → Bool
  | .pass _ => true
  | .task _ => false

/-- The event is an executed iteration of `misc_task`. -/
def plantExecuted (plant : Plant) : PlantEvent → Bool
  | .pass _ => false
  | .task event => executed plant.controller event

/-- What every reachable plant is like. -/
structure Plant.Sound (plant : Plant) : Prop where
  /-- The next pass finds the clock low. -/
  clk : plant.chain.clk = false
  timer : (plant.controller.extio.input.line 2 7).timer ≤ 30
  agree : plant.controller.fireMachineOpen = plant.controller.smokeReport.fireMachineUpdate
  door : ∃ seen, DoorInvariant plant.controller seen

/-- The contact has been closed for a number of passes. -/
inductive Plant.Closed (count : Nat) (plant : Plant) : Prop where
  /-- The low level has been accepted already. -/
  | accepted (low : (plant.controller.extio.input.line 2 7).saved = false)
  /-- The counter of the line has come that far. -/
  | counted (long : count ≤ (plant.controller.extio.input.line 2 7).timer)

/-- There has been mains supply at some pass. -/
def Plant.Supplied (count : Nat) (plant : Plant) : Prop :=
  0 < count → plant.controller.extio.isCheck extioCheckPowerdown = false

section

variable {plant next : Plant} {event : PlantEvent}

/-- A contact that has been closed for long has been closed for shorter. -/
theorem Plant.Closed.mono {count fewer : Nat} (closed : plant.Closed count) (less : fewer ≤ count) :
    plant.Closed fewer := by
  cases closed with
  | accepted low => exact .accepted low
  | counted long => exact .counted (Nat.le_trans less long)

/-- Whether the contact has been closed is up to the debouncing. -/
theorem Plant.Closed.congr {count : Nat} (closed : plant.Closed count)
    (same : next.controller.extio.input = plant.controller.extio.input) : next.Closed count := by
  cases closed with
  | accepted low => exact .accepted (same ▸ low)
  | counted long => exact .counted (same ▸ long)

/-- A pass reads the serial inputs, and leaves the clock low. -/
theorem Plant.read_eq (low : plant.chain.clk = false) (pins : PlantPins) :
    ∃ levels chain, plant.read pins = some (levels, chain) ∧ chain.clk = false ∧
      Mapped pins.lines levels.sample ∧ levels.powerdown = pins.powerdown := by
  obtain ⟨sample, chain, taken, again, mapped⟩ := serialPass_eq (by decide) low
    plant.controller.extio.input.buf ⟨plant.controller.extio.output, pins.lines⟩
  rw [read, taken, Option.map_some]
  exact ⟨⟨sample, pins.setKey, pins.doorKey, pins.powerdown, pins.emergency⟩, chain, rfl, again, mapped, rfl⟩

/-- What an event of the plant is to the controller. -/
theorem plantStep_cases (low : plant.chain.clk = false) (taken : plantStep plant event = some next) :
    next.chain.clk = false ∧
    ((∃ pins levels, event = .pass pins ∧ Mapped pins.lines levels.sample ∧ levels.powerdown = pins.powerdown ∧
        next.controller = surround true (.scan levels) plant.controller) ∨
      ∃ task, event = .task task ∧ task.isScan = false ∧
        controllerStep true plant.controller task = some next.controller) := by
  cases event with
  | pass pins =>
    -- The shift registers are read, and the controller scans what has been read.
    obtain ⟨levels, chain, read, again, mapped, supply⟩ := Plant.read_eq low pins
    simp only [plantStep, read, Option.bind_eq_bind, Option.bind_some, controllerStep, Option.pure_def] at taken
    cases Option.some.inj taken
    exact ⟨again, Or.inl ⟨pins, levels, rfl, mapped, supply, rfl⟩⟩
  | task task =>
    rw [plantStep] at taken
    split at taken
    · cases taken
    · rename_i other
      obtain ⟨controller, done, rfl⟩ := Option.map_eq_some_iff.mp taken
      exact ⟨low, Or.inr ⟨task, rfl, by simpa using other, done⟩⟩

/-- No event of the task but a scan touches the inputs. -/
theorem controllerStep_inputs {c after : Controller} {task : Event} (plain : Plain c task)
    (other : task.isScan = false) (taken : controllerStep true c task = some after) :
    after.extio.input = c.extio.input ∧ after.extio.check = c.extio.check := by
  cases task with
  | surround event =>
    cases Option.some.inj taken
    cases event with
    | scan pins => cases other
    | shell argv => cases plain
    | _ => exact ⟨rfl, rfl⟩
  | iterate stimulus =>
    -- An iteration writes the keys and the outputs, which lie beside the inputs.
    by_cases running : c.runStopFlag = true
    · rw [iterate_plain plain running taken]
      obtain ⟨sta, kept⟩ := setKeyKeep_frame ((c.sampled.driveDoor stimulus.stack).supervise true)
      obtain ⟨input, check⟩ := driveDoor_inputs c.sampled stimulus.stack
      have rest := (supervise_supervised true (c.sampled.driveDoor stimulus.stack)).extio
      rw [kept]
      simp only [rest]
      exact ⟨input, check⟩
    · rcases iterate_cases taken with ⟨_, same⟩ | ⟨ran, _⟩
      · rw [same]
        exact ⟨rfl, rfl⟩
      · exact absurd ran running

/-- A scan debounces the serial inputs. -/
theorem surround_scan_input (levels : Pins) (c : Controller) :
    inputScan c.extio.input levels.sample = some (surround true (.scan levels) c).extio.input := by
  rw [inputScan, surround, extioTask]
  simp only [if_true]

/-- A scan with mains supply takes back that it has failed. -/
theorem surround_scan_supplied {levels : Pins} (supply : levels.powerdown = false) (c : Controller) :
    (surround true (.scan levels) c).extio.isCheck extioCheckPowerdown = false := by
  -- The line is the first of the two, and the second one is left alone.
  have first : load (checkOne #v[!levels.powerdown, levels.emergency] 0 c.extio.check).sta 0 = false := by
    rw [checkOne, supply]
    simp [load, store]
  have whole : (surround true (.scan levels) c).extio.check = checkOne #v[!levels.powerdown, levels.emergency] 1
      (checkOne #v[!levels.powerdown, levels.emergency] 0 c.extio.check) := rfl
  rw [Extio.isCheck, whole]
  generalize checkOne #v[!levels.powerdown, levels.emergency] 0 c.extio.check = check at first ⊢
  have apart : ¬ (1 : Fin 2) = 0 := by decide
  have kept (sta : Bool) : load (store check.sta 1 sta) 0 = false := by rwa [load_store, if_neg apart]
  rw [checkOne]
  split
  · -- However long the second line has been active, only its own entry is written.
    dsimp only
    split <;> split <;> first | exact kept true | exact first
  · exact kept false

/-- A plain event keeps what every reachable plant is like. -/
theorem Plant.Sound.step (sound : plant.Sound) (plain : PlantPlain plant event)
    (taken : plantStep plant event = some next) : next.Sound := by
  obtain ⟨clk, ⟨pins, levels, rfl, mapped, _, same⟩ | ⟨task, rfl, other, done⟩⟩ := plantStep_cases sound.clk taken
  · have scanned : controllerStep true plant.controller (.surround (.scan levels)) = some next.controller :=
      congrArg some same.symm
    have still : Plain plant.controller (.surround (.scan levels)) := rfl
    -- The timers are those of a scan, whatever has been read.
    refine ⟨clk, ?_, fireMachine_agree_step sound.agree scanned, ?_⟩
    · rw [same]
      exact inputScan_timer_le sound.timer (surround_scan_input levels plant.controller)
    · obtain ⟨seen, door⟩ := sound.door
      exact ⟨_, door.step still scanned⟩
  · refine ⟨clk, ?_, fireMachine_agree_step sound.agree done, ?_⟩
    · rw [(controllerStep_inputs plain other done).1]
      exact sound.timer
    · obtain ⟨seen, door⟩ := sound.door
      exact ⟨_, door.step plain done⟩

/-- With the contact closed, an event is plain. -/
theorem FireAtLine.plain (fire : FireAtLine plant event) : PlantPlain plant event := by
  cases event with
  | pass pins => trivial
  | task task => exact fire

/-- With the contact closed, every pass brings the debounced level closer, and finds mains supply. -/
theorem FireAtLine.step {count : Nat} (sound : plant.Sound) (closed : plant.Closed count)
    (supplied : plant.Supplied count) (fire : FireAtLine plant event) (taken : plantStep plant event = some next) :
    next.Closed (if isPass plant event then count + 1 else count) ∧
      next.Supplied (if isPass plant event then count + 1 else count) := by
  obtain ⟨_, ⟨pins, levels, rfl, mapped, supply, same⟩ | ⟨task, rfl, other, done⟩⟩ := plantStep_cases sound.clk taken
  -- A pass shifts the lines in and takes a sample of the supply.
  · obtain ⟨low, power⟩ := fire
    rw [isPass, if_pos rfl]
    refine ⟨?_, fun _ => same ▸ surround_scan_supplied (supply.trans power) plant.controller⟩
    -- The first line of the registers is the last bit of the last byte.
    have raw : ∀ sample ∈ [levels.sample], bitAt (load sample 2) (7 : Fin 8).val = false := by
      intro sample among
      rw [List.mem_singleton.mp among]
      exact (mapped 0 (by omega)).trans low
    have held := inputScan_held raw sound.timer
      ((run_singleton _ _).trans (surround_scan_input levels plant.controller))
    rw [← same] at held
    by_cases accepted : (next.controller.extio.input.line 2 7).saved = false
    · exact .accepted accepted
    · refine .counted ?_
      rw [held.2 accepted]
      cases closed with
      | accepted already => exact absurd (held.1.mpr (Or.inl already)) accepted
      | counted long => exact Nat.succ_le_succ long
  -- No other event reads the lines.
  · obtain ⟨input, check⟩ := controllerStep_inputs fire other done
    rw [isPass, if_neg Bool.false_ne_true, Plant.Supplied, Extio.isCheck, check]
    exact ⟨closed.congr input, supplied⟩

/-- What the plant is like once the closed contact has been accepted. -/
def Plant.Detecting (count : Nat) (plant : Plant) : Prop :=
  plant.Sound ∧ plant.Closed 31 ∧ plant.Supplied 1 ∧ plant.controller.untilOpen ≤ 63 - count

/-- A contact that has been closed for 31 passes counts as an active fire machine. -/
theorem Plant.Sound.active (sound : plant.Sound) (closed : plant.Closed 31) :
    plant.controller.extio.isFireMachine = true := by
  -- The counter of the line stops at 30.
  have low : (plant.controller.extio.input.line 2 7).saved = false := by
    cases closed with
    | accepted low => exact low
    | counted long => exact absurd (Nat.le_trans long sound.timer) (by decide)
  have read := and_bitMask_eq_zero (load plant.controller.extio.input.save 2) (i := 7) (by decide)
  exact read.trans (congrArg not low)

/-- Once the contact has been accepted, an executed iteration brings the open door closer. -/
theorem Plant.Detecting.step {count : Nat} (held : plant.Detecting count) (fire : FireAtLine plant event)
    (taken : plantStep plant event = some next) :
    next.Detecting (if plantExecuted plant event then count + 1 else count) := by
  obtain ⟨sound, closed, supplied, bound⟩ := held
  obtain ⟨closed', supplied'⟩ := fire.step sound closed (fun _ => supplied Nat.one_pos) taken
  refine ⟨sound.step fire.plain taken, ?_, ?_, ?_⟩
  · exact closed'.mono (by split <;> omega)
  · exact fun _ => supplied' (by split <;> omega)
  obtain ⟨_, ⟨pins, levels, rfl, _, _, same⟩ | ⟨task, rfl, _, done⟩⟩ := plantStep_cases sound.clk taken
  · -- A pass changes nothing that the door waits for.
    have quiet : FireHeld plant.controller (.surround (.scan levels)) := ⟨rfl, trivial⟩
    have closer := untilOpen_step sound.agree quiet (congrArg some same.symm)
    rw [plantExecuted, if_neg Bool.false_ne_true]
    exact Nat.le_trans closer bound
  · have plain : Plain plant.controller task := fire
    have active : FireHeld plant.controller task := by
      refine ⟨plain, ?_⟩
      cases task with
      | surround event => trivial
      | iterate stimulus =>
        refine fun _ => ⟨sound.active closed, ?_⟩
        rw [(reportPowerdown_frame _).2, Extio.isCheck, (driveDoor_inputs _ _).2]
        exact supplied Nat.one_pos
    -- An executed iteration brings the opening closer, and any other event leaves it where it is.
    have closer := untilOpen_step sound.agree active done
    rw [plantExecuted]
    split at closer <;> rename_i counts <;> simp only [counts, if_true, if_false, Bool.false_eq_true] <;> omega

end

/-- Every plant that starts up and runs without a factory test or a shell command is sound. -/
theorem plant_sound {chain : InputChain} {plant : Plant}
    (reached : ReachableFrom plantStep PlantPlain (plantInit chain) plant) : plant.Sound := by
  refine reached.invariant Plant.Sound (fun _ _ _ sound plain taken => sound.step plain taken) ?_
  have fresh : (controllerInit.extio.input.line 2 7).timer ≤ 30 := by decide
  exact ⟨rfl, fresh, rfl, [], rfl, fun _ => ⟨rfl, rfl⟩, streak_zero⟩

/--
From every plant reached, 31 passes and then 63 iterations with the contact of the fire machine closed unlock the door.

The contact is the first line of the shift registers, and the passes and the iterations may be interleaved with the
other threads in any way.
-/
theorem fire_line_unlocks (chain : InputChain) (plant middle finish : Plant)
    (reached : ReachableFrom plantStep PlantPlain (plantInit chain) plant) (first second : List PlantEvent)
    (fire : EveryStep plantStep FireAtLine plant (first ++ second))
    (debounced : run plantStep plant first = some middle)
    (ran : run plantStep middle second = some finish) (passes : 31 ≤ occurrences plantStep isPass plant first)
    (iterations : 63 ≤ occurrences plantStep plantExecuted middle second) :
    finish.controller.fireMachineOpen = true ∧ finish.controller.doorOpen = true ∧
      finish.controller.doorPin = true := by
  obtain ⟨before, after⟩ := everyStep_append.mp fire
  -- In the first part, every pass counts.
  have started : plant.Sound ∧ plant.Closed 0 ∧ plant.Supplied 0 :=
    ⟨plant_sound reached, .counted (Nat.zero_le _), fun never => absurd never (Nat.lt_irrefl 0)⟩
  have accepted : middle.Sound ∧ middle.Closed (occurrences plantStep isPass plant first) ∧
      middle.Supplied (occurrences plantStep isPass plant first) :=
    counted_invariant (fun count plant => Plant.Sound plant ∧ plant.Closed count ∧ plant.Supplied count)
      (fun _ _ _ _ held fire taken => ⟨held.1.step fire.plain taken, fire.step held.1 held.2.1 held.2.2 taken⟩)
      started before debounced
  obtain ⟨sound, closed, supplied⟩ := accepted
  -- In the second part, every executed iteration counts.
  have longest := (untilRaised_pos middle.controller.smokeReport).2
  have bound : middle.controller.untilOpen ≤ 63 := by
    rw [Controller.untilOpen]
    split <;> [split <;> omega; omega]
  have detected : finish.Detecting (occurrences plantStep plantExecuted middle second) :=
    counted_invariant Plant.Detecting (fun _ _ _ _ held fire taken => held.step fire taken)
      ⟨sound, closed.mono passes, fun _ => supplied (by omega), bound⟩
      (after middle debounced) ran
  -- After so many iterations, nothing is left to wait for.
  obtain ⟨ended, _, _, none⟩ := detected
  obtain ⟨seen, door⟩ := ended.door
  have none : finish.controller.untilOpen = 0 := by omega
  rw [Controller.untilOpen] at none
  split at none
  · rename_i raised
    split at none
    · rename_i isOpen
      exact ⟨raised, isOpen, door.output.trans isOpen⟩
    · omega
  · omega

/-- The levels of a plant in which only the contact of the fire machine is closed. -/
def closedContact : PlantPins where
  lines := fun line => line != 0
  setKey := true
  doorKey := true
  powerdown := false
  emergency := true

/-- From the start, 31 passes and 63 iterations unlock the door. -/
theorem fire_line_unlocks_start : ∃ finish,
    run plantStep (plantInit idleChain) (.replicate 31 (.pass closedContact) ++ .replicate 63 (.task (.iterate idle))) =
      some finish ∧ finish.controller.doorPin = true := by
  have ends : (run plantStep (plantInit idleChain) (.replicate 31 (.pass closedContact))).any (fun middle =>
      decide (63 ≤ occurrences plantStep plantExecuted middle (.replicate 63 (.task (.iterate idle)))) &&
        (run plantStep middle (.replicate 63 (.task (.iterate idle)))).isSome) = true := by decide +kernel
  obtain ⟨middle, debounced, ends⟩ := (Option.any_eq_true _ _).mp ends
  simp only [Bool.and_eq_true, decide_eq_true_eq] at ends
  obtain ⟨finish, ran⟩ := Option.isSome_iff_exists.mp ends.2
  have fire : EveryStep plantStep FireAtLine (plantInit idleChain)
      (.replicate 31 (.pass closedContact) ++ .replicate 63 (.task (.iterate idle))) := by decide +kernel
  have unlocked := fire_line_unlocks idleChain _ middle finish (ReachableFrom.start _) _ _ fire debounced ran
    (by decide +kernel) ends.1
  exact ⟨finish, run_append_some.mpr ⟨middle, debounced, ran⟩, unlocked.2.2⟩

end PkeFire
