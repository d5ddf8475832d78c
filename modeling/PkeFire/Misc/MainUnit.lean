import PkeFire.Config.Settings
import PkeFire.Misc.FireReport
import PkeFire.NbIot.Handler
import PkeFire.Run.Periodic
import PkeFire.Run.Register
import PkeFire.Run.Trace

/-! The main unit with its configuration: what survives a loss of power, and from when on. -/

namespace PkeFire

/-- The main unit: the controller, the configuration in memory, and the partition that it is kept in. -/
structure MainUnit where
  controller : Controller
  store : ConfigStore

/-- What happens to the main unit. -/
inductive UnitEvent where
  /-- An event of the controller, and how the flash calls turn out if it saves the configuration. -/
  | task (event : Event) (outcome : SaveOutcome)
  /-- A message of the server. -/
  | message (root : Option Json)
  /-- A shell command that writes the configuration. -/
  | shell (setter : Setter) (argv : List (List UInt8))
  /-- An assignment of the update task to `config.ver`. -/
  | version (ver : UInt32)
  /-- Power fails, and returns to whatever the memory holds then. -/
  | powerCycle (memory : Config)
  /-- Power fails during an iteration that saves the configuration, before the last byte is in flash. -/
  | cut (stimulus : Stimulus) (count : Nat) (memory : Config)

/-- The event is an iteration that has asked for the configuration to be saved. -/
def asksSave (next : Controller) : Event → Bool
  | .iterate _ => next.calls.contains .configTimmingSave
  -- The calls that another thread finds are those of the last iteration.
  | .surround _ => false

/-- The main unit after it has been started, if the flash calls of `config_init` succeed. -/
def boot (env : ConfigEnv) (memory flash : Config) : MainUnit :=
  ⟨controllerInit, configInit env true true .succeeds ⟨memory, flash⟩⟩

namespace MainUnit

variable (env : ConfigEnv)

/-- Some statements write the configuration in memory. -/
def write (updates : List Update) (unit : MainUnit) : MainUnit :=
  { unit with store := { unit.store with config := applyAll updates unit.store.config } }

/-- The globals that `sub_topic_handle1` works on. -/
def handler (unit : MainUnit) : Handler :=
  ⟨unit.store.config, unit.controller.remoteOpen, unit.controller.runStopFlag, []⟩

/-- A message is handled, which may end with a restart of the processor. -/
def receive (root : Option Json) (unit : MainUnit) : Option MainUnit :=
  (unit.handler.subTopicHandle1 root).map fun after =>
    if after.calls.contains .cpuReset then boot env after.config unit.store.flash
    else
      { controller := { unit.controller with remoteOpen := after.remoteOpen, runStopFlag := after.runStopFlag }
        store := { unit.store with config := after.config } }

end MainUnit

/-- The main unit performs one event. -/
def unitStep (fireMachine : Bool) (env : ConfigEnv) (unit : MainUnit) : UnitEvent → Option MainUnit
  | .task event outcome =>
    (controllerStep fireMachine unit.controller event).map fun next =>
      ⟨next, if asksSave next event then configTimmingSave env outcome unit.store else unit.store⟩
  | .message root => unit.receive env root
  | .shell setter argv => some (unit.write (setter.updates argv))
  | .version ver => some (unit.write [.assign Field.ver ver.toNat])
  | .powerCycle memory => some (boot env memory unit.store.flash)
  | .cut stimulus count memory =>
    (controllerStep fireMachine unit.controller (.iterate stimulus)).bind fun next =>
      if asksSave next (.iterate stimulus) ∧ count ≤ configSize then
        some (boot env memory
          (interrupted unit.store.flash (saveSteps env.crc8Cal .timmingSave unit.store.config) count))
      else none

section

variable {fireMachine : Bool}

/-- Two states of the controller agree about the saves of the configuration. -/
def SameSaves (before after : Controller) : Prop :=
  after.saveTime = before.saveTime ∧ (.configTimmingSave ∈ after.calls ↔ .configTimmingSave ∈ before.calls)

/-- The states at both ends agree when those between them do. -/
theorem SameSaves.trans {first second third : Controller} (before : SameSaves first second)
    (after : SameSaves second third) : SameSaves first third :=
  ⟨after.1.trans before.1, after.2.trans before.2⟩

/-- Driving the door does not save the configuration. -/
theorem driveDoor_sameSaves (stack : BuildingStatus) (c : Controller) : SameSaves c (c.driveDoor stack) := by
  rw [Controller.driveDoor]
  split
  · by_cases already : c.doorOpen = true
    · simp [Controller.openBranch, Controller.restartLock, already, SameSaves]
    · -- An opening publishes a message besides.
      obtain ⟨floor, described⟩ := Controller.describeOpening_frame stack c.restartLock.unlockDoor
      have closed : c.doorOpen = false := by simpa using already
      have branch : c.openBranch stack = (((c.restartLock.unlockDoor).describeOpening stack).2.publishBuilding
          ((c.restartLock.unlockDoor).describeOpening stack).1).clearRequests := by
        simp [Controller.openBranch, Controller.restartLock, closed]
      rw [branch, described]
      dsimp only
      split <;>
        simp [SameSaves, Controller.clearRequests, Controller.publishBuilding, Controller.soundAlarms, extioMainAlarm,
          Controller.unlockDoor, extioDoorOpen, Controller.restartLock]
  · rw [Controller.closeBranch]
    split
    · rw [Controller.countQuiet]
      dsimp only
      split <;> split <;>
        simp [SameSaves, Controller.publishBuilding, Controller.clearCauses, Controller.lockDoor, extioDoorOpen,
          extioMainAlarm]
    · exact ⟨rfl, Iff.rfl⟩

/-- Another thread does not save the configuration either. -/
theorem surround_sameSaves (event : Surrounding) (c : Controller) : SameSaves c (surround fireMachine event c) := by
  refine ⟨?_, by rw [surround_calls]⟩
  cases event with
  | shell argv =>
    obtain ⟨pin, same⟩ := miscDoorOpen_frame argv c
    rw [surround, same]
  | _ => rfl

/-- Nor does a complete factory test. -/
theorem setKeyPress_sameSaves {schedule : List FactoryEvent} {c served : Controller}
    (pressed : c.setKeyPress fireMachine schedule = some served) : SameSaves c served := by
  rw [Controller.setKeyPress] at pressed
  split at pressed
  · have initially : SameSaves c c.clearSetKey := ⟨rfl, Iff.rfl⟩
    refine factoryTestcase_invariant (SameSaves c) ?_ initially (fun _ _ => trivial) pressed
    intro at_ event next held _ taken
    refine held.trans ?_
    cases event with
    | surround event =>
      cases Option.some.inj taken
      exact surround_sameSaves event at_.2
    | step fileOk =>
      rw [factoryEvent] at taken
      split at taken
      · cases taken
      · cases Option.some.inj taken
        -- The test writes the outputs and the keys.
        obtain ⟨_, _, _, _, same⟩ := factoryStep_writes fileOk at_.1 at_.2
        show SameSaves at_.2 (factoryStep fileOk at_.1 at_.2).2
        rw [same]
        exact ⟨rfl, Iff.rfl⟩
  · cases Option.some.inj pressed
    exact ⟨rfl, Iff.rfl⟩

/-- An executed iteration saves the configuration when its counter has come to eleven. -/
theorem iterate_save {stimulus : Stimulus} {c next : Controller} (running : c.runStopFlag = true)
    (done : iterate fireMachine stimulus c = some next) :
    (next.saveTime, asksSave next (.iterate stimulus)) = tick 11 c.saveTime := by
  rcases iterate_cases done with ⟨halted, _⟩ | ⟨_, served, pressed, same⟩
  -- A stopped controller executes no iteration.
  · simp [running] at halted
  · obtain ⟨sta, keys⟩ := setKeyKeep_frame served
    obtain ⟨time, calls⟩ := setKeyPress_sameSaves pressed
    -- Before the counter is looked at, nothing has been saved.
    have before : SameSaves c.sampled ((c.sampled.driveDoor stimulus.stack).reportPowerdown) := by
      refine (driveDoor_sameSaves stimulus.stack c.sampled).trans ?_
      rw [Controller.reportPowerdown]
      split <;> [skip; split] <;> simp [SameSaves]
    -- The report of the detectors saves nothing either.
    have reported : SameSaves c.sampled (if fireMachine then
        miscSmokeReport (c.sampled.driveDoor stimulus.stack).reportPowerdown
        else (c.sampled.driveDoor stimulus.stack).reportPowerdown) := by
      split
      · obtain ⟨_, _, _, _, _, same⟩ := miscSmokeReport_writes (c.sampled.driveDoor stimulus.stack).reportPowerdown
        rw [same]
        exact before
      · exact before
    have none : .configTimmingSave ∉ c.sampled.calls := List.not_mem_nil
    have start : c.sampled.saveTime = c.saveTime := rfl
    have counted : ((c.sampled.driveDoor stimulus.stack).supervise fireMachine).saveTime = (tick 11 c.saveTime).1 ∧
        (.configTimmingSave ∈ ((c.sampled.driveDoor stimulus.stack).supervise fireMachine).calls ↔
          (tick 11 c.saveTime).2 = true) := by
      -- The counter is compared and advanced as a tick of the limit eleven is.
      obtain ⟨time, calls⟩ := reported
      rw [Controller.supervise]
      generalize (if fireMachine then _ else _) = c' at time calls ⊢
      rw [Controller.tickSave, time, start, tick]
      by_cases due : c.saveTime > 10
      · rw [if_pos due, if_pos (by omega)]
        simp
      · rw [if_neg due, if_neg (by omega)]
        -- The byte does not overflow below the limit.
        have small : (c.saveTime + 1) % 256 = c.saveTime + 1 := Nat.mod_eq_of_lt (by omega)
        exact ⟨small, calls.trans (iff_of_false none Bool.false_ne_true)⟩
    -- What follows in the iteration leaves the counter and the saves as they are.
    rw [same, keys, asksSave]
    refine Prod.ext ?_ ?_
    · exact time.trans counted.1
    · rw [Bool.eq_iff_iff, List.contains_iff_mem]
      exact calls.trans counted.2

/-- The counter of saves ticks with the executed iterations. -/
theorem controllerStep_save {c next : Controller} {event : Event}
    (taken : controllerStep fireMachine c event = some next) :
    (next.saveTime, asksSave next event) = if executed c event then tick 11 c.saveTime else (c.saveTime, false) := by
  cases event with
  | surround event =>
    cases Option.some.inj taken
    exact Prod.ext (surround_sameSaves event c).1 rfl
  | iterate stimulus =>
    by_cases running : c.runStopFlag = true
    · rw [executed, if_pos running]
      exact iterate_save running taken
    · rcases iterate_cases taken with ⟨_, same⟩ | ⟨ran, _⟩
      · rw [executed, if_neg running, same]
        rfl
      · exact absurd ran running

end

/-- The event is an executed iteration of `misc_task` that no loss of power cuts off. -/
def unitExecuted (unit : MainUnit) : UnitEvent → Bool
  | .task event _ => executed unit.controller event
  | _ => false

/-- The event is an iteration that saves the configuration. -/
def unitSaves (fireMachine : Bool) (unit : MainUnit) : UnitEvent → Bool
  | .task event _ => (controllerStep fireMachine unit.controller event).any (asksSave · event)
  | _ => false

/-- The controller runs, flash works, and nothing writes the configuration. -/
def Unmodified : UnitEvent → Prop
  | .task _ outcome => outcome = .succeeds
  | _ => False

instance : DecidablePred Unmodified
  | .task _ outcome => inferInstanceAs (Decidable (outcome = .succeeds))
  | .message _ | .shell _ _ | .version _ | .powerCycle _ | .cut _ _ _ => inferInstanceAs (Decidable False)

section

variable {fireMachine : Bool} {env : ConfigEnv} {unit next : MainUnit} {event : UnitEvent}

/-- A successful save leaves nothing to the next one. -/
theorem configTimmingSave_twice (env : ConfigEnv) (store : ConfigStore) :
    configTimmingSave env .succeeds (configTimmingSave env .succeeds store) =
      configTimmingSave env .succeeds store := by
  by_cases changed : env.crc8Cal store.config.covered ≠ store.config.crc
  · exact configTimmingSave_valid (valid_configTimmingSave env .succeeds store changed) .succeeds
  · have same : configTimmingSave env .succeeds store = store := configTimmingSave_valid (not_not.mp changed) .succeeds
    rw [same, same]

/-- What an event of the controller does to the main unit. -/
theorem unitStep_task {task : Event} {outcome : SaveOutcome}
    (taken : unitStep fireMachine env unit (.task task outcome) = some next) :
    controllerStep fireMachine unit.controller task = some next.controller ∧
      unitSaves fireMachine unit (.task task outcome) = asksSave next.controller task ∧
      next.store = if asksSave next.controller task then configTimmingSave env outcome unit.store else unit.store := by
  obtain ⟨controller, done, rfl⟩ := Option.map_eq_some_iff.mp taken
  exact ⟨done, by rw [unitSaves, done, Option.any_some], rfl⟩

/-- Without a modification, the counter of saves ticks with the executed iterations. -/
theorem unitStep_ticks (unmodified : Unmodified event) (taken : unitStep fireMachine env unit event = some next) :
    (next.controller.saveTime, unitSaves fireMachine unit event) =
      if unitExecuted unit event then tick 11 unit.controller.saveTime else (unit.controller.saveTime, false) := by
  cases event with
  | task task outcome =>
    obtain ⟨done, saves, _⟩ := unitStep_task taken
    rw [saves]
    exact controllerStep_save done
  | _ => exact unmodified.elim

end

/--
Twelve executed iterations save the configuration, unless it seems to be saved already, whatever the controller does.

A power cycle that follows finds the settings as they were before the iterations.
-/
theorem saved_within_twelve (fireMachine : Bool) (env : ConfigEnv) (unit finish : MainUnit) (events : List UnitEvent)
    (unmodified : EveryStep (unitStep fireMachine env) (fun _ event => Unmodified event) unit events)
    (ran : run (unitStep fireMachine env) unit events = some finish)
    (long : 12 ≤ occurrences (unitStep fireMachine env) unitExecuted unit events) :
    finish.store = configTimmingSave env .succeeds unit.store ∧
    (env.crc8Cal unit.store.config.covered ≠ unit.store.config.crc → ∀ memory,
      (boot env memory finish.store.flash).store.config = finish.store.config ∧
        finish.store.config.settings = unit.store.config.settings) := by
  -- Among twelve ticks of the counter there is one that saves.
  obtain ⟨fired, _⟩ := periodic_run (fun unit : MainUnit => unit.controller.saveTime)
    (fun _ _ _ unmodified taken => unitStep_ticks unmodified taken) unmodified ran
  have saves : occurrences (unitStep fireMachine env) (unitSaves fireMachine) unit events ≠ 0 := by
    rw [fired]
    exact Nat.ne_of_gt (Nat.div_pos (Nat.le_trans long (Nat.le_add_left _ _)) (by decide))
  -- However often it is saved, the outcome is that of one save.
  have saved : finish.store = if occurrences (unitStep fireMachine env) (unitSaves fireMachine) unit events = 0
      then unit.store else configTimmingSave env .succeeds unit.store := by
    refine counted_invariant (fun count later => later.store = if count = 0 then unit.store
      else configTimmingSave env .succeeds unit.store) ?_ rfl unmodified ran
    intro count later event next held unmodified taken
    cases event with
    | task task outcome =>
      obtain ⟨_, saves, store⟩ := unitStep_task taken
      have works : outcome = .succeeds := unmodified
      rw [store, saves, works, held]
      split
      · -- A later save finds everything saved.
        rw [if_neg (Nat.succ_ne_zero count)]
        split
        · rfl
        · exact configTimmingSave_twice env unit.store
      · rfl
    | _ => exact unmodified.elim
  rw [if_neg saves] at saved
  refine ⟨saved, fun changed memory => ?_⟩
  -- A save that has found a change leaves a valid configuration in memory and in flash.
  have valid := valid_configTimmingSave env .succeeds unit.store changed
  have whole := configTimmingSave_succeeds env unit.store
  rw [if_pos changed] at whole
  have same : finish.store.flash = finish.store.config := by rw [saved, whole]
  rw [same]
  refine ⟨loaded_valid (saved ▸ valid), ?_⟩
  rw [saved, whole, Config.settings, Config.settings, setCrc_setCrc]

/-- A new time between reports is in flash after twelve iterations, and is loaded when power returns. -/
theorem saved_within_twelve_poll : ∃ finish : MainUnit,
    run (unitStep true crcConfigEnv) ⟨controllerInit, ⟨pollConfig, storedConfig⟩⟩
      (.replicate 12 (.task (.iterate idle) .succeeds)) = some finish ∧
    (boot crcConfigEnv zeroConfig finish.store.flash).store.config.settings = pollConfig.settings := by
  let unit : MainUnit := ⟨controllerInit, ⟨pollConfig, storedConfig⟩⟩
  have finishes : (run (unitStep true crcConfigEnv) unit
      (.replicate 12 (.task (.iterate idle) .succeeds))).isSome = true := by decide +kernel
  obtain ⟨finish, ran⟩ := Option.isSome_iff_exists.mp finishes
  have unmodified : EveryStep (unitStep true crcConfigEnv) (fun _ event => Unmodified event) unit
      (.replicate 12 (.task (.iterate idle) .succeeds)) :=
    everyStep_of_mem fun event among => List.eq_of_mem_replicate among ▸ rfl
  have saved := saved_within_twelve true crcConfigEnv unit finish _ unmodified ran (by decide +kernel)
  obtain ⟨loads, settings⟩ := saved.2 pollConfig_changed zeroConfig
  exact ⟨finish, ran, by rw [loads, settings]⟩

end PkeFire
