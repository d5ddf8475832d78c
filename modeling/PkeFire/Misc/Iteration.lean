import PkeFire.Misc.FactoryTest

/-! One iteration of `misc_task` taken as a whole, and the runs made of such iterations. -/

namespace PkeFire

/-- What an iteration is given besides the shared state. -/
structure Stimulus where
  /-- The uninitialised stack memory in which the opening message is built. -/
  stack : BuildingStatus
  /-- The course of the factory test, should the set key start one. -/
  schedule : List FactoryEvent
  deriving DecidableEq, Repr

namespace Controller

/-- The causes are sampled at the head of an iteration. -/
def sampleCauses (c : Controller) : Controller :=
  c.sampleKey.sampleEmergency.clearOpenKey

/-- The branch taken when `open` is one. -/
def openBranch (stack : BuildingStatus) (c : Controller) : Controller :=
  let c := c.restartLock
  -- Only the first iteration of an opening drives the outputs and publishes.
  if c.doorOpen then c
  else
    let (status, c) := c.unlockDoor.describeOpening stack
    (c.publishBuilding status).clearRequests

/-- The branch taken when `open` is zero. -/
def closeBranch (c : Controller) : Controller :=
  if c.doorOpen && !miscSmokeTarget c.extio then
    let c := c.countQuiet
    if c.lockTime > 100 then
      let c := c.lockDoor.clearCauses
      c.publishBuilding c.closingStatus
    else c
  else c

/-- The door is unlocked, kept, or locked according to the sampled causes. -/
def driveDoor (stack : BuildingStatus) (c : Controller) : Controller :=
  if c.openCause then c.openBranch stack else c.closeBranch

/-- The supervision of supply, inputs, and configuration that follows the door. -/
def supervise (fireMachine : Bool) (c : Controller) : Controller :=
  let c := c.reportPowerdown
  let c := if fireMachine then miscSmokeReport c else c
  c.tickSave

/-- A pressed set key starts the factory test. -/
def setKeyPress (fireMachine : Bool) (schedule : List FactoryEvent) (c : Controller) :
    Option Controller :=
  if c.extio.keySta extioSetKey = .press then factoryTestcase fireMachine schedule c.clearSetKey
  else some c

/-- Both keys held down together are consumed together. -/
def setKeyKeep (c : Controller) : Controller :=
  -- Switching the debug output has no effect on the state.
  if c.extio.keySta extioSetKey = .keep ∧ c.extio.keySta extioOpenKey = .keep then
    c.clearSetKey.clearOpenKey
  else c

end Controller

/--
One iteration of `misc_task`, which fails to complete while a factory test is still waiting.

Apart from that test, no other thread acts during the iteration, while `taskStep` lets them act between its statements.
-/
def iterate (fireMachine : Bool) (stimulus : Stimulus) (c : Controller) : Option Controller :=
  let c := { c with calls := [] }
  -- A stopped task only sleeps.
  if !c.runStopFlag then some c
  else
    let c := c.sampleCauses.driveDoor stimulus.stack
    ((c.supervise fireMachine).setKeyPress fireMachine stimulus.schedule).map Controller.setKeyKeep

/-- The events of the controller, seen from the head of one iteration to the next. -/
inductive Event where
  | surround (event : Surrounding)
  | iterate (stimulus : Stimulus)
  deriving DecidableEq, Repr

/-- The controller performs one event. -/
def controllerStep (fireMachine : Bool) (c : Controller) : Event → Option Controller
  | .surround event => some (surround fireMachine event c)
  | .iterate stimulus => iterate fireMachine stimulus c

/-- The event is an iteration that is executed, since the task is not stopped. -/
def executed (c : Controller) : Event → Bool
  | .iterate _ => c.runStopFlag
  | .surround _ => false

/-- Neither a factory test nor a shell command drives outputs during the event. -/
def Plain (c : Controller) : Event → Prop
  | .surround event => event.drivesPin = false
  -- The set key is looked at near the end, but only its own events change it until then.
  | .iterate _ => c.runStopFlag = true → c.extio.keySta extioSetKey ≠ .press

instance (c : Controller) : DecidablePred (Plain c)
  | .surround event => inferInstanceAs (Decidable (event.drivesPin = false))
  | .iterate _ => inferInstanceAs (Decidable (c.runStopFlag = true → c.extio.keySta extioSetKey ≠ .press))

/-- The states that the controller can reach from its start in any way. -/
abbrev Reachable (fireMachine : Bool) (c : Controller) : Prop :=
  ReachableFrom (controllerStep fireMachine) (fun _ _ => True) controllerInit c

/-- The states that the controller can reach by plain events alone. -/
abbrev PlainReachable (fireMachine : Bool) (c : Controller) : Prop :=
  ReachableFrom (controllerStep fireMachine) Plain controllerInit c

/-- The levels of a board on which nothing is pressed, tripped, or failing. -/
def restingPins : Pins :=
  { sample := .replicate 3 0xff, setKey := true, doorKey := true, powerdown := false, emergency := true }

/-- A stimulus with a cleared stack and no factory test. -/
def idle : Stimulus :=
  { stack := ⟨0, 0, 0, 0, 0, 0, 0, 0, 0⟩, schedule := [] }

/-- A short press of the door key. -/
def pressDoorKey : List Event :=
  .replicate 3 (.surround (.scan { restingPins with doorKey := false })) ++ [.surround (.scan restingPins)]

end PkeFire
