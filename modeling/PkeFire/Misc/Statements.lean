import PkeFire.Misc.Controller

/-! The statements of `misc_task`, grouped so that each group is one step of the thread. -/

namespace PkeFire

/-- The causes of an opening, in the order in which `misc_task` looks for them. -/
inductive Cause where
  | key
  | emergency
  | remote
  | smoke
  | fireMachine
  deriving DecidableEq, Repr

/-- The number under which a cause is published. -/
def Cause.code : Cause → UInt8
  | .key => 1
  | .emergency => 2
  | .remote => 3
  | .smoke => 4
  | .fireMachine => 5

/-- The branch of the cause switches on the main alarm and all floor alarms. -/
def Cause.sounds : Cause → Bool
  | .key | .remote => false
  | .emergency | .smoke | .fireMachine => true

/-- `misc_smoke_target`: one of the lines 2 to 20 is low. -/
def miscSmokeTarget (extio : Extio) : Bool :=
  -- The first line is left out of the supervision.
  countedLoop 19 (fun i found => if extio.isSmoke ⟨i + 1, by omega⟩ then true else found) false

namespace Controller

/-- The open key is sampled. -/
def sampleKey (c : Controller) : Controller :=
  { c with keyOpen := c.extio.keySta extioOpenKey != .release }

/-- The emergency line is sampled. -/
def sampleEmergency (c : Controller) : Controller :=
  { c with emergencyOpen := c.extio.isCheck extioCheckEmergency }

/-- The event of the open key is consumed. -/
def clearOpenKey (c : Controller) : Controller :=
  { c with extio := c.extio.keyClr extioOpenKey }

/-- The event of the set key is consumed. -/
def clearSetKey (c : Controller) : Controller :=
  { c with extio := c.extio.keyClr extioSetKey }

/-- The value of the local `open`. -/
def openCause (c : Controller) : Bool :=
  c.keyOpen || c.emergencyOpen || c.remoteOpen != 0 || c.smokeOpen != 0 || c.fireMachineOpen

/-- The cause whose branch is taken when the door is opened. -/
def leadingCause (c : Controller) : Option Cause :=
  -- A chain of `else if`, so that an earlier cause hides the later ones.
  if c.keyOpen then some .key
  else if c.emergencyOpen then some .emergency
  else if c.remoteOpen != 0 then some .remote
  else if c.smokeOpen != 0 then some .smoke
  else if c.fireMachineOpen then some .fireMachine
  else none

/-- The main alarm and all floor alarms are switched on. -/
def soundAlarms (c : Controller) : Controller :=
  extioMainAlarm true { c with extio := c.extio.setAllAlarm }

/-- An open cause restarts the lock timer. -/
def restartLock (c : Controller) : Controller :=
  -- Done for every open cause, whether the door is open already or not.
  { c with lockTime := 0 }

/-- The door is unlocked and remembered to be open. -/
def unlockDoor (c : Controller) : Controller :=
  extioDoorOpen true { c with doorOpen := true }

/-- The opening is described in a message, whose memory initially holds whatever the stack held. -/
def describeOpening (stack : BuildingStatus) (c : Controller) : BuildingStatus × Controller :=
  -- Only some fields of the message are written, and the others go out as they are.
  let status := { stack with alarm := if c.smokeOpen != 0 then 1 else 0, doorOpen := 1 }
  -- The remembered cause is read before the message has one.
  let c := { c with lastCause := status.cause }
  let onFloor := c.smokeOpen != 0 && c.smokeOpen ≤ 20
  let status := if onFloor then
      { status with
        floor := c.smokeOpen, room := 1, temperature := 26, smoke := 10, smokeAlarm := 1, tempAlarm := 0 }
    else status
  let c := if onFloor then { c with lastSmokeOpen := c.smokeOpen } else c
  let status := if c.lastCause != 4 then { status with floor := 0, room := 0 } else status
  match c.leadingCause with
  | none => (status, c)
  | some cause => ({ status with cause := cause.code }, if cause.sounds then c.soundAlarms else c)

/-- A building message is handed to the network. -/
def publishBuilding (status : BuildingStatus) (c : Controller) : Controller :=
  { c with calls := c.calls ++ [.publishBuilding status] }

/-- The requests that led to an opening are cleared. -/
def clearRequests (c : Controller) : Controller :=
  -- The fire machine is not among them, since its edge is awaited.
  { c with keyOpen := false, emergencyOpen := false, remoteOpen := 0 }

/-- Another quiet iteration is counted towards locking. -/
def countQuiet (c : Controller) : Controller :=
  if c.lockTime < 0xfff then { c with lockTime := c.lockTime + 1 } else c

/-- The door is locked and remembered to be closed, with every alarm off. -/
def lockDoor (c : Controller) : Controller :=
  let c := extioDoorOpen false c
  let c := extioMainAlarm false { c with extio := c.extio.clrAllAlarm }
  { c with doorOpen := false, keyOpen := false, emergencyOpen := false }

/-- The remaining causes are cleared when the door has been locked. -/
def clearCauses (c : Controller) : Controller :=
  { c with remoteOpen := 0, fireMachineOpen := false }

/-- The message that describes a closing. -/
def closingStatus (c : Controller) : BuildingStatus where
  alarm := c.smokeOpen
  doorOpen := 0
  cause := 0
  floor := if c.lastCause = 4 then c.lastSmokeOpen else 0
  room := if c.lastCause = 4 then 1 else 0
  temperature := 0
  smoke := 0
  smokeAlarm := 0
  tempAlarm := 0

/-- The supervision of the mains supply, which reports each change once. -/
def reportPowerdown (c : Controller) : Controller :=
  if c.extio.isCheck extioCheckPowerdown && !c.smokeReport.powerdownFlag then
    { c with
      smokeReport := { c.smokeReport with powerdownFlag := true }
      calls := c.calls ++ [.publishPowerdown 1] }
  else if !c.extio.isCheck extioCheckPowerdown && c.smokeReport.powerdownFlag then
    { c with
      smokeReport := { c.smokeReport with powerdownFlag := false }
      calls := c.calls ++ [.publishPowerdown 0] }
  else c

/-- Every twelfth iteration asks for the configuration to be saved. -/
def tickSave (c : Controller) : Controller :=
  if c.saveTime > 10 then { c with saveTime := 0, calls := c.calls ++ [.configTimmingSave] }
  else { c with saveTime := (c.saveTime + 1) % 256 }

end Controller

/-- The poll that opens `misc_smoke_report`, given whether an input is active. -/
def SmokeReport.poll (active : Bool) (report : SmokeReport) : SmokeReport :=
  if report.pollTime > 10 then
    let report := { report with pollTime := 0 }
    if active then
      -- Without mains supply no new target is accepted.
      if !report.powerdownFlag then { report with powerdownTarget := true } else report
    else { report with powerdownTarget := false, powerdownTime := 0 }
  else { report with pollTime := (report.pollTime + 1) % 256 }

/-- Another iteration with a target is counted. -/
def SmokeReport.count (report : SmokeReport) : SmokeReport :=
  if report.powerdownTime < 255 then { report with powerdownTime := report.powerdownTime + 1 }
  else report

/-- `misc_smoke_report`. -/
def miscSmokeReport (c : Controller) : Controller :=
  -- An input is active when a detector is low, or the line of the fire machine.
  let report := c.smokeReport.poll (miscSmokeTarget c.extio || c.extio.isFireMachine)
  if report.powerdownTarget then
    let report := report.count
    if report.powerdownTime > 50 then
      -- The floor that was raised by other code is forgotten here.
      let c := { c with smokeOpen := 0 }
      -- The fire machine is raised and released on its edges only.
      if c.extio.isFireMachine then
        if !report.fireMachineUpdate then
          { c with smokeReport := { report with fireMachineUpdate := true }, fireMachineOpen := true }
        else { c with smokeReport := report }
      else if report.fireMachineUpdate then
        { c with smokeReport := { report with fireMachineUpdate := false }, fireMachineOpen := false }
      else { c with smokeReport := report }
    else { c with smokeReport := report }
  else { c with smokeReport := report }

end PkeFire
