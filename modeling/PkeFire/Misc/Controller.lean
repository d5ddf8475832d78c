import PkeFire.Extio.Scan

/-! The state shared by the threads of the door controller, and what the other threads do to it. -/

namespace PkeFire

/-- The supervision record `smoke_report`, less the per-floor flags that no live statement reads. -/
structure SmokeReport where
  /-- Iterations since the last poll of the inputs. -/
  pollTime : Nat
  /-- Iterations for which an input has been a target, saturating at 255. -/
  powerdownTime : Nat
  /-- The last poll found an input active. -/
  powerdownTarget : Bool
  /-- The mains supply has failed. -/
  powerdownFlag : Bool
  /-- The fire machine has been reported. -/
  fireMachineUpdate : Bool
  deriving DecidableEq, Repr

/-- The message `building_status_t`. -/
structure BuildingStatus where
  alarm : UInt8
  doorOpen : UInt8
  cause : UInt8
  floor : UInt8
  room : UInt8
  temperature : UInt16
  smoke : UInt16
  smokeAlarm : UInt8
  tempAlarm : UInt8
  deriving DecidableEq, Repr

/-- The calls that an iteration of `misc_task` makes into other modules. -/
inductive Call where
  /-- `nb_iot_publish_building`. -/
  | publishBuilding (status : BuildingStatus)
  /-- `nb_iot_publish_powerdown`. -/
  | publishPowerdown (powerdown : UInt8)
  /-- `config_timming_save`. -/
  | configTimmingSave
  deriving DecidableEq, Repr

/--
The globals of `misc.c`, the object `extio`, the driven pins, and the locals that `misc_task` keeps.

Variables that only ever hold zero or one are truth values.
-/
structure Controller where
  keyOpen : Bool
  emergencyOpen : Bool
  remoteOpen : UInt8
  smokeOpen : UInt8
  fireMachineOpen : Bool
  runStopFlag : Bool
  smokeReport : SmokeReport
  extio : Extio
  /-- The level of EXTIO_DOOR_OPEN, which is high while the door is unlocked. -/
  doorPin : Bool
  /-- The level of EXTIO_MAIN_ALARM, which is high while the siren sounds. -/
  alarmPin : Bool
  /-- The local `lock_time`, which saturates at 0xfff. -/
  lockTime : Nat
  /-- The local `door_open`. -/
  doorOpen : Bool
  /-- The local `save_time`. -/
  saveTime : Nat
  /-- The local `last_cause`. -/
  lastCause : UInt8
  /-- The local `last_smoke_open`. -/
  lastSmokeOpen : UInt8
  /-- The calls made by the present iteration, oldest first. -/
  calls : List Call
  deriving DecidableEq, Repr

/-- The state in which `misc_task` starts, after `extio_init` and `misc_init`. -/
def controllerInit : Controller where
  keyOpen := false
  emergencyOpen := false
  remoteOpen := 0
  smokeOpen := 0
  fireMachineOpen := false
  runStopFlag := true
  smokeReport := ⟨0, 0, false, false, false⟩
  extio := extioInit
  doorPin := false
  alarmPin := false
  lockTime := 0
  doorOpen := false
  saveTime := 0
  lastCause := 0
  lastSmokeOpen := 0
  calls := []

/-- `extio_door_open`. -/
def extioDoorOpen (sta : Bool) (c : Controller) : Controller :=
  -- The flag `door_open` of the task is none of its business.
  { c with doorPin := sta }

/-- `extio_main_alarm`. -/
def extioMainAlarm (sta : Bool) (c : Controller) : Controller :=
  { c with alarmPin := sta }

/-- The shell command `misc_door_open`, whose first argument is its own name. -/
def miscDoorOpen (argv : List String) (c : Controller) : Controller :=
  match argv with
  | [_, arg] =>
    if arg = "open" then extioDoorOpen true c
    else if arg = "close" then extioDoorOpen false c
    else c
  -- Any other number of arguments is ignored.
  | _ => c

/-- What the other threads do between two statements of `misc_task`. -/
inductive Surrounding where
  /-- One pass of `extio_task`. -/
  | scan (pins : Pins)
  /-- A message CMD_DOWN_DOOR whose item `open` has this integer value. -/
  | door (valueint : Int)
  /-- A message CMD_DOWN_STOP (false) or CMD_DOWN_RUN (true). -/
  | runStop (run : Bool)
  /-- Some module raises the global `smoke_open`, as the statements now commented out did. -/
  | raiseSmoke (floor : UInt8)
  /-- The shell command `misc_door_open`. -/
  | shell (argv : List String)
  deriving DecidableEq, Repr

/-- The effect of another thread on the shared state. -/
def surround (fireMachine : Bool) (event : Surrounding) (c : Controller) : Controller :=
  match event with
  | .scan pins => { c with extio := extioTask fireMachine pins c.extio }
  -- The handler stores the integer in a byte.
  | .door valueint => { c with remoteOpen := UInt8.ofInt valueint }
  | .runStop run => { c with runStopFlag := run }
  -- Nothing in the repository does this any more, but the flag is global.
  | .raiseSmoke floor => { c with smokeOpen := floor }
  | .shell argv => miscDoorOpen argv c

/-- A shell command is the only surrounding event that drives an output pin. -/
def Surrounding.drivesPin : Surrounding → Bool
  | .shell _ => true
  | _ => false

/-- Only the message CMD_DOWN_DOOR writes the remote request. -/
def Surrounding.isDoor : Surrounding → Bool
  | .door _ => true
  | _ => false

/-- The shell command writes the door pin, or nothing. -/
theorem miscDoorOpen_frame (argv : List String) (c : Controller) :
    ∃ pin, miscDoorOpen argv c = { c with doorPin := pin } := by
  unfold miscDoorOpen
  -- One argument behind the name is expected, and it is compared with two words.
  split
  · split
    · exact ⟨true, rfl⟩
    · split
      · exact ⟨false, rfl⟩
      · exact ⟨c.doorPin, rfl⟩
  · exact ⟨c.doorPin, rfl⟩

section

variable (fireMachine : Bool) (event : Surrounding) (c : Controller)

/-- No other thread touches the locals of `misc_task`, its private flags, or its alarm outputs. -/
theorem surround_frame :
    (surround fireMachine event c).doorOpen = c.doorOpen ∧
      (surround fireMachine event c).lockTime = c.lockTime ∧
      (surround fireMachine event c).fireMachineOpen = c.fireMachineOpen ∧
      (surround fireMachine event c).smokeReport = c.smokeReport ∧
      (surround fireMachine event c).alarmPin = c.alarmPin ∧
      (surround fireMachine event c).extio.output = c.extio.output ∧
      (surround fireMachine event c).keyOpen = c.keyOpen ∧
      (surround fireMachine event c).emergencyOpen = c.emergencyOpen := by
  cases event with
  | shell argv =>
    obtain ⟨pin, same⟩ := miscDoorOpen_frame argv c
    simp only [surround, same, and_self]
  | _ => simp [surround, extioTask]

/-- Only a shell command moves the door pin. -/
theorem surround_doorPin (quiet : event.drivesPin = false) :
    (surround fireMachine event c).doorPin = c.doorPin := by
  -- The other events write their own variable of the state.
  cases event <;> simp_all [Surrounding.drivesPin, surround]

/-- Only a message moves the remote request. -/
theorem surround_remoteOpen (quiet : event.isDoor = false) :
    (surround fireMachine event c).remoteOpen = c.remoteOpen := by
  cases event with
  | door valueint => simp [Surrounding.isDoor] at quiet
  | shell argv =>
    obtain ⟨pin, same⟩ := miscDoorOpen_frame argv c
    rw [surround, same]
  | _ => rfl

/-- No other thread makes a call into another module. -/
theorem surround_calls : (surround fireMachine event c).calls = c.calls := by
  cases event with
  | shell argv =>
    obtain ⟨pin, same⟩ := miscDoorOpen_frame argv c
    rw [surround, same]
  | _ => rfl

/-- Only a scan touches the supervised lines. -/
theorem surround_check :
    (surround fireMachine event c).extio.check = match event with
      | .scan pins => extioCheck #v[!pins.powerdown, pins.emergency] c.extio.check
      | _ => c.extio.check := by
  -- The levels of the two lines are read with opposite signs.
  cases event with
  | shell argv =>
    obtain ⟨pin, same⟩ := miscDoorOpen_frame argv c
    rw [surround, same]
  | _ => rfl

end

end PkeFire
