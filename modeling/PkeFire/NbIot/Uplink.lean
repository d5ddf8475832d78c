import PkeFire.Config.Store
import PkeFire.Misc.Message
import PkeFire.NbIot.Handler

/-! The messages that the controller publishes, and what the server reads in them. -/

namespace PkeFire

/-- CMD_UP_POWER. -/
def cmdUpPower : Nat := 2

/-- CMD_UP_START. -/
def cmdUpStart : Nat := 3

/-- CMD_UP_STATUS. -/
def cmdUpStatus : Nat := 4

/-- MAJOR_VERSION, which `main_version` returns. -/
def mainVersion : String := "1.2.7"

/-- What a message is published from: the uplink, and what is told about the board. -/
structure Station extends Uplink where
  /-- `main_compile`. -/
  mainCompile : String
  /-- The address of the first network interface that is up. -/
  ipAddress : String
  rssi : UInt8
  /-- `crc32_cal` of the unique number of the processor. -/
  uniqueCrc : UInt32
  /-- The program has been built with FIRE_MACHINE. -/
  fireMachine : Bool
  deriving DecidableEq, Repr

/-- The serial number as it is printed into a message. -/
def serialNumber (crc : UInt32) : String :=
  String.ofList ((hex8 crc).map fun digit => Char.ofNat digit.toNat)

/-- The number of a status (STUS_OK, STUS_RST, STUS_OTA). -/
def Stus.code : Stus → UInt8
  | .ok => 0
  | .rst => 1
  | .ota => 2

/-- The items with which every message begins. -/
def Station.heading (station : Station) (type : Nat) : List (String × Item) :=
  [("type", .number type), ("device_type", .number deviceType), ("building_id", .text station.buildingId)]

/-- The items that tell about the board. -/
def Station.board (station : Station) : List (String × Item) :=
  [("version", .text mainVersion), ("compile", .text station.mainCompile), ("ip_addrress", .text station.ipAddress),
    ("rssi", .number station.rssi.toNat), ("serial_number", .text (serialNumber station.uniqueCrc))]

/-- `nb_iot_publish_powerdown`. -/
def nbIotPublishPowerdown (station : Station) (powerdown : UInt8) : Option (List (String × Item)) :=
  if station.mqttConnectSta then
    some (station.heading cmdUpPower ++ [("powerdown", .number powerdown.toNat), ("msg type", .text "power down"),
      ("time", .number station.second)])
  else none

/-- `nb_iot_publish_startup`. -/
def nbIotPublishStartup (station : Station) : Option (List (String × Item)) :=
  if station.mqttConnectSta then
    some (station.heading cmdUpStart ++ station.board ++ [("msg type", .text "start up"),
      ("fire_machine", .text (if station.fireMachine then "need" else "no need")), ("time", .number station.second)])
  else none

/-- `nb_iot_publish_status`. -/
def nbIotPublishStatus (station : Station) (status : UInt8) : Option (List (String × Item)) :=
  if station.mqttConnectSta then
    some (station.heading cmdUpStatus ++ [("status", .number status.toNat)] ++ station.board ++
      [("msg type", .text "status"), ("time", .number station.second)])
  else none

/-- `nb_iot_publish_run_stop`, whose message has neither a text for its kind nor a time. -/
def nbIotPublishRunStop (station : Station) (status : UInt8) : Option (List (String × Item)) :=
  if station.mqttConnectSta then some (station.heading cmdUpStatus ++ [("run_stop", .number status.toNat)]) else none

/-- A message that the controller publishes. -/
inductive UpMessage where
  | building (status : BuildingStatus)
  | powerdown (powerdown : UInt8)
  | startup
  | status (status : UInt8)
  | runStop (status : UInt8)
  deriving DecidableEq, Repr

/-- The items of a message, if it is published. -/
def UpMessage.publish (station : Station) : UpMessage → Option (List (String × Item))
  | .building report => nbIotPublishBuilding station.toUplink report
  | .powerdown failed => nbIotPublishPowerdown station failed
  | .startup => nbIotPublishStartup station
  | .status code => nbIotPublishStatus station code
  | .runStop running => nbIotPublishRunStop station running

/-- What the server reads in a message. -/
inductive UpReading where
  | building (alarm doorOpen cause temperature smoke smokeAlarm tempAlarm : Int)
  | powerdown (powerdown : Int)
  | startup (version serial : String)
  | status (status : Int)
  | runStop (status : Int)
  deriving DecidableEq, Repr

/-- The number of an item. -/
def numberItem (items : List (String × Item)) (name : String) : Option Int :=
  match items.lookup name with
  | some (.number value) => some value
  | _ => none

/-- The text of an item. -/
def textItem (items : List (String × Item)) (name : String) : Option String :=
  match items.lookup name with
  | some (.text value) => some value
  | _ => none

/-- What is read in the items of a message of some type. -/
def readContent (items : List (String × Item)) (type : Int) : Option UpReading :=
  if type = cmdUpBuilding then do
    some (.building (← numberItem items "alarm") (← numberItem items "door_open") (← numberItem items "cause")
      (← numberItem items "temperature") (← numberItem items "smoke") (← numberItem items "smoke_alarm")
      (← numberItem items "temp_alarm"))
  else if type = cmdUpPower then (numberItem items "powerdown").map .powerdown
  else if type = cmdUpStart then do some (.startup (← textItem items "version") (← textItem items "serial_number"))
  else if type = cmdUpStatus then
    -- Two kinds of messages share this type.
    match numberItem items "run_stop" with
    | some status => some (.runStop status)
    | none => (numberItem items "status").map .status
  else none

/-- A message is read: the building that it comes from, and its content. -/
def readMessage (items : List (String × Item)) : Option (String × UpReading) := do
  some (← textItem items "building_id", ← readContent items (← numberItem items "type"))

/-- What there is to be read in a message. -/
def UpMessage.reading (station : Station) : UpMessage → UpReading
  | .building report =>
    .building report.alarm.toNat report.doorOpen.toNat report.cause.toNat report.temperature.toNat
      report.smoke.toNat report.smokeAlarm.toNat report.tempAlarm.toNat
  | .powerdown failed => .powerdown failed.toNat
  | .startup => .startup mainVersion (serialNumber station.uniqueCrc)
  | .status code => .status code.toNat
  | .runStop running => .runStop running.toNat

/-- Without a connection, no message is published. -/
theorem publish_unconnected {station : Station} (unconnected : station.mqttConnectSta = false) (message : UpMessage) :
    message.publish station = none := by
  cases message <;>
    simp [UpMessage.publish, nbIotPublishBuilding, nbIotPublishPowerdown, nbIotPublishStartup, nbIotPublishStatus,
      nbIotPublishRunStop, unconnected]

/-- With a connection, every message is published, and read for what it is. -/
theorem publish_read {station : Station} (connected : station.mqttConnectSta = true) (message : UpMessage) :
    ∃ items, message.publish station = some items ∧
      readMessage items = some (station.buildingId, message.reading station) := by
  cases message with
  | building status => exact ⟨_, by rw [UpMessage.publish, nbIotPublishBuilding, if_pos connected], rfl⟩
  | powerdown powerdown => exact ⟨_, by rw [UpMessage.publish, nbIotPublishPowerdown, if_pos connected], rfl⟩
  | startup => exact ⟨_, by rw [UpMessage.publish, nbIotPublishStartup, if_pos connected], rfl⟩
  | status status => exact ⟨_, by rw [UpMessage.publish, nbIotPublishStatus, if_pos connected], rfl⟩
  | runStop status => exact ⟨_, by rw [UpMessage.publish, nbIotPublishRunStop, if_pos connected], rfl⟩

end PkeFire
