import PkeFire.Run.Machine
import PkeFire.Run.Table

/-! The frames that the main unit exchanges with its smoke detectors, and what it keeps about each of them. -/

namespace PkeFire

/-- HEADER1. -/
def protoHeader1 : UInt8 := 0xa5

/-- HEADER2. -/
def protoHeader2 : UInt8 := 0x5a

/-- CMD_REPORT. -/
def cmdReport : UInt8 := 0x02

/-- CMD_SET. -/
def cmdSet : UInt8 := 0x03

/-- DIR_TO_SMOKE. -/
def dirToSmoke : UInt8 := 0x01

/-- The offset of `len` in `protocol_t`, whose fields are packed. -/
def offsetofLen : Nat := 22

/-- The verdict `err_sta_t` on a detector. -/
inductive ErrSta where
  | ok
  | crc
  | id
  deriving DecidableEq, Repr

/-- One detector (`smoke_dev_t`). -/
structure SmokeDev where
  floor : UInt8
  room : UInt8
  smoke : UInt16
  temperature : UInt16
  battery : UInt16
  alarmSmoke : UInt8
  alarmTemperature : UInt8
  connect : UInt8
  activeTime : UInt8
  errSta : ErrSta
  deriving DecidableEq, Repr

/-- A detector whose memory has been cleared. -/
def smokeDevClear : SmokeDev :=
  ⟨0, 0, 0, 0, 0, 0, 0, 0, 0, .ok⟩

/-- The global `lora_sta`. -/
structure LoraState where
  msgid : UInt8
  alarmSet : UInt8
  smokeDev : Vector SmokeDev 20
  smokeNum : UInt8
  /-- Whether the frames are shown on the console. -/
  debug : UInt8
  deriving DecidableEq, Repr

/-- `lora_uart_init` clears `lora_sta`. -/
def loraStateInit : LoraState :=
  ⟨0, 0, .replicate 20 smokeDevClear, 0, 0⟩

/-- The configuration that the radio uses, and the checksum function of the package outside the repository. -/
structure LoraEnv where
  /-- `crc8_cal` over some bytes. -/
  crc8Cal : List UInt8 → UInt8
  buildingId : Vector UInt8 20
  tempThreshold : UInt16
  smokeThreshold : UInt16
  pollTime : UInt8

/-- A radio that is not configured, with a checksum that is always zero. -/
def quietRadio : LoraEnv where
  crc8Cal := fun _ => 0
  buildingId := .replicate 20 0
  tempThreshold := 0
  smokeThreshold := 0
  pollTime := 0

/-- `lora_search_smoke`: the slot of a detector, which is taken from the unused ones if it is new. -/
def loraSearchSmoke (floor room : UInt8) (sta : LoraState) : Option (Fin 20) × LoraState :=
  -- No detector has both numbers zero.
  if floor = 0 ∧ room = 0 then (none, sta)
  else
    let known := fun i => (load sta.smokeDev i).floor = floor ∧ (load sta.smokeDev i).room = room
    -- The loop stops at the first slot that is this detector's, or that is not in use yet.
    match (List.finRange 20).find? fun i => known i || sta.smokeNum.toNat ≤ i with
    | none => (none, sta)
    | some i =>
      if known i then (some i, sta)
      else
        (some i, { sta with
          smokeDev := store sta.smokeDev i { smokeDevClear with floor := floor, room := room }
          smokeNum := sta.smokeNum + 1 })

/-- The part of the configured building number that a frame carries. -/
def LoraEnv.frameId (env : LoraEnv) : List UInt8 :=
  env.buildingId.toList.take 15

/-- `lora_send`: the bytes of a frame to a detector. -/
def loraSend (env : LoraEnv) (sta : LoraState) (floor room cmd : UInt8) (data : List UInt8) : List UInt8 :=
  let body := [protoHeader1, protoHeader2, floor, room, sta.msgid, dirToSmoke] ++ env.frameId ++
    [cmd, UInt8.ofNat data.length] ++ data
  -- The checksum covers everything before it.
  body ++ [env.crc8Cal body]

end PkeFire
