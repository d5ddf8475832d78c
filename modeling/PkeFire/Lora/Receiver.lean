import PkeFire.Lora.Protocol

/-! The state machine by which `serial_thread_entry` assembles frames from single bytes. -/

namespace PkeFire

/-- The values of `recv_step`. -/
inductive RecvStep where
  /-- Zero: the first header byte is awaited. -/
  | header1
  /-- One: the second header byte is awaited. -/
  | header2
  /-- Two: the fields before the length are filled. -/
  | fields
  /-- Three: the length byte is awaited. -/
  | length
  /-- Four: the data are filled. -/
  | data
  /-- Five: the checksum is awaited. -/
  | crc
  deriving DecidableEq, Repr

/-- The locals of `serial_thread_entry`, with the global `lora_sta` and the frames sent so far. -/
structure Receiver where
  recvStep : RecvStep
  recvBuf : Vector UInt8 50
  recvLen : Nat
  dataLen : UInt8
  dataCnt : UInt8
  sta : LoraState
  sent : List (List UInt8)
  deriving DecidableEq, Repr

/-- The receiver before its first byte, whose buffer holds whatever the stack held. -/
def receiverInit (stack : Vector UInt8 50) : Receiver where
  recvStep := .header1
  recvBuf := stack
  recvLen := 0
  dataLen := 0
  dataCnt := 0
  sta := loraStateInit
  sent := []

namespace Receiver

/-- `recv_buf[recv_len++] = ch`, which is undefined beyond the end of the buffer. -/
def push (ch : UInt8) (r : Receiver) : Option Receiver :=
  if inside : r.recvLen < 50 then
    some { r with recvBuf := store r.recvBuf ⟨r.recvLen, inside⟩ ch, recvLen := r.recvLen + 1 }
  else none

/-- The machine waits for the next frame. -/
def restart (r : Receiver) : Receiver :=
  { r with recvStep := .header1, recvLen := 0 }

/-- The first bytes of the buffer. -/
def bytes (r : Receiver) (count : Nat) : List UInt8 :=
  r.recvBuf.toList.take count

/-- Two bytes of the buffer, read by the processor as a number and swapped by the program. -/
def swapped (r : Receiver) (low high : Fin 50) : UInt16 :=
  let value := (load r.recvBuf low).toUInt16 ||| ((load r.recvBuf high).toUInt16 <<< 8)
  (value >>> 8) ||| ((value &&& 0xff) <<< 8)

/-- The values that a report carries are kept for the detector. -/
def readReport (r : Receiver) (dev : SmokeDev) : SmokeDev :=
  { dev with
    smoke := r.swapped 23 24
    temperature := r.swapped 25 26
    battery := r.swapped 27 28
    -- The first two bits of the alarm byte are separate flags.
    alarmSmoke := load r.recvBuf 29 &&& 1
    alarmTemperature := (load r.recvBuf 29 >>> 1) &&& 1
    activeTime := 0xff
    errSta := .ok }

/-- The data of the answer to a report. -/
def answerData (env : LoraEnv) (sta : LoraState) : List UInt8 :=
  [(env.smokeThreshold >>> 8).toUInt8, env.smokeThreshold.toUInt8, (env.tempThreshold >>> 8).toUInt8,
    env.tempThreshold.toUInt8, env.pollTime, sta.alarmSet]

/-- What is done with a frame whose checksum is right. -/
def dispatch (env : LoraEnv) (r : Receiver) : Receiver :=
  let floor := load r.recvBuf 2
  let room := load r.recvBuf 3
  let cmd := load r.recvBuf 21
  -- Frames of another building are dropped.
  if (r.bytes 21).drop 6 = env.frameId then
    match loraSearchSmoke floor room r.sta with
    | (none, sta) => { r with sta := sta }
    | (some i, sta) =>
      if cmd = cmdReport ∨ cmd = cmdSet then
        let sta := { sta with
          smokeDev := store sta.smokeDev i (r.readReport (load sta.smokeDev i))
          msgid := load r.recvBuf 4 }
        let answer := loraSend env sta floor room (cmdReport ||| 0x80) (answerData env sta)
        -- Only a report is answered.
        { r with sta := sta, sent := if cmd = cmdReport then r.sent ++ [answer] else r.sent }
      else { r with sta := sta }
  else r

/-- The floor that the frame in the buffer comes from. -/
def floor (r : Receiver) : UInt8 :=
  load r.recvBuf 2

/-- The room that the frame in the buffer comes from. -/
def room (r : Receiver) : UInt8 :=
  load r.recvBuf 3

/-- The frame in the buffer is a report, in one of its two forms. -/
def Reports (r : Receiver) : Prop :=
  load r.recvBuf 21 = cmdReport ∨ load r.recvBuf 21 = cmdSet

/-- How many bytes of data the frame in the buffer declares. -/
def declared (r : Receiver) : Nat :=
  (load r.recvBuf 22).toNat

end Receiver

/-- One execution of the switch on `recv_step`, which fails when it writes beyond the buffer. -/
def receive (env : LoraEnv) (r : Receiver) (ch : UInt8) : Option Receiver :=
  match r.recvStep with
  | .header1 =>
    if ch = protoHeader1 then
      -- The buffer is cleared for the new frame.
      (({ r with recvBuf := .replicate 50 0 } : Receiver).push ch).map fun r => { r with recvStep := .header2 }
    else some r
  | .header2 =>
    if ch = protoHeader2 then (r.push ch).map fun r => { r with recvStep := .fields }
    else some r.restart
  | .fields =>
    (r.push ch).map fun r => if r.recvLen = offsetofLen then { r with recvStep := .length } else r
  | .length =>
    (r.push ch).map fun r =>
      if ch < 30 then
        -- A frame without data goes straight to its checksum.
        if ch = 0 then { r with dataLen := ch, recvStep := .crc }
        else { r with dataLen := ch, recvStep := .data, dataCnt := 0 }
      else r.restart
  | .data =>
    (r.push ch).map fun r =>
      let r := { r with dataCnt := r.dataCnt + 1 }
      if r.dataCnt = r.dataLen then { r with recvStep := .crc } else r
  | .crc =>
    (r.push ch).map fun r =>
      let crc := env.crc8Cal (r.bytes (r.recvLen - 1))
      -- Right or wrong, the frame is over.
      (if ch = crc then r.dispatch env else r).restart

end PkeFire
