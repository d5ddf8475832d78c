import PkeFire.Config.Checksum
import PkeFire.Lora.Isolation
import PkeFire.Run.Medium

/-! An estate of several blocks, whose controllers and detectors share one radio channel. -/

namespace PkeFire

/-- DIR_TO_MAIN. -/
def dirToMain : UInt8 := 0x02

/-- CMD_BUILDING_ID. -/
def cmdBuildingId : UInt8 := 0x83

/-- `lora_set_building`: the frame that tells every detector in reach the number of its building. -/
def loraSetBuilding (env : LoraEnv) (sta : LoraState) : List UInt8 :=
  loraSend env sta 0 0 cmdBuildingId (Receiver.answerData env sta)

/-- What a detector has to say. -/
structure Telegram where
  floor : UInt8
  room : UInt8
  msgId : UInt8
  cmd : UInt8
  data : List UInt8
  fits : data.length ≤ 26

/-- The frame in which a detector that has been told this building number says it. -/
def Telegram.frame (env : LoraEnv) (telegram : Telegram) : List UInt8 :=
  frameBytes env ([telegram.floor, telegram.room, telegram.msgId, dirToMain] ++ env.frameId ++ [telegram.cmd])
    telegram.data

/-- Who has sent a frame. -/
inductive Sender (Building : Type) where
  | detector (building : Building)
  | controller (building : Building)
  deriving DecidableEq

/-- The building of a sender. -/
def Sender.building {Building : Type} : Sender Building → Building
  | .detector building => building
  | .controller building => building

/-- A frame on the air. -/
structure Transmission (Building : Type) where
  sender : Sender Building
  frame : List UInt8
  deriving DecidableEq

/-- A controller with its configuration. -/
structure Block where
  env : LoraEnv
  receiver : Receiver

/-- What is done at a controller while it does not receive anything. -/
inductive BlockAction where
  /-- The shell command that sends the building number. -/
  | setBuilding
  /-- New settings for the detectors, from the server or the shell. -/
  | configure (temp smoke : UInt16) (poll : UInt8)
  deriving DecidableEq, Repr

/-- A controller receives a frame, or something is done at it; the frames that it sends in turn are returned. -/
def blockReact {Building : Type} (building : Building) (block : Block) :
    PartyInput (Transmission Building) BlockAction → Option (Block × List (Transmission Building))
  | .heard transmission => (run (receive block.env) block.receiver transmission.frame).map fun next =>
    -- Whatever has been added to the frames sent so far is on the air now.
    ({ block with receiver := next }, (next.sent.drop block.receiver.sent.length).map fun frame =>
      ⟨.controller building, frame⟩)
  | .did .setBuilding => some (block, [⟨.controller building, loraSetBuilding block.env block.receiver.sta⟩])
  | .did (.configure temp smoke poll) =>
    some ({ block with env := { block.env with tempThreshold := temp, smokeThreshold := smoke, pollTime := poll } }, [])

/-- Buildings with different numbers, whose controllers have the same program. -/
structure Estate (Building : Type) where
  crc8Cal : List UInt8 → UInt8
  site : Building → LoraEnv
  common : ∀ building, (site building).crc8Cal = crc8Cal
  distinct : ∀ building other, (site building).frameId = (site other).frameId → building = other

/-- A controller that has just started. -/
def Block.start (env : LoraEnv) (stack : Vector UInt8 50) : Block :=
  ⟨env, receiverInit stack⟩

/-- The channel and its controllers. -/
abbrev Channel (Building : Type) :=
  Medium Building Block (Transmission Building)

/-- What happens on the channel. -/
abbrev ChannelEvent (Building : Type) :=
  MediumEvent Building (Transmission Building) BlockAction

section

variable {Building : Type}

/-- Nothing is on the air yet. -/
def Estate.start (estate : Estate Building) (stack : Building → Vector UInt8 50) : Channel Building :=
  ⟨fun building => .start (estate.site building) (stack building), []⟩

/-- Apart from the controllers, only detectors send anything, under the number of their building. -/
def Estate.Authentic (estate : Estate Building) : ChannelEvent Building → Prop
  | .say transmission => ∃ building telegram,
    transmission = ⟨.detector building, Telegram.frame (estate.site building) telegram⟩
  | _ => True

/-- The frame answers a report that one of the building's own detectors has sent. -/
def Answers (m : Channel Building) (building : Building) (frame : List UInt8) : Prop :=
  ∃ cause ∈ m.said, cause.sender = .detector building ∧ (protocolOf cause.frame).cmd = cmdReport ∧
    (protocolOf frame).cmd = cmdReport ||| 0x80 ∧ (protocolOf frame).msgId = (protocolOf cause.frame).msgId ∧
    (protocolOf frame).key = (protocolOf cause.frame).key

/-- A controller between two frames, which still has the number and the checksum it started with. -/
structure Block.Sound (site : LoraEnv) (block : Block) : Prop where
  checksum : block.env.crc8Cal = site.crc8Cal
  number : block.env.frameId = site.frameId
  waiting : block.receiver.Waiting
  table : ∃ registry, Represents block.receiver.sta registry

/-- A controller addresses all detectors, or answers one that has a slot in its own table. -/
def Downlink (m : Channel Building) (building : Building) (frame : List UInt8) : Prop :=
  ((protocolOf frame).cmd = cmdBuildingId ∧ (protocolOf frame).key = (0, 0)) ∨
    (Answers m building frame ∧ ∃ i, (m.party building).receiver.sta.Assigned i
      (protocolOf frame).floor (protocolOf frame).room)

/-- A frame is well formed, and carries the number of the building it comes from. -/
structure Estate.Genuine (estate : Estate Building) (m : Channel Building) (transmission : Transmission Building) :
    Prop where
  valid : ValidFrame (estate.site transmission.sender.building) transmission.frame
  named : (protocolOf transmission.frame).buildingId = (estate.site transmission.sender.building).frameId
  downlink : ∀ building, transmission.sender = .controller building → Downlink m building transmission.frame

/-- What holds of the channel whatever happens. -/
structure Estate.Sound (estate : Estate Building) (m : Channel Building) : Prop where
  blocks : ∀ building, (m.party building).Sound (estate.site building)
  said : ∀ transmission ∈ m.said, estate.Genuine m transmission

variable [DecidableEq Building]

/-- One event on the channel. -/
abbrev channelStep : Channel Building → ChannelEvent Building → Option (Channel Building) :=
  mediumStep blockReact

/-- What concerns a controller: its own detectors, and what is done at it. -/
def Concerns (building : Building) : PartyInput (Transmission Building) BlockAction → Bool
  | .heard transmission => transmission.sender = .detector building
  | .did _ => true

/-- An event that may make a controller send something. -/
def provoking (m : Channel Building) : ChannelEvent Building → Bool
  | .say _ => false
  | .hear building place => (m.said[place]?).any fun transmission => transmission.sender = .detector building
  | .act _ action => action = .setBuilding

end

/-- What a controller does with a frame when it waits for one: all of it is decided when the frame is complete. -/
structure Receiver.Heard (env : LoraEnv) (r next : Receiver) (frame : List UInt8) : Prop where
  waiting : next.Waiting
  sent : next.sent = r.sent ++
    if Answerable env r.sta frame then [Request.reply ⟨env, r.sta.alarmSet, frame⟩] else []
  table : ∃ registry, Represents next.sta registry
  keeps : r.sta.KeptIn next.sta
  foreign : (protocolOf frame).buildingId ≠ env.frameId → next.sta = r.sta
  command : (protocolOf frame).cmd ≠ cmdReport → (protocolOf frame).cmd ≠ cmdSet →
    ((protocolOf frame).key = (0, 0) ∨ ∃ i, r.sta.Assigned i (protocolOf frame).floor (protocolOf frame).room) →
      next.sta = r.sta
  assigned : Answerable env r.sta frame →
    ∃ i, next.sta.Assigned i (protocolOf frame).floor (protocolOf frame).room

/-- The receiver with other counts of the data of an earlier frame. -/
def Receiver.counting (len cnt : UInt8) (r : Receiver) : Receiver :=
  { r with dataLen := len, dataCnt := cnt }

/-- Two receivers do the same with whatever comes, though earlier frames may have left something else behind in them. -/
inductive Receiver.Twin (r : Receiver) : Receiver → Prop where
  /-- Outside every frame, the buffer is about to be cleared, too. -/
  | between (buf : Vector UInt8 50) (len cnt : UInt8) (outside : r.recvStep = .header1) :
    Twin r ({ r with recvBuf := buf }.counting len cnt)
  /-- The data are counted from the length byte on. -/
  | within (len cnt : UInt8) (inside : r.recvStep ≠ .data) : Twin r (r.counting len cnt)
  | same : Twin r r

section

variable {env : LoraEnv} {r other next : Receiver} {ch : UInt8} {len cnt : UInt8}

/-- A write into the buffer does not look at the counts. -/
theorem push_counting (r : Receiver) (ch : UInt8) :
    (r.counting len cnt).push ch = (r.push ch).map (Receiver.counting len cnt) := by
  by_cases inside : r.recvLen < 50 <;> simp [Receiver.push, Receiver.counting, inside]

/-- A frame is handled without looking at the counts. -/
theorem dispatch_counting (env : LoraEnv) (r : Receiver) :
    (r.counting len cnt).dispatch env = (r.dispatch env).counting len cnt := by
  have head : (r.counting len cnt).bytes 21 = r.bytes 21 := rfl
  have kept (dev : SmokeDev) : (r.counting len cnt).readReport dev = r.readReport dev := rfl
  simp only [Receiver.dispatch, head, kept]
  by_cases here : (r.bytes 21).drop 6 = env.frameId
  · simp only [here, if_true]
    cases search : loraSearchSmoke (load r.recvBuf 2) (load r.recvBuf 3) r.sta with
    | mk slot sta =>
      cases slot with
      | none => simp [Receiver.counting, search]
      | some i =>
        -- Neither the measurements nor the answer are taken from the counts.
        by_cases reports : load r.recvBuf 21 = cmdReport ∨ load r.recvBuf 21 = cmdSet
        · simp only [Receiver.counting, search, reports, if_true]
          rfl
        · simp only [Receiver.counting, search, reports, if_false]
  · simp only [if_neg here]

/-- Whatever is counted only within the data does not matter before them. -/
theorem receive_counting (outside : r.recvStep ≠ .data) (taken : receive env r ch = some next) :
    ∃ again, receive env (r.counting len cnt) ch = some again ∧ next.Twin again := by
  obtain ⟨step, buf, count, dataLen, dataCnt, sta, sent⟩ := r
  have pushed (full : Receiver) : (full.counting len cnt).push ch = (full.push ch).map (Receiver.counting len cnt) :=
    push_counting full ch
  -- Every step but that of the data pushes its byte and looks at nothing but the buffer.
  cases step with
  | header1 =>
    -- A header clears the buffer and is its first byte, and noise changes nothing.
    simp only [receive, Receiver.counting] at taken pushed ⊢
    split at taken
    · rename_i header
      obtain ⟨full, found, rfl⟩ := Option.map_eq_some_iff.mp taken
      have also := pushed ⟨.header1, .replicate 50 0, count, dataLen, dataCnt, sta, sent⟩
      rw [found] at also
      rw [if_pos header, also]
      exact ⟨_, rfl, .within len cnt fun same => by cases same⟩
    · rename_i noise
      cases taken
      rw [if_neg noise]
      exact ⟨_, rfl, .within len cnt outside⟩
  | header2 =>
    -- The second header byte leads on to the fields, and any other byte back to the start.
    simp only [receive, Receiver.counting] at taken pushed ⊢
    split at taken
    · rename_i header
      obtain ⟨full, found, rfl⟩ := Option.map_eq_some_iff.mp taken
      have also := pushed ⟨.header2, buf, count, dataLen, dataCnt, sta, sent⟩
      rw [found] at also
      rw [if_pos header, also]
      exact ⟨_, rfl, .within len cnt fun same => by cases same⟩
    · rename_i noise
      cases taken
      rw [if_neg noise]
      exact ⟨_, rfl, .within len cnt fun same => by cases same⟩
  | fields =>
    -- The last field leads on to the length, the others leave the step as it is.
    simp only [receive, Receiver.counting] at taken pushed ⊢
    obtain ⟨full, found, rfl⟩ := Option.map_eq_some_iff.mp taken
    have also := pushed ⟨.fields, buf, count, dataLen, dataCnt, sta, sent⟩
    rw [found] at also
    rw [also]
    refine ⟨_, rfl, ?_⟩
    by_cases last : full.recvLen = offsetofLen
    · simp only [Receiver.counting, last, if_true]
      exact .within len cnt fun same => by cases same
    · simp only [Receiver.counting, last, if_false]
      exact .within len cnt (by rw [(push_eq_some found).2.2.1]; exact fun same => by cases same)
  | length =>
    simp only [receive, Receiver.counting] at taken pushed ⊢
    obtain ⟨full, found, rfl⟩ := Option.map_eq_some_iff.mp taken
    have also := pushed ⟨.length, buf, count, dataLen, dataCnt, sta, sent⟩
    rw [found] at also
    rw [also]
    refine ⟨_, rfl, ?_⟩
    by_cases admitted : ch < 30
    · -- From here on, both count alike.
      simp only [if_pos admitted]
      by_cases zero : ch = 0
      · simp only [if_pos zero]
        exact .within ch cnt fun same => by cases same
      · simp only [if_neg zero]
        exact .same
    · simp only [if_neg admitted]
      exact .within len cnt fun same => by cases same
  | data => exact absurd rfl outside
  | crc =>
    -- The checksum is compared with the bytes in the buffer, which are the same.
    simp only [receive] at taken ⊢
    obtain ⟨full, found, rfl⟩ := Option.map_eq_some_iff.mp taken
    have also := pushed ⟨.crc, buf, count, dataLen, dataCnt, sta, sent⟩
    rw [found] at also
    simp only [Receiver.counting] at also ⊢
    rw [also]
    refine ⟨_, rfl, ?_⟩
    by_cases right : ch = env.crc8Cal (full.bytes (full.recvLen - 1))
    · have too : ch = env.crc8Cal ((full.counting len cnt).bytes ((full.counting len cnt).recvLen - 1)) := right
      simp only [if_pos right, if_pos too, dispatch_counting]
      exact .within len cnt fun same => by cases same
    · have too : ¬ ch = env.crc8Cal ((full.counting len cnt).bytes ((full.counting len cnt).recvLen - 1)) := right
      simp only [if_neg right, if_neg too]
      exact .within len cnt fun same => by cases same

/-- Twins take every byte together. -/
theorem Receiver.Twin.receive (twin : r.Twin other) (taken : PkeFire.receive env r ch = some next) :
    ∃ again, PkeFire.receive env other ch = some again ∧ next.Twin again := by
  cases twin with
  | same => exact ⟨next, taken, .same⟩
  | within len cnt inside => exact receive_counting inside taken
  | between buf len cnt outside =>
    -- A byte outside every frame either clears both buffers or is skipped.
    by_cases header : ch = protoHeader1
    · have cleared : PkeFire.receive env { r with recvBuf := buf } ch = PkeFire.receive env r ch := by
        simp only [PkeFire.receive, outside, if_pos header]
      rw [← cleared] at taken
      exact receive_counting (r := { r with recvBuf := buf }) (by rw [outside]; exact fun same => by cases same) taken
    · simp only [PkeFire.receive, outside, if_neg header] at taken
      cases taken
      refine ⟨_, ?_, .between buf len cnt outside⟩
      simp only [PkeFire.receive, Receiver.counting, outside, if_neg header]

/-- Twins take any bytes together. -/
theorem Receiver.Twin.run {bytes : List UInt8} (twin : r.Twin other)
    (ran : PkeFire.run (PkeFire.receive env) r bytes = some next) :
    ∃ again, PkeFire.run (PkeFire.receive env) other bytes = some again ∧ next.Twin again := by
  -- The induction is on the bytes, each of which is taken by both.
  induction bytes generalizing r other with
  | nil => exact ⟨other, rfl, Option.some.inj ran ▸ twin⟩
  | cons ch bytes ih =>
    rw [run_cons, Option.bind_eq_some_iff] at ran
    obtain ⟨middle, taken, ran⟩ := ran
    obtain ⟨also, too, still⟩ := twin.receive taken
    obtain ⟨again, rest, alike⟩ := ih still ran
    exact ⟨again, by rw [run_cons, too, Option.bind_some, rest], alike⟩

/-- Receivers that wait for a frame with the same table are twins. -/
theorem Receiver.Waiting.twin (waiting : r.Waiting) (also : other.Waiting) (sta : other.sta = r.sta)
    (sent : other.sent = r.sent) : r.Twin other := by
  obtain ⟨step, buf, count, dataLen, dataCnt, table, frames⟩ := r
  obtain ⟨step', buf', count', dataLen', dataCnt', table', frames'⟩ := other
  obtain ⟨rfl, rfl⟩ := waiting
  obtain ⟨rfl, rfl⟩ := also
  obtain rfl : table' = table := sta
  obtain rfl : frames' = frames := sent
  exact .between buf' dataLen' dataCnt' rfl

/-- What twins keep and what they have sent is the same. -/
theorem Receiver.Twin.kept (twin : r.Twin other) : other.sta = r.sta ∧ other.sent = r.sent := by
  cases twin <;> exact ⟨rfl, rfl⟩

end

section

variable {env other : LoraEnv} {r : Receiver} {frame : List UInt8}

/-- A frame is well formed for everyone with the same checksum. -/
theorem ValidFrame.common (valid : ValidFrame other frame) (same : env.crc8Cal = other.crc8Cal) :
    ValidFrame env frame := by
  obtain ⟨fields, data, full, fits, rfl⟩ := valid
  exact ⟨fields, data, full, fits, by rw [frameBytes, frameBytes, same]⟩

/-- A valid frame reaches as far as its length byte. -/
theorem ValidFrame.long (valid : ValidFrame env frame) : 23 ≤ frame.length := by
  obtain ⟨fields, data, full, _, rfl⟩ := valid
  simp only [frameBytes, List.length_append, List.length_cons, List.length_nil, full]
  omega

/-- A telegram is sent in a valid frame. -/
theorem Telegram.validFrame (env : LoraEnv) (telegram : Telegram) : ValidFrame env (telegram.frame env) :=
  ⟨_, _, by simp [length_frameId], telegram.fits, rfl⟩

/-- The fields of a telegram are those of its detector. -/
theorem protocolOf_telegram (env : LoraEnv) (telegram : Telegram) : protocolOf (telegram.frame env) =
    { header1 := protoHeader1, header2 := protoHeader2, floor := telegram.floor, room := telegram.room
      msgId := telegram.msgId, dir := dirToMain, buildingId := env.frameId, cmd := telegram.cmd
      len := UInt8.ofNat telegram.data.length, data := telegram.data } := by
  have number : (UInt8.ofNat telegram.data.length).toNat = telegram.data.length := by
    have fits := telegram.fits
    rw [UInt8.toNat_ofNat']
    exact Nat.mod_eq_of_lt (by omega)
  have full := length_frameId env
  unfold protocolOf Telegram.frame frameBytes
  simp [List.getElem?_append, List.drop_append, List.take_append, number, full]

/-- A frame that finds its detector in the table, or names none, changes nothing unless it is a report. -/
theorem sta_dispatch_command (faithful : r.sta.Faithful) (other : ¬ r.Reports)
    (known : (r.floor, r.room) = (0, 0) ∨ ∃ i, r.sta.Assigned i r.floor r.room) : (r.dispatch env).sta = r.sta := by
  by_cases here : r.ForThisBuilding env
  · rcases known with none | ⟨i, assigned⟩
    · -- There is no search for the number of no detector.
      exact dispatch_none here (loraSearchSmoke_unaddressed ⟨(Prod.mk.inj none).1, (Prod.mk.inj none).2⟩)
    · exact (dispatch_some here (faithful.known i _ _ assigned)).2 other
  · rw [dispatch_foreign here]

/-- A controller that waits for a frame takes a whole one. -/
theorem heard_frame {registry : Registry (UInt8 × UInt8) 20} (waiting : r.Waiting)
    (represents : Represents r.sta registry) (valid : ValidFrame env frame) :
    ∃ next, run (receive env) r frame = some next ∧ r.Heard env next frame := by
  -- The frame is assembled in the buffer and dispatched there.
  obtain ⟨full, ran, holds, sta, sent⟩ := dispatch_frame waiting valid
  obtain ⟨floor, room, _, cmd, building⟩ := protocolOf_held env holds valid.long
  rw [← sta] at represents
  have faithful := represents.faithful
  obtain ⟨later, again, longer⟩ := represents.dispatch env
  have key : (protocolOf frame).key = (full.floor, full.room) := by
    rw [Protocol.key, floor, room]
    rfl
  -- What is heard is answered, kept, passed over or entered, as the frame says.
  refine ⟨_, ran, ⟨rfl, rfl⟩, ?_, ⟨later, again⟩, ?_, ?_, ?_, ?_⟩
  · rw [Receiver.restart, sent_dispatch env faithful holds valid.long, sta, sent]
  · rw [← sta]
    exact represents.keptIn again longer
  -- A frame for another building does not reach the table.
  · intro foreign
    rw [Receiver.restart, dispatch_foreign fun here => foreign (building.mpr here), sta]
  -- A command that is no report leaves the records alone.
  · intro report set known
    rw [← sta, floor, room, key] at known
    have other : ¬ full.Reports := by
      rw [Receiver.Reports, ← cmd]
      rintro (same | same)
      · exact report same
      · exact set same
    exact (sta_dispatch_command faithful other known).trans sta
  · rintro ⟨report, here, registrable⟩
    -- A report that can be answered is kept in the slot of its detector.
    have reports : full.Reports := by
      rw [Receiver.Reports, ← cmd]
      exact Or.inl report
    rw [← sta, floor, room] at registrable
    obtain ⟨i, kept⟩ := keptAt_dispatch faithful (building.mp here) reports registrable
    rw [floor, room]
    exact ⟨i, kept.foundAt.1⟩

end

section

variable {Building : Type} {estate : Estate Building} {m next : Channel Building}
  {building : Building} {transmission : Transmission Building}

/-- What is on the air stays genuine while the tables keep their detectors. -/
theorem Estate.Genuine.mono (genuine : estate.Genuine m transmission) (longer : ∀ sent ∈ m.said, sent ∈ next.said)
    (keeps : ∀ building, (m.party building).receiver.sta.KeptIn (next.party building).receiver.sta) :
    estate.Genuine next transmission where
  valid := genuine.valid
  named := genuine.named
  downlink building own := by
    rcases genuine.downlink building own with all | ⟨⟨cause, among, answers⟩, i, assigned⟩
    · exact Or.inl all
    · -- The report that is answered is still on the air.
      exact Or.inr ⟨⟨cause, longer cause among, answers⟩, i, (keeps building).2 i _ _ assigned⟩

/-- A table keeps its own detectors. -/
theorem LoraState.KeptIn.refl (sta : LoraState) : sta.KeptIn sta :=
  ⟨Nat.le_refl _, fun _ _ _ assigned => assigned⟩

/-- The sender of a frame that a controller answers is a detector of its own building. -/
theorem Estate.Sound.sender_answerable (sound : estate.Sound m) (listed : transmission ∈ m.said)
    (answerable : Answerable (m.party building).env (m.party building).receiver.sta transmission.frame) :
    transmission.sender = .detector building := by
  have genuine := sound.said transmission listed
  -- The number in the frame is the one of its sender's building.
  have own : transmission.sender.building = building :=
    estate.distinct _ _ ((genuine.named.symm.trans answerable.2.1).trans (sound.blocks building).number)
  cases sender : transmission.sender with
  | detector other => rw [sender] at own; rw [← own]; rfl
  | controller other =>
    rcases genuine.downlink other sender with ⟨cmd, _⟩ | ⟨⟨_, _, _, _, cmd, _⟩, _⟩
    · exact absurd (cmd.symm.trans answerable.1) (by decide)
    · exact absurd (cmd.symm.trans answerable.1) (by decide)

/-- A controller hears a frame that is on the air. -/
theorem Estate.Sound.heard (sound : estate.Sound m) (listed : transmission ∈ m.said) (building : Building) :
    ∃ next, run (receive (m.party building).env) (m.party building).receiver transmission.frame = some next ∧
      (m.party building).receiver.Heard (m.party building).env next transmission.frame := by
  obtain ⟨registry, represents⟩ := (sound.blocks building).table
  refine heard_frame (sound.blocks building).waiting represents ((sound.said transmission listed).valid.common ?_)
  rw [(sound.blocks building).checksum, estate.common, estate.common]

/-- What a controller says after hearing a frame is its answer, if there is one. -/
theorem react_heard {block : Block} {replies : List (Transmission Building)}
    (reacted : blockReact building (m.party building) (.heard transmission) = some (block, replies)) :
    run (receive (m.party building).env) (m.party building).receiver transmission.frame = some block.receiver ∧
      block.env = (m.party building).env ∧
      (∀ answers, block.receiver.sent = (m.party building).receiver.sent ++ answers →
        replies = answers.map fun frame => ⟨.controller building, frame⟩) := by
  rw [blockReact, Option.map_eq_some_iff] at reacted
  obtain ⟨next, ran, same⟩ := reacted
  obtain ⟨rfl, rfl⟩ := Prod.mk.inj same
  refine ⟨ran, rfl, fun answers sent => ?_⟩
  -- Only what has been added to the frames sent is new.
  rw [show next.sent = _ from sent, List.drop_left]

/-- The frame that sends the building number carries it, and names no detector. -/
theorem genuine_setBuilding (sound : estate.Sound m) :
    estate.Genuine m
      ⟨.controller building, loraSetBuilding (m.party building).env (m.party building).receiver.sta⟩ := by
  have before := sound.blocks building
  let message : Message := ⟨0, 0, cmdBuildingId,
    Receiver.answerData (m.party building).env (m.party building).receiver.sta⟩
  have fits : message.data.length ≤ 26 := by
    show 6 ≤ 26
    omega
  -- It is framed like every other message.
  have valid : ValidFrame (m.party building).env (message.frame (m.party building).env _) :=
    validFrame_frame (m.party building).receiver.sta fits
  have proto := @protocolOf_frame (m.party building).env (m.party building).receiver.sta message fits
  refine ⟨valid.common before.checksum.symm, ?_, fun _ _ => Or.inl ?_⟩
  · exact (congrArg Protocol.buildingId proto).trans before.number
  · exact ⟨congrArg Protocol.cmd proto, congrArg Protocol.key proto⟩

/-- The channel is sound before anything has happened. -/
theorem Estate.sound_start (estate : Estate Building) (stack : Building → Vector UInt8 50) :
    estate.Sound (estate.start stack) :=
  ⟨fun _ => ⟨rfl, rfl, ⟨rfl, rfl⟩, _, DeviceTable.tracks_init.1⟩, fun _ among => by cases among⟩

variable [DecidableEq Building]

/-- The channel stays sound when one controller goes on, and says only what is genuine. -/
theorem Estate.Sound.update (sound : estate.Sound m) {block : Block} {replies : List (Transmission Building)}
    (kept : block.Sound (estate.site building))
    (keeps : (m.party building).receiver.sta.KeptIn block.receiver.sta)
    (new : ∀ sent ∈ replies, estate.Genuine ⟨Function.update m.party building block, m.said ++ replies⟩ sent) :
    estate.Sound ⟨Function.update m.party building block, m.said ++ replies⟩ := by
  refine ⟨fun other => ?_, fun sent among => ?_⟩
  · by_cases same : other = building
    · subst same
      simpa only [Function.update_self] using kept
    · simpa only [Function.update_of_ne same] using sound.blocks other
  · rcases List.mem_append.mp among with before | reply
    · -- What has been said before stays genuine, since no slot is taken back.
      refine (sound.said sent before).mono (fun _ listed => List.mem_append_left _ listed) fun other => ?_
      by_cases same : other = building
      · subst same
        simpa only [Function.update_self] using keeps
      · simpa only [Function.update_of_ne same] using LoraState.KeptIn.refl _
    · exact new sent reply

/-- The channel stays sound when a controller hears a frame. -/
theorem Estate.Sound.step_heard (sound : estate.Sound m) {block : Block} {replies : List (Transmission Building)}
    (listed : transmission ∈ m.said)
    (reacted : blockReact building (m.party building) (.heard transmission) = some (block, replies)) :
    estate.Sound ⟨Function.update m.party building block, m.said ++ replies⟩ := by
  obtain ⟨ran, env, answers⟩ := react_heard reacted
  obtain ⟨next, again, heard⟩ := sound.heard listed building
  cases Option.some.inj (ran.symm.trans again)
  -- The controller answers what is answerable, and nothing else.
  have before := sound.blocks building
  have same := answers _ heard.sent
  refine sound.update ⟨by rw [env]; exact before.checksum, by rw [env]; exact before.number, heard.waiting,
    heard.table⟩ heard.keeps fun sent among => ?_
  rw [same] at among ⊢
  split at among
  · rename_i answerable
    rw [List.map_singleton, List.mem_singleton] at among
    subst among
    -- The answer is put together from the report and the number of this building.
    let request : Request := ⟨(m.party building).env, (m.party building).receiver.sta.alarmSet, transmission.frame⟩
    have proto := protocolOf_reply request
    obtain ⟨fields, full, built⟩ := reply_eq_frameBytes request before.checksum.symm
    -- The answer is a frame of its own, from this building, to a report that is on the air.
    refine ⟨⟨fields, _, full, by rw [length_answer]; omega, built⟩, ?_, fun other own => Or.inr ?_⟩
    · rw [proto]
      exact before.number
    · cases own
      rw [Answers, proto]
      refine ⟨⟨transmission, List.mem_append_left _ listed, sound.sender_answerable listed answerable,
        answerable.1, rfl, rfl, rfl⟩, ?_⟩
      simpa only [Function.update_self] using heard.assigned answerable
  · cases among

/-- What holds of the channel is kept by everything that may happen on it. -/
theorem Estate.Sound.step (sound : estate.Sound m) {event : ChannelEvent Building} (authentic : estate.Authentic event)
    (taken : channelStep m event = some next) : estate.Sound next := by
  obtain ⟨sent, rfl, rfl⟩ | ⟨building, input, block, replies, _, _, listed, reacted, rfl⟩ := mediumStep_cases taken
  · obtain ⟨building, telegram, rfl⟩ := authentic
    refine ⟨sound.blocks, fun other among => ?_⟩
    rcases List.mem_append.mp among with before | new
    · exact (sound.said other before).mono (fun _ listed => List.mem_append_left _ listed) fun _ => .refl _
    · -- A detector's telegram is no downlink.
      rw [List.mem_singleton] at new
      subst new
      exact ⟨telegram.validFrame _, congrArg Protocol.buildingId (protocolOf_telegram _ telegram),
        fun _ own => by cases own⟩
  · cases input with
    | heard transmission => exact sound.step_heard (listed _ rfl) reacted
    | did action =>
      -- What is done at a controller may broadcast its number, or change its settings.
      have before := sound.blocks building
      cases action with
      | setBuilding =>
        cases Option.some.inj reacted
        refine sound.update before (.refl _) fun sent among => ?_
        rw [List.mem_singleton] at among
        subst among
        refine (genuine_setBuilding sound).mono (fun _ listed => List.mem_append_left _ listed) fun other => ?_
        rw [Function.update_eq_self]
        exact .refl _
      | configure temp smoke poll =>
        cases Option.some.inj reacted
        exact sound.update ⟨before.checksum, before.number, before.waiting, before.table⟩ (.refl _)
          fun _ among => by cases among

/-- The channel is sound at every step of a run. -/
theorem Estate.sound_run {stack : Building → Vector UInt8 50} {events : List (ChannelEvent Building)}
    (authentic : ∀ event ∈ events, estate.Authentic event) :
    EveryStep channelStep (fun m event => estate.Sound m ∧ estate.Authentic event) (estate.start stack) events :=
  (everyStep_of_mem authentic).with_invariant estate.Sound
    (fun _ _ _ sound authentic taken => sound.step authentic taken) (estate.sound_start stack)

/-- A controller that is spared a frame that does not concern it keeps and sends the same. -/
theorem Estate.Sound.spared (sound : estate.Sound m) {block : Block} {replies : List (Transmission Building)}
    (listed : transmission ∈ m.said) (spared : transmission.sender ≠ .detector building)
    (reacted : blockReact building (m.party building) (.heard transmission) = some (block, replies)) :
    block.env = (m.party building).env ∧ block.receiver.Waiting ∧
      block.receiver.sta = (m.party building).receiver.sta ∧
      block.receiver.sent = (m.party building).receiver.sent := by
  obtain ⟨ran, env, _⟩ := react_heard reacted
  obtain ⟨next, again, heard⟩ := sound.heard listed building
  cases Option.some.inj (ran.symm.trans again)
  have genuine := sound.said transmission listed
  refine ⟨env, heard.waiting, ?_, ?_⟩
  · cases sender : transmission.sender with
    | detector other =>
      -- Another building's detector has another number.
      refine heard.foreign fun same => spared ?_
      rw [sender, Sender.detector.injEq]
      have own := genuine.named.symm.trans (same.trans (sound.blocks building).number)
      rw [sender] at own
      exact estate.distinct _ _ own
    | controller other =>
      by_cases own : other = building
      · subst own
        rcases genuine.downlink other sender with ⟨cmd, key⟩ | ⟨⟨_, _, _, _, cmd, _⟩, known⟩
        · exact heard.command (by rw [cmd]; decide) (by rw [cmd]; decide) (Or.inl key)
        · exact heard.command (by rw [cmd]; decide) (by rw [cmd]; decide) (Or.inr known)
      · refine heard.foreign fun same => own ?_
        have other := genuine.named.symm.trans (same.trans (sound.blocks building).number)
        rw [sender] at other
        exact estate.distinct _ _ other
  · -- Only its own detectors are answered.
    rw [heard.sent, if_neg fun answerable => spared (sound.sender_answerable listed answerable), List.append_nil]

/-- Two controllers between frames will do the same, whatever earlier frames have left behind in their buffers. -/
structure Block.Alike (block other : Block) : Prop where
  env : other.env = block.env
  waiting : block.receiver.Waiting
  also : other.receiver.Waiting
  sta : other.receiver.sta = block.receiver.sta
  sent : other.receiver.sent = block.receiver.sent

/-- What concerns a controller leads two that are alike to the same, and anything else to nothing. -/
theorem Block.Alike.react (sound : estate.Sound m) {input : PartyInput (Transmission Building) BlockAction}
    {other block : Block} {replies : List (Transmission Building)}
    (listed : ∀ transmission, input = .heard transmission → transmission ∈ m.said)
    (alike : (m.party building).Alike other)
    (reacted : blockReact building (m.party building) input = some (block, replies)) :
    if Concerns building input then ∃ again, partyStep blockReact building other input = some again ∧ block.Alike again
    else block.Alike other := by
  cases input with
  | heard transmission =>
    by_cases own : transmission.sender = .detector building
    -- A frame of its own detector concerns the controller.
    · rw [if_pos (by simpa [Concerns] using own)]
      obtain ⟨ran, env, _⟩ := react_heard reacted
      obtain ⟨next, again, heard⟩ := sound.heard (listed _ rfl) building
      cases Option.some.inj (ran.symm.trans again)
      -- The same bytes have the same effect, and the next frame is awaited by both.
      obtain ⟨last, ranOther, twin⟩ := (alike.waiting.twin alike.also alike.sta alike.sent).run ran
      rw [← alike.env] at ranOther env
      refine ⟨⟨other.env, last⟩, ?_, env.symm, heard.waiting, ?_, twin.kept.1, twin.kept.2⟩
      · simp only [partyStep, blockReact, ranOther, Option.map_some]
      · cases twin <;> exact heard.waiting
    -- Any other frame leaves it as it is.
    · rw [if_neg (by simpa [Concerns] using own)]
      obtain ⟨env, waiting, sta, sent⟩ := sound.spared (listed _ rfl) own reacted
      exact ⟨alike.env.trans env.symm, waiting, alike.also, alike.sta.trans sta.symm, alike.sent.trans sent.symm⟩
  | did action =>
    rw [Concerns, if_pos rfl]
    -- What is done at the controller depends on its settings, and these are alike.
    cases action with
    | setBuilding =>
      cases Option.some.inj reacted
      exact ⟨other, rfl, alike⟩
    | configure temp smoke poll =>
      cases Option.some.inj reacted
      refine ⟨_, rfl, ?_, alike.waiting, alike.also, alike.sta, alike.sent⟩
      rw [alike.env]

/-- In an estate, a controller keeps and sends exactly what it would if it were alone with its own detectors. -/
theorem estate_alone (estate : Estate Building) (stack : Building → Vector UInt8 50)
    (events : List (ChannelEvent Building)) (finish : Channel Building) (building : Building)
    (authentic : ∀ event ∈ events, estate.Authentic event)
    (ran : run channelStep (estate.start stack) events = some finish) :
    ∃ alone, run (partyStep blockReact building) (.start (estate.site building) (stack building))
        (((estate.start stack).inputs blockReact building events).filter (Concerns building)) = some alone ∧
      alone.env = (finish.party building).env ∧ alone.receiver.sta = (finish.party building).receiver.sta ∧
      alone.receiver.sent = (finish.party building).receiver.sent := by
  have sound : EveryStep channelStep _ (estate.start stack) events := estate.sound_run authentic
  have every := sound.mono fun _ _ both => both.1
  -- Beside the channel, the controller is run with what concerns it, and the two stay alike.
  have initially : (Block.start (estate.site building) (stack building)).Alike
      (.start (estate.site building) (stack building)) := ⟨rfl, ⟨rfl, rfl⟩, ⟨rfl, rfl⟩, rfl, rfl⟩
  obtain ⟨alone, ranAlone, alike⟩ := run_alone Block.Alike (Concerns building)
    (fun _ _ _ _ _ sound listed alike reacted => alike.react sound listed reacted) initially every ran
  exact ⟨alone, ranAlone, alike.env, alike.sta, alike.sent⟩

/-- Hearing a frame makes a controller send at most one, and none unless the frame concerns it. -/
theorem Estate.Sound.length_replies (sound : estate.Sound m) {block : Block} {replies : List (Transmission Building)}
    (listed : transmission ∈ m.said)
    (reacted : blockReact building (m.party building) (.heard transmission) = some (block, replies)) :
    replies.length ≤ if transmission.sender = .detector building then 1 else 0 := by
  obtain ⟨ran, _, answers⟩ := react_heard reacted
  obtain ⟨next, again, heard⟩ := sound.heard listed building
  cases Option.some.inj (ran.symm.trans again)
  rw [answers _ heard.sent, List.length_map]
  by_cases answerable : Answerable (m.party building).env (m.party building).receiver.sta transmission.frame
  · rw [if_pos answerable, if_pos (sound.sender_answerable listed answerable)]
    exact Nat.le_refl _
  · rw [if_neg answerable]
    exact Nat.zero_le _

/-- Hearing a frame puts at most one more on the air, and none unless the frame is a provoking one. -/
theorem Estate.Sound.hear (sound : estate.Sound m) {building : Building} {place : Nat}
    (taken : channelStep m (.hear building place) = some next) :
    ∃ replies, next.said = m.said ++ replies ∧
      replies.length ≤ if provoking m (.hear building place) then 1 else 0 := by
  rw [channelStep, mediumStep, Option.bind_eq_some_iff] at taken
  obtain ⟨transmission, found, taken⟩ := taken
  obtain ⟨block, replies, reacted, rfl⟩ := take_eq_some taken
  refine ⟨replies, rfl, ?_⟩
  -- A frame provokes whoever has its sender for a detector.
  simpa only [provoking, found, Option.any_some, decide_eq_true_eq] using
    sound.length_replies (List.mem_of_getElem? found) reacted

/-- How many frames on the air have been sent by controllers. -/
def Medium.downlinks (m : Channel Building) : Nat :=
  m.said.countP fun transmission => decide (transmission.sender = .controller transmission.sender.building)

/-- One event puts at most one more frame of a controller on the air, and none unless it is a provoking one. -/
theorem Estate.Sound.downlinks_step (sound : estate.Sound m) {event : ChannelEvent Building}
    (authentic : estate.Authentic event) (taken : channelStep m event = some next) :
    next.downlinks ≤ if provoking m event then m.downlinks + 1 else m.downlinks := by
  cases event with
  | say sent =>
    obtain ⟨building, telegram, rfl⟩ := authentic
    cases Option.some.inj taken
    -- A detector's frame is not counted.
    simp [Medium.downlinks, provoking]
  | hear building place =>
    -- Hearing adds the answer, if there is one.
    obtain ⟨replies, said, few⟩ := sound.hear taken
    have counted := List.countP_le_length
      (p := fun sent : Transmission Building => decide (sent.sender = .controller sent.sender.building)) (l := replies)
    rw [Medium.downlinks, Medium.downlinks, said, List.countP_append]
    split at few <;> rename_i own <;> simp only [own, if_true, if_false, Bool.false_eq_true] <;> omega
  | act building action =>
    -- A broadcast adds its own frame, and new settings add nothing.
    obtain ⟨block, replies, reacted, rfl⟩ := take_eq_some taken
    cases action with
    | setBuilding =>
      cases Option.some.inj reacted
      simp [Medium.downlinks, provoking, Sender.building]
    | configure temp smoke poll =>
      cases Option.some.inj reacted
      simp [Medium.downlinks, provoking]

/-- Nothing is sent upon a frame that does not come from a detector of the building that hears it. -/
theorem Estate.Sound.said_hear (sound : estate.Sound m) {building : Building} {place : Nat}
    (foreign : provoking m (.hear building place) = false)
    (taken : channelStep m (.hear building place) = some next) : next.said = m.said := by
  obtain ⟨replies, said, few⟩ := sound.hear taken
  rw [if_neg (ne_true_of_eq_false foreign)] at few
  -- No reply leaves the air as it is.
  have none : replies = [] := List.length_eq_zero_iff.mp (Nat.le_zero.mp few)
  rw [said, none, List.append_nil]

/--
Every frame that a controller sends is the building number, or answers a report of a detector of its own building.

There are no more of them than there have been such reports heard, and building numbers sent. Whoever hears a frame of
a controller or of another building's detector sends nothing.
-/
theorem no_answer_storm (estate : Estate Building) (stack : Building → Vector UInt8 50)
    (events : List (ChannelEvent Building)) (finish : Channel Building)
    (authentic : ∀ event ∈ events, estate.Authentic event)
    (ran : run channelStep (estate.start stack) events = some finish) :
    (∀ transmission ∈ finish.said, ∀ building, transmission.sender = .controller building →
      (protocolOf transmission.frame).cmd = cmdBuildingId ∨ Answers finish building transmission.frame) ∧
    finish.downlinks ≤ occurrences channelStep provoking (estate.start stack) events ∧
    ∀ building place next, provoking finish (.hear building place) = false →
      channelStep finish (.hear building place) = some next → next.said = finish.said := by
  have every : EveryStep channelStep _ (estate.start stack) events := estate.sound_run authentic
  have sound := run_invariant estate.Sound (fun _ _ _ sound both taken => sound.step both.2 taken)
    (estate.sound_start stack) every ran
  refine ⟨?_, ?_, fun building place next foreign taken => sound.said_hear foreign taken⟩
  · intro transmission listed building own
    rcases (sound.said transmission listed).downlink building own with ⟨cmd, _⟩ | ⟨answers, _⟩
    · exact Or.inl cmd
    · exact Or.inr answers
  · -- The count goes up with each provoking event, and with no other.
    refine counted_invariant (fun count (m : Channel Building) => m.downlinks ≤ count) ?_ (Nat.le_refl _) every ran
    intro count m event next few both taken
    have more := both.1.downlinks_step both.2 taken
    split at more <;> rename_i provoked <;> simp only [provoked] <;> simp <;> omega

end

/-- Two blocks whose numbers consist of ones and of twos. -/
def twoBlocks : Estate Bool where
  crc8Cal := crc8
  site building := { quietRadio with crc8Cal := crc8, buildingId := .replicate 20 (if building then 2 else 1) }
  common _ := rfl
  distinct := by decide +kernel

/-- A report of the first floor of a block. -/
def firstFloor : Telegram :=
  ⟨1, 1, 9, cmdReport, [1, 44, 0, 25, 0, 90, 3], by decide⟩

/-- A report that both controllers hear, and its answer, which the other one hears as well. -/
def heardByBoth : List (ChannelEvent Bool) :=
  [.say ⟨.detector true, firstFloor.frame (twoBlocks.site true)⟩, .hear false 0, .hear true 0, .hear false 1,
    .act true (.configure 1 2 3), .act false .setBuilding]

/-- Only a detector of one of the blocks says anything. -/
theorem authentic_heardByBoth : ∀ event ∈ heardByBoth, twoBlocks.Authentic event := by
  simp only [heardByBoth, List.forall_mem_cons, List.not_mem_nil, false_imp_iff, implies_true, and_true]
  exact ⟨⟨true, firstFloor, rfl⟩, trivial, trivial, trivial, trivial, trivial⟩

/-- Everything that is on the air may be heard. -/
theorem ran_heardByBoth :
    (run channelStep (twoBlocks.start fun _ => .replicate 50 0) heardByBoth).isSome = true := by decide +kernel

/-- The controller of the block that has not reported is not affected. -/
theorem estate_alone_two : ∃ finish, run channelStep (twoBlocks.start fun _ => .replicate 50 0) heardByBoth =
    some finish ∧ ∃ alone, run (partyStep blockReact false) (.start (twoBlocks.site false) (.replicate 50 0))
      ((((twoBlocks.start fun _ => .replicate 50 0).inputs blockReact false heardByBoth)).filter (Concerns false)) =
        some alone ∧ alone.receiver.sta = (finish.party false).receiver.sta := by
  obtain ⟨finish, ran⟩ := Option.isSome_iff_exists.mp ran_heardByBoth
  obtain ⟨alone, ranAlone, _, sta, _⟩ := estate_alone twoBlocks _ _ finish false authentic_heardByBoth ran
  exact ⟨finish, ran, alone, ranAlone, sta⟩

/-- There is one answer to the report, and one building number. -/
theorem no_answer_storm_two : ∃ finish, run channelStep (twoBlocks.start fun _ => .replicate 50 0) heardByBoth =
    some finish ∧ finish.downlinks ≤ 2 := by
  obtain ⟨finish, ran⟩ := Option.isSome_iff_exists.mp ran_heardByBoth
  have few := (no_answer_storm twoBlocks _ _ finish authentic_heardByBoth ran).2.1
  have provoked : occurrences channelStep provoking (twoBlocks.start fun _ => .replicate 50 0) heardByBoth = 2 := by
    decide +kernel
  exact ⟨finish, ran, provoked ▸ few⟩

end PkeFire
