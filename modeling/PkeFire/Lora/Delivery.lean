import PkeFire.Lora.Assembly

/-! Which frames of a stream the receiver accepts, after other frames and after noise. -/

namespace PkeFire

/-- What the caller of `lora_send` passes to it. -/
structure Message where
  floor : UInt8
  room : UInt8
  cmd : UInt8
  data : List UInt8
  deriving DecidableEq, Repr

/-- The frame in which a message is sent. -/
def Message.frame (env : LoraEnv) (sta : LoraState) (message : Message) : List UInt8 :=
  loraSend env sta message.floor message.room message.cmd message.data

/-- The fields that `protocol_t` names, and the data that the length counts. -/
structure Protocol where
  header1 : UInt8
  header2 : UInt8
  floor : UInt8
  room : UInt8
  msgId : UInt8
  dir : UInt8
  buildingId : List UInt8
  cmd : UInt8
  len : UInt8
  data : List UInt8
  deriving DecidableEq, Repr

/-- A buffer read as a `protocol_t`, whose fields are packed. -/
def protocolOf (buf : List UInt8) : Protocol where
  header1 := buf.getD 0 0
  header2 := buf.getD 1 0
  floor := buf.getD 2 0
  room := buf.getD 3 0
  msgId := buf.getD 4 0
  dir := buf.getD 5 0
  buildingId := (buf.drop 6).take 15
  cmd := buf.getD 21 0
  len := buf.getD 22 0
  data := (buf.drop 23).take (buf.getD 22 0).toNat

/-- A frame as the receiver expects it, with at most 26 bytes of data. -/
def ValidFrame (env : LoraEnv) (frame : List UInt8) : Prop :=
  ∃ fields data, fields.length = 20 ∧ data.length ≤ 26 ∧ frame = frameBytes env fields data

/-- The last byte of a stream takes the receiver into the branch of a right checksum, with this frame in its buffer. -/
def Delivers (env : LoraEnv) (r : Receiver) (stream frame : List UInt8) : Prop :=
  ∃ before ch middle, stream = before ++ [ch] ∧ run (receive env) r before = some middle ∧
    middle.accepted env ch = some frame

/-- The header pair occurs nowhere before the start of the frame. -/
def Headerless (noise frame : List UInt8) : Prop :=
  ∀ before after, noise ++ frame = before ++ [protoHeader1] ++ [protoHeader2] ++ after →
    noise.length ≤ before.length

/-- Noise without a header never costs the receiver the frame behind it. -/
def Resynchronises : Prop :=
  ∀ env r noise frame, Receiver.Waiting r → ValidFrame env frame → Headerless noise frame →
    Delivers env r (noise ++ frame) frame

/-- How many first header bytes a stream ends with. -/
def trailingHeaders (stream : List UInt8) : Nat :=
  (stream.reverse.takeWhile (· = protoHeader1)).length

section

variable {env : LoraEnv} {r : Receiver}

/-- The bytes of `lora_send` form a frame as the receiver expects it. -/
theorem frame_eq_frameBytes (env : LoraEnv) (sta : LoraState) (message : Message) :
    message.frame env sta = frameBytes env
      ([message.floor, message.room, sta.msgid, dirToSmoke] ++ env.frameId ++ [message.cmd]) message.data := by
  -- Both descriptions put the same bytes in the same order.
  simp only [Message.frame, loraSend, frameBytes, List.append_assoc, List.cons_append, List.nil_append]

/-- A frame carries fifteen bytes of the building number. -/
theorem length_frameId (env : LoraEnv) : env.frameId.length = 15 := by
  simp [LoraEnv.frameId]

/-- Between header and length, a frame has twenty bytes. -/
theorem length_fields (env : LoraEnv) (sta : LoraState) (message : Message) :
    ([message.floor, message.room, sta.msgid, dirToSmoke] ++ env.frameId ++ [message.cmd]).length = 20 := by
  simp [length_frameId]

/-- A message that fits is sent in a valid frame. -/
theorem validFrame_frame (sta : LoraState) {message : Message} (fits : message.data.length ≤ 26) :
    ValidFrame env (message.frame env sta) :=
  ⟨_, _, length_fields env sta message, fits, frame_eq_frameBytes env sta message⟩

/-- The fields of a frame are those it has been sent with. -/
theorem protocolOf_frame (sta : LoraState) {message : Message} (fits : message.data.length ≤ 26) :
    protocolOf (message.frame env sta) =
      { header1 := protoHeader1, header2 := protoHeader2, floor := message.floor, room := message.room
        msgId := sta.msgid, dir := dirToSmoke, buildingId := env.buildingId.toList.take 15
        cmd := message.cmd, len := UInt8.ofNat message.data.length, data := message.data } := by
  -- The parts of the frame are cut out by their lengths.
  have number : (UInt8.ofNat message.data.length).toNat = message.data.length := by
    rw [UInt8.toNat_ofNat']
    exact Nat.mod_eq_of_lt (by omega)
  unfold protocolOf Message.frame loraSend
  simp [List.getElem?_append, List.drop_append, List.take_append, number, LoraEnv.frameId]

/-- Messages that are sent one after the other are received one after the other. -/
theorem receive_messages (id : Vector UInt8 20) (sta : LoraState) {messages : List Message}
    (fits : ∀ message ∈ messages, message.data.length ≤ 26) (waiting : r.Waiting) :
    ∃ next, Reception env r (messages.flatMap (Message.frame { env with buildingId := id } sta))
      (messages.flatMap fun message => List.replicate (23 + message.data.length) none ++
        [some (message.frame { env with buildingId := id } sta)]) next ∧ next.Waiting := by
  apply Trace.blocks Receiver.Waiting ?_ waiting
  intro message among r waiting
  -- The receiver does not look at the building number before the checksum.
  have full := length_fields { env with buildingId := id } sta message
  have received := receive_frame env waiting full (fits message among)
  rw [frame_eq_frameBytes]
  exact received

/-- Each message of a stream is accepted once, at its last byte and in order, with its frame in the buffer. -/
theorem messages_roundTrip (env : LoraEnv) (id : Vector UInt8 20) (sta : LoraState) (r : Receiver)
    (messages : List Message) (fits : ∀ message ∈ messages, message.data.length ≤ 26)
    (waiting : r.Waiting) :
    (∃ next, Reception env r (messages.flatMap (Message.frame { env with buildingId := id } sta))
      (messages.flatMap fun message => List.replicate (23 + message.data.length) none ++
        [some (message.frame { env with buildingId := id } sta)]) next) ∧
    (∀ sent left, messages = sent ++ left → ∃ middle,
      run (receive env) r (sent.flatMap (Message.frame { env with buildingId := id } sta)) = some middle ∧
        middle.recvStep = .header1 ∧ middle.recvLen = 0) ∧
    ∀ message ∈ messages, (message.frame { env with buildingId := id } sta).length =
        24 + message.data.length ∧
      protocolOf (message.frame { env with buildingId := id } sta) =
        { header1 := protoHeader1, header2 := protoHeader2, floor := message.floor, room := message.room
          msgId := sta.msgid, dir := dirToSmoke, buildingId := id.toList.take 15
          cmd := message.cmd, len := UInt8.ofNat message.data.length, data := message.data } := by
  refine ⟨?_, ?_, ?_⟩
  -- A waiting receiver takes the whole stream, message by message.
  · obtain ⟨next, reception, _⟩ := receive_messages id sta fits waiting
    exact ⟨next, reception⟩
  · -- Whatever has been sent so far is itself a stream of messages.
    intro sent left same
    have shorter : ∀ message ∈ sent, message.data.length ≤ 26 := by
      intro message among
      exact fits message (same ▸ List.mem_append_left left among)
    obtain ⟨middle, reception, again⟩ := receive_messages id sta shorter waiting
    exact ⟨middle, reception.1, again⟩
  · intro message among
    -- The frame is the header, the fields, the data and the checksum.
    refine ⟨?_, protocolOf_frame sta (fits message among)⟩
    rw [frame_eq_frameBytes, frameBytes]
    simp only [List.length_append, List.length_cons, List.length_nil, length_frameId]
    omega

/-- A report with two bytes of data, and a command without any. -/
def twoMessages : List Message :=
  [⟨1, 2, cmdReport, [4, 5]⟩, ⟨6, 7, 8, []⟩]

/-- Two messages reach a receiver of another building. -/
theorem messages_roundTrip_two : ∃ next, Reception quietRadio (receiverInit (.replicate 50 0))
    (twoMessages.flatMap (Message.frame { quietRadio with buildingId := .replicate 20 1 } loraStateInit))
    (twoMessages.flatMap fun message => List.replicate (23 + message.data.length) none ++
      [some (message.frame { quietRadio with buildingId := .replicate 20 1 } loraStateInit)]) next :=
  (messages_roundTrip quietRadio (.replicate 20 1) loraStateInit (receiverInit (.replicate 50 0))
    twoMessages (by decide) ⟨rfl, rfl⟩).1

/-- The trailing first header bytes of a longer stream. -/
theorem trailingHeaders_append (stream : List UInt8) (ch : UInt8) :
    trailingHeaders (stream ++ [ch]) = if ch = protoHeader1 then trailingHeaders stream + 1 else 0 := by
  -- The new byte either goes on with the streak or ends it.
  unfold trailingHeaders
  rw [List.reverse_append, List.reverse_singleton, List.singleton_append, List.takeWhile_cons]
  by_cases header : ch = protoHeader1
  · simp [header]
  · simp [header]

/-- Where noise without a header leaves the receiver. -/
theorem receive_noise (env : LoraEnv) {noise : List UInt8} (waiting : r.Waiting)
    (headerless : ∀ before after, noise ≠ before ++ [protoHeader1] ++ [protoHeader2] ++ after) :
    ∃ middle, run (receive env) r noise = some middle ∧
      (trailingHeaders noise % 2 = 0 → middle.Waiting) ∧
      (trailingHeaders noise % 2 = 1 → middle.recvStep = .header2 ∧
        ∃ before, noise = before ++ [protoHeader1]) := by
  -- The second header byte is awaited exactly after an odd number of first ones.
  induction noise using List.reverseRecOn with
  | nil =>
    refine ⟨r, rfl, fun _ => waiting, ?_⟩
    intro odd
    cases odd
  | append_singleton noise ch ih =>
    obtain ⟨middle, ran, even, odd⟩ := ih fun before after same =>
      headerless before (after ++ [ch]) (by rw [same, List.append_assoc])
    have reached (next : Receiver) (taken : receive env middle ch = some next) :
        run (receive env) r (noise ++ [ch]) = some next :=
      run_append_some.mpr ⟨middle, ran, (run_singleton middle ch).trans taken⟩
    rw [trailingHeaders_append]
    by_cases parity : trailingHeaders noise % 2 = 0
    · obtain ⟨state, empty⟩ := even parity
      by_cases header : ch = protoHeader1
      · -- A first header byte outside every frame starts one.
        have goes : middle.Continues ch := by
          simp only [Receiver.Continues, state]
          exact ⟨header, empty⟩
        have nothing : middle.Holds [] := ⟨empty, rfl⟩
        obtain ⟨next, taken, _⟩ := nothing.receive env (by simp) goes
        have moved := receive_advances taken
        simp only [Advances, state, if_pos header] at moved
        rw [if_pos header]
        exact ⟨next, reached next taken, by omega, fun _ => ⟨moved.1, noise, by rw [header]⟩⟩
      · -- Any other byte is skipped.
        have taken : receive env middle ch = some middle := by
          simp only [receive, state, if_neg header]
        rw [if_neg header]
        exact ⟨middle, reached middle taken, fun _ => ⟨state, empty⟩, by omega⟩
    · obtain ⟨state, before, same⟩ := odd (by omega)
      -- A second header byte would complete a header.
      have other : ch ≠ protoHeader2 := by
        intro completes
        exact headerless before [] (by rw [same, completes, List.append_nil])
      have taken : receive env middle ch = some middle.restart := by
        simp only [receive, state, if_neg other]
      refine ⟨middle.restart, reached _ taken, fun _ => ⟨rfl, rfl⟩, ?_⟩
      split <;> omega

/-- Noise that has no header before the frame has none at all. -/
theorem Headerless.noise {noise frame : List UInt8} (headerless : Headerless noise frame)
    (before after : List UInt8) : noise ≠ before ++ [protoHeader1] ++ [protoHeader2] ++ after := by
  intro same
  -- Such a header would begin before the frame does.
  have bounded := headerless before (after ++ frame) (by rw [same, List.append_assoc])
  simp only [same, List.length_append, List.length_cons, List.length_nil] at bounded
  omega

/-- A valid frame begins with a first header byte and ends with another byte. -/
theorem ValidFrame.shape {frame : List UInt8} (valid : ValidFrame env frame) :
    ∃ inner crc, frame = [protoHeader1] ++ inner ++ [crc] := by
  obtain ⟨fields, data, _, _, rfl⟩ := valid
  let body := [protoHeader2] ++ fields ++ [UInt8.ofNat data.length] ++ data
  exact ⟨body, env.crc8Cal ([protoHeader1] ++ body), rfl⟩

/-- After an even number of first header bytes at the end of the noise, the frame is accepted. -/
theorem delivers_of_even {noise frame : List UInt8} (waiting : r.Waiting) (valid : ValidFrame env frame)
    (headerless : Headerless noise frame) (even : trailingHeaders noise % 2 = 0) :
    Delivers env r (noise ++ frame) frame := by
  obtain ⟨middle, ran, waits, _⟩ := receive_noise env waiting headerless.noise
  obtain ⟨fields, data, full, fits, rfl⟩ := valid
  -- The noise is over, and the receiver waits as it did in front of it.
  obtain ⟨next, reception, _⟩ := receive_frame env (waits even) full fits
  obtain ⟨before, ch, last, same, reached, verdict⟩ := reception.last
  refine ⟨noise ++ before, ch, last, ?_, run_append_some.mpr ⟨middle, ran, reached⟩, verdict⟩
  rw [same, List.append_assoc]

/-- The buffer never holds more bytes than have been received. -/
theorem recvLen_le {stream : List UInt8} {next : Receiver} (ran : run (receive env) r stream = some next) :
    next.recvLen ≤ r.recvLen + stream.length := by
  -- Each byte adds one at most.
  induction stream generalizing r with
  | nil => exact Option.some.inj ran ▸ Nat.le_refl _
  | cons ch stream ih =>
    rw [run_cons, Option.bind_eq_some_iff] at ran
    obtain ⟨middle, taken, ran⟩ := ran
    have later := ih ran
    have moved := receive_advances taken
    have more : middle.recvLen ≤ r.recvLen + 1 := by
      unfold Advances at moved
      grind
    rw [List.length_cons]
    omega

/-- The frame that is accepted ends with the byte just received. -/
theorem length_accepted {ch : UInt8} {frame : List UInt8} (verdict : r.accepted env ch = some frame) :
    frame.length ≤ r.recvLen + 1 := by
  unfold Receiver.accepted at verdict
  split at verdict
  · obtain ⟨full, pushed, verdict⟩ := Option.bind_eq_some_iff.mp verdict
    split at verdict
    · -- No more than the counted bytes are read from the buffer.
      rw [← Option.some.inj verdict, Receiver.bytes, ← (push_eq_some pushed).2.1]
      exact List.length_take_le _ _
    · cases verdict
  · cases verdict

/-- After an odd number of first header bytes at the end of the noise, the frame is lost. -/
theorem not_delivers_of_odd {noise frame : List UInt8} (waiting : r.Waiting) (valid : ValidFrame env frame)
    (headerless : Headerless noise frame) (odd : trailingHeaders noise % 2 = 1) :
    ¬ Delivers env r (noise ++ frame) frame := by
  rintro ⟨before, ch, last, same, ran, verdict⟩
  obtain ⟨inner, crc, shape⟩ := valid.shape
  obtain ⟨middle, reached, _, waits⟩ := receive_noise env waiting headerless.noise
  rw [shape, ← List.append_assoc] at same
  rw [← (List.append_inj' same rfl).1] at ran
  rw [← List.append_assoc] at ran
  obtain ⟨broken, ran, rest⟩ := run_append_some.mp ran
  obtain ⟨again, before, taken⟩ := run_append_some.mp ran
  cases Option.some.inj (before.symm.trans reached)
  -- The frame's first byte is spent on the mismatch, so the rest of it is too short.
  have moved := receive_advances (run_singleton middle protoHeader1 ▸ taken)
  have mismatch : protoHeader1 ≠ protoHeader2 := by decide
  simp only [Advances, (waits odd).1, if_neg mismatch] at moved
  have short := recvLen_le rest
  have long := length_accepted verdict
  simp only [shape, List.length_append, List.length_cons, List.length_nil] at long
  omega

/-- Noise without a header costs the receiver no frame exactly if it ends with an even number of first header bytes. -/
theorem delivers_iff_even (env : LoraEnv) (r : Receiver) (noise frame : List UInt8) (waiting : r.Waiting)
    (valid : ValidFrame env frame) (headerless : Headerless noise frame) :
    Delivers env r (noise ++ frame) frame ↔ trailingHeaders noise % 2 = 0 := by
  constructor
  · intro delivered
    -- The other parity loses the frame.
    by_contra odd
    exact not_delivers_of_odd waiting valid headerless (by omega) delivered
  · intro even
    exact delivers_of_even waiting valid headerless even

end

/-- A frame without data, whose fields are all zero. -/
def plainFrame : List UInt8 :=
  frameBytes quietRadio (List.replicate 20 0) []

/-- The plain frame is a valid one. -/
theorem validFrame_plainFrame : ValidFrame quietRadio plainFrame :=
  ⟨List.replicate 20 0, [], rfl, by decide, rfl⟩

/-- One byte of noise never contains a header, not even together with the frame behind it. -/
theorem headerless_singleton {frame : List UInt8} (noise : UInt8) (valid : ValidFrame quietRadio frame) :
    Headerless [noise] frame := by
  intro before after same
  obtain ⟨inner, crc, rfl⟩ := valid.shape
  cases before with
  | nil =>
    -- Otherwise the frame would begin with a second header byte.
    simp only [List.nil_append, List.cons_append, List.cons.injEq] at same
    exact absurd same.2.1 (by decide)
  | cons first before =>
    simp only [List.length_cons, List.length_nil]
    omega

/-- One byte of noise outside every frame is enough for the next frame to get lost. -/
theorem resynchronises_fails : ¬ Resynchronises := by
  intro resynchronises
  have waiting : (receiverInit (.replicate 50 0)).Waiting := ⟨rfl, rfl⟩
  have headerless := headerless_singleton protoHeader1 validFrame_plainFrame
  have delivered := resynchronises _ _ _ _ waiting validFrame_plainFrame headerless
  exact not_delivers_of_odd waiting validFrame_plainFrame headerless rfl delivered

/-- Noise that is no header byte leaves the plain frame alone. -/
theorem delivers_iff_even_zero :
    Delivers quietRadio (receiverInit (.replicate 50 0)) ([0] ++ plainFrame) plainFrame ↔
      trailingHeaders [0] % 2 = 0 :=
  delivers_iff_even quietRadio (receiverInit (.replicate 50 0)) [0] plainFrame ⟨rfl, rfl⟩
    validFrame_plainFrame (headerless_singleton 0 validFrame_plainFrame)

end PkeFire
