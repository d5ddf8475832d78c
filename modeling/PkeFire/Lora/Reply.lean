import Mathlib.Data.List.Forall2
import PkeFire.Lora.Delivery
import PkeFire.Lora.DeviceTable
import PkeFire.Lora.Recogniser

/-! Every report of this building's detectors is answered once, and no answer is answered again. -/

namespace PkeFire

/-- A detector that has a slot in the table, or for which there is one left. -/
def Registrable (sta : LoraState) (floor room : UInt8) : Prop :=
  ¬ (floor = 0 ∧ room = 0) ∧ ((∃ i, sta.Assigned i floor room) ∨ sta.smokeNum.toNat < 20)

/-- Whether a slot is in use for a detector is decided by its numbers. -/
instance (sta : LoraState) (i : Fin 20) (floor room : UInt8) : Decidable (sta.Assigned i floor room) :=
  instDecidableAnd

/-- Whether a detector can have a slot is decided by the table. -/
instance (sta : LoraState) (floor room : UInt8) : Decidable (Registrable sta floor room) :=
  instDecidableAnd

/-- A report of this building, from a detector that can have a slot. -/
def Answerable (env : LoraEnv) (sta : LoraState) (frame : List UInt8) : Prop :=
  (protocolOf frame).cmd = cmdReport ∧ (protocolOf frame).buildingId = env.frameId ∧
    Registrable sta (protocolOf frame).floor (protocolOf frame).room

/-- Whether a report is to be answered is decided by its fields. -/
instance (env : LoraEnv) (sta : LoraState) (frame : List UInt8) : Decidable (Answerable env sta frame) :=
  instDecidableAnd

/-- A report that is to be answered, with the settings at its end. -/
structure Request where
  env : LoraEnv
  alarmSet : UInt8
  frame : List UInt8

/-- The report that the receiver has to answer when it takes a reading. -/
def Receiver.request (r : Receiver) (reading : Reading) : Option Request :=
  (r.accepted reading.env reading.ch).bind fun frame =>
    if Answerable reading.env r.sta frame then some ⟨reading.env, r.sta.alarmSet, frame⟩ else none

/-- Two bytes as a number, the high one first. -/
def bigEndian (high low : UInt8) : Nat :=
  256 * high.toNat + low.toNat

/-- A receiver that accepts this frame sends nothing on account of it. -/
def Unanswered (frame : List UInt8) : Prop :=
  ∀ env r ch next, Receiver.accepted env r ch = some frame → receive env r ch = some next → next.sent = r.sent

/-- What the detector is told about its report. -/
structure Request.AnsweredBy (request : Request) (reply : List UInt8) : Prop where
  floor : (protocolOf reply).floor = (protocolOf request.frame).floor
  room : (protocolOf reply).room = (protocolOf request.frame).room
  msgId : (protocolOf reply).msgId = (protocolOf request.frame).msgId
  dir : (protocolOf reply).dir = dirToSmoke
  buildingId : (protocolOf reply).buildingId = request.env.buildingId.toList.take 15
  cmd : (protocolOf reply).cmd = 0x82
  len : (protocolOf reply).len = 6
  /-- The thresholds come first, then how often to report, and whether there is an alarm. -/
  payload : ∃ smokeHigh smokeLow tempHigh tempLow, (protocolOf reply).data =
      [smokeHigh, smokeLow, tempHigh, tempLow, request.env.pollTime, request.alarmSet] ∧
    bigEndian smokeHigh smokeLow = request.env.smokeThreshold.toNat ∧
    bigEndian tempHigh tempLow = request.env.tempThreshold.toNat
  /-- The answer is itself accepted at its last byte, by whoever waits for a frame. -/
  accepted : ∀ env r, env.crc8Cal = request.env.crc8Cal → Receiver.Waiting r →
    ∃ next, Reception env r reply (List.replicate 29 none ++ [some reply]) next
  unanswered : Unanswered reply

/-- A frame that some controller has transmitted, whatever it has received under whatever configuration. -/
def Transmitted (crc8 : List UInt8 → UInt8) (frame : List UInt8) : Prop :=
  ∃ stack readings r, (∀ reading ∈ readings, reading.env.crc8Cal = crc8) ∧
    run receiveReading (receiverInit stack) readings = some r ∧ frame ∈ r.sent

/-- The message by which a request is answered. -/
def Request.answer (request : Request) : Message where
  floor := (protocolOf request.frame).floor
  room := (protocolOf request.frame).room
  cmd := cmdReport ||| 0x80
  data := Receiver.answerData request.env { loraStateInit with alarmSet := request.alarmSet }

/-- The frame by which a request is answered. -/
def Request.reply (request : Request) : List UInt8 :=
  request.answer.frame request.env { loraStateInit with msgid := (protocolOf request.frame).msgId }

section

variable {env : LoraEnv} {r next : Receiver} {ch : UInt8} {frame : List UInt8}

/-- The two bytes of a number make up the number. -/
theorem bigEndian_bytes (value : UInt16) : bigEndian (value >>> 8).toUInt8 value.toUInt8 = value.toNat := by
  have bounded := value.toNat_lt
  have shifted : (value >>> 8).toNat = value.toNat / 256 := by
    rw [UInt16.toNat_shiftRight, Nat.shiftRight_eq_div_pow]
    rfl
  rw [bigEndian, UInt16.toNat_toUInt8, UInt16.toNat_toUInt8, shifted]
  omega

/-- The fields of a frame are the cells of the buffer that holds it. -/
theorem protocolOf_held (env : LoraEnv) (holds : r.Holds frame) (long : 23 ≤ frame.length) :
    (protocolOf frame).floor = load r.recvBuf 2 ∧ (protocolOf frame).room = load r.recvBuf 3 ∧
      (protocolOf frame).msgId = load r.recvBuf 4 ∧ (protocolOf frame).cmd = load r.recvBuf 21 ∧
      ((protocolOf frame).buildingId = env.frameId ↔ r.ForThisBuilding env) := by
  have cell (i : Fin 50) (within : i.val < 23) := holds.cell (i := i) (Nat.lt_of_lt_of_le within long)
  refine ⟨(cell 2 (by decide)).symm, (cell 3 (by decide)).symm, (cell 4 (by decide)).symm,
    (cell 21 (by decide)).symm, ?_⟩
  -- The building number lies in the first 21 bytes of both.
  have head : r.bytes 21 = frame.take 21 := by
    rw [← holds.2, Receiver.bytes, Receiver.bytes, List.take_take, Nat.min_eq_left (by omega)]
  rw [Receiver.ForThisBuilding, head, List.drop_take]
  exact Iff.rfl

/-- A search finds a slot exactly for the detectors that can have one. -/
theorem LoraState.Faithful.isSome_search {sta : LoraState} (faithful : sta.Faithful) (floor room : UInt8) :
    (loraSearchSmoke floor room sta).1.isSome ↔ Registrable sta floor room := by
  have null := faithful.null floor room
  have bounded := faithful.bounded
  rw [← Option.ne_none_iff_isSome, ne_eq, null, Registrable, not_or]
  refine and_congr_right fun _ => ?_
  -- A detector without a slot needs the table not to be full.
  constructor
  · intro other
    by_cases known : ∃ i, sta.Assigned i floor room
    · exact Or.inl known
    · have free : sta.smokeNum.toNat ≠ 20 := fun full => other ⟨not_exists.mp known, full⟩
      exact Or.inr (by omega)
  · rintro (⟨i, assigned⟩ | free) ⟨new, full⟩
    · exact new i assigned
    · omega

/-- A search leaves the other settings alone. -/
theorem alarmSet_search (floor room : UInt8) (sta : LoraState) :
    (loraSearchSmoke floor room sta).2.alarmSet = sta.alarmSet := by
  by_cases none : floor = 0 ∧ room = 0
  · rw [loraSearchSmoke_unaddressed none]
  · obtain ⟨_, i, search⟩ | ⟨_, _, i, dev, search⟩ | ⟨_, _, search⟩ := loraSearchSmoke_cases sta none <;>
      rw [search]

/-- A frame that is no report is not answered. -/
theorem sent_dispatch_other (other : load r.recvBuf 21 ≠ cmdReport) : (r.dispatch env).sent = r.sent := by
  rw [Receiver.dispatch]
  split
  · -- Not even a frame that sets something is answered.
    cases search : loraSearchSmoke (load r.recvBuf 2) (load r.recvBuf 3) r.sta with
    | mk slot sta =>
      cases slot with
      | none => rfl
      | some i =>
        simp only
        split <;> rfl
  · rfl

/-- A frame that is dispatched is answered exactly if it is a report of this building that finds a slot. -/
theorem sent_dispatch (env : LoraEnv) (faithful : r.sta.Faithful) (holds : r.Holds frame) (long : 23 ≤ frame.length) :
    (r.dispatch env).sent = r.sent ++
      if Answerable env r.sta frame then [Request.reply ⟨env, r.sta.alarmSet, frame⟩] else [] := by
  obtain ⟨floor, room, msgId, cmd, building⟩ := protocolOf_held env holds long
  -- Whether the frame is answerable is read off the buffer.
  have found := faithful.isSome_search (load r.recvBuf 2) (load r.recvBuf 3)
  have alarm := alarmSet_search (load r.recvBuf 2) (load r.recvBuf 3) r.sta
  have answerable : Answerable env r.sta frame ↔ load r.recvBuf 21 = cmdReport ∧ r.ForThisBuilding env ∧
      (loraSearchSmoke (load r.recvBuf 2) (load r.recvBuf 3) r.sta).1.isSome := by
    rw [Answerable, building, cmd, floor, room, found]
  by_cases report : load r.recvBuf 21 = cmdReport
  · by_cases here : r.ForThisBuilding env
    · cases search : loraSearchSmoke (load r.recvBuf 2) (load r.recvBuf 3) r.sta with
      | mk slot sta =>
        rw [search] at alarm answerable
        have same : (r.bytes 21).drop 6 = env.frameId := here
        simp only [Receiver.dispatch, if_pos same, search]
        cases slot with
        | none =>
          -- Without a slot, there is no answer.
          have refused : ¬ Answerable env r.sta frame := fun all => absurd (answerable.mp all).2.2 (by simp)
          rw [if_neg refused, List.append_nil]
        | some i =>
          -- The answer is made from the frame, the settings, and the number that has just been stored.
          rw [if_pos (answerable.mpr ⟨report, here, rfl⟩)]
          simp only [report, true_or, if_true, Request.reply, Request.answer, Message.frame, Receiver.answerData,
            loraSend, msgId, floor, room, ← alarm]
    -- A frame for another building is not dispatched.
    · rw [dispatch_foreign here, if_neg fun all => here (answerable.mp all).2.1, List.append_nil]
  · rw [sent_dispatch_other report, if_neg fun all => report (answerable.mp all).1, List.append_nil]

/-- The verdict on a checksum depends on the bytes before it. -/
theorem accepted_checksum (env : LoraEnv) {content : List UInt8} (holds : r.Holds content) (state : r.recvStep = .crc)
    (pushed : r.push ch = some next) :
    next.Holds (content ++ [ch]) ∧
      r.accepted env ch = if ch = env.crc8Cal content then some (content ++ [ch]) else none := by
  obtain ⟨full, again, held⟩ := holds.push (by rw [← holds.1]; exact (push_eq_some pushed).1) ch
  cases Option.some.inj (again.symm.trans pushed)
  refine ⟨held, ?_⟩
  rw [Receiver.accepted, if_pos state, pushed, Option.bind_some, (push_eq_some pushed).2.1, Nat.add_sub_cancel,
    bytes_push pushed (Nat.le_refl _), holds.1, holds.2]
  have whole := held.2
  rw [List.length_append, List.length_singleton] at whole
  rw [whole]

/-- Taking a byte sends the answer to the report that it completes, and nothing else. -/
theorem sent_receive {received : List UInt8} (assembling : Assembling received r) (faithful : r.sta.Faithful)
    (taken : receive env r ch = some next) :
    next.sent = r.sent ++ ((r.request ⟨env, ch⟩).map Request.reply).toList := by
  obtain ⟨content, holds, assembles, _⟩ := assembling
  by_cases state : r.recvStep = .crc
  · obtain ⟨full, pushed, rfl⟩ := receive_checksum_eq state taken
    obtain ⟨held, verdict⟩ := accepted_checksum env holds state pushed
    have long : 23 ≤ (content ++ [ch]).length := by
      simp only [Receiver.Assembles, state] at assembles
      obtain ⟨fields, data, filled, _, _, rfl⟩ := assembles
      simp only [List.length_append, List.length_cons, List.length_nil]
      omega
    rw [Receiver.request, verdict, holds.1, holds.2]
    split
    · -- The checksum is right, so the frame is dispatched.
      rw [← sta_push pushed] at faithful ⊢
      have sent := sent_dispatch env faithful held long
      rw [sent_push pushed] at sent
      rw [Option.bind_some, Receiver.restart, sent]
      split <;> rfl
    · rw [Option.bind_none, Receiver.restart, sent_push pushed]
      exact (List.append_nil _).symm
  · rw [(receive_other state taken).2, Receiver.request, Receiver.accepted, if_neg state]
    exact (List.append_nil _).symm

/-- Along every run, the frames sent are the answers to the requests received. -/
theorem sent_run {stack : Vector UInt8 50} {readings : List Reading}
    (ran : run receiveReading (receiverInit stack) readings = some r) :
    r.sent = (observations receiveReading Receiver.request (receiverInit stack) readings).map Request.reply := by
  -- The invariant says where the receiver stands, that its table is a registry, and what it has sent.
  let invariant (r : Receiver) (seen : List Request) : Prop := (∃ received, Assembling received r) ∧
    (∃ registry, Represents r.sta registry) ∧ r.sent = seen.map Request.reply
  have initially : invariant (receiverInit stack) [] :=
    ⟨⟨[], assembling_waiting ⟨rfl, rfl⟩ _⟩, ⟨_, DeviceTable.tracks_init.1⟩, rfl⟩
  have every : EveryStep receiveReading (fun _ _ => True) (receiverInit stack) readings :=
    everyStep_of_forall (fun _ _ => trivial) _ readings
  have held := observed_invariant Receiver.request invariant ?_ initially every ran
  · exact held.2.2
  · rintro r reading next seen ⟨⟨received, assembling⟩, ⟨registry, represents⟩, sent⟩ _ taken
    obtain ⟨later, again, _⟩ := represents.receive taken
    refine ⟨⟨_, assembling.step taken⟩, ⟨later, again⟩, ?_⟩
    rw [sent_receive assembling represents.faithful taken, sent, List.map_append]
    cases r.request reading <;> rfl

/-- A byte that completes no frame leaves the table alone, and nothing is sent. -/
theorem receive_none (taken : receive env r ch = some next) (none : r.accepted env ch = .none) :
    next.sta = r.sta ∧ next.sent = r.sent := by
  by_cases state : r.recvStep = .crc
  · obtain ⟨full, pushed, rfl⟩ := receive_checksum_eq state taken
    have wrong : ¬ ch = env.crc8Cal (r.bytes r.recvLen) := by
      intro right
      rw [Receiver.accepted, if_pos state, pushed, Option.bind_some, (push_eq_some pushed).2.1, Nat.add_sub_cancel,
        bytes_push pushed (Nat.le_refl _), if_pos right] at none
      cases none
    have kept : full.sta = r.sta ∧ full.sent = r.sent := ⟨sta_push pushed, sent_push pushed⟩
    rw [if_neg wrong]
    exact kept
  · exact receive_other state taken

/-- A byte that completes a frame has it dispatched from the buffer, which holds it. -/
theorem receive_accepted (verdict : r.accepted env ch = some frame) (taken : receive env r ch = some next) :
    ∃ full, r.push ch = some full ∧ full.Holds frame ∧ next = (full.dispatch env).restart := by
  have state : r.recvStep = .crc := by
    by_contra elsewhere
    rw [Receiver.accepted, if_neg elsewhere] at verdict
    cases verdict
  obtain ⟨full, pushed, rfl⟩ := receive_checksum_eq state taken
  rw [Receiver.accepted, if_pos state, pushed, Option.bind_some, (push_eq_some pushed).2.1, Nat.add_sub_cancel,
    bytes_push pushed (Nat.le_refl _), ← (push_eq_some pushed).2.1] at verdict
  split at verdict
  · rename_i right
    have bounded : full.recvLen ≤ 50 := (push_eq_some pushed).2.1 ▸ (push_eq_some pushed).1
    have length : frame.length = full.recvLen := by
      rw [← Option.some.inj verdict, Receiver.bytes, List.length_take, Vector.length_toList, Nat.min_eq_left bounded]
    exact ⟨full, pushed, ⟨length.symm, by rw [length]; exact Option.some.inj verdict⟩, by rw [if_pos right]⟩
  · -- With a wrong checksum, nothing is completed.
    cases verdict

/-- A frame that is no report is never answered. -/
theorem unanswered_of_cmd (long : 23 ≤ frame.length) (other : (protocolOf frame).cmd ≠ cmdReport) :
    Unanswered frame := by
  intro env r ch next verdict taken
  obtain ⟨full, pushed, held, rfl⟩ := receive_accepted verdict taken
  rw [(protocolOf_held env held long).2.2.2.1] at other
  -- Only a report is answered when it is dispatched.
  rw [Receiver.restart, sent_dispatch_other other, sent_push pushed]

/-- An answer carries six bytes of data. -/
theorem length_answer (request : Request) : request.answer.data.length = 6 := rfl

/-- An answer is put together from fields and data in the same way by everyone who has the same checksum. -/
theorem reply_eq_frameBytes (request : Request) (same : env.crc8Cal = request.env.crc8Cal) :
    ∃ fields, fields.length = 20 ∧ request.reply = frameBytes env fields request.answer.data := by
  have full := length_fields request.env { loraStateInit with msgid := (protocolOf request.frame).msgId }
    request.answer
  refine ⟨_, full, ?_⟩
  -- Of the configuration, only the checksum is left.
  rw [Request.reply, frame_eq_frameBytes, frameBytes, frameBytes, same]

/-- An answer is thirty bytes long. -/
theorem length_reply (request : Request) : request.reply.length = 30 := by
  obtain ⟨fields, full, same⟩ := reply_eq_frameBytes request rfl
  rw [same, frameBytes]
  simp only [List.length_append, List.length_cons, List.length_nil, full, length_answer]

/-- The fields of an answer. -/
theorem protocolOf_reply (request : Request) : protocolOf request.reply =
    { header1 := protoHeader1, header2 := protoHeader2, floor := (protocolOf request.frame).floor
      room := (protocolOf request.frame).room, msgId := (protocolOf request.frame).msgId, dir := dirToSmoke
      buildingId := request.env.buildingId.toList.take 15, cmd := cmdReport ||| 0x80, len := 6
      data := request.answer.data } :=
  protocolOf_frame _ (by rw [length_answer]; omega)

/-- Whoever waits for a frame accepts an answer at its last byte, and waits for another one. -/
theorem receive_reply (request : Request) (same : env.crc8Cal = request.env.crc8Cal) (waiting : r.Waiting) :
    ∃ next, Reception env r request.reply (List.replicate 29 none ++ [some request.reply]) next ∧ next.Waiting := by
  obtain ⟨fields, full, built⟩ := reply_eq_frameBytes request same
  have fits : request.answer.data.length ≤ 26 := by rw [length_answer]; omega
  obtain ⟨next, reception, again⟩ := receive_frame env waiting full fits
  rw [← built, length_answer] at reception
  exact ⟨next, reception, again⟩

/-- The answer to a request says what it should. -/
theorem answeredBy_reply (request : Request) : request.AnsweredBy request.reply := by
  have proto := protocolOf_reply request
  have long : 23 ≤ request.reply.length := by rw [length_reply]; omega
  refine
    { floor := by rw [proto]
      room := by rw [proto]
      msgId := by rw [proto]
      dir := congrArg Protocol.dir proto
      buildingId := congrArg Protocol.buildingId proto
      cmd := congrArg Protocol.cmd proto
      len := congrArg Protocol.len proto
      payload := ⟨_, _, _, _, congrArg Protocol.data proto, bigEndian_bytes _, bigEndian_bytes _⟩
      accepted := fun env r same waiting => ?_
      unanswered := unanswered_of_cmd long ?_ }
  · obtain ⟨next, reception, _⟩ := receive_reply request same waiting
    exact ⟨next, reception⟩
  · -- The command of an answer is not the one of a report.
    rw [proto]
    exact (by decide : cmdReport ||| 0x80 ≠ cmdReport)

/-- Bytes that complete only frames that are not answered send nothing. -/
theorem Reception.silent {bytes : List UInt8} {verdicts : List (Option (List UInt8))}
    (reception : Reception env r bytes verdicts next)
    (harmless : ∀ frame, some frame ∈ verdicts → Unanswered frame) : next.sent = r.sent := by
  -- The induction is on the bytes, each of which has its own verdict.
  induction bytes generalizing r verdicts with
  | nil => rw [← Option.some.inj reception.1]
  | cons ch bytes ih =>
    obtain ⟨middle, rest, taken, rfl, later⟩ := Trace.uncons reception
    rw [ih later fun frame among => harmless frame (List.mem_append_right _ among)]
    cases verdict : r.accepted env ch with
    | none => exact (receive_none taken verdict).2
    | some frame =>
      exact harmless frame (by rw [verdict]; exact List.mem_append_left _ List.mem_cons_self) _ _ _ _ verdict taken

/-- Every frame that is transmitted answers some request. -/
theorem Transmitted.request {crc8 : List UInt8 → UInt8} (transmitted : Transmitted crc8 frame) :
    ∃ request : Request, request.env.crc8Cal = crc8 ∧ frame = request.reply := by
  obtain ⟨stack, readings, r, common, ran, among⟩ := transmitted
  rw [sent_run ran, List.mem_map] at among
  obtain ⟨request, observed, rfl⟩ := among
  obtain ⟨reading, member, before, made⟩ := mem_observations observed
  refine ⟨request, ?_, rfl⟩
  -- The request has been made under the configuration of its last byte.
  obtain ⟨frame, _, answered⟩ := Option.bind_eq_some_iff.mp made
  split at answered
  · rw [← Option.some.inj answered]
    exact common reading member
  · cases answered

/-- However many controllers transmit, a controller that hears all of it transmits nothing in turn. -/
theorem silent_of_transmitted {frames : List (List UInt8)} (waiting : r.Waiting)
    (transmitted : ∀ frame ∈ frames, Transmitted env.crc8Cal frame) :
    ∃ next, run (receive env) r frames.flatten = some next ∧ next.Waiting ∧ next.sent = r.sent := by
  have each : ∀ frame ∈ frames, ∀ state, Receiver.Waiting state → ∃ next,
      Reception env state frame (List.replicate 29 none ++ [some frame]) next ∧ next.Waiting := by
    intro frame among state waiting
    obtain ⟨request, same, rfl⟩ := (transmitted frame among).request
    exact receive_reply request same.symm waiting
  obtain ⟨next, reception, again⟩ := Trace.blocks Receiver.Waiting each waiting
  rw [List.flatMap_id'] at reception
  refine ⟨next, reception.1, again, Reception.silent reception ?_⟩
  intro heard among
  rw [List.mem_flatMap] at among
  obtain ⟨frame, member, among⟩ := among
  -- Only the frames themselves have been accepted.
  simp only [List.mem_append, List.mem_replicate, reduceCtorEq, and_false, List.mem_singleton, Option.some.injEq,
    false_or] at among
  obtain ⟨request, _, rfl⟩ := (transmitted frame member).request
  exact among ▸ (answeredBy_reply request).unanswered

/-- The requests of a run are answered in turn, once each, and no controller answers what others have sent. -/
theorem requests_answered (stack : Vector UInt8 50) (readings : List Reading) (r : Receiver)
    (ran : run receiveReading (receiverInit stack) readings = some r) :
    List.Forall₂ Request.AnsweredBy
      (observations receiveReading Receiver.request (receiverInit stack) readings) r.sent ∧
    ∀ env other (frames : List (List UInt8)),
      (∀ frame ∈ frames, Transmitted env.crc8Cal frame) → Receiver.Waiting other →
      ∃ next, run (receive env) other frames.flatten = some next ∧ next.Waiting ∧ next.sent = other.sent := by
  refine ⟨?_, fun env other frames transmitted waiting => silent_of_transmitted waiting transmitted⟩
  rw [sent_run ran, List.forall₂_map_right_iff, List.forall₂_same]
  exact fun request _ => answeredBy_reply request

end

/-- The readings of a report from the first floor, by a radio that is not configured. -/
def reportReadings : List Reading :=
  (frameBytes quietRadio ([1, 2, 9, 0] ++ List.replicate 15 0 ++ [cmdReport])
    (List.replicate 7 0)).map (Reading.mk quietRadio)

/-- The report from the first floor is answered. -/
theorem requests_answered_report : ∃ r,
    run receiveReading (receiverInit (.replicate 50 0)) reportReadings = some r ∧ r.sent.length = 1 ∧
      List.Forall₂ Request.AnsweredBy
        (observations receiveReading Receiver.request (receiverInit (.replicate 50 0)) reportReadings) r.sent := by
  have sent : ((run receiveReading (receiverInit (.replicate 50 0)) reportReadings).map fun r =>
      r.sent.length) = some 1 := by decide +kernel
  obtain ⟨r, ran, one⟩ := Option.map_eq_some_iff.mp sent
  exact ⟨r, ran, one, (requests_answered _ reportReadings r ran).1⟩

end PkeFire
