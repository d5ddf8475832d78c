import PkeFire.Lora.Genuine

/-! What the buffer of the receiver holds of the stream, and what the accepted frames look like in it. -/

namespace PkeFire

/-- A received byte, together with the configuration at that moment. -/
structure Reading where
  env : LoraEnv
  ch : UInt8

/-- The receiver takes one reading. -/
def receiveReading (r : Receiver) (reading : Reading) : Option Receiver :=
  receive reading.env r reading.ch

/-- The bytes of some readings. -/
def streamOf (readings : List Reading) : List UInt8 :=
  readings.map (·.ch)

/-- A header, fields, a length below 30, as many bytes of data, and the checksum of all of these. -/
def WholeFrame (crc8 : List UInt8 → UInt8) (frame : List UInt8) : Prop :=
  ∃ fields data len, fields.length = 20 ∧ len < 30 ∧ data.length = UInt8.toNat len ∧
    frame = [protoHeader1] ++ [protoHeader2] ++ fields ++ [len] ++ data ++
      [crc8 ([protoHeader1] ++ [protoHeader2] ++ fields ++ [len] ++ data)]

/-- How many bytes the buffer holds in each step. -/
def Receiver.Measured (r : Receiver) : Prop :=
  match r.recvStep with
  | .header1 => r.recvLen = 0
  | .header2 => r.recvLen = 1
  | .fields => 2 ≤ r.recvLen ∧ r.recvLen ≤ 21
  | .length => r.recvLen = 22
  -- The declared length is both the one in the buffer and the one that is counted up to.
  | .data => r.recvLen = 23 + r.dataCnt.toNat ∧ r.dataCnt < r.dataLen ∧ r.declared = r.dataLen.toNat
  | .crc => r.recvLen = 23 + r.declared ∧ r.declared = r.dataLen.toNat

/-- What the receiver makes of the bytes it has received. -/
structure Recognises (received : List UInt8) (r : Receiver) : Prop where
  /-- The buffer holds as many bytes as are counted. -/
  held : (r.bytes r.recvLen).length = r.recvLen
  /-- These are the last bytes that have been received. -/
  latest : r.bytes r.recvLen <:+ received
  /-- Their number is known from the step. -/
  measured : r.Measured
  /-- A checksum that is found right closes a whole frame, which is what has been received last. -/
  sound : ∀ env ch frame, r.accepted env ch = some frame →
    WholeFrame env.crc8Cal frame ∧ frame <:+ received ++ [ch]

/-- The bytes in the buffer are the beginning of a frame, up to the current step. -/
def Receiver.Assembles (content : List UInt8) (r : Receiver) : Prop :=
  match r.recvStep with
  | .header1 => content = []
  | .header2 => content = [protoHeader1]
  | .fields => ∃ fields, fields.length < 20 ∧ content = [protoHeader1] ++ [protoHeader2] ++ fields
  | .length => ∃ fields, fields.length = 20 ∧ content = [protoHeader1] ++ [protoHeader2] ++ fields
  | .data => ∃ fields data, fields.length = 20 ∧ r.dataLen < 30 ∧ data.length = r.dataCnt.toNat ∧
      r.dataCnt < r.dataLen ∧ content = [protoHeader1] ++ [protoHeader2] ++ fields ++ [r.dataLen] ++ data
  | .crc => ∃ fields data, fields.length = 20 ∧ r.dataLen < 30 ∧ data.length = r.dataLen.toNat ∧
      content = [protoHeader1] ++ [protoHeader2] ++ fields ++ [r.dataLen] ++ data

section

variable {env : LoraEnv} {r next : Receiver} {ch : UInt8} {content received : List UInt8}

/-- A byte that goes on with a frame takes it to its next step. -/
theorem Receiver.Assembles.continue (assembles : r.Assembles content) (holds : r.Holds content)
    (continues : r.Continues ch) (taken : receive env r ch = some next) : next.Assembles (content ++ [ch]) := by
  have moved := receive_advances taken
  cases state : r.recvStep with
  | header1 =>
    -- Only the first header byte goes on with a frame.
    simp only [Assembles, Continues, Advances, state] at assembles continues moved
    rw [if_pos continues.1] at moved
    simp only [Assembles, moved.1]
    rw [assembles, continues.1, List.nil_append]
  | header2 =>
    simp only [Assembles, Continues, Advances, state] at assembles continues moved
    rw [if_pos continues] at moved
    simp only [Assembles, moved.1]
    exact ⟨[], by decide, by rw [assembles, continues, List.append_nil]⟩
  | fields =>
    -- The header is complete, and the fields are counted by the length of the buffer.
    simp only [Assembles, Advances, state] at assembles moved
    obtain ⟨fields, partly, rfl⟩ := assembles
    have len := holds.1
    simp only [List.length_append, List.length_cons, List.length_nil] at len
    have extended : (fields ++ [ch]).length = fields.length + 1 := List.length_append
    obtain ⟨_, step⟩ := moved
    split at step
    · rename_i complete
      simp only [offsetofLen] at complete
      simp only [Assembles, step]
      exact ⟨fields ++ [ch], by omega, List.append_assoc _ _ _⟩
    · rename_i incomplete
      simp only [offsetofLen] at incomplete
      simp only [Assembles, step]
      exact ⟨fields ++ [ch], by omega, List.append_assoc _ _ _⟩
  | length =>
    -- An admitted length is followed by that many data, or by the checksum when there are none.
    simp only [Assembles, Continues, Advances, state] at assembles continues moved
    obtain ⟨fields, full, rfl⟩ := assembles
    rw [if_pos continues] at moved
    obtain ⟨_, declared, step⟩ := moved
    split at step
    · rename_i empty
      simp only [Assembles, step, declared]
      exact ⟨fields, [], full, continues, by rw [empty]; rfl, (List.append_nil _).symm⟩
    · rename_i positive
      -- A nonzero length leaves data to be counted.
      have nonzero : (0 : UInt8) < ch := UInt8.pos_iff_ne_zero.mpr positive
      simp only [Assembles, step.1, step.2, declared]
      exact ⟨fields, [], full, continues, rfl, nonzero, (List.append_nil _).symm⟩
  | data =>
    simp only [Assembles, Advances, state] at assembles moved
    obtain ⟨fields, data, full, admitted, count, partly, rfl⟩ := assembles
    obtain ⟨_, declared, counted, step⟩ := moved
    have small : r.dataLen.toNat < 30 := UInt8.lt_iff_toNat_lt.mp admitted
    have below : r.dataCnt.toNat < r.dataLen.toNat := UInt8.lt_iff_toNat_lt.mp partly
    have extended : (data ++ [ch]).length = data.length + 1 := List.length_append
    -- The counter is far from its limit, so it counts the bytes since the length.
    have number : (r.dataCnt + 1).toNat = data.length + 1 := toNat_succ count.symm (by omega)
    split at step
    · rename_i complete
      have whole : data.length + 1 = r.dataLen.toNat := by rw [← number, complete]
      simp only [Assembles, step, declared]
      exact ⟨fields, data ++ [ch], full, admitted, by omega, List.append_assoc _ _ _⟩
    · rename_i incomplete
      have unequal : (r.dataCnt + 1).toNat ≠ r.dataLen.toNat := fun equal => incomplete (UInt8.toNat_inj.mp equal)
      simp only [Assembles, step, declared, counted]
      exact ⟨fields, data ++ [ch], full, admitted, by omega, UInt8.lt_iff_toNat_lt.mpr (by omega),
        List.append_assoc _ _ _⟩
  | crc => simp only [Continues, state] at continues

/-- A byte that does not go on with a frame leaves the receiver waiting for another one. -/
theorem Receiver.Assembles.break (assembles : r.Assembles content) (holds : r.Holds content)
    (breaks : ¬ r.Continues ch) (taken : receive env r ch = some next) : next.Waiting := by
  have moved := receive_advances taken
  cases state : r.recvStep with
  | header1 =>
    simp only [Assembles, Continues, Advances, state] at assembles breaks moved
    have empty : r.recvLen = 0 := holds.1.trans (by rw [assembles]; rfl)
    rw [if_neg fun header => breaks ⟨header, empty⟩] at moved
    exact moved ▸ ⟨state, empty⟩
  | header2 =>
    simp only [Continues, Advances, state] at breaks moved
    rwa [if_neg breaks] at moved
  | length =>
    simp only [Continues, Advances, state] at breaks moved
    rwa [if_neg breaks] at moved
  | fields | data =>
    simp only [Continues, state, not_true] at breaks
  | crc =>
    -- Right or wrong, a checksum ends its frame.
    simp only [Advances, state] at moved
    exact moved

/-- The buffer holds the beginning of a frame, which is what has been received last. -/
def Assembling (received : List UInt8) (r : Receiver) : Prop :=
  ∃ content, r.Holds content ∧ r.Assembles content ∧ content <:+ received

/-- A receiver that waits for a frame has assembled nothing of it yet. -/
theorem assembling_waiting (waiting : r.Waiting) (received : List UInt8) : Assembling received r := by
  refine ⟨[], ⟨waiting.2, rfl⟩, ?_, List.nil_suffix⟩
  simp only [Receiver.Assembles, waiting.1]

/-- Every byte either goes on with the frame or starts over. -/
theorem Assembling.step (assembling : Assembling received r) (taken : receive env r ch = some next) :
    Assembling (received ++ [ch]) next := by
  obtain ⟨content, holds, assembles, latest⟩ := assembling
  by_cases continues : r.Continues ch
  · -- A byte that was written has found room in the buffer.
    have room : content.length < 50 := by
      by_contra full
      rw [not_lt, ← holds.1] at full
      unfold Receiver.Continues at continues
      cases state : r.recvStep with
      | header1 =>
        simp only [state] at continues
        omega
      | header2 | fields | length | data =>
        simp only [state] at continues
        simp only [receive, state, push_eq_none.mpr full, Option.map_none] at taken
        grind
      | crc => simp only [state] at continues
    obtain ⟨middle, again, held⟩ := holds.receive env room continues
    cases Option.some.inj (again.symm.trans taken)
    obtain ⟨before, rfl⟩ := latest
    exact ⟨content ++ [ch], held, assembles.continue holds continues taken, before, (List.append_assoc _ _ _).symm⟩
  · exact assembling_waiting (assembles.break holds continues taken) _

/-- What the buffer holds can be read off its cells. -/
theorem Receiver.Holds.cell (holds : r.Holds content) {i : Fin 50} (within : i.val < content.length) :
    load r.recvBuf i = content.getD i.val 0 := by
  have bytes := holds.2
  rw [Receiver.bytes] at bytes
  rw [load_eq_getD r.recvBuf i 0, ← bytes, List.getD_eq_getElem?_getD, List.getD_eq_getElem?_getD,
    List.getElem?_take_of_lt within]

/-- The length byte lies behind the header and the fields. -/
theorem Receiver.Holds.declared {fields data : List UInt8} {len : UInt8} (full : fields.length = 20)
    (holds : r.Holds ([protoHeader1] ++ [protoHeader2] ++ fields ++ [len] ++ data)) : r.declared = len.toNat := by
  have place : ([protoHeader1] ++ [protoHeader2] ++ fields).length = 22 := by
    simp only [List.length_append, List.length_cons, List.length_nil, full]
  have within : 22 < ([protoHeader1] ++ [protoHeader2] ++ fields ++ [len] ++ data).length := by
    rw [List.length_append, List.length_append, place]
    exact Nat.lt_of_lt_of_le (Nat.lt_succ_self 22) (Nat.le_add_right _ _)
  have stored : load r.recvBuf 22 = ([protoHeader1] ++ [protoHeader2] ++ fields ++ [len] ++ data).getD 22 0 :=
    holds.cell (i := 22) within
  rw [Receiver.declared, stored, List.append_assoc, List.getD_eq_getElem?_getD,
    List.getElem?_append_right (Nat.le_of_eq place), place]
  rfl

/-- The bytes in the buffer are as many as its step admits. -/
theorem Receiver.Assembles.measured (assembles : r.Assembles content) (holds : r.Holds content) : r.Measured := by
  have counted := holds.1
  unfold Receiver.Assembles at assembles
  unfold Receiver.Measured
  cases state : r.recvStep with
  | header1 | header2 =>
    -- Outside a frame, the buffer is empty, and after its first byte it holds that byte.
    simp only [state] at assembles ⊢
    rw [counted, assembles]
    rfl
  | fields | length =>
    -- Up to the length, the buffer holds the header and some of the fields.
    simp only [state] at assembles ⊢
    obtain ⟨fields, full, rfl⟩ := assembles
    simp only [List.length_append, List.length_cons, List.length_nil] at counted
    omega
  | data =>
    -- Behind the length stand as many bytes as are counted.
    simp only [state] at assembles ⊢
    obtain ⟨fields, data, full, admitted, count, partly, rfl⟩ := assembles
    have declared := holds.declared full
    simp only [List.length_append, List.length_cons, List.length_nil] at counted
    exact ⟨by omega, partly, declared⟩
  | crc =>
    -- All the data have come, as many as the length has declared.
    simp only [state] at assembles ⊢
    obtain ⟨fields, data, full, admitted, whole, rfl⟩ := assembles
    have declared := holds.declared full
    simp only [List.length_append, List.length_cons, List.length_nil] at counted
    exact ⟨by omega, declared⟩

/-- A checksum that is found right is the one of the bytes before it. -/
theorem Receiver.Holds.accepted {frame : List UInt8} (holds : r.Holds content)
    (verdict : r.accepted env ch = some frame) :
    r.recvStep = .crc ∧ ch = env.crc8Cal content ∧ frame = content ++ [ch] ∧
      ∃ full, r.push ch = some full ∧ full.Holds frame := by
  unfold Receiver.accepted at verdict
  split at verdict
  · rename_i state
    obtain ⟨full, pushed, verdict⟩ := Option.bind_eq_some_iff.mp verdict
    split at verdict
    · rename_i right
      have len := (push_eq_some pushed).2.1
      obtain ⟨next, again, held⟩ := holds.push (by rw [← holds.1]; exact (push_eq_some pushed).1) ch
      cases Option.some.inj (again.symm.trans pushed)
      -- The checksum is taken of everything before the last byte.
      rw [len, Nat.add_sub_cancel, bytes_push pushed (Nat.le_refl _), holds.1, holds.2] at right
      rw [held.1, held.2, Option.some.injEq] at verdict
      exact ⟨state, right, verdict.symm, full, pushed, verdict ▸ held⟩
    · cases verdict
  · cases verdict

/-- What the receiver has assembled is recognised. -/
theorem Assembling.recognises (assembling : Assembling received r) : Recognises received r := by
  obtain ⟨content, holds, assembles, latest⟩ := assembling
  have bytes : r.bytes r.recvLen = content := holds.1 ▸ holds.2
  refine ⟨by rw [bytes, holds.1], bytes ▸ latest, assembles.measured holds, ?_⟩
  intro env ch frame verdict
  obtain ⟨state, right, rfl, _⟩ := holds.accepted verdict
  simp only [Receiver.Assembles, state] at assembles
  obtain ⟨fields, data, full, admitted, whole, rfl⟩ := assembles
  obtain ⟨before, rfl⟩ := latest
  exact ⟨⟨fields, data, r.dataLen, full, admitted, whole, by rw [← right]⟩, before, (List.append_assoc _ _ _).symm⟩

/-- Whatever has been received, the buffer holds the last bytes of it, and the frames accepted are whole ones. -/
theorem recogniser_sound (start r : Receiver) (readings : List Reading) (waiting : start.Waiting)
    (ran : run receiveReading start readings = some r) : Recognises (streamOf readings) r := by
  have assembling : Assembling (streamOf readings) r := by
    -- The induction takes the last reading off the stream.
    refine history_invariant (fun seen r => Assembling (streamOf seen) r) ?_ (assembling_waiting waiting _) ran
    intro seen state reading next _ held taken
    have later := held.step taken
    rwa [streamOf, List.map_append]
  exact assembling.recognises

end

/-- The readings of a frame without data, and of the beginning of another one. -/
def plainReadings : List Reading :=
  (frameBytes quietRadio (List.replicate 20 0) [] ++ [protoHeader1]).map (Reading.mk quietRadio)

/-- The plain readings are recognised. -/
theorem recogniser_sound_plain : ∃ r, run receiveReading (receiverInit (.replicate 50 0)) plainReadings = some r ∧
    Recognises (streamOf plainReadings) r := by
  obtain ⟨r, ran⟩ := Option.isSome_iff_exists.mp
    (by decide +kernel : (run receiveReading (receiverInit (.replicate 50 0)) plainReadings).isSome = true)
  exact ⟨r, ran, recogniser_sound _ r plainReadings ⟨rfl, rfl⟩ ran⟩

end PkeFire
