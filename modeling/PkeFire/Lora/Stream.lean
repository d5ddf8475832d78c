import PkeFire.Lora.Receiver
import PkeFire.Run.Loop

/-! How a stream of bytes divides into frames, and where the receiver stands in the frame it is assembling. -/

namespace PkeFire

/-- A stream after which no frame is open: noise, frames cut off at a header or length, and whole frames. -/
inductive Delimited : List UInt8 → Prop where
  | start : Delimited []
  | noise {stream : List UInt8} {ch : UInt8} (before : Delimited stream) (other : ch ≠ protoHeader1) :
      Delimited (stream ++ [ch])
  | broken {stream : List UInt8} {ch : UInt8} (before : Delimited stream) (other : ch ≠ protoHeader2) :
      Delimited (stream ++ [protoHeader1] ++ [ch])
  | refused {stream fields : List UInt8} {len : UInt8} (before : Delimited stream)
      (full : fields.length = 20) (long : ¬ len < 30) :
      Delimited (stream ++ [protoHeader1] ++ [protoHeader2] ++ fields ++ [len])
  | frame {stream fields data : List UInt8} {len crc : UInt8} (before : Delimited stream)
      (full : fields.length = 20) (admitted : len < 30) (exact : data.length = len.toNat) :
      Delimited (stream ++ [protoHeader1] ++ [protoHeader2] ++ fields ++ [len] ++ data ++ [crc])

/-- A stream that ends between the fields of a frame and its length. -/
def AwaitsLength (stream : List UInt8) : Prop :=
  ∃ before fields, Delimited before ∧ fields.length = 20 ∧
    stream = before ++ [protoHeader1] ++ [protoHeader2] ++ fields

/-- What the bytes received so far say about the place of the receiver in its frame. -/
def Placed (seen : List UInt8) (r : Receiver) : Prop :=
  match r.recvStep with
  | .header1 => r.recvLen = 0 ∧ Delimited seen
  | .header2 => r.recvLen = 1 ∧ ∃ before, Delimited before ∧ seen = before ++ [protoHeader1]
  | .fields => ∃ before fields, Delimited before ∧ r.recvLen = 2 + fields.length ∧ fields.length < 20 ∧
      seen = before ++ [protoHeader1] ++ [protoHeader2] ++ fields
  | .length => r.recvLen = offsetofLen ∧ AwaitsLength seen
  -- The length byte has been received as such, and everything after it is in the buffer.
  | .data => ∃ head data, AwaitsLength head ∧ r.dataLen < 30 ∧ data.length = r.dataCnt.toNat ∧
      data.length < r.dataLen.toNat ∧ r.recvLen = 23 + data.length ∧ seen = head ++ [r.dataLen] ++ data
  | .crc => ∃ head data, AwaitsLength head ∧ r.dataLen < 30 ∧ data.length = r.dataLen.toNat ∧
      r.recvLen = 23 + data.length ∧ seen = head ++ [r.dataLen] ++ data

/-- What one byte does to the place of the receiver in its frame. -/
def Advances (r : Receiver) (ch : UInt8) (next : Receiver) : Prop :=
  match r.recvStep with
  | .header1 => if ch = protoHeader1 then next.recvStep = .header2 ∧ next.recvLen = r.recvLen + 1
      else next = r
  | .header2 => if ch = protoHeader2 then next.recvStep = .fields ∧ next.recvLen = r.recvLen + 1
      else next.recvStep = .header1 ∧ next.recvLen = 0
  | .fields => next.recvLen = r.recvLen + 1 ∧
      next.recvStep = if r.recvLen + 1 = offsetofLen then .length else .fields
  | .length =>
      if ch < 30 then
        next.recvLen = r.recvLen + 1 ∧ next.dataLen = ch ∧
          if ch = 0 then next.recvStep = .crc else next.recvStep = .data ∧ next.dataCnt = 0
      else next.recvStep = .header1 ∧ next.recvLen = 0
  | .data => next.recvLen = r.recvLen + 1 ∧ next.dataLen = r.dataLen ∧ next.dataCnt = r.dataCnt + 1 ∧
      next.recvStep = if r.dataCnt + 1 = r.dataLen then .crc else .data
  | .crc => next.recvStep = .header1 ∧ next.recvLen = 0

section

variable {env : LoraEnv} {seen : List UInt8} {r next : Receiver} {ch : UInt8}

/-- A write into the buffer succeeds below its end, and advances the length alone. -/
theorem push_eq_some (pushed : r.push ch = some next) :
    r.recvLen < 50 ∧ next.recvLen = r.recvLen + 1 ∧ next.recvStep = r.recvStep ∧
      next.dataLen = r.dataLen ∧ next.dataCnt = r.dataCnt := by
  -- A write beyond the buffer would have failed.
  rw [Receiver.push] at pushed
  split at pushed
  · rename_i inside
    rw [← Option.some.inj pushed]
    exact ⟨inside, rfl, rfl, rfl, rfl⟩
  · cases pushed

/-- A write into the buffer fails exactly beyond its end. -/
theorem push_eq_none : r.push ch = none ↔ 50 ≤ r.recvLen := by
  rw [Receiver.push]
  split
  · simp only [reduceCtorEq, false_iff]
    omega
  · simp only [true_iff]
    omega

/-- Taking a byte advances the receiver within its frame. -/
theorem receive_advances (taken : receive env r ch = some next) : Advances r ch next := by
  cases state : r.recvStep with
  | header1 =>
    simp only [receive, Advances, state] at taken ⊢
    -- The first header byte is looked for in a buffer that is cleared for it.
    split at taken
    · rename_i header
      obtain ⟨pushed, push, rfl⟩ := Option.map_eq_some_iff.mp taken
      rw [if_pos header]
      exact ⟨rfl, (push_eq_some push).2.1⟩
    · rename_i noise
      rw [if_neg noise]
      exact (Option.some.inj taken).symm
  | header2 =>
    simp only [receive, Advances, state] at taken ⊢
    -- A wrong second byte makes the receiver start over.
    split at taken
    · rename_i header
      obtain ⟨pushed, push, rfl⟩ := Option.map_eq_some_iff.mp taken
      rw [if_pos header]
      exact ⟨rfl, (push_eq_some push).2.1⟩
    · rename_i broken
      rw [if_neg broken, ← Option.some.inj taken]
      exact ⟨rfl, rfl⟩
  | fields =>
    simp only [receive, Advances, state] at taken ⊢
    obtain ⟨pushed, push, rfl⟩ := Option.map_eq_some_iff.mp taken
    obtain ⟨_, len, step, _⟩ := push_eq_some push
    -- The length that is compared is the one after the write.
    rw [← len]
    split
    · exact ⟨rfl, rfl⟩
    · exact ⟨rfl, step.trans state⟩
  | length =>
    simp only [receive, Advances, state] at taken ⊢
    obtain ⟨pushed, push, rfl⟩ := Option.map_eq_some_iff.mp taken
    have len := (push_eq_some push).2.1
    -- A length that is not admitted makes it start over, and an admitted one is remembered.
    split
    · split
      · exact ⟨len, rfl, rfl⟩
      · exact ⟨len, rfl, rfl, rfl⟩
    · exact ⟨rfl, rfl⟩
  | data =>
    simp only [receive, Advances, state] at taken ⊢
    obtain ⟨pushed, push, rfl⟩ := Option.map_eq_some_iff.mp taken
    obtain ⟨_, len, step, declared, counted⟩ := push_eq_some push
    rw [← declared, ← counted]
    -- The counter tells when the data are complete.
    split
    · exact ⟨len, rfl, rfl, rfl⟩
    · exact ⟨len, rfl, rfl, step.trans state⟩
  | crc =>
    -- The receiver starts over, whatever it has done with the frame.
    simp only [receive, Advances, state] at taken ⊢
    obtain ⟨pushed, _, rfl⟩ := Option.map_eq_some_iff.mp taken
    exact ⟨rfl, rfl⟩

/-- A byte is only refused when it would be written beyond the buffer. -/
theorem receive_eq_none (refused : receive env r ch = none) : 50 ≤ r.recvLen := by
  cases state : r.recvStep with
  | header1 | header2 =>
    simp only [receive, state] at refused
    split at refused
    · -- Clearing the buffer before the write leaves the length alone.
      have fails := push_eq_none.mp (Option.map_eq_none_iff.mp refused)
      exact fails
    · cases refused
  | fields | length | data | crc =>
    simp only [receive, state] at refused
    exact push_eq_none.mp (Option.map_eq_none_iff.mp refused)

/-- A write beyond the buffer refuses the byte, except where the receiver writes nothing. -/
theorem receive_full (full : 50 ≤ r.recvLen) (writes : r.recvStep = .data ∨ r.recvStep = .crc) :
    receive env r ch = none := by
  rcases writes with state | state
  · simp only [receive, state]
    exact Option.map_eq_none_iff.mpr (push_eq_none.mpr full)
  · simp only [receive, state]
    exact Option.map_eq_none_iff.mpr (push_eq_none.mpr full)

/-- The receiver knows its place again after the next byte. -/
theorem Placed.step (placed : Placed seen r) (moved : Advances r ch next) : Placed (seen ++ [ch]) next := by
  cases state : r.recvStep with
  | header1 =>
    -- The first header byte opens a frame, and every other byte is noise.
    simp only [Placed, Advances, state] at placed moved
    obtain ⟨len, closed⟩ := placed
    split at moved
    · rename_i header
      simp only [Placed, moved.1]
      exact ⟨by omega, seen, closed, by rw [header]⟩
    · rename_i noise
      subst moved
      simp only [Placed, state]
      exact ⟨len, closed.noise noise⟩
  | header2 =>
    -- A first header byte that is not followed by the second one is dropped with its successor.
    simp only [Placed, Advances, state] at placed moved
    obtain ⟨len, before, closed, rfl⟩ := placed
    split at moved
    · rename_i header
      simp only [Placed, moved.1]
      exact ⟨before, [], closed, by simp only [List.length_nil]; omega, Nat.zero_lt_succ _, by
        rw [header, List.append_nil]⟩
    · rename_i broken
      simp only [Placed, moved.1]
      exact ⟨moved.2, closed.broken broken⟩
  | fields =>
    -- Two header bytes and twenty fields fill the buffer up to the offset of the length.
    simp only [Placed, Advances, state] at placed moved
    obtain ⟨before, fields, closed, len, partly, rfl⟩ := placed
    obtain ⟨more, step⟩ := moved
    have extended : (fields ++ [ch]).length = fields.length + 1 := List.length_append
    split at step
    · rename_i full
      simp only [offsetofLen] at full
      simp only [Placed, step, offsetofLen]
      exact ⟨by omega, before, fields ++ [ch], closed, by omega, List.append_assoc _ _ _⟩
    · rename_i incomplete
      simp only [offsetofLen] at incomplete
      simp only [Placed, step]
      exact ⟨before, fields ++ [ch], closed, by omega, by omega, List.append_assoc _ _ _⟩
  | length =>
    simp only [Placed, Advances, state] at placed moved
    obtain ⟨len, awaits⟩ := placed
    simp only [offsetofLen] at len
    split at moved
    · rename_i admitted
      obtain ⟨more, declared, step⟩ := moved
      split at step
      · rename_i empty
        simp only [Placed, step, declared]
        exact ⟨seen, [], awaits, admitted, by rw [empty]; rfl, by simp only [List.length_nil]; omega, by
          rw [List.append_nil]⟩
      · rename_i positive
        obtain ⟨step, counted⟩ := step
        -- A nonzero length byte leaves at least one byte of data to come.
        have nonzero : 0 < ch.toNat := Nat.pos_of_ne_zero fun zero => positive (UInt8.toNat_inj.mp zero)
        simp only [Placed, step, declared, counted]
        exact ⟨seen, [], awaits, admitted, rfl, nonzero, by simp only [List.length_nil]; omega, by
          rw [List.append_nil]⟩
    · -- A length from 30 on is refused, and what follows it is outside any frame.
      rename_i long
      obtain ⟨before, fields, closed, full, rfl⟩ := awaits
      simp only [Placed, moved.1]
      exact ⟨moved.2, closed.refused full long⟩
  | data =>
    simp only [Placed, Advances, state] at placed moved
    obtain ⟨head, data, awaits, admitted, count, partly, len, rfl⟩ := placed
    obtain ⟨more, declared, counted, step⟩ := moved
    have small : r.dataLen.toNat < 30 := UInt8.lt_iff_toNat_lt.mp admitted
    have extended : (data ++ [ch]).length = data.length + 1 := List.length_append
    -- The counter is far from its limit, so it counts the bytes since the length.
    have number : (r.dataCnt + 1).toNat = data.length + 1 := toNat_succ count.symm (by omega)
    split at step
    · rename_i complete
      have whole : data.length + 1 = r.dataLen.toNat := by rw [← number, complete]
      simp only [Placed, step, declared]
      exact ⟨head, data ++ [ch], awaits, admitted, by omega, by omega, List.append_assoc _ _ _⟩
    · rename_i incomplete
      have below : data.length + 1 ≠ r.dataLen.toNat := by
        intro equal
        exact incomplete (UInt8.toNat_inj.mp (number.trans equal))
      simp only [Placed, step, declared, counted]
      exact ⟨head, data ++ [ch], awaits, admitted, by omega, by omega, by omega, List.append_assoc _ _ _⟩
  | crc =>
    simp only [Placed, Advances, state] at placed moved
    obtain ⟨head, data, ⟨before, fields, closed, full, rfl⟩, admitted, whole, len, rfl⟩ := placed
    -- The byte is the checksum, right or wrong, and closes the frame.
    simp only [Placed, moved.1]
    exact ⟨moved.2, closed.frame full admitted whole⟩

/-- After every stream that fits, the receiver knows its place. -/
theorem placed_of_run {stack : Vector UInt8 50} (ran : run (receive env) (receiverInit stack) seen = some r) :
    Placed seen r := by
  have initially : Placed [] (receiverInit stack) := ⟨rfl, .start⟩
  -- Each byte is taken in the place that the bytes before it have left.
  refine history_invariant Placed ?_ initially ran
  intro seen state ch next _ placed taken
  exact placed.step (receive_advances taken)

end

end PkeFire
