import PkeFire.Lora.Bounds
import PkeFire.Run.Trace

/-! How the receiver assembles one well-formed frame in its buffer, byte by byte. -/

namespace PkeFire

/-- The bytes of a frame with the given fields between header and length. -/
def frameBytes (env : LoraEnv) (fields data : List UInt8) : List UInt8 :=
  let body := [protoHeader1] ++ [protoHeader2] ++ fields ++ [UInt8.ofNat data.length] ++ data
  body ++ [env.crc8Cal body]

/-- The contents of the buffer when a byte takes the receiver into the branch of a right checksum. -/
def Receiver.accepted (env : LoraEnv) (r : Receiver) (ch : UInt8) : Option (List UInt8) :=
  if r.recvStep = .crc then
    (r.push ch).bind fun r =>
      if ch = env.crc8Cal (r.bytes (r.recvLen - 1)) then some (r.bytes r.recvLen) else none
  -- Only a checksum byte is ever compared.
  else none

/-- The receiver waits for a frame with an empty buffer. -/
def Receiver.Waiting (r : Receiver) : Prop :=
  r.recvStep = .header1 ∧ r.recvLen = 0

/-- The bytes that count in the buffer. -/
def Receiver.Holds (content : List UInt8) (r : Receiver) : Prop :=
  r.recvLen = content.length ∧ r.bytes content.length = content

/-- A byte that goes on with the frame in the buffer. -/
def Receiver.Continues (r : Receiver) (ch : UInt8) : Prop :=
  match r.recvStep with
  -- The first header byte clears the buffer, and it is stored behind whatever length is left.
  | .header1 => ch = protoHeader1 ∧ r.recvLen = 0
  | .header2 => ch = protoHeader2
  | .length => ch < 30
  | .fields | .data => True
  | .crc => False

/-- Some bytes are received, each with its verdict. -/
def Reception (env : LoraEnv) : Receiver → List UInt8 → List (Option (List UInt8)) → Receiver → Prop :=
  Trace (receive env) fun r ch => some (r.accepted env ch)

section

variable {env : LoraEnv} {r next : Receiver} {ch : UInt8} {content : List UInt8}

/-- A write into the buffer appends to its contents. -/
theorem Receiver.Holds.push (holds : r.Holds content) (room : content.length < 50) (ch : UInt8) :
    ∃ next, r.push ch = some next ∧ next.Holds (content ++ [ch]) := by
  obtain ⟨len, same⟩ := holds
  have inside : r.recvLen < 50 := by omega
  refine ⟨_, by rw [Receiver.push, dif_pos inside], ?_, ?_⟩
  · rw [List.length_append, List.length_singleton, ← len]
  · -- The written cell is the one behind the contents.
    have bounded : content.length < r.recvBuf.toList.length := by
      rw [Vector.length_toList]
      exact room
    rw [Receiver.bytes] at same
    rw [Receiver.bytes, List.length_append, List.length_singleton]
    simp only [store, Vector.toList_set, len]
    rw [List.take_succ_eq_append_getElem (by rwa [List.length_set]), List.take_set_of_le (Nat.le_refl _),
      List.getElem_set_self, same]

/-- A byte that is not a checksum has no verdict. -/
theorem Reception.quiet (other : r.recvStep ≠ .crc) (taken : receive env r ch = some next) :
    Reception env r [ch] [none] next := by
  have reception : Reception env r [ch] [r.accepted env ch] next := Trace.single taken
  rwa [Receiver.accepted, if_neg other] at reception

variable (env)

/-- A byte that goes on with a frame is appended to it. -/
theorem Receiver.Holds.receive (holds : r.Holds content) (room : content.length < 50)
    (continues : r.Continues ch) :
    ∃ next, PkeFire.receive env r ch = some next ∧ next.Holds (content ++ [ch]) := by
  unfold Receiver.Continues at continues
  cases state : r.recvStep with
  | header1 =>
    -- The first byte is put at the beginning of a cleared buffer.
    simp only [state] at continues
    have empty : content = [] := List.eq_nil_of_length_eq_zero (holds.1.symm.trans continues.2)
    -- Nothing of the cleared buffer counts.
    have cleared : ({ r with recvBuf := .replicate 50 0 } : Receiver).Holds content := by
      rw [empty]
      exact ⟨continues.2, rfl⟩
    obtain ⟨next, pushed, held⟩ := cleared.push room ch
    refine ⟨{ next with recvStep := .header2 }, ?_, held⟩
    rw [state] at pushed
    simp only [PkeFire.receive, state, if_pos continues.1, pushed, Option.map_some]
  | header2 =>
    -- The second byte is the other half of the header.
    simp only [state] at continues
    obtain ⟨next, pushed, held⟩ := holds.push room ch
    refine ⟨{ next with recvStep := .fields }, ?_, held⟩
    simp only [PkeFire.receive, state, if_pos continues, pushed, Option.map_some]
  | fields | data =>
    obtain ⟨next, pushed, held⟩ := holds.push room ch
    -- Whether or not the fields or the data are complete, the buffer is the same.
    simp only [PkeFire.receive, state, pushed, Option.map_some]
    refine ⟨_, rfl, ?_⟩
    split <;> exact held
  | length =>
    -- An admitted length is appended as well, whatever step it leads to.
    simp only [state] at continues
    obtain ⟨next, pushed, held⟩ := holds.push room ch
    simp only [PkeFire.receive, state, pushed, Option.map_some, if_pos continues]
    refine ⟨_, rfl, ?_⟩
    split <;> exact held
  | crc => simp only [state] at continues

/-- A byte that goes on with a frame is received without a verdict. -/
theorem Receiver.Holds.continue (holds : r.Holds content) (room : content.length < 50)
    (continues : r.Continues ch) :
    ∃ next, PkeFire.receive env r ch = some next ∧ Reception env r [ch] [none] next ∧
      next.Holds (content ++ [ch]) := by
  obtain ⟨next, taken, held⟩ := holds.receive env room continues
  have other : r.recvStep ≠ .crc := by
    intro checksum
    simp only [Receiver.Continues, checksum] at continues
  exact ⟨next, taken, Reception.quiet other taken, held⟩

/-- The header opens a frame. -/
theorem receive_header (waiting : r.Waiting) :
    ∃ next, Reception env r [protoHeader1, protoHeader2] [none, none] next ∧
      next.recvStep = .fields ∧ next.Holds [protoHeader1, protoHeader2] := by
  obtain ⟨state, empty⟩ := waiting
  have nothing : r.Holds [] := ⟨empty, rfl⟩
  have opens : r.Continues protoHeader1 := by
    simp only [Receiver.Continues, state]
    exact ⟨trivial, empty⟩
  obtain ⟨middle, taken, first, held⟩ := nothing.continue env (by simp) opens
  have moved := receive_advances taken
  simp only [Advances, state, if_true] at moved
  have goes : middle.Continues protoHeader2 := by
    simp only [Receiver.Continues, moved.1]
  obtain ⟨next, taken, second, held⟩ := held.continue env (by simp) goes
  have moved2 := receive_advances taken
  simp only [Advances, moved.1, if_true] at moved2
  exact ⟨next, first.append second, moved2.1, held⟩

/-- The fields are filled up to the length. -/
theorem receive_fields {fields : List UInt8} (state : r.recvStep = .fields) (holds : r.Holds content)
    (rest : content.length + fields.length = offsetofLen) (nonempty : fields ≠ []) :
    ∃ next, Reception env r fields (List.replicate fields.length none) next ∧
      next.recvStep = .length ∧ next.Holds (content ++ fields) := by
  -- Each field is appended, and the last one reaches the offset.
  induction fields generalizing r content with
  | nil => exact absurd rfl nonempty
  | cons field fields ih =>
    simp only [List.length_cons, offsetofLen] at rest
    -- Inside the fields, every byte goes on with the frame.
    have goes : r.Continues field := by
      simp only [Receiver.Continues, state]
    obtain ⟨middle, taken, first, held⟩ := holds.continue env (by omega) goes
    have moved := receive_advances taken
    simp only [Advances, state, holds.1, offsetofLen] at moved
    cases fields with
    | nil =>
      rw [List.length_nil] at rest
      rw [if_pos (by omega)] at moved
      exact ⟨middle, first, moved.2, held⟩
    | cons second fields =>
      rw [List.length_cons] at rest
      rw [if_neg (by omega)] at moved
      -- The frame is one field longer, and still short of its length.
      have filled : (content ++ [field]).length + (second :: fields).length = offsetofLen := by
        simp only [List.length_append, List.length_cons, List.length_nil, offsetofLen]
        omega
      obtain ⟨next, others, waits, held⟩ := ih moved.2 held filled (List.cons_ne_nil _ _)
      refine ⟨next, first.append others, waits, ?_⟩
      rwa [List.append_assoc] at held

/-- The data are filled up to the checksum. -/
theorem receive_data {data : List UInt8} {len : UInt8} {count : Nat} (filling : Filling len count r)
    (holds : r.Holds content) (whole : count + data.length = len.toNat) (fits : len.toNat ≤ 26) :
    ∃ next, Reception env r data (List.replicate data.length none) next ∧
      Filling len len.toNat next ∧ next.Holds (content ++ data) := by
  -- Each byte is appended and counted.
  induction data generalizing r content count with
  | nil =>
    rw [List.length_nil, Nat.add_zero] at whole
    rw [whole] at filling
    exact ⟨r, Trace.nil, filling, by rwa [List.append_nil]⟩
  | cons byte data ih =>
    rw [List.length_cons] at whole
    have stored := filling.2.1.symm.trans holds.1
    have goes : r.Continues byte := by
      obtain ⟨_, _, ⟨state, _⟩ | ⟨_, complete⟩⟩ := filling
      · simp only [Receiver.Continues, state]
      · omega
    obtain ⟨middle, taken, first, held⟩ := holds.continue env (by omega) goes
    obtain ⟨next, others, full, held⟩ := ih (filling.step (by omega) taken) held (by omega)
    refine ⟨next, first.append others, full, ?_⟩
    rwa [List.append_assoc] at held

/-- The right checksum takes the receiver into the branch that handles the frame. -/
theorem receive_checksum {len : UInt8} (filling : Filling len len.toNat r) (holds : r.Holds content)
    (room : content.length < 50) :
    ∃ next, Reception env r [env.crc8Cal content] [some (content ++ [env.crc8Cal content])] next ∧
      next.Waiting := by
  obtain ⟨_, _, ⟨_, _, less⟩ | ⟨state, _⟩⟩ := filling
  · exact absurd less (Nat.lt_irrefl _)
  obtain ⟨full, pushed, held⟩ := holds.push room (env.crc8Cal content)
  -- The checksum covers everything but itself.
  have covered : full.bytes (full.recvLen - 1) = content := by
    have stored := held.2
    rw [held.1, List.length_append, List.length_singleton, Nat.add_sub_cancel]
    rw [Receiver.bytes, List.length_append, List.length_singleton] at stored
    have shorter := congrArg (List.take content.length) stored
    rwa [List.take_take, Nat.min_eq_left (Nat.le_succ _), List.take_left] at shorter
  have verdict : r.accepted env (env.crc8Cal content) = some (content ++ [env.crc8Cal content]) := by
    rw [Receiver.accepted, if_pos state, pushed, Option.bind_some, covered, if_pos rfl, held.1, held.2]
  have taken : receive env r (env.crc8Cal content) = some (full.dispatch env).restart := by
    simp only [receive, state, pushed, Option.map_some, covered, if_true]
  have reception : Reception env r [env.crc8Cal content] [r.accepted env (env.crc8Cal content)] _ :=
    Trace.single taken
  rw [verdict] at reception
  exact ⟨_, reception, rfl, rfl⟩

/-- A waiting receiver takes a well-formed frame and accepts it at its last byte. -/
theorem receive_frame {fields data : List UInt8} (waiting : r.Waiting) (full : fields.length = 20)
    (fits : data.length ≤ 26) :
    ∃ next, Reception env r (frameBytes env fields data)
      (List.replicate (23 + data.length) none ++ [some (frameBytes env fields data)]) next ∧
        next.Waiting := by
  -- A length within the limit is not cut by its byte.
  have number : (UInt8.ofNat data.length).toNat = data.length := by
    rw [UInt8.toNat_ofNat']
    exact Nat.mod_eq_of_lt (by omega)
  have admitted : UInt8.ofNat data.length < 30 := by
    rw [UInt8.lt_iff_toNat_lt, number]
    exact Nat.lt_of_le_of_lt fits (by decide)
  -- The parts of the frame are received one after the other.
  obtain ⟨opened, header, state, held⟩ := receive_header env waiting
  have partly : [protoHeader1, protoHeader2].length + fields.length = offsetofLen := by
    rw [full]
    rfl
  have nonempty : fields ≠ [] := by
    intro none
    rw [none, List.length_nil] at full
    omega
  obtain ⟨filled, middle, state, held⟩ := receive_fields env state held partly nonempty
  -- Header and fields are in the buffer, and the length comes next.
  have stored : ([protoHeader1, protoHeader2] ++ fields).length = 22 := by
    rw [List.length_append, full]
    rfl
  have goes : filled.Continues (UInt8.ofNat data.length) := by
    simpa only [Receiver.Continues, state] using admitted
  obtain ⟨declared, taken, length, longer⟩ := held.continue env (by omega) goes
  have filling := filling_start state (held.1.trans stored) admitted taken
  -- The data are counted down to the checksum, which ends the frame.
  obtain ⟨complete, payload, closing, whole⟩ := receive_data env filling longer
    (by rw [Nat.zero_add, number]) (by omega)
  obtain ⟨next, last, again⟩ := receive_checksum env closing whole (by
    simp only [List.length_append, List.length_cons, List.length_nil]
    omega)
  have reception := (((header.append middle).append length).append payload).append last
  -- Every byte before the checksum has had no verdict.
  have verdicts : [none, none] ++ List.replicate fields.length none ++ [none] ++
      List.replicate data.length none = List.replicate (23 + data.length) (none : Option (List UInt8)) := by
    rw [full, ← List.replicate_append_replicate]
    rfl
  rw [verdicts] at reception
  exact ⟨next, reception, again⟩

end

end PkeFire
