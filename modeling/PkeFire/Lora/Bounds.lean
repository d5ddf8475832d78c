import PkeFire.Lora.Stream

/-! Which byte streams keep the receiver within its buffer. -/

namespace PkeFire

/-- No byte of a stream is written beyond the buffer. -/
def WithinBuffer (env : LoraEnv) (stack : Vector UInt8 50) (stream : List UInt8) : Prop :=
  (run (receive env) (receiverInit stack) stream).isSome = true

/-- The buffer is written within its bounds, whatever stream of bytes is received. -/
def BufferSafe : Prop :=
  ∀ env stack stream, WithinBuffer env stack stream

/-- A length that the receiver admits although its frame does not fit into the buffer. -/
def TooLong (len : UInt8) : Prop :=
  26 < len.toNat ∧ len < 30

/-- The stream ends before the frame of a length that is too long reaches the end of the buffer. -/
def CutShort (stream : List UInt8) : Prop :=
  ∀ head len rest, AwaitsLength head → TooLong len → stream = head ++ [len] ++ rest → rest.length < 28

/-- The receiver has taken some bytes since the length of its frame. -/
def Filling (len : UInt8) (count : Nat) (r : Receiver) : Prop :=
  r.dataLen = len ∧ r.recvLen = 23 + count ∧
    ((r.recvStep = .data ∧ r.dataCnt.toNat = count ∧ count < len.toNat) ∨
      (r.recvStep = .crc ∧ count = len.toNat))

section

variable {env : LoraEnv} {r next : Receiver} {len ch : UInt8} {count : Nat}

/-- The fields of a frame bring the receiver to its length. -/
theorem run_fields {fields : List UInt8} (state : r.recvStep = .fields) (filled : r.recvLen = 2 + count)
    (rest : count + fields.length = 20) (nonempty : fields ≠ []) (ran : run (receive env) r fields = some next) :
    next.recvStep = .length ∧ next.recvLen = offsetofLen := by
  -- Each field advances the length by one, and the last one reaches the offset.
  induction fields generalizing r count with
  | nil => exact absurd rfl nonempty
  | cons field fields ih =>
    rw [run_cons, Option.bind_eq_some_iff] at ran
    obtain ⟨middle, taken, ran⟩ := ran
    have moved := receive_advances taken
    simp only [Advances, state] at moved
    obtain ⟨more, step⟩ := moved
    rw [List.length_cons] at rest
    cases fields with
    -- The last field reaches the offset of the length.
    | nil =>
      have full : r.recvLen + 1 = offsetofLen := by
        simp only [List.length_nil, offsetofLen] at rest ⊢
        omega
      rw [if_pos full] at step
      rw [← Option.some.inj ran]
      exact ⟨step, more.trans full⟩
    | cons second fields =>
      have partly : r.recvLen + 1 ≠ offsetofLen := by
        simp only [List.length_cons, offsetofLen] at rest ⊢
        omega
      rw [if_neg partly] at step
      exact ih step (by omega : middle.recvLen = 2 + (count + 1)) (by omega) (List.cons_ne_nil _ _) ran

/-- An admitted length byte starts the filling of its frame. -/
theorem filling_start (state : r.recvStep = .length) (filled : r.recvLen = offsetofLen) (admitted : len < 30)
    (taken : receive env r len = some next) : Filling len 0 next := by
  have moved := receive_advances taken
  simp only [Advances, state, if_pos admitted] at moved
  obtain ⟨more, declared, step⟩ := moved
  refine ⟨declared, by rw [more, filled, offsetofLen], ?_⟩
  split at step
  · rename_i empty
    exact Or.inr ⟨step, by rw [empty]; rfl⟩
  · rename_i positive
    have nonzero : 0 < len.toNat := Nat.pos_of_ne_zero fun zero => positive (UInt8.toNat_inj.mp zero)
    exact Or.inl ⟨step.1, by rw [step.2]; rfl, nonzero⟩

/-- A byte of data is counted. -/
theorem Filling.step (filling : Filling len count r) (below : count < len.toNat)
    (taken : receive env r ch = some next) : Filling len (count + 1) next := by
  obtain ⟨declared, filled, ⟨state, counted, _⟩ | ⟨_, complete⟩⟩ := filling
  · have moved := receive_advances taken
    simp only [Advances, state, declared] at moved
    obtain ⟨more, same, increased, step⟩ := moved
    -- The counter cannot wrap, because it stays below a byte's value.
    have advanced : next.dataCnt.toNat = count + 1 := by
      have bounded := len.toNat_lt
      rw [increased]
      exact toNat_succ counted (by omega)
    refine ⟨same, by omega, ?_⟩
    rw [← increased] at step
    split at step
    · rename_i complete
      exact Or.inr ⟨step, by rw [← advanced, complete]⟩
    · rename_i incomplete
      have other : next.dataCnt.toNat ≠ len.toNat := by
        intro equal
        exact incomplete (UInt8.toNat_inj.mp equal)
      exact Or.inl ⟨step, advanced, by omega⟩
  · omega

/-- Some bytes of data are counted. -/
theorem Filling.run {data : List UInt8} (filling : Filling len count r)
    (fits : count + data.length ≤ len.toNat) (ran : PkeFire.run (receive env) r data = some next) :
    Filling len (count + data.length) next := by
  -- The bytes are counted one after the other, up to the declared length.
  induction data generalizing r count with
  | nil => exact Option.some.inj ran ▸ filling
  | cons byte data ih =>
    rw [run_cons, Option.bind_eq_some_iff] at ran
    obtain ⟨middle, taken, ran⟩ := ran
    rw [List.length_cons] at fits ⊢
    have later := ih (filling.step (by omega) taken) (by omega) ran
    rwa [Nat.add_right_comm, Nat.add_assoc] at later

/-- The byte after the data closes the frame. -/
theorem Filling.close (filling : Filling len len.toNat r) (taken : receive env r ch = some next) :
    next.recvStep = .header1 ∧ next.recvLen = 0 := by
  obtain ⟨_, _, ⟨_, _, less⟩ | ⟨state, _⟩⟩ := filling
  · exact absurd less (Nat.lt_irrefl _)
  · have moved := receive_advances taken
    simpa only [Advances, state] using moved

/-- A receiver between two frames is brought by a header and its fields to the length. -/
theorem run_to_length {fields : List UInt8} (state : r.recvStep = .header1) (empty : r.recvLen = 0)
    (full : fields.length = 20)
    (ran : run (receive env) r ([protoHeader1] ++ [protoHeader2] ++ fields) = some next) :
    next.recvStep = .length ∧ next.recvLen = offsetofLen := by
  -- The two header bytes come first, then the twenty fields.
  obtain ⟨opened, headers, ran⟩ := run_append_some.mp ran
  obtain ⟨half, first, second⟩ := run_append_some.mp headers
  have moved := receive_advances (run_singleton r protoHeader1 ▸ first)
  simp only [Advances, state, if_true] at moved
  have moved2 := receive_advances (run_singleton half protoHeader2 ▸ second)
  simp only [Advances, moved.1, if_true] at moved2
  have placed : opened.recvLen = 2 + 0 := by omega
  refine run_fields moved2.1 placed (by omega) ?_ ran
  intro none
  simp only [none, List.length_nil, Nat.reduceEqDiff] at full

/-- After a delimited stream, the receiver waits for a header with an empty buffer. -/
theorem Delimited.run {stack : Vector UInt8 50} {stream : List UInt8} (closed : Delimited stream)
    (ran : PkeFire.run (receive env) (receiverInit stack) stream = some r) :
    r.recvStep = .header1 ∧ r.recvLen = 0 := by
  -- Each part of the stream finds the receiver where the part before it has left it.
  induction closed generalizing r with
  | start =>
    rw [← Option.some.inj ran]
    exact ⟨rfl, rfl⟩
  | noise _ other ih =>
    -- A byte of noise leaves the receiver waiting.
    obtain ⟨middle, before, last⟩ := run_append_some.mp ran
    obtain ⟨state, empty⟩ := ih before
    have moved := receive_advances (run_singleton middle _ ▸ last)
    simp only [Advances, state, if_neg other] at moved
    exact moved ▸ ⟨state, empty⟩
  | broken _ other ih =>
    obtain ⟨half, ran, last⟩ := run_append_some.mp ran
    obtain ⟨middle, before, header⟩ := run_append_some.mp ran
    -- The second byte is not that of a header, so that the receiver starts over.
    have opened := receive_advances (run_singleton middle _ ▸ header)
    simp only [Advances, (ih before).1, if_true] at opened
    have moved := receive_advances (run_singleton half _ ▸ last)
    simpa only [Advances, opened.1, if_neg other] using moved
  | refused _ full long ih =>
    obtain ⟨waiting, ran, last⟩ := run_append_some.mp ran
    rw [List.append_assoc, List.append_assoc, ← List.append_assoc [protoHeader1]] at ran
    obtain ⟨middle, before, ran⟩ := run_append_some.mp ran
    obtain ⟨state, empty⟩ := ih before
    -- A length that is not admitted makes the receiver start over.
    have moved := receive_advances (run_singleton waiting _ ▸ last)
    simpa only [Advances, (run_to_length state empty full ran).1, if_neg long] using moved
  | frame _ full admitted whole ih =>
    -- The whole frame is run: headers and fields, length, data, and checksum.
    obtain ⟨filled, ran, last⟩ := run_append_some.mp ran
    obtain ⟨started, ran, payload⟩ := run_append_some.mp ran
    obtain ⟨waiting, ran, declared⟩ := run_append_some.mp ran
    rw [List.append_assoc, List.append_assoc, ← List.append_assoc [protoHeader1]] at ran
    obtain ⟨middle, before, ran⟩ := run_append_some.mp ran
    obtain ⟨state, empty⟩ := ih before
    obtain ⟨waits, place⟩ := run_to_length state empty full ran
    have filling := (filling_start waits place admitted (run_singleton waiting _ ▸ declared)).run
      (by omega) payload
    rw [Nat.zero_add, whole] at filling
    exact filling.close (run_singleton filled _ ▸ last)

/-- After a stream that awaits a length, the receiver takes the next byte for it. -/
theorem AwaitsLength.run {stack : Vector UInt8 50} {stream : List UInt8} (awaits : AwaitsLength stream)
    (ran : PkeFire.run (receive env) (receiverInit stack) stream = some r) :
    r.recvStep = .length ∧ r.recvLen = offsetofLen := by
  obtain ⟨before, fields, closed, full, rfl⟩ := awaits
  rw [List.append_assoc, List.append_assoc, ← List.append_assoc [protoHeader1]] at ran
  obtain ⟨middle, first, ran⟩ := run_append_some.mp ran
  obtain ⟨state, empty⟩ := closed.run first
  exact run_to_length state empty full ran

/-- With 27 bytes after its length, a frame has reached the end of the buffer. -/
theorem Filling.overflow (filling : Filling len 27 r) : receive env r ch = none := by
  obtain ⟨_, filled, ⟨state, _⟩ | ⟨state, _⟩⟩ := filling
  · exact receive_full (by omega) (Or.inl state)
  · exact receive_full (by omega) (Or.inr state)

/-- A stream that goes on for 28 bytes after a length that is too long leaves the buffer. -/
theorem run_overflow {stack : Vector UInt8 50} {head rest : List UInt8} (awaits : AwaitsLength head)
    (long : TooLong len) (goes : 28 ≤ rest.length) :
    run (receive env) (receiverInit stack) (head ++ [len] ++ rest) = none := by
  rw [Option.eq_none_iff_forall_ne_some]
  intro finish ran
  obtain ⟨started, ran, filled⟩ := run_append_some.mp ran
  obtain ⟨waiting, before, declared⟩ := run_append_some.mp ran
  obtain ⟨waits, place⟩ := awaits.run before
  have filling := filling_start waits place long.2 (run_singleton waiting _ ▸ declared)
  -- The first 27 bytes bring the buffer to its end, and the next one is written behind it.
  rw [← List.take_append_drop 27 rest] at filled
  obtain ⟨full, first, last⟩ := run_append_some.mp filled
  have taken : (rest.take 27).length = 27 := List.length_take_of_le (by omega)
  have filling := filling.run (by have := long.1; omega) first
  rw [Nat.zero_add, taken] at filling
  cases remaining : rest.drop 27 with
  | nil =>
    have short := List.drop_eq_nil_iff.mp remaining
    omega
  | cons ch later =>
    rw [remaining, run_cons, filling.overflow] at last
    cases last

/-- A byte that would leave the buffer follows 27 bytes after a length that is too long. -/
theorem Placed.overflow {seen : List UInt8} (placed : Placed seen r) (refused : receive env r ch = none) :
    ∃ head len rest, AwaitsLength head ∧ TooLong len ∧ 27 ≤ rest.length ∧ seen = head ++ [len] ++ rest := by
  -- Only the data and the checksum come that far.
  have full := receive_eq_none refused
  cases state : r.recvStep with
  | header1 | header2 | length =>
    simp only [Placed, state, offsetofLen] at placed
    omega
  | fields =>
    simp only [Placed, state] at placed
    obtain ⟨_, fields, _, filled, partly, _⟩ := placed
    omega
  | data =>
    simp only [Placed, state] at placed
    obtain ⟨head, data, awaits, admitted, _, partly, filled, same⟩ := placed
    exact ⟨head, r.dataLen, data, awaits, ⟨by omega, admitted⟩, by omega, same⟩
  | crc =>
    simp only [Placed, state] at placed
    obtain ⟨head, data, awaits, admitted, complete, filled, same⟩ := placed
    exact ⟨head, r.dataLen, data, awaits, ⟨by omega, admitted⟩, by omega, same⟩

end

/-- Exactly the streams that are cut short after every length that is too long stay within the buffer. -/
theorem withinBuffer_iff_cutShort (env : LoraEnv) (stack : Vector UInt8 50) (stream : List UInt8) :
    WithinBuffer env stack stream ↔ CutShort stream := by
  constructor
  · -- A stream that went on for 28 bytes would have left the buffer.
    intro safe head len rest awaits long same
    by_contra goes
    rw [WithinBuffer, same, run_overflow awaits long (by omega)] at safe
    cases safe
  · intro short
    rw [WithinBuffer, Option.isSome_iff_ne_none]
    intro failed
    -- The first byte that is refused finds the buffer full.
    obtain ⟨seen, ch, later, r, rfl, ran, refused⟩ := run_eq_none failed
    obtain ⟨head, len, rest, awaits, long, goes, rfl⟩ := (placed_of_run ran).overflow refused
    have bounded := short head len (rest ++ ch :: later) awaits long (List.append_assoc _ _ _)
    simp only [List.length_append, List.length_cons] at bounded
    omega

/-- A frame with the longest admitted length, but for its last two bytes. -/
def longFrame : List UInt8 :=
  [protoHeader1] ++ [protoHeader2] ++ List.replicate 20 0 ++ [29] ++ List.replicate 28 0

/-- The longest admitted frame is written beyond the buffer. -/
theorem bufferSafe_fails : ¬ BufferSafe := by
  intro safe
  have within := safe quietRadio (.replicate 50 0) longFrame
  exact absurd within (by unfold WithinBuffer; decide +kernel)

end PkeFire
