import PkeFire.Run.Machine
import PkeFire.Extio.Scan

/-! Debouncing of the serial inputs, seen one line at a time. -/

namespace PkeFire

/-- One debounced line: its accepted level and the number of scans that have disagreed with it. -/
structure Line where
  saved : Bool
  timer : Nat
  deriving DecidableEq, Repr

/-- A scan of one line: thirty disagreeing scans are waited out, and any agreement starts over. -/
def Line.scan (line : Line) (raw : Bool) : Line :=
  if raw = line.saved then { line with timer := 0 }
  else if line.timer < 30 then { line with timer := line.timer + 1 }
  else { saved := raw, timer := 0 }

namespace Input

/-- The debounced state of one line within the three bytes. -/
def line (input : Input) (num : Fin 3) (i : Fin 8) : Line where
  saved := bitAt (load input.save num) i
  timer := load input.timer (lineOf num i)

/-- The level last shifted in for one line. -/
def raw (input : Input) (num : Fin 3) (i : Fin 8) : Bool :=
  bitAt (load input.buf num) i

/-- The raw byte of a line agrees with its debounced byte in all eight bits. -/
def settled (input : Input) (num : Fin 3) : Prop :=
  load input.buf num = load input.save num

instance (input : Input) (num : Fin 3) : Decidable (input.settled num) :=
  inferInstanceAs (Decidable (_ = _))

end Input

/-- Different bits of the three bytes are different lines. -/
theorem lineOf_inj {num other : Fin 3} {i j : Fin 8} :
    lineOf num i = lineOf other j ↔ num = other ∧ i = j := by
  -- Byte and bit are quotient and remainder of the line by eight.
  simp only [lineOf, Fin.ext_iff]
  omega

/-- Writing a counter changes the counter of its own line only. -/
theorem line_setTimer (input : Input) (num other : Fin 3) (i j : Fin 8) (scans : Nat) :
    (input.setTimer (lineOf num i) scans).line other j =
      if num = other ∧ i = j then { input.line num i with timer := scans } else input.line other j := by
  by_cases same : num = other ∧ i = j
  · obtain ⟨rfl, rfl⟩ := same
    simp [Input.line, Input.setTimer]
  · -- Another line has another counter.
    have apart : lineOf num i ≠ lineOf other j := fun equal => same (lineOf_inj.mp equal)
    simp only [Input.line, Input.setTimer, load_store_other _ _ apart, if_neg same]

/-- Writing a byte that differs in one bit changes the saved level of that line only. -/
theorem line_setSave {input : Input} {num : Fin 3} {byte : UInt8} (i : Fin 8) (level : Bool)
    (bits : ∀ j : Fin 8, bitAt byte j = if i = j then level else bitAt (load input.save num) j)
    (other : Fin 3) (j : Fin 8) :
    (input.setSave num byte).line other j =
      if num = other ∧ i = j then { input.line num i with saved := level } else input.line other j := by
  -- A line in another byte is untouched, and one in the same byte reads its own bit.
  by_cases sameByte : num = other
  · subst sameByte
    by_cases sameBit : i = j
    · subst sameBit
      simpa [Input.line, Input.setSave] using bits i
    · simpa [Input.line, Input.setSave, sameBit] using bits j
  · have elsewhere : ¬(num = other ∧ i = j) := fun equal => sameByte equal.1
    simp only [Input.line, Input.setSave, load_store_other _ _ sameByte, if_neg elsewhere]

/-- The pass over one bit scans that line, provided `io` shows its difference, and no other. -/
theorem inputCheckBit_line {input : Input} {io : UInt8} {num : Fin 3} {i : Fin 8}
    (shown : bitAt io 0 = (input.raw num i ^^ (input.line num i).saved)) (other : Fin 3) (j : Fin 8) :
    (inputCheckBit num i (input, io)).1.line other j =
      if num = other ∧ i = j then (input.line num i).scan (input.raw num i)
      else input.line other j := by
  simp only [inputCheckBit, and_one_ne_zero, shown, shiftRight_and_one _ i.isLt]
  -- The difference bit tells whether the raw level disagrees with the saved one.
  by_cases agree : input.raw num i = (input.line num i).saved
  · simp [agree, line_setTimer, Line.scan]
  · have differs : (input.raw num i ^^ (input.line num i).saved) = true := by simpa using agree
    rw [if_pos differs]
    -- A line that disagrees is counted, until its level is accepted.
    by_cases waiting : load input.timer (lineOf num i) < 30
    · have counting : (input.line num i).timer < 30 := waiting
      rw [if_pos waiting, line_setTimer, Line.scan, if_neg agree, if_pos counting]
      rfl
    · have full : ¬(input.line num i).timer < 30 := waiting
      rw [if_neg waiting]
      -- Accepting a level sets or clears exactly the bit of this line.
      cases level : input.raw num i with
      | true =>
        have raised : bitAt (load input.buf num) i = true := level
        rw [if_pos raised, line_setSave i true
          (fun k => by rw [bitAt_or_bitMask _ i.isLt]; split <;> simp_all [Input.setTimer, Fin.ext_iff]),
          line_setTimer, line_setTimer]
        split <;> simp_all [Line.scan]
      | false =>
        have lowered : ¬bitAt (load input.buf num) i = true := by simpa [Input.raw] using level
        rw [if_neg lowered, line_setSave i false
          (fun k => by
            rw [bitAt_and_not_bitMask _ i.isLt k.isLt]
            split <;> simp_all [Input.setTimer, Fin.ext_iff]),
          line_setTimer, line_setTimer]
        split <;> simp_all [Line.scan]

/-- The pass over one bit keeps the raw bytes, and shifts the next difference into place. -/
theorem inputCheckBit_frame (input : Input) (io : UInt8) (num : Fin 3) (i : Fin 8) :
    (inputCheckBit num i (input, io)).1.buf = input.buf ∧
      ∀ k, bitAt (inputCheckBit num i (input, io)).2 k = bitAt io (k + 1) := by
  -- Whatever happens to the line, the differences move down by one.
  refine ⟨?_, fun k => bitAt_shiftRight_one io⟩
  simp only [inputCheckBit]
  split <;> [split <;> [skip; split]; skip] <;> rfl

/-- The loop over a byte scans its eight lines and no others. -/
theorem inputCheckByte_line (num : Fin 3) (input : Input) (other : Fin 3) (j : Fin 8) :
    (inputCheckByte num input).line other j =
      if num = other ∧ ¬input.settled num then (input.line num j).scan (input.raw num j)
      else input.line other j := by
  by_cases settled : load input.buf num = load input.save num
  · simp [inputCheckByte, settled, Input.settled]
  -- After `n` bits, exactly the lines below `n` are scanned and `io` shows the differences from `n` on.
  · let scanned : Nat → Input × UInt8 → Prop := fun n state =>
      state.1.buf = input.buf ∧
      (∀ k, bitAt state.2 k = (bitAt (load input.buf num) (n + k) ^^ bitAt (load input.save num) (n + k))) ∧
      ∀ other j, state.1.line other j =
        if num = other ∧ j.val < n then (input.line num j).scan (input.raw num j)
        else input.line other j
    have loop : scanned 8 (countedLoop 8 (inputCheckBit num) (input, load input.buf num ^^^ load input.save num)) := by
      apply countedLoop_invariant scanned
      · -- Before the first bit, all differences are shown and no line is scanned.
        exact ⟨rfl, fun k => by simp [bitAt_xor], fun other j => by simp⟩
      · rintro i ⟨current, io⟩ ⟨raws, shown, lines⟩
        -- The line of bit `i` has not been touched by the bits before it.
        obtain ⟨keeps, shifts⟩ := inputCheckBit_frame current io num i
        have here : current.line num i = input.line num i := by simp [lines]
        have raw : current.raw num i = input.raw num i :=
          congrArg (fun bytes : Vector UInt8 3 => bitAt (load bytes num) i) raws
        refine ⟨keeps.trans raws, fun k => ?_, fun other j => ?_⟩
        · rw [shifts, shown, Nat.add_right_comm, Nat.add_assoc]
        · have difference : bitAt io 0 = (current.raw num i ^^ (current.line num i).saved) := by
            rw [shown, raw, here]
            rfl
          rw [inputCheckBit_line difference, here, raw, lines]
          by_cases same : num = other
          · subst same
            rcases Nat.lt_trichotomy j.val i.val with below | equal | above
            · simp [Fin.ext_iff, below, Nat.lt_succ_of_lt below, Nat.ne_of_gt below]
            · cases Fin.ext equal
              simp
            · simp [Fin.ext_iff, Nat.ne_of_lt above, Nat.not_lt_of_lt above,
                show ¬j.val < i.val + 1 by omega]
          · simp [same]
    have unsettled : ¬input.settled num := settled
    rw [inputCheckByte, if_pos (by simpa using settled), loop.2.2]
    simp [unsettled]

/-- The pass over one byte keeps the raw bytes and the saved bytes of the others. -/
theorem inputCheckByte_frame (num : Fin 3) (input : Input) :
    (inputCheckByte num input).buf = input.buf := by
  rw [inputCheckByte]
  split
  · -- None of the eight passes writes the raw bytes.
    let kept : Nat → Input × UInt8 → Prop := fun _ state => state.1.buf = input.buf
    exact countedLoop_invariant kept rfl fun i state held =>
      (inputCheckBit_frame state.1 state.2 num i).1.trans held
  · rfl

/-- Agreement of a byte is agreement of its eight lines. -/
theorem settled_iff (input : Input) (num : Fin 3) :
    input.settled num ↔ ∀ i, input.raw num i = (input.line num i).saved := by
  -- A byte is determined by its bits.
  constructor
  · intro same i
    exact congrArg (fun byte => bitAt byte i) same
  · exact fun same => eq_of_bitAt _ same

/-- One debouncing scan treats every line alone, except that a settled byte is skipped as a whole. -/
theorem extioInputCheck_line (input : Input) (num : Fin 3) (i : Fin 8) :
    (extioInputCheck input).line num i =
      if input.settled num then input.line num i else (input.line num i).scan (input.raw num i) := by
  -- After `n` bytes, exactly the lines of the bytes below `n` have been scanned.
  let scanned : Nat → Input → Prop := fun n current =>
    current.buf = input.buf ∧ ∀ other j, current.line other j =
      if other.val < n ∧ ¬input.settled other then (input.line other j).scan (input.raw other j)
      else input.line other j
  have loop : scanned 3 (extioInputCheck input) := by
    apply countedLoop_invariant scanned
    · exact ⟨rfl, fun other j => by simp⟩
    · rintro num current ⟨raws, lines⟩
      refine ⟨(inputCheckByte_frame num current).trans raws, fun other j => ?_⟩
      -- The byte being passed over is still as it was, so it is settled or not as before.
      have here : ∀ j, current.line num j = input.line num j := fun j => by simp [lines]
      have raw : ∀ j, current.raw num j = input.raw num j := fun j => by simp [Input.raw, raws]
      have settles : current.settled num ↔ input.settled num := by simp only [settled_iff, here, raw]
      simp only [inputCheckByte_line, here, raw, lines, settles]
      by_cases same : num = other
      · subst same
        simp
      · have order : other.val < num.val ↔ other.val < num.val + 1 := by
          have := fun equal => same (Fin.ext equal)
          omega
        simp [same, order]
  have all := loop.2 num i
  by_cases settled : input.settled num <;> simpa [settled, num.isLt] using all

end PkeFire
