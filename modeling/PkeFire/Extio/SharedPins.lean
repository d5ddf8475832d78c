import PkeFire.Extio.Chain

/-! The pins that `extio.c` shares with `lora.c`: the data and the clock of the registers also set the radio's mode. -/

namespace PkeFire

/-- The modes of the radio, which `lora.c` sets by the macros YM401_MODE0 to YM401_MODE3. -/
inductive RadioMode where
  | mode0
  | mode1
  | mode2
  | mode3
  deriving DecidableEq, Repr

/-- The levels that a macro writes to SETA_PIN and then to SETB_PIN. -/
def RadioMode.levels : RadioMode → Bool × Bool
  | .mode0 => (true, true)
  | .mode1 => (true, false)
  | .mode2 => (false, true)
  | .mode3 => (false, false)

/-- The registers of both directions and their pins, the output register as its data sheet has it. -/
structure Board where
  chain : InputChain
  /-- The level of EXTIO_ALARM_PIN, which is SETA_PIN. -/
  alarm : Bool
  /-- The level of EXTIO_LE_PIN. -/
  le : Bool
  /-- The bits that have been shifted into the output register, the latest one lowest. -/
  shifted : UInt8
  /-- The outputs of that register, which drive the floor alarms. -/
  relays : UInt8

namespace Board

/-- `rt_pin_write` on one of the serial pins. -/
def write (board : Board) (pin : SerialPin) (level : Bool) : Board :=
  let chain := board.chain.write pin level
  match pin with
  | .clk =>
    -- A rising edge of the clock shifts the output register as well.
    if level && !board.chain.clk then
      { board with chain := chain, shifted := (board.shifted <<< 1) ||| if board.alarm then 0x01 else 0 }
    else { board with chain := chain }
  | .pe => { board with chain := chain }
  | .le =>
    -- A rising edge takes over what has been shifted in.
    if level && !board.le then { board with chain := chain, le := level, relays := board.shifted }
    else { board with chain := chain, le := level }
  | .alarm => { board with chain := chain, alarm := level }

/-- The mode that the radio is in: EXTIO_CLK_PIN is SETB_PIN. -/
def radioMode (board : Board) : RadioMode :=
  match board.alarm, board.chain.clk with
  | true, true => .mode0
  | true, false => .mode1
  | false, true => .mode2
  | false, false => .mode3

/-- The body of the loop of `extio_write`, with both registers. -/
def extioWriteBit : UInt8 × Board → UInt8 × Board
  | (byte, board) =>
    let board := if byte &&& 0x80 != 0 then board.write .alarm true else board.write .alarm false
    (byte <<< 1, (board.write .clk true).write .clk false)

/-- `extio_write`. -/
def extioWrite (byte : UInt8) (board : Board) : Board :=
  (countedLoop 8 (fun _ => extioWriteBit) (byte, board)).2

/-- `extio_output`, for the single byte of EXTIO_OUT_MAX lines. -/
def extioOutput (byte : UInt8) (board : Board) : Board :=
  ((board.extioWrite byte).write .le true).write .le false

/-- The body of both loops of `extio_read`. -/
def extioReadBit : UInt8 × Board → UInt8 × Board
  | (byte, board) =>
    let board := board.write .clk true
    let byte := byte <<< 1
    let byte := if board.chain.read then byte ||| 0x01 else byte
    (byte, board.write .clk false)

/-- `extio_read`. -/
def extioRead (first : Bool) (board : Board) : UInt8 × Board :=
  if first then
    countedLoop 7 (fun _ => extioReadBit) (if board.chain.read then 0 ||| 0x01 else 0, board)
  else countedLoop 8 (fun _ => extioReadBit) (0, board)

/-- The loop of `extio_input` with `left` bytes of the buffer up to `in_ptr`. -/
def extioInputLoop {chips : Nat} : (left : Nat) → (i : UInt8) → Vector UInt8 chips → Board →
    Option (Vector UInt8 chips × Board)
  | 0, i, buf, board => if i.toNat < chips then none else some (buf, board)
  | left + 1, i, buf, board =>
    if i.toNat < chips then
      let (byte, board) := extioRead (i = 0) board
      extioInputLoop left (i + 1) (poke buf left byte) board
    else some (buf, board)

/-- `extio_input`. -/
def extioInput {chips : Nat} (buf : Vector UInt8 chips) (board : Board) : Option (Vector UInt8 chips × Board) :=
  extioInputLoop chips 0 buf ((board.write .pe false).write .pe true)

/-- `extio_init`, as far as it drives these pins. -/
def init (board : Board) : Board :=
  (((board.write .clk false).write .pe false).write .le false).write .alarm false

end Board

/-- What happens to the shared pins. -/
inductive PinEvent where
  /-- One pass of `extio_task`, which no thread of `lora.c` can interrupt. -/
  | pass (pass : SerialPass)
  /-- The first statement of a macro, on SETA_PIN. -/
  | setA (level : Bool)
  /-- The second statement of a macro, on SETB_PIN. -/
  | setB (level : Bool)

/-- The two statements of a macro. -/
def RadioMode.writes (mode : RadioMode) : List PinEvent :=
  [.setA mode.levels.1, .setB mode.levels.2]

/-- One event on the board, with the buffer that the inputs are read into in the FIRE_MACHINE build. -/
def pinStep (fireMachine : Bool) (state : Vector UInt8 3 × Board) : PinEvent → Option (Vector UInt8 3 × Board)
  | .pass pass =>
    let board := state.2.extioOutput pass.output
    let board := { board with chain := { board.chain with lines := pass.lines } }
    if fireMachine then board.extioInput state.1 else some (state.1, board)
  | .setA level => some (state.1, state.2.write .alarm level)
  | .setB level => some (state.1, state.2.write .clk level)

/-- What the two users of the pins amount to for each other. -/
structure SharedPins where
  /-- The floor alarms that are on. -/
  relays : UInt8
  /-- The level of SETA_PIN. -/
  setA : Bool
  /-- While SETB_PIN is high, the level that SETA_PIN had when it rose. -/
  raised : Option Bool
  deriving DecidableEq, Repr

/-- The floor alarms after a pass: if the clock is high already, its first edge and with it the highest bit are lost. -/
def SharedPins.driven (pins : SharedPins) (byte : UInt8) : UInt8 :=
  match pins.raised with
  | none => byte
  | some true => byte ||| bitMask 7
  | some false => byte &&& ~~~bitMask 7

/-- What an event amounts to. -/
def SharedPins.step (pins : SharedPins) : PinEvent → SharedPins
  -- A pass leaves its own last bit on SETA_PIN, and SETB_PIN low.
  | .pass pass => ⟨pins.driven pass.output, bitAt pass.output 0, none⟩
  | .setA level => { pins with setA := level }
  | .setB level => { pins with raised := if level then some (pins.raised.getD pins.setA) else none }

/-- What the board shows of its shared pins. -/
def Board.sharedPins (board : Board) : SharedPins where
  relays := board.relays
  setA := board.alarm
  raised := if board.chain.clk then some (bitAt board.shifted 0) else none

section

variable {board next : Board} {byte : UInt8}

/-- A pin of the input registers is written on the board as it is on them alone. -/
@[simp] theorem Board.chain_write (board : Board) (pin : SerialPin) (level : Bool) :
    (board.write pin level).chain = board.chain.write pin level := by
  cases pin <;> rw [Board.write] <;> (try split) <;> rfl

/-- What a loop over the pins is to the input registers alone. -/
def Board.onChain (state : UInt8 × Board) : UInt8 × InputChain :=
  (state.1, state.2.chain)

/-- Some clocks read the same from the input registers, whether there is an output register or not. -/
theorem Board.chain_readLoop (count : Nat) (state : UInt8 × Board) :
    onChain (countedLoop count (fun _ => extioReadBit) state) =
      countedLoop count (fun _ => PkeFire.extioReadBit) (onChain state) := by
  refine countedLoop_map onChain (fun _ state => ?_) state
  simp only [onChain, extioReadBit, PkeFire.extioReadBit, chain_write]
  rfl

/-- Reading a byte clocks the input registers as it does without the output register. -/
theorem Board.chain_extioRead (first : Bool) (board : Board) :
    onChain (extioRead first board) = PkeFire.extioRead first board.chain := by
  rw [extioRead, PkeFire.extioRead]
  split <;> rw [chain_readLoop, onChain]

/-- The inputs are read on the board as they are without the output register. -/
theorem Board.chain_extioInputLoop {chips left : Nat} {i : UInt8} {buf : Vector UInt8 chips} (board : Board) :
    (extioInputLoop left i buf board).map (fun state => (state.1, state.2.chain)) =
      PkeFire.extioInputLoop left i buf board.chain := by
  -- The induction is on the bytes that are left.
  induction left generalizing i buf board with
  | zero =>
    rw [extioInputLoop, PkeFire.extioInputLoop]
    split <;> rfl
  | succ left ih =>
    rw [extioInputLoop, PkeFire.extioInputLoop, ← chain_extioRead]
    split
    · exact ih _
    · rfl

/-- The outputs and the data pin are as before, and the latch is low. -/
structure Board.SameOutputs (board next : Board) : Prop where
  relays : next.relays = board.relays
  alarm : next.alarm = board.alarm
  le : next.le = board.le

/-- Clocking a register changes no output. -/
theorem Board.SameOutputs.write (same : board.SameOutputs next) {pin : SerialPin} (level : Bool)
    (clocks : pin = .clk ∨ pin = .pe) : board.SameOutputs (next.write pin level) := by
  rcases clocks with rfl | rfl
  · rw [Board.write]
    split <;> exact ⟨same.relays, same.alarm, same.le⟩
  · exact ⟨same.relays, same.alarm, same.le⟩

/-- Some clocks change no output. -/
theorem Board.SameOutputs.readLoop {state : UInt8 × Board} (same : board.SameOutputs state.2) (count : Nat) :
    board.SameOutputs (countedLoop count (fun _ => extioReadBit) state).2 := by
  refine countedLoop_invariant (fun _ (state : UInt8 × Board) => board.SameOutputs state.2) same fun _ state held => ?_
  exact (held.write true (Or.inl rfl)).write false (Or.inl rfl)

/-- Reading a byte changes no output. -/
theorem Board.SameOutputs.extioRead (same : board.SameOutputs next) (first : Bool) :
    board.SameOutputs (Board.extioRead first next).2 := by
  -- Both loops do nothing but clock.
  rw [Board.extioRead]
  split
  · exact same.readLoop 7
  · exact same.readLoop 8

/-- Reading the inputs changes no output. -/
theorem Board.SameOutputs.extioInputLoop {chips left : Nat} {i : UInt8} {buf after : Vector UInt8 chips}
    {middle : Board} (same : board.SameOutputs middle)
    (read : Board.extioInputLoop left i buf middle = some (after, next)) : board.SameOutputs next := by
  -- The induction is on the bytes that are left.
  induction left generalizing i buf middle with
  | zero =>
    rw [Board.extioInputLoop] at read
    split at read
    · cases read
    · cases read
      exact same
  | succ left ih =>
    rw [Board.extioInputLoop] at read
    split at read
    · exact ih (same.extioRead _) read
    · cases read
      exact same

/-- With the clock low, the inputs are read into the buffer, and no output changes. -/
theorem Board.extioInput_eq (board : Board) (low : board.chain.clk = false) (buf : Vector UInt8 3) :
    ∃ after next, board.extioInput buf = some (after, next) ∧ board.SameOutputs next ∧ next.chain.clk = false ∧
      Mapped board.chain.lines after := by
  obtain ⟨after, chain, read, again, mapped⟩ := PkeFire.extioInput_eq board.chain (by decide) low buf
  have viewed : (board.extioInput buf).map (fun state => (state.1, state.2.chain)) = some (after, chain) := by
    rw [Board.extioInput, chain_extioInputLoop, chain_write, chain_write]
    exact read
  obtain ⟨⟨same, next⟩, found, equal⟩ := Option.map_eq_some_iff.mp viewed
  obtain ⟨rfl, rfl⟩ := Prod.mk.inj equal
  have started : board.SameOutputs ((board.write .pe false).write .pe true) := ⟨rfl, rfl, rfl⟩
  exact ⟨same, next, found, started.extioInputLoop found, again, mapped⟩

/-- How many edges of the clock a pass loses: the first one, if the clock is high already. -/
def Board.lost (board : Board) : Nat :=
  if board.chain.clk then 1 else 0

/-- What some passes through the loop of `extio_write` have done. -/
structure Board.Written (board : Board) (byte : UInt8) (count : Nat) (state : UInt8 × Board) : Prop where
  clk : state.2.chain.clk = (decide (count = 0) && board.chain.clk)
  le : state.2.le = board.le
  alarm : 0 < count → state.2.alarm = bitAt byte (8 - count)
  left : ∀ j < 8, bitAt state.1 j = (decide (count ≤ j) && bitAt byte (j - count))
  shifted : ∀ j < 8, bitAt state.2.shifted j =
    if j < count - board.lost then bitAt byte (8 - count + j)
    else bitAt board.shifted (j - (count - board.lost))

/-- The highest bit of a byte is what remains after masking. -/
theorem and_highest_ne_zero (byte : UInt8) : (byte &&& 0x80 != 0) = bitAt byte 7 := by
  have mask : bitMask 7 = 0x80 := by decide
  rw [bne, ← mask, and_bitMask_eq_zero byte (by omega), Bool.not_not]

/-- A bit that is shifted in is the lowest one. -/
theorem bitAt_shiftIn (byte : UInt8) (level : Bool) {j : Nat} (within : j < 8) :
    bitAt ((byte <<< 1) ||| if level then 0x01 else 0) j = if j = 0 then level else bitAt byte (j - 1) := by
  cases level with
  | true =>
    rw [if_pos rfl, bitAt_or_one, bitAt_shiftLeft_one within]
    by_cases lowest : j = 0
    · simp [lowest]
    · simp [lowest, Ne.symm lowest, Nat.pos_of_ne_zero lowest]
  | false =>
    rw [if_neg Bool.false_ne_true, UInt8.or_zero, bitAt_shiftLeft_one within]
    by_cases lowest : j = 0
    · simp [lowest]
    · simp [lowest, Nat.pos_of_ne_zero lowest]

/-- A clock that goes up and down shifts the data in, unless it is high already. -/
theorem Board.pulse (board : Board) :
    ∃ clocks, (board.write .clk true).write .clk false = { board with
      chain := { board.chain with clocks := clocks, clk := false }
      shifted := if board.chain.clk then board.shifted
        else (board.shifted <<< 1) ||| if board.alarm then 0x01 else 0 } := by
  cases clk : board.chain.clk with
  | true => exact ⟨board.chain.clocks, by simp [Board.write, InputChain.write, clk]⟩
  | false => exact ⟨_, by simp [Board.write, InputChain.write, clk]; rfl⟩

/-- One more pass through the loop. -/
theorem Board.Written.bit {count : Nat} {state : UInt8 × Board} (written : board.Written byte count state)
    (within : count < 8) : board.Written byte (count + 1) (Board.extioWriteBit state) := by
  obtain ⟨cur, now⟩ := state
  obtain ⟨clk, le, _, left, shifted⟩ := written
  -- The bit to be written is the highest one that is left of the byte.
  have level : bitAt cur 7 = bitAt byte (7 - count) := by
    rw [left 7 (by omega), decide_eq_true (by omega), Bool.true_and]
  have data : (if cur &&& 0x80 != 0 then now.write .alarm true else now.write .alarm false) =
      now.write .alarm (bitAt cur 7) := by
    rw [and_highest_ne_zero]
    cases bitAt cur 7 <;> rfl
  obtain ⟨clocks, pulse⟩ := (now.write .alarm (bitAt cur 7)).pulse
  simp only at clk le left shifted
  simp only [extioWriteBit, data, pulse]
  refine ⟨by simp, le, fun _ => ?_, fun j small => ?_, fun j small => ?_⟩
  · -- The data stay on their pin while the clock goes up and down.
    rw [show 8 - (count + 1) = 7 - count by omega, ← level]
    rfl
  -- The byte is shifted on, and a zero comes in from below.
  · simp only [bitAt_shiftLeft_one small]
    by_cases lowest : j = 0
    · simp [lowest]
    · rw [left (j - 1) (by omega), show j - 1 - count = j - (count + 1) by omega]
      by_cases reached : count + 1 ≤ j
      · simp [reached, show 0 < j by omega, show count ≤ j - 1 by omega]
      · simp [reached, show ¬ count ≤ j - 1 by omega]
  · have edge : (now.write .alarm (bitAt cur 7)).chain.clk = (decide (count = 0) && board.chain.clk) := clk
    simp only [edge]
    by_cases lostEdge : count = 0 ∧ board.chain.clk = true
    · -- The clock is high at the beginning only, so that its first edge is lost.
      obtain ⟨rfl, high⟩ := lostEdge
      simp only [high, decide_true, Bool.and_self, if_true]
      refine (shifted j small).trans ?_
      simp [Board.lost, high]
    · have rising : (decide (count = 0) && board.chain.clk) = false := by
        rw [Bool.and_eq_false_imp, decide_eq_true_eq]
        exact fun zero => Bool.not_eq_true _ ▸ fun high => lostEdge ⟨zero, high⟩
      have fewer : board.lost ≤ count := by
        rw [Board.lost]
        split
        · rename_i high
          exact Nat.pos_of_ne_zero fun zero => lostEdge ⟨zero, high⟩
        · exact Nat.zero_le count
      simp only [rising, Bool.false_eq_true, if_false]
      refine (bitAt_shiftIn _ _ small).trans ?_
      -- The new bit comes in from below.
      by_cases lowest : j = 0
      · rw [if_pos lowest, if_pos (by omega)]
        refine level.trans ?_
        congr 1
        omega
      · -- Every earlier bit moves up by one.
        rw [if_neg lowest]
        refine (shifted (j - 1) (by omega)).trans ?_
        by_cases among : j < count + 1 - board.lost
        · rw [if_pos (by omega), if_pos among]
          congr 1
          omega
        · rw [if_neg (by omega), if_neg among]
          congr 1
          omega

/-- Putting out a byte drives the floor alarms, and leaves the radio with the clock low. -/
theorem Board.extioOutput_eq (board : Board) (low : board.le = false) (byte : UInt8) :
    (board.extioOutput byte).sharedPins = ⟨board.sharedPins.driven byte, bitAt byte 0, none⟩ ∧
      (board.extioOutput byte).le = false ∧ (board.extioOutput byte).chain.clk = false := by
  -- The loop keeps what has been written of the byte so far.
  have started : board.Written byte 0 (byte, board) := by
    refine ⟨by simp, rfl, fun more => absurd more (Nat.lt_irrefl 0), fun j _ => by simp, fun j _ => by simp⟩
  have written : board.Written byte 8 (countedLoop 8 (fun _ => extioWriteBit) (byte, board)) :=
    countedLoop_invariant (board.Written byte) started fun i _ held => held.bit i.isLt
  obtain ⟨clk, le, alarm, _, shifted⟩ := written
  rw [low] at le
  -- The latch takes over what has been shifted into the register.
  have latched : (board.extioOutput byte).relays = (board.extioWrite byte).shifted := by
    simp [extioOutput, Board.write, extioWrite, le]
  have again : (board.extioOutput byte).chain.clk = false := by
    simpa [extioOutput, InputChain.write, extioWrite] using clk
  have data : (board.extioOutput byte).alarm = bitAt byte 0 := by
    rw [← alarm (by omega)]
    simp [extioOutput, Board.write, extioWrite, le]
  refine ⟨?_, rfl, again⟩
  rw [sharedPins, again, data, latched, SharedPins.mk.injEq]
  refine ⟨?_, rfl, rfl⟩
  -- The bits of the register are compared with those of the byte.
  refine eq_of_bitAt _ fun j => ?_
  rw [extioWrite, shifted j j.isLt, sharedPins, SharedPins.driven, lost]
  by_cases high : board.chain.clk = true
  · simp only [high, if_true]
    cases level : bitAt board.shifted 0 with
    | true =>
      simp only [bitAt_or_bitMask byte (by omega : 7 < 8)]
      by_cases last : j.val = 7
      · simp [last, level]
      · simp [Ne.symm last, show j.val < 7 by omega]
    | false =>
      simp only [bitAt_and_not_bitMask byte (by omega : 7 < 8) j.isLt]
      by_cases last : j.val = 7
      · simp [last, level]
      · simp [Ne.symm last, show j.val < 7 by omega]
  -- With the clock low at the beginning, no edge is lost.
  · simp [high]

/-- What one event does on the board is what it amounts to. -/
theorem pinStep_eq (fireMachine : Bool) (buf : Vector UInt8 3) (low : board.le = false) (event : PinEvent) :
    ∃ after next, pinStep fireMachine (buf, board) event = some (after, next) ∧ next.le = false ∧
      next.sharedPins = board.sharedPins.step event ∧
      ∀ pass, event = .pass pass → fireMachine = true → Mapped pass.lines after := by
  cases event with
  | pass pass =>
    obtain ⟨driven, le, clk⟩ := board.extioOutput_eq low pass.output
    let middle : Board := { board.extioOutput pass.output with
      chain := { (board.extioOutput pass.output).chain with lines := pass.lines } }
    cases fireMachine with
    | false => exact ⟨buf, middle, rfl, le, driven, fun _ _ never => by cases never⟩
    | true =>
      obtain ⟨after, next, read, same, again, mapped⟩ := middle.extioInput_eq clk buf
      refine ⟨after, next, read, same.le.trans le, ?_, ?_⟩
      · -- Reading the inputs clocks the output register, but latches nothing.
        rw [SharedPins.step, ← driven, Board.sharedPins, Board.sharedPins, again, clk, same.relays, same.alarm]
        rfl
      · rintro pass ⟨⟩ _
        exact mapped
  | setA level =>
    exact ⟨buf, _, rfl, low, rfl, fun _ other => by cases other⟩
  | setB level =>
    refine ⟨buf, _, rfl, ?_, ?_, fun _ other => by cases other⟩
    · simp only [Board.write]
      split <;> exact low
    · cases level with
      | false => simp [Board.sharedPins, Board.write, InputChain.write, SharedPins.step]
      | true =>
        -- An edge takes over the level of the data, and without one the register keeps it.
        cases clk : board.chain.clk with
        | true => simp [Board.sharedPins, Board.write, InputChain.write, SharedPins.step, clk]
        | false =>
          have lowest := bitAt_shiftIn board.shifted board.alarm (by omega : 0 < 8)
          rw [if_pos rfl] at lowest
          simp [Board.sharedPins, Board.write, InputChain.write, SharedPins.step, clk, lowest]

end

/-- The pins when the board has been initialised. -/
def sharedPinsInit (board : Board) : SharedPins :=
  ⟨board.relays, false, none⟩

/-- An initialised board has its clock and its latch low. -/
theorem Board.init_eq (board : Board) : board.init.le = false ∧ board.init.sharedPins = sharedPinsInit board :=
  ⟨rfl, rfl⟩

/-- The floor alarms other than the last one are driven as they should be. -/
theorem SharedPins.bitAt_driven (pins : SharedPins) (byte : UInt8) {i : Nat} (within : i < 7) :
    bitAt (pins.driven byte) i = bitAt byte i := by
  have other : ¬ 7 = i := by omega
  rw [driven]
  split
  · rfl
  · simp [bitAt_or_bitMask, other]
  · simp [bitAt_and_not_bitMask byte (by omega : 7 < 8) (by omega : i < 8), other]

/-- With the clock low, the level of SETA_PIN tells the radio's mode. -/
theorem Board.radioMode_eq {board : Board} {relays : UInt8} {level : Bool}
    (shown : board.sharedPins = ⟨relays, level, none⟩) :
    board.relays = relays ∧ board.radioMode = if level then .mode1 else .mode3 := by
  rw [sharedPins, SharedPins.mk.injEq] at shown
  obtain ⟨same, data, low⟩ := shown
  have clk : board.chain.clk = false := by
    cases clk : board.chain.clk with
    | false => rfl
    | true => simp [clk] at low
  rw [radioMode, clk, data]
  cases level <;> exact ⟨same, rfl⟩

/-- What remains of a run that ends with a pass. -/
structure AfterPass (fireMachine : Bool) (pass : SerialPass) (buf : Vector UInt8 3) (board : Board) : Prop where
  /-- Whatever mode `lora.c` has set, the radio is now in one of the two modes with SETB_PIN low. -/
  radioMode : board.radioMode = if bitAt pass.output 0 then .mode1 else .mode3
  /-- The first seven floor alarms are as they have been put out. -/
  relays : ∀ i < 7, bitAt board.relays i = bitAt pass.output i
  /-- The inputs have been read. -/
  inputs : fireMachine = true → Mapped pass.lines buf

/--
On every run, whatever order the two users of the pins write them in, the board shows what the writes amount to.

A pass undoes every mode of the radio, and the first pass after YM401_MODE0 switches the eighth floor alarm on.
-/
theorem sharedPins_refined (fireMachine : Bool) (board : Board) (events : List PinEvent) :
    ∃ buf finish, run (pinStep fireMachine) (bufInit 3, board.init) events = some (buf, finish) ∧
      finish.sharedPins = events.foldl SharedPins.step (sharedPinsInit board) ∧
      (∀ earlier pass, events = earlier ++ [.pass pass] → AfterPass fireMachine pass buf finish) ∧
      ∀ earlier before pass, events = earlier ++ [.pass before] ++ RadioMode.mode0.writes ++ [.pass pass] →
        bitAt finish.relays 7 = true := by
  -- The invariant keeps the latch low, so that every pass has its rising edge.
  have held : ∃ buf finish, run (pinStep fireMachine) (bufInit 3, board.init) events = some (buf, finish) ∧
      finish.le = false ∧ finish.sharedPins = events.foldl SharedPins.step (sharedPinsInit board) ∧
      ∀ earlier pass, events = earlier ++ [.pass pass] → fireMachine = true → Mapped pass.lines buf := by
    induction events using List.reverseRecOn with
    | nil => exact ⟨_, _, rfl, board.init_eq.1, board.init_eq.2, fun earlier pass none => by simp at none⟩
    | append_singleton events event ih =>
      obtain ⟨buf, middle, ran, low, shown, _⟩ := ih
      obtain ⟨after, next, taken, again, stepped, mapped⟩ := pinStep_eq fireMachine buf low event
      refine ⟨after, next, run_append_some.mpr ⟨_, ran, (run_singleton _ _).trans taken⟩, again, ?_, ?_⟩
      · rw [List.foldl_append, ← shown, stepped]
        rfl
      · intro earlier pass same build
        exact mapped pass (List.append_singleton_inj.mp same).2 build
  obtain ⟨buf, finish, ran, _, shown, mapped⟩ := held
  refine ⟨buf, finish, ran, shown, ?_, ?_⟩
  · rintro earlier pass rfl
    rw [List.foldl_append] at shown
    obtain ⟨relays, mode⟩ := Board.radioMode_eq shown
    refine ⟨mode, fun i within => ?_, mapped earlier pass rfl⟩
    rw [relays, SharedPins.bitAt_driven _ _ within]
  · -- The pass before has left SETB_PIN low, so that the macro makes the rising edge with SETA_PIN high.
    rintro earlier before pass rfl
    rw [List.foldl_append, List.foldl_append] at shown
    rw [(Board.radioMode_eq shown).1]
    simp [RadioMode.writes, RadioMode.levels, SharedPins.step, SharedPins.driven,
      bitAt_or_bitMask pass.output (by omega : 7 < 8)]

end PkeFire
