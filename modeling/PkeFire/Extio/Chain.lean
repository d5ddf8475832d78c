import PkeFire.Extio.Channels
import PkeFire.Run.Memory

/-! The chain of shift registers behind the serial inputs, and how `extio_input` clocks it into the buffer. -/

namespace PkeFire

/-- The pins by which the serial inputs and outputs are driven. -/
inductive SerialPin where
  /-- EXTIO_CLK_PIN, the clock of all registers. -/
  | clk
  /-- EXTIO_PE_PIN: the input registers are loaded while it is low. -/
  | pe
  /-- EXTIO_LE_PIN, which belongs to the output register. -/
  | le
  /-- EXTIO_ALARM_PIN, the data of the output register. -/
  | alarm
  deriving DecidableEq, Repr

/-- The input registers in a row, as their data sheet has them: `extio.c` only drives their pins. -/
structure InputChain where
  /-- The levels at the inputs of the registers, the one next to the output first. -/
  lines : Nat → Bool
  /-- The levels that have been loaded. -/
  latched : Nat → Bool
  /-- The rising edges of the clock since then, each of which has exposed the next level. -/
  clocks : Nat
  clk : Bool
  pe : Bool

/-- `rt_pin_write` on one of the serial pins. -/
def InputChain.write (chain : InputChain) (pin : SerialPin) (level : Bool) : InputChain :=
  match pin with
  -- Only a rising edge shifts, and only while nothing is being loaded.
  | .clk =>
    { chain with
      clocks := if level && !chain.clk && chain.pe then chain.clocks + 1 else chain.clocks
      clk := level }
  | .pe =>
    if level then { chain with pe := true }
    else { chain with latched := chain.lines, clocks := 0, pe := false }
  | .le | .alarm => chain

/-- `rt_pin_read` of EXTIO_SMOKE_PIN, the output of the chain. -/
def InputChain.read (chain : InputChain) : Bool :=
  chain.latched chain.clocks

/-- The body of the loop of `extio_write`. -/
def extioWriteBit : UInt8 × InputChain → UInt8 × InputChain
  | (byte, chain) =>
    let chain := if byte &&& 0x80 != 0 then chain.write .alarm true else chain.write .alarm false
    (byte <<< 1, (chain.write .clk true).write .clk false)

/-- `extio_write`. -/
def extioWrite (byte : UInt8) (chain : InputChain) : InputChain :=
  (countedLoop 8 (fun _ => extioWriteBit) (byte, chain)).2

/-- `extio_output`, for the single byte of EXTIO_OUT_MAX lines. -/
def extioOutput (byte : UInt8) (chain : InputChain) : InputChain :=
  ((extioWrite byte chain).write .le true).write .le false

/-- The body of both loops of `extio_read`. -/
def extioReadBit : UInt8 × InputChain → UInt8 × InputChain
  | (byte, chain) =>
    let chain := chain.write .clk true
    let byte := byte <<< 1
    let byte := if chain.read then byte ||| 0x01 else byte
    (byte, chain.write .clk false)

/-- `extio_read`: the byte that is read, and the chain behind it. -/
def extioRead (first : Bool) (chain : InputChain) : UInt8 × InputChain :=
  if first then
    -- The first level is there before any clock.
    countedLoop 7 (fun _ => extioReadBit) (if chain.read then 0 ||| 0x01 else 0, chain)
  else countedLoop 8 (fun _ => extioReadBit) (0, chain)

/-- The loop of `extio_input` with `left` bytes of the buffer up to `in_ptr`, before which it may not write. -/
def extioInputLoop {chips : Nat} : (left : Nat) → (i : UInt8) → Vector UInt8 chips → InputChain →
    Option (Vector UInt8 chips × InputChain)
  | 0, i, buf, chain => if i.toNat < chips then none else some (buf, chain)
  | left + 1, i, buf, chain =>
    if i.toNat < chips then
      let (byte, chain) := extioRead (i = 0) chain
      extioInputLoop left (i + 1) (poke buf left byte) chain
    else some (buf, chain)

/-- `extio_input` for a buffer of EXTIO_IN_MAX / 8 bytes. -/
def extioInput {chips : Nat} (buf : Vector UInt8 chips) (chain : InputChain) :
    Option (Vector UInt8 chips × InputChain) :=
  -- The inputs are loaded, and held from then on.
  extioInputLoop chips 0 buf ((chain.write .pe false).write .pe true)

/-- `extio_init`, as far as it drives the chain. -/
def chainInit (chain : InputChain) : InputChain :=
  (((chain.write .clk false).write .pe false).write .le false).write .alarm false

/-- One pass of `extio_task`: the byte that is put out, and the levels at the inputs. -/
structure SerialPass where
  output : UInt8
  lines : Nat → Bool

/-- What a pass does to the buffer and to the chain. -/
def serialPass {chips : Nat} (state : Vector UInt8 chips × InputChain) (pass : SerialPass) :
    Option (Vector UInt8 chips × InputChain) :=
  extioInput state.1 { extioOutput pass.output state.2 with lines := pass.lines }

/-- The buffer when the task is started. -/
def bufInit (chips : Nat) : Vector UInt8 chips :=
  .replicate chips 0xff

/-- Every level is in its place, from the highest bit of the last byte to the lowest bit of the first. -/
def Mapped {chips : Nat} (lines : Nat → Bool) (buf : Vector UInt8 chips) : Prop :=
  ∀ (k : Nat) (within : k < 8 * chips), bitAt (load buf ⟨chips - 1 - k / 8, by omega⟩) (7 - k % 8) = lines k

/-- `is_smoke(num + 1)`, for any number of bytes. -/
def isSmokeOf {chips : Nat} (save : Vector UInt8 chips) (num : Fin (8 * chips)) : Bool :=
  load save ⟨num / 8, by omega⟩ &&& bitMask (num % 8) == 0

/-- The level of a line has been taken over from the buffer. -/
def Debounced {chips : Nat} (save buf : Vector UInt8 chips) (num : Fin (8 * chips)) : Prop :=
  bitAt (load save ⟨num / 8, by omega⟩) (num % 8) = bitAt (load buf ⟨num / 8, by omega⟩) (num % 8)

/-- The buffer maps the chain, and once a line is debounced, its detector is read at the mirrored place of the chain. -/
def ReadsChain {chips : Nat} (lines : Nat → Bool) (buf : Vector UInt8 chips) : Prop :=
  Mapped lines buf ∧
    ∀ save num, Debounced save buf num → isSmokeOf save num = !lines (8 * chips - (num.val + 1))

/-- Every pass of the task, however long the chain is, reads the whole of it. -/
def ChainRead : Prop :=
  ∀ chips, 1 ≤ chips → ∀ chain passes pass, ∃ state,
    run serialPass (bufInit chips, chainInit chain) (passes ++ [pass]) = some state ∧ ReadsChain pass.lines state.1

/-- What a pass does on the board, where the three bytes are debounced. -/
def boardPass (board : Input × InputChain) (pass : SerialPass) : Option (Input × InputChain) := do
  let (buf, chain) ← serialPass (board.1.buf, board.2) pass
  let input ← inputScan board.1 buf
  return (input, chain)

section

variable {chain : InputChain} {byte : UInt8} {j : Nat}

/-- Shifting a byte left by one renumbers its bits, and the lowest one is clear. -/
theorem bitAt_shiftLeft_one (within : j < 8) : bitAt (byte <<< 1) j = (decide (0 < j) && bitAt byte (j - 1)) := by
  cases j with
  -- Nothing is shifted into the lowest bit.
  | zero => simp [bitAt]
  | succ j =>
    have cell : byte.toBitVec.getLsbD j = byte.toBitVec[j] := BitVec.getLsbD_eq_getElem (by omega)
    simp [bitAt, within, cell]

/-- Setting the lowest bit of a byte keeps the others. -/
theorem bitAt_or_one (byte : UInt8) (j : Nat) : bitAt (byte ||| 0x01) j = (bitAt byte j || decide (0 = j)) := by
  -- The constant one is the mask of bit zero.
  have mask : bitMask 0 = 0x01 := by decide
  rw [← mask]
  exact bitAt_or_bitMask byte (by omega)

/-- A clock that is low again has shifted the chain by one. -/
theorem pulse_eq (low : chain.clk = false) (held : chain.pe = true) :
    (chain.write .clk true).write .clk false = { chain with clocks := chain.clocks + 1 } := by
  simp [InputChain.write, low, held]

/-- One pass through the loops of `extio_read` appends the next level to the byte. -/
theorem extioReadBit_eq (chain : InputChain) (byte : UInt8) (low : chain.clk = false) (held : chain.pe = true) :
    (extioReadBit (byte, chain)).2 = { chain with clocks := chain.clocks + 1 } ∧
      ∀ j < 8, bitAt (extioReadBit (byte, chain)).1 j =
        if j = 0 then chain.latched (chain.clocks + 1) else bitAt byte (j - 1) := by
  refine ⟨pulse_eq low held, fun j within => ?_⟩
  have level : (chain.write .clk true).read = chain.latched (chain.clocks + 1) := by
    simp [InputChain.write, InputChain.read, low, held]
  -- The level goes into the bit that the shift has cleared.
  simp only [extioReadBit, level]
  split
  · rename_i high
    rw [bitAt_or_one, bitAt_shiftLeft_one within, high]
    by_cases lowest : j = 0
    · simp [lowest]
    · simp [lowest, Ne.symm lowest, Nat.pos_of_ne_zero lowest]
  · -- A low level leaves that bit clear.
    rename_i clear
    rw [bitAt_shiftLeft_one within]
    by_cases lowest : j = 0
    · simpa [lowest] using clear
    · simp [lowest, Nat.pos_of_ne_zero lowest]

/-- Some passes through the loops of `extio_read` append as many levels, the last of them in the lowest bit. -/
theorem readLoop_eq (byte : UInt8) (low : chain.clk = false) (held : chain.pe = true) (count : Nat) :
    (countedLoop count (fun _ => extioReadBit) (byte, chain)).2 = { chain with clocks := chain.clocks + count } ∧
      ∀ j < 8, bitAt (countedLoop count (fun _ => extioReadBit) (byte, chain)).1 j =
        if j < count then chain.latched (chain.clocks + count - j) else bitAt byte (j - count) := by
  let appended : Nat → UInt8 × InputChain → Prop := fun n state =>
    state.2 = { chain with clocks := chain.clocks + n } ∧ ∀ j < 8, bitAt state.1 j =
      if j < n then chain.latched (chain.clocks + n - j) else bitAt byte (j - n)
  refine countedLoop_invariant appended ⟨rfl, fun j _ => by simp⟩ ?_
  rintro n ⟨current, later⟩ ⟨rfl, bits⟩
  obtain ⟨shifted, read⟩ := extioReadBit_eq { chain with clocks := chain.clocks + n.val } current low held
  refine ⟨shifted, fun j within => ?_⟩
  rw [read j within]
  -- Every earlier level moves up by one.
  by_cases lowest : j = 0
  · simp [lowest, Nat.add_assoc]
  · rw [if_neg lowest, bits (j - 1) (by omega)]
    -- Behind the levels of the loop, the bits of the byte it started from follow.
    by_cases before : j < n.val + 1
    · rw [if_pos (by omega), if_pos before]
      congr 1
      omega
    · rw [if_neg (by omega), if_neg before]
      congr 1
      omega

/-- A byte that is read takes up the next eight levels, of which the first is already there at the beginning. -/
theorem extioRead_eq (first : Bool) (low : chain.clk = false) (held : chain.pe = true) :
    (extioRead first chain).2 = { chain with clocks := chain.clocks + if first then 7 else 8 } ∧
      ∀ m < 8, bitAt (extioRead first chain).1 (7 - m) =
        chain.latched (chain.clocks + if first then m else m + 1) := by
  cases first with
  | false =>
    -- Every bit of the byte has been read behind a clock.
    obtain ⟨shifted, bits⟩ := readLoop_eq 0 low held 8
    refine ⟨shifted, fun m within => (bits (7 - m) (by omega)).trans ?_⟩
    rw [if_pos (by omega), if_neg (by decide)]
    congr 1
    omega
  | true =>
    obtain ⟨shifted, bits⟩ := readLoop_eq (if chain.read then 0 ||| 0x01 else 0) low held 7
    refine ⟨shifted, fun m within => (bits (7 - m) (by omega)).trans ?_⟩
    rw [if_pos rfl]
    by_cases highest : m = 0
    · -- Seven shifts take the first level to the highest bit.
      subst highest
      rw [if_neg (by omega)]
      show bitAt (if chain.read then 0 ||| 0x01 else 0) 0 = chain.read
      cases chain.read <;> decide
    · -- The others have been read behind a clock, one clock earlier than in the other loop.
      rw [if_pos (by omega)]
      congr 1
      omega

/-- The levels up to some byte are in their places. -/
def MappedTo {chips : Nat} (done : Nat) (lines : Nat → Bool) (buf : Vector UInt8 chips) : Prop :=
  ∀ k < 8 * done, ∀ place : Fin chips, place.val = chips - 1 - k / 8 → bitAt (load buf place) (7 - k % 8) = lines k

/-- A byte that is read and stored in front of the others continues the mapping. -/
theorem MappedTo.poke {chips left done : Nat} {lines : Nat → Bool} {buf : Vector UInt8 chips}
    (mapped : MappedTo done lines buf) (split : left + 1 + done = chips)
    (bits : ∀ m < 8, bitAt byte (7 - m) = lines (8 * done + m)) :
    MappedTo (done + 1) lines (PkeFire.poke buf left byte) := by
  intro k within place same
  rw [load_poke]
  by_cases before : k < 8 * done
  · -- The earlier levels lie in later bytes.
    rw [if_neg (by omega)]
    exact mapped k before place same
  · -- The others are those of the present byte.
    rw [if_pos (by omega), bits (k % 8) (Nat.mod_lt _ (by decide))]
    congr 1
    omega

/-- The loop fills the bytes that are left with the levels that follow. -/
theorem extioInputLoop_eq {chips left done : Nat} {i : UInt8} {buf : Vector UInt8 chips} (chain : InputChain)
    (fits : chips ≤ 255) (split : left + done = chips) (counted : i.toNat = done) (low : chain.clk = false)
    (held : chain.pe = true) (clocks : chain.clocks = 8 * done - 1) (mapped : MappedTo done chain.latched buf) :
    ∃ after next, extioInputLoop left i buf chain = some (after, next) ∧ next.clk = false ∧
      MappedTo chips chain.latched after := by
  -- The induction is on the bytes that are left.
  induction left generalizing done i buf chain with
  | zero =>
    -- The counter has reached the length, so the loop ends with every byte filled.
    rw [Nat.zero_add] at split
    exact ⟨buf, chain, by rw [extioInputLoop, if_neg (by omega)], low, split ▸ mapped⟩
  | succ left ih =>
    -- Up to 255 bytes, the counter does not wrap around.
    have next : (i + 1).toNat = done + 1 := toNat_succ counted (by omega)
    have first : i = 0 ↔ done = 0 := by
      rw [← UInt8.toNat_inj, counted, UInt8.toNat_zero]
    obtain ⟨shifted, bits⟩ := extioRead_eq (decide (i = 0)) low held
    simp only [decide_eq_true_eq, first, clocks] at shifted bits
    rw [extioInputLoop, if_pos (by omega)]
    simp only [first, shifted]
    -- Behind the first byte, one clock is made up for.
    refine ih _ (by omega) next low held (by simp only; split <;> omega) (mapped.poke split fun m within => ?_)
    rw [bits m within]
    congr 1
    split <;> omega

/-- A counter of eight bits never reaches 256, so the loop goes on before the beginning of the buffer. -/
theorem extioInputLoop_none {chips : Nat} (many : 256 ≤ chips) (left : Nat) (i : UInt8) (buf : Vector UInt8 chips)
    (chain : InputChain) : extioInputLoop left i buf chain = none := by
  have below (i : UInt8) : i.toNat < chips := Nat.lt_of_lt_of_le i.toNat_lt many
  -- Each pass leaves one byte less.
  induction left generalizing i buf chain with
  | zero => rw [extioInputLoop, if_pos (below i)]
  | succ left ih =>
    rw [extioInputLoop, if_pos (below i)]
    exact ih _ _ _

/-- A call of `extio_input` that finds the clock low reads the whole chain, and leaves the clock low. -/
theorem extioInput_eq {chips : Nat} (chain : InputChain) (fits : chips ≤ 255) (low : chain.clk = false)
    (buf : Vector UInt8 chips) :
    ∃ after next, extioInput buf chain = some (after, next) ∧ next.clk = false ∧ Mapped chain.lines after := by
  have nothing : MappedTo 0 chain.lines buf := fun k within => absurd within (by omega)
  obtain ⟨after, next, filled, again, mapped⟩ :=
    extioInputLoop_eq ((chain.write .pe false).write .pe true) fits (Nat.add_zero chips) UInt8.toNat_zero low rfl rfl
      nothing
  exact ⟨after, next, filled, again, fun k within => mapped k within _ rfl⟩

/-- Putting out a byte leaves the clock low. -/
theorem low_extioOutput (low : chain.clk = false) (byte : UInt8) : (extioOutput byte chain).clk = false := by
  -- Every bit ends with the clock low.
  have loop : (extioWrite byte chain).clk = false := by
    refine countedLoop_invariant (fun _ (state : UInt8 × InputChain) => state.2.clk = false) low ?_
    rintro _ ⟨byte, chain⟩ _
    rfl
  exact loop

/-- A pass that finds the clock low reads the chain, and leaves the clock low. -/
theorem serialPass_eq {chips : Nat} (fits : chips ≤ 255) (low : chain.clk = false) (buf : Vector UInt8 chips)
    (pass : SerialPass) :
    ∃ after next, serialPass (buf, chain) pass = some (after, next) ∧ next.clk = false ∧ Mapped pass.lines after :=
  extioInput_eq { extioOutput pass.output chain with lines := pass.lines } fits (low_extioOutput low pass.output) buf

/-- Any number of passes leave the clock low. -/
theorem run_serialPass {chips : Nat} (chain : InputChain) (fits : chips ≤ 255) (low : chain.clk = false)
    (buf : Vector UInt8 chips) (passes : List SerialPass) :
    ∃ after next, run serialPass (buf, chain) passes = some (after, next) ∧ next.clk = false := by
  -- The induction takes the first pass off.
  induction passes generalizing buf chain with
  | nil => exact ⟨buf, chain, rfl, low⟩
  | cons pass passes ih =>
    obtain ⟨after, next, taken, again, _⟩ := serialPass_eq fits low buf pass
    obtain ⟨last, finish, ran, lowest⟩ := ih next again after
    exact ⟨last, finish, by rw [run_cons, taken, Option.bind_some, ran], lowest⟩

/-- The mirrored place of a line leads back to its own byte and bit. -/
theorem Mapped.line {chips : Nat} {lines : Nat → Bool} {buf : Vector UInt8 chips} (mapped : Mapped lines buf)
    (num : Fin (8 * chips)) :
    bitAt (load buf ⟨num / 8, by omega⟩) (num % 8) = lines (8 * chips - (num.val + 1)) := by
  have bounded := num.isLt
  have level := mapped (8 * chips - (num.val + 1)) (by omega)
  have byte : chips - 1 - (8 * chips - (num.val + 1)) / 8 = num.val / 8 := by omega
  have bit : 7 - (8 * chips - (num.val + 1)) % 8 = num.val % 8 := by omega
  simpa only [byte, bit] using level

/-- A detector is read where the mapping puts its line. -/
theorem Mapped.readsChain {chips : Nat} {lines : Nat → Bool} {buf : Vector UInt8 chips} (mapped : Mapped lines buf) :
    ReadsChain lines buf := by
  refine ⟨mapped, fun save num debounced => ?_⟩
  -- The saved level is the one in the buffer.
  rw [isSmokeOf, and_bitMask_eq_zero _ (Nat.mod_lt _ (by decide)), debounced, mapped.line num]

/-- The passes on the board debounce what they read. -/
theorem run_boardPass (chain : InputChain) (low : chain.clk = false) (input : Input) (passes : List SerialPass) :
    ∃ board samples, run boardPass (input, chain) passes = some board ∧ board.2.clk = false ∧
      run inputScan input samples = some board.1 ∧
        List.Forall₂ (fun pass sample => Mapped (SerialPass.lines pass) sample) passes samples := by
  induction passes generalizing input chain with
  | nil => exact ⟨(input, chain), [], rfl, low, rfl, List.Forall₂.nil⟩
  | cons pass passes ih =>
    obtain ⟨sample, next, taken, again, mapped⟩ := serialPass_eq (by decide) low input.buf pass
    obtain ⟨board, samples, ran, last, scanned, others⟩ := ih next again (extioInputCheck { input with buf := sample })
    -- The sample of the first pass is scanned before the others.
    refine ⟨board, sample :: samples, ?_, last, ?_, List.Forall₂.cons mapped others⟩
    · simp only [run_cons, boardPass, taken, inputScan, Option.bind_eq_bind, Option.bind_some, Option.pure_def]
      exact ran
    · rw [run_cons, inputScan, Option.bind_some]
      exact scanned

/-- When every pass has a line at some level, so has every sample. -/
theorem samples_level {chips : Nat} {passes : List SerialPass} {samples : List (Vector UInt8 chips)} {level : Bool}
    (mapped : List.Forall₂ (fun pass sample => Mapped (SerialPass.lines pass) sample) passes samples)
    (num : Fin (8 * chips)) (steady : ∀ pass ∈ passes, pass.lines (8 * chips - (num.val + 1)) = level) :
    ∀ sample ∈ samples, bitAt (load sample ⟨num / 8, by omega⟩) (num % 8) = level := by
  -- Passes and samples come in pairs.
  induction mapped with
  | nil => exact fun sample among => absurd among List.not_mem_nil
  | cons first _ ih =>
    rw [List.forall_mem_cons] at steady ⊢
    exact ⟨(first.line num).trans steady.1, ih steady.2⟩

end

/--
For every length of the chain that the counter of the loop can reach, every pass reads the whole chain.

On the board, a line that has held its level for thirty-one passes is what `is_smoke` tells about it.
-/
theorem chain_read :
    (∀ chips, 1 ≤ chips → chips ≤ 255 → ∀ chain passes pass, ∃ state,
      run serialPass (bufInit chips, chainInit chain) (passes ++ [pass]) = some state ∧
        ReadsChain pass.lines state.1) ∧
    ∀ (chain : InputChain) (earlier held : List SerialPass) (num : Fin 24) (level : Bool),
      (∀ pass ∈ held, pass.lines (24 - (num.val + 1)) = level) → 31 ≤ held.length →
        ∃ board, run boardPass (extioInit.input, chainInit chain) (earlier ++ held) = some board ∧
          { extioInit with input := board.1 }.isSmoke num = !level := by
  constructor
  · intro chips _ fits chain passes pass
    obtain ⟨buf, middle, ran, low⟩ := run_serialPass (chainInit chain) fits rfl (bufInit chips) passes
    obtain ⟨after, next, taken, _, mapped⟩ := serialPass_eq fits low buf pass
    -- Whatever the earlier passes have left behind, the last one reads everything anew.
    exact ⟨(after, next), run_append_some.mpr ⟨_, ran, (run_singleton _ _).trans taken⟩, mapped.readsChain⟩
  · intro chain earlier held num level steady enough
    obtain ⟨middle, before, ran, low, scanned, _⟩ := run_boardPass (chainInit chain) rfl extioInit.input earlier
    obtain ⟨board, samples, later, _, rest, mapped⟩ := run_boardPass middle.2 low middle.1 held
    refine ⟨board, run_append_some.mpr ⟨middle, ran, later⟩, ?_⟩
    have byte : num.val / 8 < 3 := by omega
    have bit : num.val % 8 < 8 := Nat.mod_lt _ (by decide)
    -- Every sample has the line at its level, so that it is saved after thirty-one of them.
    have sampled := samples_level mapped num steady
    have accepted := (debounce_complete scanned).2 ⟨num.val / 8, byte⟩ ⟨num.val % 8, bit⟩ level samples board.1 sampled
      (mapped.length_eq ▸ enough) rest
    have smoke : { extioInit with input := board.1 }.isSmoke num =
        !bitAt (load board.1.save ⟨num.val / 8, byte⟩) (num.val % 8) := and_bitMask_eq_zero _ bit
    rw [smoke]
    exact congrArg not accepted

/-- A chain that has just been switched on, with all its lines high. -/
def idleChain : InputChain where
  lines := fun _ => true
  latched := fun _ => true
  clocks := 0
  clk := true
  pe := true

/-- On the board, a pass with only the first line of the chain low reads all three bytes. -/
theorem chain_read_board : ∃ state,
    run serialPass (bufInit 3, chainInit idleChain) ([] ++ [⟨0x55, (· ≠ 0)⟩]) = some state ∧
      ReadsChain (· ≠ 0) state.1 :=
  chain_read.1 3 (by decide) (by decide) idleChain [] ⟨0x55, (· ≠ 0)⟩

/-- With 2048 lines, the counter of the loop comes back to zero, and the loop writes before the buffer. -/
theorem chain_not_read : ¬ ChainRead := by
  intro reads
  obtain ⟨state, ran, _⟩ := reads 256 (by decide) idleChain [] ⟨0, fun _ => true⟩
  -- The very first pass fails.
  have failed : run serialPass (bufInit 256, chainInit idleChain) ([] ++ [⟨0, fun _ => true⟩]) = none :=
    (run_singleton _ _).trans (extioInputLoop_none (Nat.le_refl 256) _ _ _ _)
  rw [failed] at ran
  cases ran

end PkeFire
