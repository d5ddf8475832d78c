import Mathlib.Data.List.Forall2
import PkeFire.Extio.DebounceHistory

/-! Each serial line on its own: how soon it is debounced, and whether the other lines of its byte can tell. -/

namespace PkeFire

section

variable {num : Fin 3} {i : Fin 8} {input next : Input} {level : Bool}

/-- Scans that hold the line at one level accept it when the counter is full, and count until then. -/
theorem inputScan_held {samples : List (Vector UInt8 3)}
    (held : ∀ sample ∈ samples, bitAt (load sample num) i = level) (bounded : (input.line num i).timer ≤ 30)
    (ran : run inputScan input samples = some next) :
    ((next.line num i).saved = level ↔
      (input.line num i).saved = level ∨ 30 < (input.line num i).timer + samples.length) ∧
    ((next.line num i).saved ≠ level →
      (next.line num i).timer = (input.line num i).timer + samples.length) := by
  induction samples generalizing input with
  | nil =>
    -- No scan fills a counter that is bounded.
    rw [← Option.some.inj ran, List.length_nil, Nat.add_zero]
    exact ⟨⟨Or.inl, fun accepted => accepted.resolve_right (by omega)⟩, fun _ => rfl⟩
  | cons sample rest ih =>
    rw [run_cons, Option.bind_eq_some_iff] at ran
    obtain ⟨middle, scanned, ran⟩ := ran
    have raw := held sample List.mem_cons_self
    have line := inputScan_line scanned num i
    have later := ih (fun other among => held other (List.mem_cons_of_mem sample among))
      (inputScan_timer_le bounded scanned) ran
    by_cases accepted : (input.line num i).saved = level
    · -- An accepted level stays accepted, whether or not the byte is skipped.
      have stays : (middle.line num i).saved = level := by
        rw [line, Line.scan, raw, if_pos accepted.symm]
        split <;> exact accepted
      have final := later.1.mpr (Or.inl stays)
      exact ⟨⟨fun _ => Or.inl accepted, fun _ => final⟩, fun differs => absurd final differs⟩
    · -- A level that is waited for keeps the byte from being skipped.
      have moved : load sample num ≠ load input.save num := by
        intro same
        exact accepted (by rw [← raw, same]; rfl)
      rw [if_neg moved, Line.scan, raw, if_neg (Ne.symm accepted)] at line
      by_cases waiting : (input.line num i).timer < 30
      · -- The counter goes on, and the scans that are left continue from there.
        rw [if_pos waiting] at line
        rw [line] at later
        simp only [List.length_cons]
        constructor
        · rw [later.1]
          simp only [accepted, false_or]
          omega
        · intro differs
          rw [later.2 differs]
          simp only
          omega
      · -- The counter is full, so that this very scan accepts the level.
        rw [if_neg waiting] at line
        have final := later.1.mpr (Or.inl (by rw [line]))
        refine ⟨⟨fun _ => Or.inr ?_, fun _ => final⟩, fun differs => absurd final differs⟩
        simp only [List.length_cons]
        omega

end

/--
Debouncing is complete.

From every reachable state, a line that has held its level for thirty-one scans is saved at that level.
-/
theorem debounce_complete {samples : List (Vector UInt8 3)} {input : Input}
    (ran : run inputScan extioInit.input samples = some input) :
    (∀ line, load input.timer line ≤ 30) ∧
    ∀ (num : Fin 3) (i : Fin 8) (level : Bool) (held : List (Vector UInt8 3)) (next : Input),
      (∀ sample ∈ held, bitAt (load sample num) i = level) → 31 ≤ held.length →
      run inputScan input held = some next → (next.line num i).saved = level := by
  constructor
  · -- Every counter is the counter of some line.
    intro line
    have same : lineOf ⟨line / 8, by omega⟩ ⟨line % 8, by omega⟩ = line := Fin.ext (by simp only [lineOf]; omega)
    have bounded : (input.line ⟨line / 8, by omega⟩ ⟨line % 8, by omega⟩).timer ≤ 30 := timer_le ran
    rwa [Input.line, same] at bounded
  · intro num i level held next every enough continued
    exact (inputScan_held every (timer_le ran) continued).1.mpr (Or.inr (by omega))

/-- After thirty-one scans with the first line low, it is saved as low, whatever the others have done meanwhile. -/
theorem debounce_complete_low : ∃ next, run inputScan extioInit.input (.replicate 31 #v[0x0e, 0xff, 0xff]) = some next ∧
    (next.line 0 0).saved = false := by
  obtain ⟨next, ran⟩ : ∃ next, run inputScan extioInit.input (.replicate 31 #v[0x0e, 0xff, 0xff]) = some next :=
    Option.isSome_iff_exists.mp (by decide +kernel)
  have reset : run inputScan extioInit.input [] = some extioInit.input := rfl
  refine ⟨next, ran, (debounce_complete reset).2 0 0 false _ next ?_ (by simp) ran⟩
  intro sample among
  rw [List.eq_of_mem_replicate among]
  decide

/-- Two sequences of samples agree on one line at every scan, and differ as they like on the others. -/
def AgreeOn (num : Fin 3) (i : Fin 8) (first second : List (Vector UInt8 3)) : Prop :=
  List.Forall₂ (fun sample other => bitAt (load sample num) i = bitAt (load other num) i) first second

/-- The saved levels of one line after each scan of a sequence. -/
def savedLevels (num : Fin 3) (i : Fin 8) (input : Input) (samples : List (Vector UInt8 3)) : List Bool :=
  observations inputScan (fun input sample =>
    (inputScan input sample).map fun next => (next.line num i).saved) input samples

/-- The other lines do not interfere with the saved level of any line. -/
def ChannelsIsolated : Prop :=
  ∀ num i first second, AgreeOn num i first second →
    savedLevels num i extioInit.input first = savedLevels num i extioInit.input second

/-- No scan of a sequence from `extio_init` finds the byte in full agreement while the line's counter is running. -/
def NeverStale (num : Fin 3) (i : Fin 8) (samples : List (Vector UInt8 3)) : Prop :=
  EveryStep inputScan (fun input sample => ¬StaleTimer num i input sample) extioInit.input samples

instance (num : Fin 3) (i : Fin 8) (samples : List (Vector UInt8 3)) : Decidable (NeverStale num i samples) :=
  inferInstanceAs (Decidable (EveryStep inputScan (fun input sample => ¬StaleTimer num i input sample)
    extioInit.input samples))

section

variable {num : Fin 3} {i : Fin 8}

/-- Without a stale counter, a scan treats the line as if it were alone. -/
theorem inputScan_line_fresh {input next : Input} {sample : Vector UInt8 3}
    (fresh : ¬StaleTimer num i input sample) (scanned : inputScan input sample = some next) :
    next.line num i = (input.line num i).scan (bitAt (load sample num) i) := by
  rw [inputScan_line scanned num i]
  by_cases settled : load sample num = load input.save num
  · -- The counter of a line in a settled byte is zero already.
    have idle : (input.line num i).timer = 0 := by
      by_contra running
      exact fresh ⟨settled, Nat.pos_of_ne_zero running⟩
    have own : bitAt (load sample num) i = (input.line num i).saved := congrArg (fun byte => bitAt byte i) settled
    rw [if_pos settled, Line.scan, if_pos own, ← idle]
  · -- A byte that has moved is scanned line by line anyway.
    rw [if_neg settled]

/-- Lines that start out alike stay alike while neither counter is stale. -/
theorem savedLevels_congr {first second : List (Vector UInt8 3)} (agree : AgreeOn num i first second) :
    ∀ {input other : Input}, input.line num i = other.line num i →
      EveryStep inputScan (fun input sample => ¬StaleTimer num i input sample) input first →
      EveryStep inputScan (fun input sample => ¬StaleTimer num i input sample) other second →
      savedLevels num i input first = savedLevels num i other second := by
  -- The two sequences are scanned in lockstep.
  induction agree with
  | nil => exact fun _ _ _ => rfl
  | @cons sample again rest more same _ ih =>
    intro input other alike fresh freshOther
    obtain ⟨next, scanned⟩ : ∃ next, inputScan input sample = some next := ⟨_, rfl⟩
    obtain ⟨last, scannedOther⟩ : ∃ last, inputScan other again = some last := ⟨_, rfl⟩
    -- Neither counter is stale, so the level of the line itself decides in both.
    have lines : next.line num i = last.line num i := by
      rw [inputScan_line_fresh fresh.1 scanned, inputScan_line_fresh freshOther.1 scannedOther, alike, same]
    have later := ih lines (fresh.2 next scanned) (freshOther.2 last scannedOther)
    rw [savedLevels] at later ⊢
    rw [savedLevels] at later ⊢
    simp only [observations, scanned, scannedOther, Option.map_some, lines, Option.getD_some, later]

/-- The last saved level of a sequence is the level in the state that it leads to. -/
theorem savedLevels_getLast {input last : Input} {samples : List (Vector UInt8 3)} (some_ : samples ≠ [])
    (ran : run inputScan input samples = some last) :
    (savedLevels num i input samples).getLast? = some (last.line num i).saved := by
  obtain ⟨before, sample, rfl⟩ := (List.eq_nil_or_concat' samples).resolve_left some_
  obtain ⟨middle, earlier, scanned⟩ := run_append_some.mp ran
  rw [run_singleton] at scanned
  -- The last observation is that of the last scan.
  rw [savedLevels, observations_append earlier, observations_singleton, scanned]
  simp

/-- A line agrees with itself while another line of its byte is flipped in one of the scans. -/
theorem agreeOn_flipped {samples rest : List (Vector UInt8 3)} {sample : Vector UInt8 3} {j : Fin 8} (apart : j ≠ i) :
    AgreeOn num i (samples ++ sample :: rest)
      (samples ++ store sample num (load sample num ^^^ bitMask j) :: rest) := by
  have same : ∀ samples : List (Vector UInt8 3), AgreeOn num i samples samples :=
    fun samples => List.forall₂_same.mpr fun _ _ => rfl
  refine List.rel_append (same samples) (.cons ?_ (same rest))
  -- The mask of the other line has no bit here.
  rw [load_store_self, bitAt_xor, bitAt_bitMask j.isLt]
  simp [Fin.val_ne_of_ne apart]

/-- Another line that is flipped keeps a settled byte from being skipped, which clears the counter of this one. -/
theorem inputScan_line_flipped {input cleared : Input} {sample : Vector UInt8 3} {j : Fin 8} (apart : j ≠ i)
    (settled : load sample num = load input.save num)
    (scanned : inputScan input (store sample num (load sample num ^^^ bitMask j)) = some cleared) :
    cleared.line num i = { input.line num i with timer := 0 } := by
  have bits : ∀ k : Fin 8, bitAt (load (store sample num (load sample num ^^^ bitMask j)) num) k =
      (bitAt (load input.save num) k ^^ decide (j.val = k.val)) := by
    intro k
    rw [load_store_self, bitAt_xor, bitAt_bitMask j.isLt, settled]
  -- The byte differs at the other line, and agrees at this one.
  have moved : load (store sample num (load sample num ^^^ bitMask j)) num ≠ load input.save num := by
    intro same
    have other := bits j
    simp [same] at other
  have agrees : bitAt (load (store sample num (load sample num ^^^ bitMask j)) num) i = (input.line num i).saved := by
    rw [bits i]
    simp [Fin.val_ne_of_ne apart, Input.line]
  rw [inputScan_line scanned num i, if_neg moved, Line.scan, if_pos agrees]

/-- Whatever leaves a counter stale can be continued so that another line decides about the saved level. -/
theorem interference_of_stale {samples : List (Vector UInt8 3)} {input : Input} {sample : Vector UInt8 3}
    (ran : run inputScan extioInit.input samples = some input) (stale : StaleTimer num i input sample) :
    ∃ first second, AgreeOn num i (samples ++ sample :: first) (samples ++ second) ∧
      savedLevels num i extioInit.input (samples ++ sample :: first) ≠
        savedLevels num i extioInit.input (samples ++ second) := by
  obtain ⟨settled, running⟩ := stale
  have bounded : (input.line num i).timer ≤ 30 := timer_le ran
  obtain ⟨j, apart⟩ : ∃ j : Fin 8, j ≠ i := exists_ne i
  -- The second sequence differs in another line, which clears the counter.
  let flipped := store sample num (load sample num ^^^ bitMask j)
  -- Then the line is held at the other level, just as long as the first sequence needs.
  let rest := List.replicate (31 - (input.line num i).timer) (flipSample input num i)
  have held : ∀ other ∈ rest, bitAt (load other num) i = !(input.line num i).saved := by
    intro other among
    rw [List.eq_of_mem_replicate among, flipSample, load_store_self, bitAt_xor, bitAt_bitMask i.isLt]
    simp [Input.line]
  obtain ⟨idle, skipped⟩ : ∃ idle, inputScan input sample = some idle := ⟨_, rfl⟩
  obtain ⟨cleared, scanned⟩ : ∃ cleared, inputScan input flipped = some cleared := ⟨_, rfl⟩
  -- Skipping the byte keeps the counter, and scanning it clears the counter.
  have kept : idle.line num i = input.line num i := by rw [inputScan_line skipped num i, if_pos settled]
  have reset : cleared.line num i = { input.line num i with timer := 0 } :=
    inputScan_line_flipped apart settled scanned
  have total : ∀ input sample, ∃ next, inputScan input sample = some next := fun _ _ => ⟨_, rfl⟩
  obtain ⟨accepted, ranFirst⟩ := run_total total idle rest
  obtain ⟨waiting, ranSecond⟩ := run_total total cleared rest
  have count : rest.length = 31 - (input.line num i).timer := List.length_replicate
  -- From the two counters on, both sequences are the same.
  have high := (inputScan_held held (by rw [kept]; exact bounded) ranFirst).1
  have low := (inputScan_held held (by simp [reset]) ranSecond).1
  rw [kept, count] at high
  rw [reset, count] at low
  -- The first sequence fills the counter, and the second one falls short by at least one scan.
  refine ⟨rest, flipped :: rest, agreeOn_flipped apart, fun same => ?_⟩
  have first : run inputScan extioInit.input (samples ++ sample :: rest) = some accepted :=
    run_append_some.mpr ⟨input, ran, by simpa [skipped] using ranFirst⟩
  have second : run inputScan extioInit.input (samples ++ flipped :: rest) = some waiting :=
    run_append_some.mpr ⟨input, ran, by simpa [scanned] using ranSecond⟩
  have last := congrArg List.getLast? same
  rw [savedLevels_getLast (by simp) first, savedLevels_getLast (by simp) second, Option.some.injEq,
    high.mpr (Or.inr (by omega))] at last
  rcases low.mp last.symm with unchanged | full
  · exact absurd unchanged (by simp)
  · simp only at full
    omega

end

/-- A line is isolated while its counter is never stale, and no longer than that. -/
theorem channels_isolated_unless_stale (num : Fin 3) (i : Fin 8) :
    (∀ first second, AgreeOn num i first second → NeverStale num i first → NeverStale num i second →
      savedLevels num i extioInit.input first = savedLevels num i extioInit.input second) ∧
    (∀ samples input sample, run inputScan extioInit.input samples = some input → StaleTimer num i input sample →
      ∃ first second, AgreeOn num i (samples ++ sample :: first) (samples ++ second) ∧
        savedLevels num i extioInit.input (samples ++ sample :: first) ≠
          savedLevels num i extioInit.input (samples ++ second)) :=
  ⟨fun _ _ agree fresh freshOther => savedLevels_congr agree rfl fresh freshOther,
    fun _ _ _ ran stale => interference_of_stale ran stale⟩

/-- A line that is low for thirty-one scans is saved alike whether the rest of its byte is high or low. -/
theorem channels_isolated_steady :
    savedLevels 0 0 extioInit.input (.replicate 31 #v[0xfe, 0xff, 0xff]) =
      savedLevels 0 0 extioInit.input (.replicate 31 #v[0x00, 0xff, 0xff]) :=
  (channels_isolated_unless_stale 0 0).1 _ _ (by unfold AgreeOn; decide +kernel) (by decide +kernel)
    (by decide +kernel)

/-- The separated glitches, with the second line low whenever the first one is high. -/
def companionGlitches : List (Vector UInt8 3) :=
  separatedGlitches.map fun sample => if sample = .replicate 3 0xff then #v[0xfd, 0xff, 0xff] else sample

/-- The second line decides whether the glitches of the first one add up. -/
theorem channels_interfere : ¬ChannelsIsolated := by
  intro isolated
  -- The first line is sampled alike in both.
  have agree : AgreeOn 0 0 separatedGlitches companionGlitches := by
    unfold AgreeOn
    decide +kernel
  exact absurd (isolated 0 0 _ _ agree) (by decide +kernel)

end PkeFire
