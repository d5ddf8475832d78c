import PkeFire.Extio.Debounce

/-! How the debounced level of a line depends on the history of its scans. -/

namespace PkeFire

/-- One scan of `extio_task`, with the bytes that `extio_input` has just shifted in. -/
def inputScan (input : Input) (sample : Vector UInt8 3) : Option Input :=
  -- A scan is never refused.
  some (extioInputCheck { input with buf := sample })

/-- At a scan, the raw level of the line disagrees with its debounced level. -/
def disagrees (num : Fin 3) (i : Fin 8) (input : Input) (sample : Vector UInt8 3) : Bool :=
  bitAt (load sample num) i != (input.line num i).saved

/-- The disagreements of one line over a sequence of scans since `extio_init`, oldest first. -/
def disagreements (num : Fin 3) (i : Fin 8) (samples : List (Vector UInt8 3)) : List Bool :=
  observations inputScan (fun input sample => some (disagrees num i input sample))
    extioInit.input samples

/-- A scan changes the debounced level only at the end of thirty-one disagreements in a row. -/
def DebounceSound (num : Fin 3) (i : Fin 8) (samples : List (Vector UInt8 3)) : Prop :=
  -- Every scan of the sequence is judged against the scans before it.
  ∀ before sample rest input next, samples = before ++ sample :: rest →
    run inputScan extioInit.input before = some input → inputScan input sample = some next →
    (next.line num i).saved ≠ (input.line num i).saved →
    List.replicate 31 true <:+ disagreements num i (before ++ [sample])

/-- A scan finds the byte in full agreement while the counter of the line is still running. -/
def StaleTimer (num : Fin 3) (i : Fin 8) (input : Input) (sample : Vector UInt8 3) : Prop :=
  load sample num = load input.save num ∧ 0 < (input.line num i).timer

instance (num : Fin 3) (i : Fin 8) (input : Input) (sample : Vector UInt8 3) :
    Decidable (StaleTimer num i input sample) :=
  inferInstanceAs (Decidable (load sample num = load input.save num ∧ 0 < (input.line num i).timer))

/-- What a scan leaves of a line depends on the line, its raw level, and whether its byte is settled. -/
theorem inputScan_line {input next : Input} {sample : Vector UInt8 3}
    (scanned : inputScan input sample = some next) (num : Fin 3) (i : Fin 8) :
    next.line num i = if load sample num = load input.save num then input.line num i
      else (input.line num i).scan (bitAt (load sample num) i) := by
  -- Shifting in a sample changes the raw bytes only.
  cases Option.some.inj scanned
  exact extioInputCheck_line _ num i

/-- A settled byte contains no disagreeing line. -/
theorem disagrees_settled {input : Input} {sample : Vector UInt8 3} {num : Fin 3}
    (settled : load sample num = load input.save num) (i : Fin 8) : disagrees num i input sample = false := by
  -- Both sides of the comparison are the same bit of the same byte.
  simp only [disagrees, Input.line, settled, bne_self_eq_false]

/-- The counter of a line never exceeds thirty and never exceeds its present streak of disagreements. -/
def CountsStreak (num : Fin 3) (i : Fin 8) (input : Input) (seen : List Bool) : Prop :=
  (input.line num i).timer ≤ 30 ∧ List.replicate (input.line num i).timer true <:+ seen

/-- Without a stale counter, a scan keeps the counter below the streak. -/
theorem CountsStreak.scan {num : Fin 3} {i : Fin 8} {input next : Input} {seen : List Bool}
    {sample : Vector UInt8 3} (counts : CountsStreak num i input seen)
    (fresh : ¬StaleTimer num i input sample) (scanned : inputScan input sample = some next) :
    CountsStreak num i next (seen ++ [disagrees num i input sample]) := by
  obtain ⟨bounded, streak⟩ := counts
  rw [CountsStreak, inputScan_line scanned num i]
  by_cases settled : load sample num = load input.save num
  · -- A settled byte keeps the counter, which the condition requires to be zero.
    have idle : (input.line num i).timer = 0 := by
      by_contra running
      exact fresh ⟨settled, Nat.pos_of_ne_zero running⟩
    rw [if_pos settled, idle]
    exact ⟨by omega, streak_zero⟩
  · rw [if_neg settled, Line.scan]
    by_cases agree : bitAt (load sample num) i = (input.line num i).saved
    · -- An agreeing scan of an unsettled byte clears the counter.
      rw [if_pos agree]
      exact ⟨by simp, streak_zero⟩
    · -- Only a disagreeing scan advances the counter, by one, and it extends the streak.
      have counted : disagrees num i input sample = true := by simpa [disagrees] using agree
      rw [if_neg agree, counted]
      split
      · exact ⟨by simp only; omega, streak_snoc streak⟩
      · exact ⟨by simp, streak_zero⟩

/-- A scan advances a counter only while it is below thirty, and keeps or clears it otherwise. -/
theorem inputScan_timer_le {num : Fin 3} {i : Fin 8} {input next : Input} {sample : Vector UInt8 3}
    (bounded : (input.line num i).timer ≤ 30) (scanned : inputScan input sample = some next) :
    (next.line num i).timer ≤ 30 := by
  rw [inputScan_line scanned num i]
  split
  · exact bounded
  · rw [Line.scan]
    split
    · exact Nat.zero_le _
    · split
      · simp only; omega
      · exact Nat.zero_le _

/-- No sequence of scans takes a counter beyond thirty. -/
theorem timer_le {num : Fin 3} {i : Fin 8} {samples : List (Vector UInt8 3)} {input : Input}
    (ran : run inputScan extioInit.input samples = some input) : (input.line num i).timer ≤ 30 := by
  -- All counters start at zero.
  have initially : (extioInit.input.line num i).timer ≤ 30 := by simp [Input.line, extioInit]
  exact run_invariant (fun input => (input.line num i).timer ≤ 30)
    (fun _ _ _ bounded _ scanned => inputScan_timer_le bounded scanned) initially
    (everyStep_of_forall (fun _ _ => trivial) _ _) ran

/-- A level changes only in a disagreeing scan that finds the counter full. -/
theorem timer_full_of_change {num : Fin 3} {i : Fin 8} {input next : Input} {sample : Vector UInt8 3}
    (scanned : inputScan input sample = some next)
    (changed : (next.line num i).saved ≠ (input.line num i).saved) :
    30 ≤ (input.line num i).timer ∧ disagrees num i input sample = true := by
  -- Of the four outcomes of a scan, three keep the saved level.
  rw [inputScan_line scanned num i] at changed
  by_cases settled : load sample num = load input.save num
  · -- A settled byte is skipped.
    rw [if_pos settled] at changed
    exact absurd rfl changed
  · rw [if_neg settled, Line.scan] at changed
    by_cases agree : bitAt (load sample num) i = (input.line num i).saved
    · rw [if_pos agree] at changed
      exact absurd rfl changed
    · rw [if_neg agree] at changed
      by_cases waiting : (input.line num i).timer < 30
      · -- A counter that is not full is advanced instead.
        rw [if_pos waiting] at changed
        exact absurd rfl changed
      · exact ⟨by omega, by simpa [disagrees] using agree⟩

/-- From `extio_init`, a run without stale counters keeps every counter below its streak. -/
theorem countsStreak_run {num : Fin 3} {i : Fin 8} {samples : List (Vector UInt8 3)} {input : Input}
    (fresh : EveryStep inputScan (fun input sample => ¬StaleTimer num i input sample)
      extioInit.input samples)
    (ran : run inputScan extioInit.input samples = some input) :
    CountsStreak num i input (disagreements num i samples) := by
  -- All counters start at zero, where the empty streak is enough.
  have initially : CountsStreak num i extioInit.input [] := by
    have zero : (extioInit.input.line num i).timer = 0 := by simp [Input.line, extioInit]
    exact ⟨by omega, by rw [zero]; exact streak_zero⟩
  exact observed_invariant (fun input sample => some (disagrees num i input sample)) (CountsStreak num i)
    (fun _ _ _ _ counts fresh scanned => counts.scan fresh scanned) initially fresh ran

/-- Debouncing is sound for a line in every sequence of scans that never leaves its counter stale. -/
theorem debounce_sound_of_fresh (num : Fin 3) (i : Fin 8) (samples : List (Vector UInt8 3))
    (fresh : EveryStep inputScan (fun input sample => ¬StaleTimer num i input sample)
      extioInit.input samples) : DebounceSound num i samples := by
  rintro before sample rest input next rfl ran scanned changed
  -- The scans before the change have filled the counter, so they form a streak of thirty.
  obtain ⟨full, last⟩ := timer_full_of_change scanned changed
  have counts := countsStreak_run (everyStep_append.mp fresh).1 ran
  have streak := streak_snoc (streak_shorten counts.2 full)
  rw [disagreements, observations_append ran, observations_singleton, last]
  exact streak

/-- Thirty short glitches on the first line, each followed by a scan in which every line is high. -/
def separatedGlitches : List (Vector UInt8 3) :=
  (List.replicate 30 [#v[0xfe, 0xff, 0xff], #v[0xff, 0xff, 0xff]]).flatten ++ [#v[0xfe, 0xff, 0xff]]

/-- Glitches that are always separated by full agreement still add up to a change. -/
theorem debounce_unsound_glitches : ¬DebounceSound 0 0 separatedGlitches := by
  -- The thirty-first glitch finds the counter full, although the scan before it agreed.
  intro sound
  let before : List (Vector UInt8 3) :=
    (List.replicate 30 [#v[0xfe, 0xff, 0xff], #v[0xff, 0xff, 0xff]]).flatten
  obtain ⟨input, ran⟩ : ∃ input, run inputScan extioInit.input before = some input :=
    Option.isSome_iff_exists.mp (by decide +kernel)
  have high : (run inputScan extioInit.input before).map (fun input => (input.line 0 0).saved) =
      some true := by decide +kernel
  have low : (run inputScan extioInit.input before).map (fun input =>
      ((extioInputCheck { input with buf := #v[0xfe, 0xff, 0xff] }).line 0 0).saved) =
      some false := by decide +kernel
  simp only [ran, Option.map_some, Option.some.injEq] at high low
  have streak := sound before #v[0xfe, 0xff, 0xff] [] input _ rfl ran rfl (by rw [low, high]; decide)
  exact absurd streak (by decide +kernel)

/-- The sample that keeps the debounced bytes except for one flipped bit. -/
def flipSample (input : Input) (num : Fin 3) (i : Fin 8) : Vector UInt8 3 :=
  store input.save num (load input.save num ^^^ bitMask i)

/-- While its counter is not full, flipping one bit of a byte only advances the counter of that bit. -/
theorem inputScan_flip {input : Input} {num : Fin 3} {i : Fin 8} {sample : Vector UInt8 3}
    (flipped : load sample num = load input.save num ^^^ bitMask i) (waiting : (input.line num i).timer < 30) :
    ∃ next, inputScan input sample = some next ∧ load next.save num = load input.save num ∧
      (next.line num i).timer = (input.line num i).timer + 1 := by
  refine ⟨_, rfl, ?_, ?_⟩
  -- Byte and counter both depend on which bits of the sample differ: the flipped one alone.
  all_goals
    have bit : ∀ j : Fin 8, bitAt (load sample num) j = (bitAt (load input.save num) j ^^ decide (i.val = j.val)) := by
      intro j
      rw [flipped, bitAt_xor, bitAt_bitMask i.isLt]
    have moved : ¬load sample num = load input.save num := by
      intro same
      have own := bit i
      simp [same] at own
  · -- Every other bit agrees, and the flipped bit is still waiting.
    apply eq_of_bitAt
    intro j
    have scanned := inputScan_line (show inputScan input sample = some _ from rfl) num j
    rw [if_neg moved, bit j] at scanned
    have kept : (input.line num j).saved = bitAt (load input.save num) j := rfl
    refine (congrArg Line.saved scanned).trans ?_
    by_cases same : i = j
    · subst same
      rw [Line.scan, if_neg (by simp [kept]), if_pos waiting, kept]
    · rw [Line.scan, if_pos (by simp [kept, Fin.val_ne_of_ne same])]
      exact kept
  · -- The flipped bit disagrees, so its own counter is advanced.
    have scanned := inputScan_line (show inputScan input sample = some _ from rfl) num i
    have kept : (input.line num i).saved = bitAt (load input.save num) i := rfl
    rw [if_neg moved, bit i, Line.scan, if_neg (by simp [kept]), if_pos waiting] at scanned
    exact congrArg Line.timer scanned

/-- Repeating a flip fills the counter by one disagreeing scan at a time. -/
theorem inputScan_flips {input : Input} {num : Fin 3} {i : Fin 8} {sample : Vector UInt8 3}
    (flipped : load sample num = load input.save num ^^^ bitMask i) :
    ∀ count, (input.line num i).timer + count ≤ 30 → ∃ next,
      run inputScan input (List.replicate count sample) = some next ∧
      load next.save num = load input.save num ∧
      (next.line num i).timer = (input.line num i).timer + count ∧
      observations inputScan (fun input sample => some (disagrees num i input sample)) input
        (List.replicate count sample) = List.replicate count true := by
  -- Each further flip finds the saved byte unchanged and the counter not yet full.
  intro count
  induction count with
  | zero => exact fun _ => ⟨input, rfl, rfl, rfl, rfl⟩
  | succ count ih =>
    intro bounded
    obtain ⟨middle, ran, saved, timer, seen⟩ := ih (by omega)
    obtain ⟨next, scanned, kept, counted⟩ := inputScan_flip (i := i)
      (show load sample num = load middle.save num ^^^ bitMask i by rw [flipped, saved]) (by omega)
    -- The saved byte is the same as before the first flip, so the next flip disagrees as well.
    have last : disagrees num i middle sample = true := by
      have own : bitAt (load sample num) i = !bitAt (load middle.save num) i := by
        rw [flipped, saved, bitAt_xor, bitAt_bitMask i.isLt]
        simp
      simp only [disagrees, own, Input.line]
      cases bitAt (load middle.save num) i <;> rfl
    rw [List.replicate_succ' (a := sample)]
    refine ⟨next, run_append_some.mpr ⟨middle, ran, by simpa using scanned⟩, kept.trans saved,
      by omega, ?_⟩
    rw [observations_append ran, observations_singleton, seen, last, List.replicate_succ' (a := true)]
    rfl

/-- Whatever sequence of scans leaves a counter stale can be continued to an unsound change. -/
theorem unsound_of_stale {num : Fin 3} {i : Fin 8} {samples : List (Vector UInt8 3)} {input : Input}
    {sample : Vector UInt8 3} (ran : run inputScan extioInit.input samples = some input)
    (stale : StaleTimer num i input sample) :
    ∃ more, ¬DebounceSound num i (samples ++ sample :: more) := by
  obtain ⟨settled, running⟩ := stale
  -- The stale scan changes no line of the byte, so the counter stays where it was.
  obtain ⟨idle, scanned⟩ : ∃ idle, inputScan input sample = some idle := ⟨_, rfl⟩
  have line : ∀ j, idle.line num j = input.line num j := fun j => by
    rw [inputScan_line scanned num j, if_pos settled]
  have saved : load idle.save num = load input.save num :=
    eq_of_bitAt _ fun j => congrArg Line.saved (line j)
  have bounded : (input.line num i).timer ≤ 30 := timer_le ran
  -- Flipping the line until its counter is full, and once more, changes it.
  let flip := flipSample input num i
  have flipped : load flip num = load input.save num ^^^ bitMask i := by simp [flip, flipSample]
  have flippedIdle : load flip num = load idle.save num ^^^ bitMask i := by rw [flipped, saved]
  obtain ⟨full, filled, kept, timer, seen⟩ :=
    inputScan_flips flippedIdle (30 - (input.line num i).timer) (by rw [line i]; omega)
  obtain ⟨final, changed⟩ : ∃ final, inputScan full flip = some final := ⟨_, rfl⟩
  have differs : bitAt (load flip num) i ≠ (full.line num i).saved := by
    rw [flipped, bitAt_xor, bitAt_bitMask i.isLt, ← saved, ← kept]
    simp [Input.line]
  have arrived : run inputScan extioInit.input (samples ++ sample :: List.replicate
      (30 - (input.line num i).timer) flip) = some full :=
    run_append_some.mpr ⟨input, ran, by simpa [scanned] using filled⟩
  refine ⟨List.replicate (30 - (input.line num i).timer) flip ++ [flip], fun sound => ?_⟩
  -- The last flip finds the counter full and disagrees, so the level changes.
  have moves : (final.line num i).saved ≠ (full.line num i).saved := by
    have moved : ¬load flip num = load full.save num := fun same =>
      differs (congrArg (fun byte => bitAt byte i) same)
    have waited : ¬(full.line num i).timer < 30 := by rw [timer, line i]; omega
    rw [inputScan_line changed num i, if_neg moved, Line.scan, if_neg differs, if_neg waited]
    exact differs
  have streak := sound _ flip [] full final (by simp) arrived changed moves
  -- The settled scan interrupts the streak, so it is at most as long as the flips since then.
  have last : disagrees num i full flip = true := bne_iff_ne.mpr differs
  have history : disagreements num i (samples ++ sample :: List.replicate
      (30 - (input.line num i).timer) flip ++ [flip]) =
      disagreements num i samples ++ false :: List.replicate (31 - (input.line num i).timer) true := by
    have longer : 31 - (input.line num i).timer = 30 - (input.line num i).timer + 1 := by omega
    rw [disagreements, observations_append arrived, observations_append ran, observations_singleton,
      observations, scanned, last, disagrees_settled settled, longer, List.replicate_succ']
    simp [seen, disagreements]
  rw [history] at streak
  have short := streak_le (by decide) streak
  omega

/-- Debouncing is sound in every run without a stale counter, and no further than that. -/
theorem debounce_sound_unless_stale (num : Fin 3) (i : Fin 8) :
    (∀ samples, EveryStep inputScan (fun input sample => ¬StaleTimer num i input sample)
      extioInit.input samples → DebounceSound num i samples) ∧
    (∀ samples input sample, run inputScan extioInit.input samples = some input →
      StaleTimer num i input sample → ∃ more, ¬DebounceSound num i (samples ++ sample :: more)) :=
  ⟨debounce_sound_of_fresh num i, fun _ _ _ ran stale => unsound_of_stale ran stale⟩

/-- A line that is low in thirty-one scans in a row is debounced soundly. -/
theorem debounce_sound_steady : DebounceSound 0 0 (.replicate 31 #v[0xfe, 0xff, 0xff]) :=
  (debounce_sound_unless_stale 0 0).1 _ (by decide +kernel)

end PkeFire
