import Mathlib.Data.Prod.Lex
import PkeFire.Config.Decimal
import PkeFire.Config.Strings
import PkeFire.Ota.Task

/-! The version that `ota_compile_time` makes of the date of the build, and how versions compare with it. -/

namespace PkeFire

/-- The characters of a decimal number. -/
def isDigit (char : UInt8) : Bool :=
  48 ≤ char && char ≤ 57

/-- An `int` with this value, which is undefined outside of its range. -/
def checkedInt (value : Int) : Option Int :=
  if -2147483648 ≤ value ∧ value ≤ 2147483647 then some value else none

/-- `%s` of `sscanf` into an array of some size: the word and what is left, unless it overruns the array. -/
def scanWord (size : Nat) (text : List UInt8) : Option (List UInt8 × List UInt8) :=
  let text := text.dropWhile isSpace
  let word := text.takeWhile fun char => !isSpace char
  -- Without a word, the array keeps what it happens to hold.
  if word = [] then none
  else if word.length < size then some (word, text.dropWhile fun char => !isSpace char)
  else none

/-- The sign of a number, if it has one, and what is left. -/
def scanSign (text : List UInt8) : Int × List UInt8 :=
  match text with
  | 45 :: text => (-1, text)
  | 43 :: text => (1, text)
  | text => (1, text)

/-- `%d` of `sscanf`, with the blanks before it: the number and what is left. -/
def scanInt (text : List UInt8) : Option (Int × List UInt8) :=
  let (sign, text) := scanSign (text.dropWhile isSpace)
  -- Without a digit, the variable keeps what it happens to hold.
  if text.takeWhile isDigit = [] then none
  else (checkedInt (sign * digitsValue text)).map fun value => (value, text.dropWhile isDigit)

/-- `strstr`: where a string occurs in another one for the first time. -/
def strstr (text word : List UInt8) : Option Nat :=
  (List.range (text.length + 1)).find? fun place => word.isPrefixOf (text.drop place)

/-- `month_names`. -/
def monthNames : List UInt8 :=
  ascii "JanFebMarAprMayJunJulAugSepOctNovDec"

/-- `ota_compile_time`, which is undefined for a text that it cannot read, and where an `int` overflows. -/
def otaCompileTime (time : List UInt8) : Option UInt32 := do
  let (sMonth, text) ← scanWord 5 (cString time)
  let (day, text) ← scanInt text
  let (year, _) ← scanInt text
  let place ← strstr monthNames sMonth
  let month : Int := (place / 3 : Nat)
  let years ← checkedInt (year * 1000000)
  let months ← checkedInt ((month + 1) * 10000)
  let days ← checkedInt (day * 100)
  -- Only the sums are unsigned.
  return UInt32.ofInt years + UInt32.ofInt months + UInt32.ofInt days + 99

/-- The names of the months, as `__DATE__` has them. -/
def shortMonths : List (List UInt8) :=
  ["Jan", "Feb", "Mar", "Apr", "May", "Jun", "Jul", "Aug", "Sep", "Oct", "Nov", "Dec"].map ascii

/-- A date of the calendar, up to the last year for which the version fits. -/
structure Date where
  year : Nat
  month : Nat
  day : Nat
  yearBounds : 1 ≤ year ∧ year ≤ 2147
  monthBounds : 1 ≤ month ∧ month ≤ 12
  dayBounds : 1 ≤ day ∧ day ≤ 31

/-- The name of a date's month. -/
def Date.monthName (date : Date) : List UInt8 :=
  shortMonths.getD (date.month - 1) []

/-- A number behind some blanks, filled up with zeros or not. -/
def paddedNumber (blanks zeros value : Nat) : List UInt8 :=
  List.replicate blanks 32 ++ (List.replicate zeros 48 ++ decimalDigits value)

/-- A text that `__DATE__` may stand for: month, day and year, set apart by blanks. -/
def Date.Spelled (date : Date) (text : List UInt8) : Prop :=
  ∃ blanks zeros more others, text = date.monthName ++
    (paddedNumber (blanks + 1) zeros date.day ++ paddedNumber (more + 1) others date.year)

/-- Three numbers in the order of dates: by the year, then by the month, then by the day. -/
def stamp (year month day : Nat) : ℕ ×ₗ ℕ ×ₗ ℕ :=
  toLex (year, toLex (month, day))

/-- A date in the order of dates. -/
def Date.stamp (date : Date) : ℕ ×ₗ ℕ ×ₗ ℕ :=
  PkeFire.stamp date.year date.month date.day

/-- The number whose digits are those of a year, a month, a day and a count of releases on that day. -/
def releaseNumber (year month day count : Nat) : Nat :=
  year * 1000000 + month * 10000 + day * 100 + count

section

variable {word rest : List UInt8} {date other : Date} {text : List UInt8}

/-- The characters of a decimal number are digits. -/
theorem isDigit_of_mem {value : Nat} {char : UInt8} (among : char ∈ decimalDigits value) : isDigit char = true := by
  have bounds := mem_decimalDigits among
  simp only [isDigit, Bool.and_eq_true, decide_eq_true_eq, UInt8.le_iff_toNat_le]
  exact bounds

/-- A digit is neither a blank nor a sign, and it is not the terminator. -/
theorem isDigit_apart {char : UInt8} (digit : isDigit char = true) :
    isSpace char = false ∧ char ≠ 45 ∧ char ≠ 43 ∧ char ≠ 0 := by
  simp only [isDigit, Bool.and_eq_true, decide_eq_true_eq, UInt8.le_iff_toNat_le, UInt8.reduceToNat] at digit
  refine ⟨isSpace_of_digit digit, ?_⟩
  -- The codes of the other three lie below those of the digits.
  simp only [ne_eq, ← UInt8.toNat_inj, UInt8.reduceToNat]
  omega

/-- Zeros in front of a number do not change it. -/
theorem digitsValue_zeros (zeros : Nat) (text : List UInt8) :
    digitsValue (List.replicate zeros 48 ++ text) = digitsValue text := by
  induction zeros with
  | zero => rfl
  | succ zeros ih =>
    -- A zero in front contributes nothing.
    rw [← ih, List.replicate_succ, List.cons_append, digitsValue, List.takeWhile_cons_of_pos (by decide)]
    rfl

/-- A word is read up to the blank behind it. -/
theorem scanWord_append {size : Nat} (nonempty : word ≠ []) (letters : ∀ char ∈ word, isSpace char = false)
    (short : word.length < size) : scanWord size (word ++ 32 :: rest) = some (word, 32 :: rest) := by
  have all : ∀ char ∈ word, (!isSpace char) = true := fun char among => by rw [letters char among]; rfl
  have start : (word ++ 32 :: rest).dropWhile isSpace = word ++ 32 :: rest := by
    obtain ⟨first, others, rfl⟩ := List.exists_cons_of_ne_nil nonempty
    -- There is no blank in front of the word.
    exact List.dropWhile_cons_of_neg (by rw [letters first List.mem_cons_self]; exact Bool.false_ne_true)
  have taken : (word ++ 32 :: rest).takeWhile (fun char => !isSpace char) = word := by
    rw [List.takeWhile_append_of_pos all, List.takeWhile_cons_of_neg (by decide), List.append_nil]
  have left : (word ++ 32 :: rest).dropWhile (fun char => !isSpace char) = 32 :: rest := by
    rw [List.dropWhile_append_of_pos all, List.dropWhile_cons_of_neg (by decide)]
  -- The blank itself is left for what follows.
  simp only [scanWord, start, taken, left, if_neg nonempty, if_pos short]

/-- A number that begins with a digit has no sign. -/
theorem scanSign_digits {digits : List UInt8} (nonempty : digits ≠ []) (all : ∀ char ∈ digits, isDigit char = true) :
    scanSign (digits ++ rest) = (1, digits ++ rest) := by
  obtain ⟨first, others, rfl⟩ := List.exists_cons_of_ne_nil nonempty
  obtain ⟨_, minus, plus, _⟩ := isDigit_apart (all first List.mem_cons_self)
  unfold scanSign
  -- Neither of the signs is a digit.
  split
  · rename_i sign
    exact absurd (List.cons.inj sign).1 minus
  · rename_i sign
    exact absurd (List.cons.inj sign).1 plus
  · rfl

/-- Digits behind some blanks are read up to the character behind them. -/
theorem scanInt_digits (blanks : Nat) {digits : List UInt8} (nonempty : digits ≠ [])
    (all : ∀ char ∈ digits, isDigit char = true) {value : Nat} (number : digitsValue digits = value)
    (small : value ≤ 2147483647) (ends : rest.takeWhile isDigit = []) :
    scanInt (List.replicate blanks 32 ++ (digits ++ rest)) = some (↑value, rest) := by
  have start : (List.replicate blanks 32 ++ (digits ++ rest)).dropWhile isSpace = digits ++ rest := by
    have blank : ∀ char ∈ List.replicate blanks (32 : UInt8), isSpace char = true := by
      intro char among
      rw [List.eq_of_mem_replicate among]
      decide
    obtain ⟨first, others, rfl⟩ := List.exists_cons_of_ne_nil nonempty
    -- Skipping blanks stops at the first digit.
    have visible := (isDigit_apart (all first List.mem_cons_self)).1
    rw [List.dropWhile_append_of_pos blank, List.cons_append, List.dropWhile_cons_of_neg (by simp [visible])]
  have taken : (digits ++ rest).takeWhile isDigit = digits := by
    rw [List.takeWhile_append_of_pos all, ends, List.append_nil]
  have left : (digits ++ rest).dropWhile isDigit = rest := by
    have whole := List.takeWhile_append_dropWhile (p := isDigit) (l := rest)
    rw [ends, List.nil_append] at whole
    rw [List.dropWhile_append_of_pos all, whole]
  -- What is left behind the digits does not count.
  have same : digitsValue (digits ++ rest) = value := by
    have own : digits.takeWhile isDigit = digits := List.takeWhile_eq_self_iff.mpr all
    rw [← number]
    unfold isDigit at taken own
    rw [digitsValue, digitsValue, taken, own]
  rw [scanInt, start, scanSign_digits nonempty all]
  simp only [taken, left, same, if_neg nonempty, Int.one_mul, checkedInt]
  rw [if_pos (by omega), Option.map_some]

/-- A padded number is read up to the blank or the end behind it. -/
theorem scanInt_paddedNumber {blanks zeros value : Nat} (small : value ≤ 2147483647)
    (ends : rest.takeWhile isDigit = []) : scanInt (paddedNumber blanks zeros value ++ rest) = some (↑value, rest) := by
  have all : ∀ char ∈ List.replicate zeros 48 ++ decimalDigits value, isDigit char = true := by
    intro char among
    rcases List.mem_append.mp among with zero | digit
    · rw [List.eq_of_mem_replicate zero]
      decide
    · exact isDigit_of_mem digit
  have nonempty : List.replicate zeros 48 ++ decimalDigits value ≠ [] :=
    List.append_ne_nil_of_right_ne_nil _ (decimalDigits_ne_nil value)
  -- The zeros are digits like the others.
  have number : digitsValue (List.replicate zeros 48 ++ decimalDigits value) = value := by
    rw [digitsValue_zeros, digitsValue_decimalDigits]
  rw [paddedNumber, List.append_assoc]
  exact scanInt_digits blanks nonempty all number small ends

/-- A padded number ends before the terminator. -/
theorem zero_notMem_paddedNumber (blanks zeros value : Nat) : 0 ∉ paddedNumber blanks zeros value := by
  intro among
  simp only [paddedNumber, List.mem_append, List.mem_replicate] at among
  rcases among with ⟨_, blank⟩ | ⟨_, zero⟩ | digit
  · exact absurd blank (by decide)
  · exact absurd zero (by decide)
  · -- No digit is a zero byte.
    exact (isDigit_apart (isDigit_of_mem digit)).2.2.2 rfl

/-- The name of a month is a short word, and it is found at its place in the table. -/
theorem monthName_spec (date : Date) : date.monthName ≠ [] ∧ (∀ char ∈ date.monthName, isSpace char = false) ∧
    date.monthName.length < 5 ∧ 0 ∉ date.monthName ∧
      strstr monthNames date.monthName = some (3 * (date.month - 1)) := by
  have each : ∀ i < 12, shortMonths.getD i [] ≠ [] ∧ (∀ char ∈ shortMonths.getD i [], isSpace char = false) ∧
      (shortMonths.getD i []).length < 5 ∧ 0 ∉ shortMonths.getD i [] ∧
        strstr monthNames (shortMonths.getD i []) = some (3 * i) := by decide +kernel
  have bounds := date.monthBounds
  -- There are twelve names.
  exact each (date.month - 1) (by omega)

/-- An `int` within its range is what it is. -/
theorem checkedInt_of_small {value : Int} (small : 0 ≤ value ∧ value ≤ 2147483647) : checkedInt value = some value := by
  rw [checkedInt, if_pos ⟨by omega, small.2⟩]

/-- The parts of a date are read off its text. -/
theorem scans_spelled (spelled : date.Spelled text) : ∃ behind between rest : List UInt8,
    scanWord 5 (cString text) = some (date.monthName, behind) ∧ scanInt behind = some ((date.day : Int), between) ∧
      scanInt between = some ((date.year : Int), rest) := by
  obtain ⟨blanks, zeros, more, others, rfl⟩ := spelled
  obtain ⟨nonempty, letters, short, whole, _⟩ := monthName_spec date
  have years := date.yearBounds
  have days := date.dayBounds
  let day := paddedNumber (blanks + 1) zeros date.day
  let year := paddedNumber (more + 1) others date.year
  have visible : cString (date.monthName ++ (day ++ year)) = date.monthName ++ (day ++ year) := by
    apply cString_of_notMem
    -- No part holds a terminator.
    simp only [List.mem_append, not_or]
    exact ⟨whole, zero_notMem_paddedNumber _ _ _, zero_notMem_paddedNumber _ _ _⟩
  refine ⟨day ++ year, year, [], ?_, ?_, ?_⟩
  · rw [visible]
    exact scanWord_append nonempty letters short
  · -- The day ends at the blank in front of the year.
    exact scanInt_paddedNumber (by omega) rfl
  · have last : scanInt (year ++ []) = some ((date.year : Int), []) := scanInt_paddedNumber (by omega) rfl
    rwa [List.append_nil] at last

/-- A number that fits is kept by the conversion to an unsigned one. -/
theorem toNat_ofInt {value : Nat} (small : value < 4294967296) : (UInt32.ofInt value).toNat = value := by
  have whole : ((value : Int) % 2 ^ 32).toNat = value := by omega
  rw [UInt32.ofInt, whole, UInt32.toNat_ofNat']
  exact Nat.mod_eq_of_lt small

/-- A version is computed from the parts of a date if none of them is too large. -/
theorem otaCompileTime_parts {sMonth behind between rest : List UInt8} {place : Nat} {month day year : Int}
    (word : scanWord 5 (cString text) = some (sMonth, behind)) (scanDay : scanInt behind = some (day, between))
    (scanYear : scanInt between = some (year, rest)) (found : strstr monthNames sMonth = some place)
    (counted : ((place / 3 : Nat) : Int) + 1 = month) (years : checkedInt (year * 1000000) = some (year * 1000000))
    (months : checkedInt (month * 10000) = some (month * 10000)) (days : checkedInt (day * 100) = some (day * 100)) :
    otaCompileTime text = some (UInt32.ofInt (year * 1000000 + month * 10000 + day * 100 + 99)) := by
  have last : UInt32.ofInt 99 = 99 := by decide
  -- Every part of the text is there, and no product overflows.
  simp only [otaCompileTime, word, scanDay, scanYear, found, counted, years, months, days, Option.bind_eq_bind,
    Option.bind_some, Option.pure_def, UInt32.ofInt_add, last]

/-- The version of a date is computed without an overflow. -/
theorem otaCompileTime_eq (spelled : date.Spelled text) : ∃ ver, otaCompileTime text = some ver ∧
    ver.toNat = releaseNumber date.year date.month date.day 99 := by
  obtain ⟨behind, between, rest, word, day, year⟩ := scans_spelled spelled
  obtain ⟨_, _, _, _, place⟩ := monthName_spec date
  obtain ⟨_, lastYear⟩ := date.yearBounds
  obtain ⟨firstMonth, lastMonth⟩ := date.monthBounds
  obtain ⟨_, lastDay⟩ := date.dayBounds
  -- The place in the table counts three characters for each month before this one.
  have month : ((3 * (date.month - 1) / 3 : Nat) : Int) + 1 = date.month := by omega
  have computed := otaCompileTime_parts word day year place month (checkedInt_of_small (by omega))
    (checkedInt_of_small (by omega)) (checkedInt_of_small (by omega))
  have whole : (date.year * 1000000 + date.month * 10000 + date.day * 100 + 99 : Int) =
      (releaseNumber date.year date.month date.day 99 : Nat) := by
    rw [releaseNumber]
    push_cast
    rfl
  rw [whole] at computed
  exact ⟨_, computed, toNat_ofInt (by rw [releaseNumber]; omega)⟩

/-- The order of three numbers, written out. -/
theorem stamp_lt_iff {year month day laterYear laterMonth laterDay : Nat} :
    stamp year month day < stamp laterYear laterMonth laterDay ↔ year < laterYear ∨ year = laterYear ∧
      (month < laterMonth ∨ month = laterMonth ∧ day < laterDay) := by
  rw [stamp, stamp, Prod.Lex.toLex_lt_toLex, Prod.Lex.toLex_lt_toLex]

/-- Numbers of two digits each order like a date, and the last release of a day comes before every later one. -/
theorem releaseNumber_lt_iff {year month day laterYear laterMonth laterDay count : Nat} (months : month ≤ 99)
    (days : day ≤ 99) (laterMonths : laterMonth ≤ 99) (laterDays : laterDay ≤ 99) (counts : count ≤ 99) :
    releaseNumber year month day 99 < releaseNumber laterYear laterMonth laterDay count ↔
      stamp year month day < stamp laterYear laterMonth laterDay := by
  rw [stamp_lt_iff, releaseNumber, releaseNumber]
  -- Each part outweighs everything behind it.
  omega

end

/--
The version of a build is the last release number of its date, computed without an overflow.

Builds order like their dates, and a release is newer than a build exactly if its date is later.
-/
theorem otaCompileTime_ordered (date : Date) (text : List UInt8) (spelled : date.Spelled text) :
    ∃ ver, otaCompileTime text = some ver ∧ ver.toNat = releaseNumber date.year date.month date.day 99 ∧
      (∀ (other : Date) (otherText : List UInt8), other.Spelled otherText →
        ∃ otherVer, otaCompileTime otherText = some otherVer ∧ (ver < otherVer ↔ date.stamp < other.stamp)) ∧
      ∀ (release : UInt32) (year month day count : Nat), month ≤ 99 → day ≤ 99 → count ≤ 99 →
        release.toNat = releaseNumber year month day count → (ver < release ↔ date.stamp < stamp year month day) ∧
          ∀ s, OtaState.Newer ver s release ↔ s.config.ver < release ∧ date.stamp < stamp year month day := by
  obtain ⟨ver, computed, value⟩ := otaCompileTime_eq spelled
  obtain ⟨firstMonth, lastMonth⟩ := date.monthBounds
  obtain ⟨_, lastDay⟩ := date.dayBounds
  refine ⟨ver, computed, value, fun other otherText otherSpelled => ?_,
    fun release year month day count months days counts same => ?_⟩
  · -- The versions of two builds are the last numbers of their dates.
    obtain ⟨otherVer, also, otherValue⟩ := otaCompileTime_eq otherSpelled
    obtain ⟨_, otherMonth⟩ := other.monthBounds
    obtain ⟨_, otherDay⟩ := other.dayBounds
    refine ⟨otherVer, also, ?_⟩
    rw [UInt32.lt_iff_toNat_lt, value, otherValue]
    exact releaseNumber_lt_iff (by omega) (by omega) (by omega) (by omega) (by omega)
  · have later : ver < release ↔ date.stamp < stamp year month day := by
      rw [UInt32.lt_iff_toNat_lt, value, same]
      exact releaseNumber_lt_iff (by omega) (by omega) months days counts
    -- The gate of the update task compares with the stored version as well.
    exact ⟨later, fun s => and_congr_right fun _ => later⟩

/-- A build of the fifth of March 2024 comes before the release of the next day. -/
theorem otaCompileTime_ordered_march : ∃ ver, otaCompileTime (ascii "Mar  5 2024") = some ver ∧ ver < 2024030600 := by
  have spelled : Date.Spelled ⟨2024, 3, 5, by decide, by decide, by decide⟩ (ascii "Mar  5 2024") :=
    ⟨1, 0, 0, 0, by decide +kernel⟩
  obtain ⟨ver, computed, _, _, releases⟩ := otaCompileTime_ordered _ _ spelled
  have later := (releases 2024030600 2024 3 6 0 (by decide) (by decide) (by decide) (by decide)).1
  exact ⟨ver, computed, later.mpr (stamp_lt_iff.mpr (by decide))⟩

/-- One year later, the product does not fit into an `int` any more. -/
example : otaCompileTime (ascii "Jan  1 2148") = none := by decide +kernel

end PkeFire
