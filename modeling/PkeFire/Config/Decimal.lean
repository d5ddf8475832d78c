import Mathlib.Data.List.TakeWhile
import Mathlib.Data.Nat.Digits.Defs
import PkeFire.Config.Setters

/-! Numbers in decimal notation, and how `atoi` reads them. -/

namespace PkeFire

/-- The character of a digit. -/
def digitChar (digit : Nat) : UInt8 :=
  UInt8.ofNat (48 + digit)

/-- The digits of a number, the highest one first. -/
def decimalDigits (value : Nat) : List UInt8 :=
  if value = 0 then [digitChar 0] else (Nat.digits 10 value).reverse.map digitChar

/-- A number in decimal notation. -/
def decimal (value : Int) : List UInt8 :=
  if value < 0 then 45 :: decimalDigits value.natAbs else decimalDigits value.natAbs

section

variable {digit : Nat} {text : List UInt8}

/-- The number of a digit's character. -/
theorem toNat_digitChar (bounded : digit < 10) : (digitChar digit).toNat = 48 + digit := by
  rw [digitChar, UInt8.toNat_ofNat']
  exact Nat.mod_eq_of_lt (by omega)

/-- In decimal notation, a number has characters between zero and nine. -/
theorem mem_decimalDigits {value : Nat} {char : UInt8} (among : char ∈ decimalDigits value) :
    48 ≤ char.toNat ∧ char.toNat ≤ 57 := by
  unfold decimalDigits at among
  split at among
  · rw [List.mem_singleton.mp among]
    decide
  · obtain ⟨digit, listed, rfl⟩ := List.mem_map.mp among
    have bounded := Nat.digits_lt_base (by omega : 1 < 10) (List.mem_reverse.mp listed)
    rw [toNat_digitChar bounded]
    omega

/-- A number has at least one digit. -/
theorem decimalDigits_ne_nil (value : Nat) : decimalDigits value ≠ [] := by
  unfold decimalDigits
  split
  · -- Zero is written with a digit of its own.
    exact List.cons_ne_nil _ _
  · rename_i nonzero
    simpa using Nat.digits_ne_nil_iff_ne_zero.mpr nonzero

/-- The digits of a number stand for the number. -/
theorem digitsValue_decimalDigits (value : Nat) : digitsValue (decimalDigits value) = value := by
  -- Nothing but digits stands in the text, so that the whole of it is read.
  have all : (decimalDigits value).takeWhile (fun char => 48 ≤ char && char ≤ 57) = decimalDigits value := by
    rw [List.takeWhile_eq_self_iff]
    intro char among
    have bounds := mem_decimalDigits among
    simp only [Bool.and_eq_true, decide_eq_true_eq, UInt8.le_iff_toNat_le]
    exact bounds
  rw [digitsValue, all]
  unfold decimalDigits
  split
  · rename_i zero
    rw [zero]
    decide
  · -- From the lowest digit on, each further one counts ten times as much.
    rw [List.foldl_map, List.foldl_reverse]
    conv_rhs => rw [← Nat.ofDigits_digits 10 value]
    have bounded (digit) (among : digit ∈ Nat.digits 10 value) := Nat.digits_lt_base (by omega : 1 < 10) among
    generalize Nat.digits 10 value = digits at bounded ⊢
    induction digits with
    | nil => rfl
    | cons digit digits ih =>
      rw [List.foldr_cons, ih fun later among => bounded later (List.mem_cons_of_mem _ among), Nat.ofDigits_cons,
        toNat_digitChar (bounded digit List.mem_cons_self)]
      push_cast
      omega

/-- A text of digits has no end before its last character. -/
theorem cString_of_digits (digits : ∀ char ∈ text, 48 ≤ char.toNat) : cString text = text := by
  rw [cString, List.takeWhile_eq_self_iff]
  intro char among
  have bound := digits char among
  have nonzero : char ≠ 0 := by
    rintro rfl
    exact absurd bound (by decide)
  simpa using nonzero

/-- A digit is no blank. -/
theorem isSpace_of_digit {char : UInt8} (bounds : 48 ≤ char.toNat ∧ char.toNat ≤ 57) : isSpace char = false := by
  simp only [isSpace, Bool.or_eq_false_iff, decide_eq_false_iff_not, Bool.and_eq_false_iff, UInt8.le_iff_toNat_le,
    ← UInt8.toNat_inj, UInt8.reduceToNat]
  omega

/-- A text of digits is read as what they stand for. -/
theorem atoi_digits (nonempty : text ≠ []) (digits : ∀ char ∈ text, 48 ≤ char.toNat ∧ char.toNat ≤ 57) :
    atoi text = digitsValue text := by
  obtain ⟨first, rest, rfl⟩ := List.exists_cons_of_ne_nil nonempty
  have bounds := digits first List.mem_cons_self
  rw [atoi, cString_of_digits fun char among => (digits char among).1,
    List.dropWhile_cons_of_neg (by rw [isSpace_of_digit bounds]; exact Bool.false_ne_true)]
  -- The first character is neither of the signs.
  split
  · rename_i sign
    rw [(List.cons.inj sign).1] at bounds
    exact absurd bounds.1 (by decide)
  · rename_i sign
    rw [(List.cons.inj sign).1] at bounds
    exact absurd bounds.1 (by decide)
  · rfl

/-- Behind a minus sign, digits stand for a negative number. -/
theorem atoi_negative (digits : ∀ char ∈ text, 48 ≤ char.toNat ∧ char.toNat ≤ 57) :
    atoi (45 :: text) = - digitsValue text := by
  have whole : cString (45 :: text) = 45 :: text := by
    rw [cString, List.takeWhile_cons_of_pos (by decide)]
    exact congrArg (List.cons 45) (cString_of_digits fun char among => (digits char among).1)
  -- A minus sign is no blank.
  rw [atoi, whole, List.dropWhile_cons_of_neg (by decide)]
  rfl

/-- A number in decimal notation is read as itself. -/
theorem atoi_decimal (value : Int) : atoi (decimal value) = value := by
  have nonempty := decimalDigits_ne_nil value.natAbs
  have digits (char) (among : char ∈ decimalDigits value.natAbs) := mem_decimalDigits among
  unfold decimal
  split
  · rw [atoi_negative digits, digitsValue_decimalDigits]
    omega
  · rw [atoi_digits nonempty digits, digitsValue_decimalDigits]
    omega

end

end PkeFire
