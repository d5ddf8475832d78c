import Mathlib.Algebra.Group.Nat.Even

/-! Reporting the turns of a truth value over a connection that may lose a report. -/

namespace PkeFire

universe u

/-- What has become of the reports so far. -/
structure Reports (Value : Type u) where
  /-- The value last delivered. -/
  view : Value
  /-- The reports lost since then. -/
  lost : Nat
  deriving DecidableEq, Repr

section

variable {Value : Type u}

/-- One report is delivered or lost. -/
def Reports.send (delivered : Bool) (value : Value) (reports : Reports Value) : Reports Value :=
  -- A lost report leaves the old view in place.
  if delivered then { view := value, lost := 0 } else { reports with lost := reports.lost + 1 }

variable {write : Bool → Value} {fact : Bool} {reports : Reports Value}

/-- The view is right after an even number of losses, and wrong after an odd one. -/
def Reports.Alternates (write : Bool → Value) (fact : Bool) (reports : Reports Value) : Prop :=
  reports.view = write (if Even reports.lost then fact else !fact)

/-- Reporting each turn of a truth value keeps the losses and the view in step. -/
theorem Reports.Alternates.turn (held : reports.Alternates write fact) (delivered : Bool) :
    (reports.send delivered (write !fact)).Alternates write (!fact) := by
  unfold Alternates at held ⊢
  cases delivered with
  | true => simp [send]
  | false =>
    -- One more loss changes the parity, and the turn changes the fact.
    show reports.view = write (if Even (reports.lost + 1) then !fact else !!fact)
    have turned : Even (reports.lost + 1) ↔ ¬Even reports.lost := Nat.even_add_one
    by_cases even : Even reports.lost
    · rw [held, if_pos even, if_neg (fun other => turned.mp other even), Bool.not_not]
    · rw [held, if_neg even, if_pos (turned.mpr even)]

/-- The view agrees with the fact exactly when an even number of reports has been lost since its delivery. -/
theorem Reports.Alternates.view_eq_iff (held : reports.Alternates write fact)
    (distinct : write true ≠ write false) : reports.view = write fact ↔ Even reports.lost := by
  unfold Alternates at held
  by_cases even : Even reports.lost
  · rw [if_pos even] at held
    simp [even, held]
  · -- The wrong value differs from the right one, whichever that is.
    rw [if_neg even] at held
    have wrong : write (!fact) ≠ write fact := by
      cases fact with
      | false => exact distinct
      | true => exact distinct.symm
    simp [even, held, wrong]

end

end PkeFire
