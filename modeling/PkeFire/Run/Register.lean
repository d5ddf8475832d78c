import Mathlib.Init

/-! Registers that work on a value in memory, and store it from time to time. -/

namespace PkeFire

universe u

/-- The value that is worked on, and the value that has been stored last. -/
structure Register (Value : Type u) where
  current : Value
  stored : Value
  deriving DecidableEq, Repr

/-- What happens to a register. -/
inductive RegisterOp (Value : Type u) where
  /-- The value in memory is changed. -/
  | write (change : Value → Value)
  /-- The value in memory is stored. -/
  | commit
  /-- The value in memory is lost, and what has been stored takes its place. -/
  | crash
  /-- Both values are lost, and a default takes their place. -/
  | reset

/-- The operation writes the store. -/
def RegisterOp.stores {Value : Type u} : RegisterOp Value → Bool
  | .commit | .reset => true
  | .write _ | .crash => false

namespace Register

variable {Value : Type u} (default : Value)

/-- The effect of one operation. -/
def next (register : Register Value) : RegisterOp Value → Register Value
  | .write change => { register with current := change register.current }
  | .commit => { register with stored := register.current }
  | .crash => { register with current := register.stored }
  | .reset => ⟨default, default⟩

/-- The register behind some operations. -/
def after (register : Register Value) (ops : List (RegisterOp Value)) : Register Value :=
  ops.foldl (next default) register

variable {default} {register : Register Value} {before rest ops : List (RegisterOp Value)}

/-- Operations in a row. -/
theorem after_append (before rest : List (RegisterOp Value)) :
    register.after default (before ++ rest) = (register.after default before).after default rest :=
  List.foldl_append

/-- Operations that do not write the store leave it alone. -/
theorem stored_after (register : Register Value) (keep : ∀ op ∈ ops, op.stores = false) :
    (register.after default ops).stored = register.stored := by
  induction ops generalizing register with
  | nil => rfl
  | cons op ops ih =>
    obtain ⟨first, later⟩ := List.forall_mem_cons.mp keep
    have kept : (register.next default op).stored = register.stored := by
      cases op with
      | write change => rfl
      | crash => rfl
      | commit => cases first
      | reset => cases first
    exact (ih (register.next default op) later).trans kept

/-- The store holds what was in memory at the last commit, whatever has happened to the memory since. -/
theorem stored_after_commit (keep : ∀ op ∈ rest, op.stores = false) :
    (register.after default (before ++ .commit :: rest)).stored = (register.after default before).current := by
  rw [after_append]
  -- Behind the commit, nothing writes the store.
  exact stored_after ((register.after default before).next default .commit) keep

end Register

end PkeFire
