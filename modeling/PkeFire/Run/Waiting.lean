import Mathlib.Data.List.Forall2
import PkeFire.Run.Trace

/-! Waiting for goals one after the other, each of them met by the first thing seen that meets it. -/

namespace PkeFire

universe u v w x

section

variable {Goal : Type u} {Seen : Type v} (meets : Goal → Seen → Bool)

/-- The goals that are left when one more thing has been seen. -/
def meetNext (goals : List Goal) (seen : Seen) : List Goal :=
  match goals with
  | [] => []
  -- Only the first goal is waited for.
  | goal :: rest => if meets goal seen then rest else goals

/-- Some goals are met in their order by some of the things seen. -/
abbrev MetInOrder (goals : List Goal) (seen : List Seen) : Prop :=
  List.SublistForall₂ (fun goal seen => meets goal seen = true) goals seen

variable {meets}

/-- Without a goal there is nothing left to meet. -/
theorem foldl_meetNext_nil (seen : List Seen) : seen.foldl (meetNext meets) [] = [] := by
  induction seen with
  | nil => rfl
  | cons first rest ih => exact ih

/-- Goals that are met in order are so without the first of them. -/
theorem MetInOrder.tail {goal : Goal} {goals : List Goal} {seen : List Seen}
    (met : MetInOrder meets (goal :: goals) seen) : MetInOrder meets goals seen := by
  -- The induction is on what has been seen.
  induction seen with
  | nil => cases met
  | cons first rest ih =>
    cases met with
    | cons _ later => exact .cons_right later
    | cons_right later => exact .cons_right (ih later)

/-- Taking each goal as early as possible meets all of them whenever there is any way to do so. -/
theorem foldl_meetNext_eq_nil {goals : List Goal} {seen : List Seen} :
    seen.foldl (meetNext meets) goals = [] ↔ MetInOrder meets goals seen := by
  -- The induction is on what is seen, with any goals left.
  induction seen generalizing goals with
  | nil =>
    constructor
    · rintro rfl
      exact .nil
    · rintro ⟨⟩
      rfl
  | cons first rest ih =>
    cases goals with
    | nil => exact ⟨fun _ => .nil, fun _ => foldl_meetNext_nil _⟩
    | cons goal goals =>
      rw [List.foldl_cons, meetNext]
      by_cases hit : meets goal first = true
      · rw [if_pos hit, ih]
        constructor
        · exact .cons hit
        · -- A goal that has been met later may as well have been met now.
          intro met
          cases met with
          | cons _ later => exact later
          | cons_right later => exact MetInOrder.tail later
      -- A goal that is not met now has to be met later.
      · rw [if_neg hit, ih]
        constructor
        · exact .cons_right
        · intro met
          cases met with
          | cons now _ => exact absurd now hit
          | cons_right later => exact later

end

section

variable {State : Type u} {Event : Type v} {Goal : Type w} {Seen : Type x} {meets : Goal → Seen → Bool}
  {step : State → Event → Option State} {condition : State → Event → Prop}
  {observe : State → Event → Option Seen}

/-- A machine that meets its goals step by step is left with those that its observations do not meet in order. -/
theorem pending_run (pending : State → List Goal)
    (meeting : ∀ state event next, condition state event → step state event = some next →
      pending next = (observe state event).toList.foldl (meetNext meets) (pending state))
    {state finish : State} {events : List Event} (every : EveryStep step condition state events)
    (ran : run step state events = some finish) :
    pending finish = (observations step observe state events).foldl (meetNext meets) (pending state) := by
  refine fold_run (meetNext meets) (fun now goals => pending now = goals) ?_ rfl every ran
  rintro now event next goals rfl permitted taken
  exact meeting now event next permitted taken

end

end PkeFire
