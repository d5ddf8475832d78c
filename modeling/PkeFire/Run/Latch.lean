import Mathlib.Data.List.Infix

/-! Latches that are set by a trigger, and fall off when nothing has happened for too long. -/

namespace PkeFire

universe u

/-- What a latch is shown at one moment. -/
inductive Glance (Mark : Type u) where
  /-- Something that sets the latch, or keeps it set. -/
  | trigger (mark : Mark)
  /-- Nothing at all. -/
  | quiet
  /-- Nothing that would set the latch, but something that stops its time. -/
  | hold
  deriving DecidableEq, Repr

namespace Glance

variable {Mark : Type u}

/-- The latch is shown something that sets it. -/
def isTrigger : Glance Mark → Bool
  | .trigger _ => true
  | _ => false

/-- The latch is shown nothing at all. -/
def isQuiet : Glance Mark → Bool
  | .quiet => true
  | _ => false

end Glance

section

variable {Mark : Type u} (limit : Nat)

/-- The next state of a latch, which holds how long it has been quiet, and what has set it. -/
def latchNext (latch : Option (Nat × Mark)) (glance : Glance Mark) : Option (Nat × Mark) :=
  match latch, glance with
  | none, .trigger mark => some (0, mark)
  | none, _ => none
  -- A later trigger restarts the time, but does not replace the mark of the first one.
  | some (_, mark), .trigger _ => some (0, mark)
  | some (time, mark), .quiet => if time < limit then some (time + 1, mark) else none
  | some set, .hold => some set

/-- The state of a latch that has been shown some things, oldest first. -/
def latched (glances : List (Glance Mark)) : Option (Nat × Mark) :=
  glances.foldl (latchNext limit) none

/-- It is not quiet for longer than the limit until the first trigger, the time that has passed before included. -/
def QuietWithin (time : Nat) (glances : List (Glance Mark)) : Prop :=
  ∀ part, part <+: glances → (∀ glance ∈ part, glance.isTrigger = false) →
    time + part.countP Glance.isQuiet ≤ limit

/-- Nothing that is shown is a trigger, and with the time before it is not quiet for longer than the limit. -/
def Unbroken (time : Nat) (glances : List (Glance Mark)) : Prop :=
  (∀ glance ∈ glances, glance.isTrigger = false) ∧ time + glances.countP Glance.isQuiet ≤ limit

/-- Wherever there is no trigger, it is not quiet for longer than the limit. -/
def Sustained (glances : List (Glance Mark)) : Prop :=
  ∀ part, part <:+: glances → (∀ glance ∈ part, glance.isTrigger = false) → part.countP Glance.isQuiet ≤ limit

end

section

variable {Mark : Type u} {limit time : Nat} {mark : Mark} {latch : Option (Nat × Mark)} {glance : Glance Mark}
  {glances : List (Glance Mark)}

/-- What is quiet long enough is not quiet for longer because less time has passed before. -/
theorem QuietWithin.mono {less : Nat} (within : QuietWithin limit time glances) (fewer : less ≤ time) :
    QuietWithin limit less glances :=
  fun part begins free => Nat.le_trans (Nat.add_le_add_right fewer _) (within part begins free)

/-- The time up to the first trigger is counted from the first thing on. -/
theorem quietWithin_cons : QuietWithin limit time (glance :: glances) ↔
    time ≤ limit ∧
      (glance.isTrigger = false → QuietWithin limit (if glance.isQuiet then time + 1 else time) glances) := by
  have counts (part : List (Glance Mark)) : (glance :: part).countP Glance.isQuiet =
      (if glance.isQuiet then 1 else 0) + part.countP Glance.isQuiet := by
    rw [List.countP_cons, Nat.add_comm]
  constructor
  · intro within
    -- The empty beginning gives the time so far, and a longer one what is counted after the first thing.
    refine ⟨within [] List.nil_prefix (by simp), fun first part begins free => ?_⟩
    have longer := within (glance :: part) ((List.prefix_cons_inj glance).mpr begins)
      (List.forall_mem_cons.mpr ⟨first, free⟩)
    rw [counts] at longer
    split <;> rename_i quiet <;> simp only [quiet, if_true, if_false, Bool.false_eq_true] at longer <;> omega
  · rintro ⟨already, later⟩ part begins free
    rcases List.prefix_cons_iff.mp begins with rfl | ⟨rest, rfl, begins⟩
    · exact already
    · obtain ⟨first, free⟩ := List.forall_mem_cons.mp free
      have longer := later first rest ((List.prefix_cons_inj glance).mp begins) free
      rw [counts]
      split at longer <;> rename_i quiet <;> simp only [quiet, if_true, if_false, Bool.false_eq_true] <;> omega

/-- A part without a trigger begins with the first thing or later. -/
theorem sustained_cons : Sustained limit (glance :: glances) ↔
    QuietWithin limit 0 (glance :: glances) ∧ Sustained limit glances := by
  constructor
  · intro sustained
    refine ⟨fun part begins free => ?_, fun part among free => sustained part (List.infix_cons among) free⟩
    rw [Nat.zero_add]
    exact sustained part begins.isInfix free
  · rintro ⟨first, later⟩ part among free
    rcases List.infix_cons_iff.mp among with begins | among
    · simpa using first part begins free
    · exact later part among free

/-- What is sustained is not quiet for too long at its beginning. -/
theorem Sustained.within (sustained : Sustained limit glances) : QuietWithin limit 0 glances :=
  fun part begins free => (Nat.zero_add _).symm ▸ sustained part begins.isInfix free

/-- After one step, a latch is held with a mark if it was held with it before, or if the step has set it. -/
theorem latchNext_held (inside : ∀ time mark, latch = some (time, mark) → time ≤ limit) :
    (∃ time, latchNext limit latch glance = some (time, mark) ∧ QuietWithin limit time glances ∧
        Sustained limit glances) ↔
      (∃ time, latch = some (time, mark) ∧ QuietWithin limit time (glance :: glances) ∧
        Sustained limit (glance :: glances)) ∨
      (glance = .trigger mark ∧ latch = none ∧ Sustained limit glances) := by
  -- The cases are the latch before the step, and what the step shows.
  cases latch with
  | none =>
    cases glance with
    | trigger first =>
      simp only [latchNext, Option.some.injEq, Prod.mk.injEq, reduceCtorEq, false_and, exists_false, false_or,
        true_and, Glance.trigger.injEq, and_assoc, exists_eq_left']
      exact ⟨fun held => ⟨held.1, held.2.2⟩, fun held => ⟨held.1, held.2.within, held.2⟩⟩
    | quiet => simp [latchNext]
    | hold => simp [latchNext]
  | some set =>
    obtain ⟨time, first⟩ := set
    have already := inside time first rfl
    simp only [reduceCtorEq, false_and, and_false, or_false, Option.some.injEq, Prod.mk.injEq, and_assoc,
      exists_eq_left', sustained_cons, quietWithin_cons]
    cases glance with
    | trigger later =>
      -- Whatever has passed before a trigger does not matter.
      simp only [latchNext, Option.some.injEq, Prod.mk.injEq, and_assoc, exists_eq_left', Glance.isTrigger,
        Bool.true_eq_false, false_implies, already, Nat.zero_le, true_and]
      exact ⟨fun held => ⟨held.1, held.2.2⟩, fun held => ⟨held.1, held.2.within, held.2⟩⟩
    | quiet =>
      simp only [latchNext, Glance.isTrigger, Glance.isQuiet, true_implies, if_true, already, Nat.zero_le, true_and]
      by_cases more : time < limit
      -- A quiet glance uses up one of the remaining ones.
      · simp only [if_pos more, Option.some.injEq, Prod.mk.injEq, and_assoc, exists_eq_left']
        exact ⟨fun held => ⟨held.1, held.2.1, held.2.1.mono (by omega), held.2.2⟩,
          fun held => ⟨held.1, held.2.1, held.2.2.2⟩⟩
      · -- The time is up, so that the latch falls off.
        simp only [if_neg more, reduceCtorEq, false_and, exists_false, false_iff]
        rintro ⟨_, longer, _⟩
        have late := longer [] List.nil_prefix (by simp)
        simp only [List.countP_nil] at late
        omega
    | hold =>
      -- A holding glance changes nothing.
      simp only [latchNext, Option.some.injEq, Prod.mk.injEq, and_assoc, exists_eq_left', Glance.isTrigger,
        Glance.isQuiet, true_implies, Bool.false_eq_true, if_false, already, Nat.zero_le, true_and]
      exact ⟨fun held => ⟨held.1, held.2.1, held.2.1.mono (Nat.zero_le _), held.2.2⟩,
        fun held => ⟨held.1, held.2.1, held.2.2.2⟩⟩

/-- One step does not take a latch beyond its limit. -/
theorem latchNext_inside (inside : ∀ time mark, latch = some (time, mark) → time ≤ limit) :
    ∀ time mark, latchNext limit latch glance = some (time, mark) → time ≤ limit := by
  intro time mark same
  cases latch with
  | none =>
    cases glance with
    | trigger first =>
      cases same
      exact Nat.zero_le limit
    | _ => cases same
  | some set =>
    cases glance with
    | trigger later =>
      cases same
      exact Nat.zero_le limit
    | quiet =>
      -- The time goes on as long as the limit has not been reached.
      simp only [latchNext] at same
      split at same
      · simp only [Option.some.injEq, Prod.mk.injEq] at same
        omega
      · cases same
    | hold => exact inside time mark same

/-- A latch is held with a mark if it was so to begin with, or has been set with it while it had fallen off. -/
theorem foldl_latchNext_mark (inside : ∀ time mark, latch = some (time, mark) → time ≤ limit) :
    (glances.foldl (latchNext limit) latch).map Prod.snd = some mark ↔
      (∃ time, latch = some (time, mark) ∧ QuietWithin limit time glances ∧ Sustained limit glances) ∨
      ∃ before after, glances = before ++ .trigger mark :: after ∧
        before.foldl (latchNext limit) latch = none ∧ Sustained limit after := by
  -- The induction is on what is shown, from any state of the latch.
  induction glances generalizing latch with
  | nil =>
    simp only [List.foldl_nil, Option.map_eq_some_iff, Prod.exists, exists_eq_right, List.nil_eq,
      List.append_eq_nil_iff, reduceCtorEq, and_false, false_and, exists_false, or_false]
    -- With nothing shown, the latch is what it was.
    refine exists_congr fun time => ⟨fun same => ⟨same, ?_, ?_⟩, fun held => held.1⟩
    · intro part begins _
      simpa [List.prefix_nil.mp begins] using inside time mark same
    · intro part among _
      simp [List.infix_nil.mp among]
  | cons glance glances ih =>
    -- The first glance holds the latch, or sets it when it has fallen off.
    rw [List.foldl_cons, ih (latchNext_inside inside), latchNext_held inside, or_assoc]
    refine or_congr_right ?_
    constructor
    · rintro (⟨rfl, fallen, sustained⟩ | ⟨before, after, rfl, fallen, sustained⟩)
      · exact ⟨[], glances, rfl, fallen, sustained⟩
      · exact ⟨glance :: before, after, rfl, fallen, sustained⟩
    -- A mark is set by the first glance or by a later one.
    · rintro ⟨before, after, split, fallen, sustained⟩
      cases before with
      | nil =>
        obtain ⟨rfl, rfl⟩ := List.cons.inj split
        exact Or.inl ⟨rfl, fallen, sustained⟩
      | cons first before =>
        obtain ⟨rfl, rfl⟩ := List.cons.inj split
        exact Or.inr ⟨before, after, rfl, fallen, sustained⟩

/-- What is unbroken begins with no trigger, and is unbroken behind its first part. -/
theorem unbroken_cons : Unbroken limit time (glance :: glances) ↔
    glance.isTrigger = false ∧ Unbroken limit (if glance.isQuiet then time + 1 else time) glances := by
  simp only [Unbroken, List.forall_mem_cons, List.countP_cons, and_assoc]
  refine and_congr_right fun _ => and_congr_right fun _ => ?_
  split <;> omega

/-- After one step, a latch is set without a further trigger if it was so before, or if the step has been a trigger. -/
theorem latchNext_unbroken :
    (∃ time mark, latchNext limit latch glance = some (time, mark) ∧ Unbroken limit time glances) ↔
      (∃ time mark, latch = some (time, mark) ∧ Unbroken limit time (glance :: glances)) ∨
      (∃ mark, glance = .trigger mark ∧ Unbroken limit 0 glances) := by
  simp only [unbroken_cons]
  cases latch with
  | none => cases glance <;> simp [latchNext]
  | some set =>
    obtain ⟨time, first⟩ := set
    cases glance with
    | trigger later => simp [latchNext, Glance.isTrigger]
    | quiet =>
      simp only [latchNext, Option.some.injEq, Prod.mk.injEq, and_assoc, Glance.isTrigger, Glance.isQuiet, if_true,
        true_and, reduceCtorEq, false_and, exists_false, or_false, exists_and_right]
      split <;> rename_i more
      · simp
      · -- The time is up, whatever follows.
        have late : ¬ Unbroken limit (time + 1) glances := fun longer => by
          have least := longer.2
          omega
        simp [late]
    | hold => simp [latchNext, Glance.isTrigger, Glance.isQuiet]

/-- A latch is set if it was so to begin with and nothing has happened since, or if there has been a last trigger. -/
theorem foldl_latchNext_isSome (inside : ∀ time mark, latch = some (time, mark) → time ≤ limit) :
    (glances.foldl (latchNext limit) latch).isSome ↔
      (∃ time mark, latch = some (time, mark) ∧ Unbroken limit time glances) ∨
      ∃ before mark after, glances = before ++ .trigger mark :: after ∧ Unbroken limit 0 after := by
  -- The induction is on what is shown, from any state of the latch.
  induction glances generalizing latch with
  | nil =>
    simp only [List.foldl_nil, Option.isSome_iff_exists, Prod.exists, List.nil_eq, List.append_eq_nil_iff,
      reduceCtorEq, and_false, false_and, exists_false, or_false]
    refine exists₂_congr fun time mark => ⟨fun same => ⟨same, by simp, ?_⟩, fun held => held.1⟩
    simpa using inside time mark same
  | cons glance glances ih =>
    rw [List.foldl_cons, ih (latchNext_inside inside), latchNext_unbroken, or_assoc]
    refine or_congr_right ?_
    -- The last trigger is the first thing, or one of the others.
    constructor
    · rintro (⟨mark, rfl, since⟩ | ⟨before, mark, after, rfl, since⟩)
      · exact ⟨[], mark, glances, rfl, since⟩
      · exact ⟨glance :: before, mark, after, rfl, since⟩
    · rintro ⟨before, mark, after, split, since⟩
      cases before with
      | nil =>
        obtain ⟨rfl, rfl⟩ := List.cons.inj split
        exact Or.inl ⟨mark, rfl, since⟩
      | cons first before =>
        obtain ⟨rfl, rfl⟩ := List.cons.inj split
        exact Or.inr ⟨before, mark, after, rfl, since⟩

end

/-- A latch is set just if there has been a trigger after which it has not been quiet for too long. -/
theorem latched_isSome_iff {Mark : Type u} {limit : Nat} {glances : List (Glance Mark)} :
    (latched limit glances).isSome ↔ ∃ before mark after, glances = before ++ .trigger mark :: after ∧
      (∀ glance ∈ after, glance.isTrigger = false) ∧ after.countP Glance.isQuiet ≤ limit := by
  rw [latched, foldl_latchNext_isSome (by simp)]
  simp only [reduceCtorEq, false_and, exists_false, false_or, Unbroken, Nat.zero_add]

/-- A latch has been set by the last trigger that found it fallen off, and has been sustained ever since. -/
theorem latched_mark_iff {Mark : Type u} {limit : Nat} {mark : Mark} {glances : List (Glance Mark)} :
    (latched limit glances).map Prod.snd = some mark ↔ ∃ before after, glances = before ++ .trigger mark :: after ∧
      latched limit before = none ∧ Sustained limit after := by
  rw [latched, foldl_latchNext_mark (by simp)]
  simp only [reduceCtorEq, false_and, exists_false, false_or, latched]

end PkeFire
