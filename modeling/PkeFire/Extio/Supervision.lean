import PkeFire.Extio.Scan

/-! How the level of a supervised line depends on the history of its scans. -/

namespace PkeFire

/-- After a history of samples, the line has counted its streak of active ones, and more than ten make it active. -/
structure Check.Follows (check : Check) (i : Fin 2) (samples : List Bool) : Prop where
  counts : CountsStreakTo 255 true (load check.time i) samples
  level : load check.sta i = true ↔ 10 < load check.time i

/-- A line is active exactly when its last eleven samples were, however many there have been. -/
theorem Check.Follows.active_iff {check : Check} {i : Fin 2} {samples : List Bool}
    (follows : check.Follows i samples) :
    load check.sta i = true ↔ List.replicate 11 true <:+ samples := by
  rw [follows.level]
  -- The count is exact up to its limit, which is far beyond eleven.
  exact follows.counts.le_iff (by omega)

/-- At the start, no line has a sample. -/
theorem follows_init (i : Fin 2) : extioInit.check.Follows i [] := by
  refine ⟨?_, ?_⟩
  · rw [extioInit, load_replicate]
    exact CountsStreakTo.nil
  · rw [extioInit, load_replicate, load_replicate]
    simp

section

variable {levels : Vector Bool 2} {i j : Fin 2} {check : Check} {samples : List Bool}

/-- The pass over one line leaves the other one alone. -/
theorem Check.Follows.checkOne_other (follows : check.Follows j samples) (apart : i ≠ j) :
    (checkOne levels i check).Follows j samples := by
  -- Whatever is written is written at the line itself.
  obtain ⟨counts, level⟩ := follows
  rw [checkOne]
  split
  · refine ⟨?_, ?_⟩
    · show CountsStreakTo 255 true (load (store check.time i _) j) samples
      rwa [load_store_other _ _ apart]
    · simp only [load_store_other _ _ apart]
      rw [apply_ite (fun sta => load sta j), load_store_other _ _ apart, ite_self]
      exact level
  · refine ⟨?_, ?_⟩
    · rwa [load_store_other _ _ apart]
    · rwa [load_store_other _ _ apart, load_store_other _ _ apart]

/-- The pass over a line adds its sample, which is active while the level is low. -/
theorem Check.Follows.checkOne_self (follows : check.Follows i samples) :
    (checkOne levels i check).Follows i (samples ++ [!load levels i]) := by
  obtain ⟨counts, level⟩ := follows
  rw [checkOne]
  cases high : load levels i with
  | true =>
    -- A single inactive sample starts the count over.
    rw [if_neg (by decide)]
    refine ⟨?_, ?_⟩
    · rw [load_store_self]
      exact CountsStreakTo.restart (by decide)
    · rw [load_store_self, load_store_self]
      simp
  | false =>
    rw [if_pos (by decide)]
    have counted := counts.again
    refine ⟨?_, ?_⟩
    · rwa [load_store_self]
    · rw [load_store_self]
      -- A level that has been set belongs to a count that only grows.
      generalize after : (if load check.time i < 255 then load check.time i + 1 else load check.time i) = count
      have grown : load check.time i ≤ count := by
        rw [← after]
        split <;> omega
      by_cases enough : count > 10
      · simp only [if_pos enough, load_store_self]
        exact ⟨fun _ => enough, fun _ => trivial⟩
      · simp only [if_neg enough]
        rw [level]
        omega

/-- One scan adds a sample to both lines. -/
theorem Check.Follows.extioCheck (follows : check.Follows i samples) :
    (PkeFire.extioCheck levels check).Follows i (samples ++ [!load levels i]) := by
  -- Of the two passes, one is over the line.
  let passed : Nat → Check → Prop := fun count check =>
    check.Follows i (if i.val < count then samples ++ [!load levels i] else samples)
  have both : passed 2 (PkeFire.extioCheck levels check) := by
    apply countedLoop_invariant passed
    · exact follows
    · intro line check held
      show (checkOne levels line check).Follows i _
      unfold passed at held
      by_cases same : line = i
      · subst same
        rw [if_neg (Nat.lt_irrefl _)] at held
        rw [if_pos (Nat.lt_succ_self _)]
        exact held.checkOne_self
      · have order : i.val < line.val + 1 ↔ i.val < line.val := by
          have distinct : line.val ≠ i.val := fun equal => same (Fin.ext equal)
          omega
        simp only [order]
        exact held.checkOne_other same
  unfold passed at both
  rwa [if_pos i.isLt] at both

end

end PkeFire
