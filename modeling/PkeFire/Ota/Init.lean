import PkeFire.Run.Machine

/-! The flag by which `ota_init` keeps a second update task from being started. -/

namespace PkeFire

/-- Who calls `ota_init`. -/
inductive OtaCaller where
  /-- The command of the shell. -/
  | shell
  /-- The handler of `CMD_DOWN_UPDATE`. -/
  | handler
  deriving DecidableEq, Repr

/-- Where a caller stands in `ota_init`. -/
inductive OtaPc where
  /-- No call is in progress. -/
  | outside
  /-- `ota_running` has been read as zero. -/
  | passed
  /-- `ota_running` has been set, and the thread is to be created. -/
  | claimed
  deriving DecidableEq, Repr

/-- The flag, the two callers, and the number of update tasks that are alive. -/
structure OtaTasks where
  otaRunning : Bool
  pc : OtaCaller → OtaPc
  alive : Nat

/-- What may happen next. -/
inductive OtaEvent where
  /-- A caller reads the flag. -/
  | read (caller : OtaCaller)
  /-- A caller sets the flag. -/
  | write (caller : OtaCaller)
  /-- A caller creates the thread and returns, whether it has been created or not. -/
  | create (caller : OtaCaller) (created : Bool)
  /-- A task clears the flag at its end. -/
  | complete
  deriving DecidableEq, Repr

/-- The other caller. -/
def OtaCaller.other : OtaCaller → OtaCaller
  | .shell => .handler
  | .handler => .shell

namespace OtaTasks

/-- No task has been started yet. -/
def init : OtaTasks where
  otaRunning := false
  pc := fun _ => .outside
  alive := 0

/-- A caller has gone on. -/
def goTo (s : OtaTasks) (caller : OtaCaller) (pc : OtaPc) : OtaTasks :=
  { s with pc := fun who => if who = caller then pc else s.pc who }

/-- One event, which must be the next one of its caller. -/
def step (s : OtaTasks) : OtaEvent → Option OtaTasks
  | .read caller =>
    if s.pc caller = .outside then
      -- While the flag is set, the call returns at once.
      some (if s.otaRunning then s else s.goTo caller .passed)
    else none
  -- Whoever has passed the test sets the flag, whatever has happened since then.
  | .write caller =>
    if s.pc caller = .passed then some ({ s with otaRunning := true }.goTo caller .claimed) else none
  -- When the thread is not created, the flag remains set.
  | .create caller created =>
    if s.pc caller = .claimed then
      some ({ s with alive := if created then s.alive + 1 else s.alive }.goTo caller .outside)
    else none
  -- A task clears the flag even if another task is alive.
  | .complete => if 0 < s.alive then some { s with otaRunning := false, alive := s.alive - 1 } else none

/-- No two tasks are alive, and between the calls the flag tells whether one is. -/
def Sound (s : OtaTasks) : Prop :=
  s.alive ≤ 1 ∧ ((∀ caller, s.pc caller = .outside) → (s.otaRunning = true ↔ s.alive = 1))

/-- The flag is read as zero by one call at a time, and every thread is created. -/
def Orderly (s : OtaTasks) : OtaEvent → Prop
  | .read caller => s.otaRunning = true ∨ s.pc caller.other ≠ .passed
  | .create _ created => created = true
  | .write _ | .complete => True

/-- Order can be checked event by event. -/
instance (s : OtaTasks) : (event : OtaEvent) → Decidable (s.Orderly event)
  | .read _ => inferInstanceAs (Decidable (_ ∨ _))
  | .create _ created => inferInstanceAs (Decidable (created = true))
  | .write _ | .complete => .isTrue trivial

/-- The flag is set although no task is alive and no call is in progress. -/
def LockedOut (s : OtaTasks) : Prop :=
  s.otaRunning = true ∧ s.alive = 0 ∧ ∀ caller, s.pc caller = .outside

end OtaTasks

/-- However the calls and the tasks are interleaved, one task at most is alive, and the flag tells the truth. -/
def OtaExcludes : Prop :=
  ∀ events finish, run OtaTasks.step .init events = some finish → finish.Sound

/-- Who holds the flag: nobody, a call or a task. -/
def OtaTasks.Owned (s : OtaTasks) : Prop :=
  -- Between the calls, the flag belongs to the task.
  ((∀ caller, s.pc caller = .outside) ∧ (s.otaRunning = true ↔ s.alive = 1) ∧ s.alive ≤ 1) ∨
    -- One call has come past the test, and no task is alive until it creates one.
    ∃ caller, s.pc caller.other = .outside ∧ s.alive = 0 ∧
      ((s.pc caller = .passed ∧ s.otaRunning = false) ∨ (s.pc caller = .claimed ∧ s.otaRunning = true))

section

variable {s next : OtaTasks}

/-- There are two callers. -/
theorem OtaCaller.eq_or_other (caller who : OtaCaller) : who = caller ∨ who = caller.other := by
  cases caller <;> cases who <;> decide

/-- The other caller is not the same one. -/
theorem OtaCaller.other_ne (caller : OtaCaller) : caller.other ≠ caller := by
  cases caller <;> decide

/-- The other of the other caller is the caller itself. -/
@[simp] theorem OtaCaller.other_other (caller : OtaCaller) : caller.other.other = caller := by
  cases caller <;> rfl

/-- A caller that has gone on stands where it has gone. -/
@[simp] theorem pc_goTo_self (s : OtaTasks) (caller : OtaCaller) (pc : OtaPc) :
    (s.goTo caller pc).pc caller = pc :=
  if_pos rfl

/-- The other caller has stayed where it was. -/
@[simp] theorem pc_goTo_other (s : OtaTasks) (caller : OtaCaller) (pc : OtaPc) :
    (s.goTo caller pc).pc caller.other = s.pc caller.other :=
  if_neg caller.other_ne

/-- A call that is in progress is the only one, and owns the flag. -/
theorem OtaTasks.Owned.inside (owned : s.Owned) (caller : OtaCaller) (inside : s.pc caller ≠ .outside) :
    s.pc caller.other = .outside ∧ s.alive = 0 ∧
      ((s.pc caller = .passed ∧ s.otaRunning = false) ∨ (s.pc caller = .claimed ∧ s.otaRunning = true)) := by
  obtain ⟨outside, _⟩ | ⟨owner, outside, none, place⟩ := owned
  · exact absurd (outside caller) inside
  · obtain rfl | rfl := owner.eq_or_other caller
    · exact ⟨outside, none, place⟩
    · exact absurd outside inside

/-- In an orderly run, the flag always has one owner at most. -/
theorem owned_step {event : OtaEvent} (owned : s.Owned) (orderly : s.Orderly event)
    (taken : s.step event = some next) : next.Owned := by
  cases event with
  | read caller =>
    simp only [OtaTasks.step] at taken
    split at taken
    · rename_i here
      rw [← Option.some.inj taken]
      cases flag : s.otaRunning with
      | true => exact owned
      | false =>
        obtain ⟨outside, alive, bounded⟩ | ⟨owner, outside, none, place⟩ := owned
        · -- Nobody owns the flag, so the caller does from now on.
          rw [flag] at alive
          have none : s.alive = 0 := by
            have other : ¬ s.alive = 1 := fun one => Bool.false_ne_true (alive.mpr one)
            omega
          exact Or.inr ⟨caller, by simp [outside], none, Or.inl ⟨by simp, flag⟩⟩
        · -- The other call has come past the test already.
          obtain rfl | rfl := owner.eq_or_other caller
          · obtain ⟨passed, _⟩ | ⟨claimed, _⟩ := place
            · rw [here] at passed
              cases passed
            · rw [here] at claimed
              cases claimed
          · obtain ⟨passed, _⟩ | ⟨_, set⟩ := place
            · obtain set | other := orderly
              · rw [flag] at set
                cases set
              · rw [OtaCaller.other_other] at other
                exact absurd passed other
            · rw [flag] at set
              cases set
    · cases taken
  | write caller =>
    simp only [OtaTasks.step] at taken
    split at taken
    · rename_i here
      -- The call that has passed the test takes the flag.
      obtain ⟨outside, none, _⟩ := owned.inside caller (by rw [here]; decide)
      rw [← Option.some.inj taken]
      exact Or.inr ⟨caller, by simpa using outside, none, Or.inr ⟨by simp, rfl⟩⟩
    · cases taken
  | create caller created =>
    simp only [OtaTasks.step] at taken
    split at taken
    · rename_i here
      obtain ⟨outside, none, ⟨passed, _⟩ | ⟨_, set⟩⟩ := owned.inside caller (by rw [here]; decide)
      · rw [here] at passed
        cases passed
      -- The thread has been created, and takes the flag over.
      have created : created = true := orderly
      rw [← Option.some.inj taken, created]
      refine Or.inl ⟨?_, ?_, ?_⟩
      · intro who
        obtain rfl | rfl := caller.eq_or_other who
        · exact pc_goTo_self _ _ _
        · simpa using outside
      · simp [OtaTasks.goTo, set, none]
      · simp [OtaTasks.goTo, none]
    · cases taken
  | complete =>
    simp only [OtaTasks.step] at taken
    split at taken
    · rename_i some
      obtain ⟨outside, _, bounded⟩ | ⟨_, _, none, _⟩ := owned
      · rw [← Option.some.inj taken]
        -- There was one task at most, so none is left.
        have last : s.alive - 1 = 0 := by omega
        exact Or.inl ⟨outside, by simp [last], by simp [last]⟩
      · omega
    · cases taken

/-- The owner of the flag tells how many tasks are alive. -/
theorem OtaTasks.Owned.sound (owned : s.Owned) : s.Sound := by
  obtain ⟨_, alive, bounded⟩ | ⟨owner, _, none, place⟩ := owned
  · exact ⟨bounded, fun _ => alive⟩
  · -- A call that owns the flag is still in progress.
    refine ⟨by omega, fun outside => ?_⟩
    obtain ⟨passed, _⟩ | ⟨claimed, _⟩ := place
    · rw [outside owner] at passed
      cases passed
    · rw [outside owner] at claimed
      cases claimed

/-- In an orderly run, one task at most is alive, and the flag tells the truth between the calls. -/
theorem sound_of_orderly (events : List OtaEvent) (finish : OtaTasks)
    (orderly : EveryStep OtaTasks.step OtaTasks.Orderly .init events)
    (ran : run OtaTasks.step .init events = some finish) : finish.Sound := by
  have initially : OtaTasks.init.Owned := Or.inl ⟨fun _ => rfl, by decide, by decide⟩
  have owned : finish.Owned := by
    refine run_invariant OtaTasks.Owned ?_ initially orderly ran
    intro state event next held permitted taken
    exact owned_step held permitted taken
  exact owned.sound

/--
Both callers act in turns: the shell starts a task, and the handler returns twice because the flag is set.

When the task has ended, the handler starts one, and the shell returns.
-/
def startInTurns : List OtaEvent :=
  [.read .shell, .write .shell, .read .handler, .create .shell true, .read .handler, .complete,
    .read .handler, .write .handler, .read .shell, .create .handler true, .read .shell]

/-- Callers that act in turns leave a single task, of which the flag tells. -/
theorem sound_of_orderly_turns : ∃ finish,
    run OtaTasks.step .init startInTurns = some finish ∧ finish.alive = 1 ∧ finish.Sound :=
  ⟨_, rfl, rfl, sound_of_orderly startInTurns _ (by decide) rfl⟩

/-- Both callers read the flag before either sets it. -/
def startTwice : List OtaEvent :=
  [.read .shell, .read .handler, .write .shell, .create .shell true, .write .handler, .create .handler true]

/-- Two tasks are alive when both callers read the flag before either sets it. -/
theorem otaExcludes_fails : ¬ OtaExcludes := by
  intro excludes
  have sound := excludes startTwice _ rfl
  exact absurd sound.1 (by decide)

/-- A call whose thread is not created, with no other one in progress, leaves the flag set for good. -/
theorem lockedOut_of_create {caller : OtaCaller} (owned : s.Owned)
    (taken : s.step (.create caller false) = some next) : next.LockedOut := by
  simp only [OtaTasks.step] at taken
  split at taken
  · rename_i here
    obtain ⟨outside, none, ⟨passed, _⟩ | ⟨_, set⟩⟩ := owned.inside caller (by rw [here]; decide)
    · rw [here] at passed
      cases passed
    rw [← Option.some.inj taken]
    -- The caller leaves the flag behind, and no task that could clear it.
    refine ⟨set, none, fun who => ?_⟩
    obtain rfl | rfl := caller.eq_or_other who
    · exact pc_goTo_self _ _ _
    · simpa using outside
  · cases taken

/-- Once the flag is set without a task, no call ever starts one again. -/
theorem run_lockedOut {finish : OtaTasks} {events : List OtaEvent} (locked : s.LockedOut)
    (ran : run OtaTasks.step s events = some finish) : finish.LockedOut := by
  have every : EveryStep OtaTasks.step (fun _ _ => True) s events :=
    everyStep_of_forall (fun _ _ => trivial) s events
  refine run_invariant OtaTasks.LockedOut ?_ locked every ran
  intro state event next locked _ taken
  have still := locked
  obtain ⟨set, none, outside⟩ := locked
  cases event with
  | read caller =>
    -- The call returns because the flag is set.
    simp only [OtaTasks.step, outside caller, set, if_true, Option.some.injEq] at taken
    exact taken ▸ still
  | write caller => simp [OtaTasks.step, outside caller] at taken
  | create caller created => simp [OtaTasks.step, outside caller] at taken
  | complete => simp [OtaTasks.step, none] at taken

end

end PkeFire
