import PkeFire.Misc.Effects

/-! How the door consumes a remote request, and when it keeps one for ever. -/

namespace PkeFire

/-- No message arrives while the factory test of an iteration runs. -/
def Stimulus.Undisturbed (stimulus : Stimulus) : Prop :=
  ∀ event ∈ stimulus.schedule, event.isDoor = false

/-- Some cause other than the remote request is active. -/
def Controller.otherCause (c : Controller) : Bool :=
  c.keyOpen || c.emergencyOpen || c.smokeOpen != 0 || c.fireMachineOpen

/-- The event brings no further message, shell command, or factory test, and no other cause or smoke input. -/
def Quiet (c : Controller) : Event → Prop
  | .surround event => event.drivesPin = false ∧ event.isDoor = false
  | .iterate _ => c.runStopFlag = true → c.extio.keySta extioSetKey ≠ .press ∧
      c.sampled.otherCause = false ∧ miscSmokeTarget c.extio = false

instance (c : Controller) : DecidablePred (Quiet c)
  | .surround event => inferInstanceAs (Decidable (event.drivesPin = false ∧ event.isDoor = false))
  | .iterate _ => inferInstanceAs (Decidable (c.runStopFlag = true → c.extio.keySta extioSetKey ≠ .press ∧
      c.sampled.otherCause = false ∧ miscSmokeTarget c.extio = false))

/-- Every executed iteration with a remote request that no message renews ends without the request. -/
def RemoteOneShot (fireMachine : Bool) : Prop :=
  ∀ c, Reachable fireMachine c → ∀ stimulus next, c.runStopFlag = true → c.remoteOpen ≠ 0 →
    stimulus.Undisturbed → iterate fireMachine stimulus c = some next → next.remoteOpen = 0

/-- At least 102 quiet iterations leave the door locked. -/
def RemoteRelocks (fireMachine : Bool) : Prop :=
  ∀ c, Reachable fireMachine c → ∀ events finish,
    EveryStep (controllerStep fireMachine) Quiet c events →
    run (controllerStep fireMachine) c events = some finish →
    102 ≤ occurrences (controllerStep fireMachine) executed c events → finish.doorPin = false

/-- The rest of an undisturbed iteration keeps the remote request that its door phase left. -/
theorem setKeyPress_remoteOpen {fireMachine : Bool} {stimulus : Stimulus} {c served : Controller}
    (undisturbed : stimulus.Undisturbed)
    (pressed : c.setKeyPress fireMachine stimulus.schedule = some served) :
    served.remoteOpen = c.remoteOpen := by
  -- Consuming the event of the set key is no message, nor is anything in the test.
  rw [Controller.setKeyPress] at pressed
  split at pressed
  · have started : c.clearSetKey.remoteOpen = c.remoteOpen := rfl
    rw [← started, factoryTestcase_remoteOpen undisturbed pressed]
  · rw [← Option.some.inj pressed]

/-- An iteration with a remote request clears it exactly when it finds the door closed. -/
theorem iterate_remoteOpen {fireMachine : Bool} {stimulus : Stimulus} {c next : Controller}
    (running : c.runStopFlag = true) (requested : c.remoteOpen ≠ 0) (undisturbed : stimulus.Undisturbed)
    (done : iterate fireMachine stimulus c = some next) :
    next.remoteOpen = if c.doorOpen then c.remoteOpen else 0 := by
  rcases iterate_cases done with ⟨halted, _⟩ | ⟨_, served, pressed, same⟩
  · simp [running] at halted
  · -- The request itself is a cause, so the opening branch is taken.
    have active : c.sampled.openCause = true := by
      have kept : c.sampled.remoteOpen = c.remoteOpen := rfl
      simp [Controller.openCause, kept, requested]
    obtain ⟨sta, kept⟩ := setKeyKeep_frame served
    rw [same, kept]
    simp only
    rw [setKeyPress_remoteOpen undisturbed pressed, (supervise_supervised fireMachine _).remoteOpen,
      Controller.driveDoor, if_pos active, (Controller.openBranch_opened stimulus.stack c.sampled).remoteOpen]
    rfl

/-- Without another cause, `open` is the remote request. -/
theorem openCause_of_quiet {c : Controller} (quiet : c.sampled.otherCause = false) :
    c.sampled.openCause = (c.remoteOpen != 0) := by
  -- Sampling the inputs leaves the request alone.
  have kept : c.sampled.remoteOpen = c.remoteOpen := rfl
  simp only [Controller.otherCause, Bool.or_eq_false_iff] at quiet
  obtain ⟨⟨⟨key, emergency⟩, smoke⟩, fire⟩ := quiet
  simp only [Controller.openCause, key, emergency, smoke, fire, kept, Bool.false_or, Bool.or_false]

/-- A quiet event is a plain one. -/
theorem Quiet.plain {c : Controller} {event : Event} (quiet : Quiet c event) : Plain c event := by
  cases event with
  | surround event => exact quiet.1
  | iterate stimulus => exact fun running => (quiet running).1

/-- A door on its way to being locked, after a number of quiet iterations. -/
inductive Relocking (count : Nat) (c : Controller) : Prop where
  /-- The request has yet to open the closed door. -/
  | pending (fresh : count = 0) (closed : c.doorOpen = false) (requested : c.remoteOpen ≠ 0)
  /-- The request is served, and the open door counts quiet iterations. -/
  | counting (isOpen : c.doorOpen = true) (served : c.remoteOpen = 0) (behind : count ≤ c.lockTime + 1)
      (below : count = 0 ∨ c.lockTime ≤ 100)
  /-- The door has been locked again. -/
  | locked (closed : c.doorOpen = false) (served : c.remoteOpen = 0) (output : c.doorPin = false)

/-- Agreement about the door carries the progress of relocking over. -/
theorem Relocking.congr {count : Nat} {c next : Controller} (held : Relocking count c)
    (door : next.doorOpen = c.doorOpen) (remote : next.remoteOpen = c.remoteOpen)
    (lock : next.lockTime = c.lockTime) (output : next.doorPin = c.doorPin) : Relocking count next := by
  cases held with
  | pending fresh closed requested => exact .pending fresh (door.trans closed) (remote ▸ requested)
  | counting isOpen served behind below =>
    exact .counting (door.trans isOpen) (remote.trans served) (lock ▸ behind) (lock ▸ below)
  | locked closed served pin =>
    exact .locked (door.trans closed) (remote.trans served) (output.trans pin)

/-- The door phase of one quiet iteration advances the relocking. -/
theorem Relocking.driveDoor {count : Nat} {c : Controller} (held : Relocking count c)
    (quiet : c.sampled.otherCause = false) (noSmoke : miscSmokeTarget c.extio = false)
    (stack : BuildingStatus) : Relocking (count + 1) (c.sampled.driveDoor stack) := by
  rw [Controller.driveDoor, openCause_of_quiet quiet]
  cases held with
  | pending fresh closed requested =>
    -- The first iteration opens the door and clears the request.
    have opened := Controller.openBranch_opened stack c.sampled
    have before : c.sampled.doorOpen = false := closed
    rw [if_pos (by simpa using requested)]
    refine .counting opened.doorOpen ?_ (by omega) (Or.inr (by rw [opened.lockTime]; omega))
    rw [opened.remoteOpen, before]
    rfl
  | counting isOpen served behind below =>
    -- The open door counts this iteration, unless it is the one that locks it.
    have counts : (c.sampled.doorOpen && !miscSmokeTarget c.sampled.extio) = true := by
      have before : c.sampled.doorOpen = true := isOpen
      have input : miscSmokeTarget c.sampled.extio = false := noSmoke
      simp [before, input]
    rw [if_neg (by simp [served])]
    cases Controller.closeBranch_closed c.sampled with
    | waits lockTime same advanced =>
      rcases advanced with ⟨_, idle⟩ | ⟨_, more, limit⟩
      · simp [counts] at idle
      · have before : c.sampled.lockTime = c.lockTime := rfl
        rw [same]
        exact .counting isOpen served (by simp only; omega) (Or.inr (by simp only; omega))
    | locks _ _ _ same =>
      obtain ⟨_, _, _, same⟩ := same
      rw [same]
      exact .locked rfl rfl rfl
  | locked closed served output =>
    -- There is no request any more, and the door is closed.
    rw [if_neg (by simp [served])]
    cases Controller.closeBranch_closed c.sampled with
    | waits lockTime same =>
      rw [same]
      exact .locked closed served output
    | locks wasOpen =>
      -- A closed door is not locked again.
      have before : c.sampled.doorOpen = false := closed
      simp [before] at wasOpen

/-- The door phase of one quiet iteration keeps an open door with a request, and a closed one without. -/
theorem driveDoor_settled {c : Controller} (settled : c.doorOpen = (c.remoteOpen != 0))
    (quiet : c.sampled.otherCause = false) (stack : BuildingStatus) :
    (c.sampled.driveDoor stack).doorOpen = c.doorOpen ∧
      (c.sampled.driveDoor stack).remoteOpen = c.remoteOpen ∧
      (c.sampled.driveDoor stack).doorPin = c.doorPin := by
  rw [Controller.driveDoor, openCause_of_quiet quiet, ← settled]
  by_cases isOpen : c.doorOpen = true
  · -- The opening branch does nothing for a door that is already open, not even clear the request.
    have opened := Controller.openBranch_opened stack c.sampled
    have before : c.sampled.doorOpen = true := isOpen
    rw [if_pos isOpen, opened.doorOpen, opened.remoteOpen, opened.doorPin, before, isOpen]
    exact ⟨rfl, rfl, rfl⟩
  · -- A closed door without a request has nothing to do.
    rw [if_neg isOpen]
    cases Controller.closeBranch_closed c.sampled with
    | waits lockTime same =>
      rw [same]
      exact ⟨rfl, rfl, rfl⟩
    | locks wasOpen => exact absurd wasOpen isOpen

section

variable {fireMachine : Bool} {c next : Controller} {event : Event}

/-- What a quiet event does: nothing to door and request, or one door phase. -/
theorem Quiet.cases (quiet : Quiet c event) (taken : controllerStep fireMachine c event = some next) :
    executed c event = false ∧ next.doorOpen = c.doorOpen ∧ next.remoteOpen = c.remoteOpen ∧
        next.lockTime = c.lockTime ∧ next.doorPin = c.doorPin ∨
      executed c event = true ∧ c.sampled.otherCause = false ∧ miscSmokeTarget c.extio = false ∧
        ∃ stack, SameDoor (c.sampled.driveDoor stack) next := by
  cases event with
  | surround event =>
    -- Other threads may scan the board and stop the task, but ask for nothing.
    cases Option.some.inj taken
    obtain ⟨door, lock, _⟩ := surround_frame fireMachine event c
    exact Or.inl ⟨rfl, door, surround_remoteOpen fireMachine event c quiet.2, lock,
      surround_doorPin fireMachine event c quiet.1⟩
  | iterate stimulus =>
    by_cases running : c.runStopFlag = true
    · refine Or.inr ⟨running, (quiet running).2.1, (quiet running).2.2, stimulus.stack, ?_⟩
      rw [iterate_plain quiet.plain running taken]
      exact served_sameDoor fireMachine _
    · rcases iterate_cases taken with ⟨_, same⟩ | ⟨ran, _⟩
      · rw [same]
        exact Or.inl ⟨by simpa [executed] using running, rfl, rfl, rfl, rfl⟩
      · exact absurd ran running

/-- A quiet event advances the relocking if it is an executed iteration. -/
theorem Relocking.step {count : Nat} (held : Relocking count c) (quiet : Quiet c event)
    (taken : controllerStep fireMachine c event = some next) :
    Relocking (if executed c event then count + 1 else count) next := by
  rcases quiet.cases taken with ⟨skipped, door, remote, lock, output⟩ | ⟨ran, noCause, noSmoke, stack, same⟩
  · simpa [skipped] using held.congr door remote lock output
  · rw [if_pos ran]
    exact (held.driveDoor noCause noSmoke stack).congr same.doorOpen same.remoteOpen same.lockTime same.doorPin

/-- A quiet event keeps an open door with a request, and a closed one without. -/
theorem settled_step (settled : c.doorOpen = (c.remoteOpen != 0)) (quiet : Quiet c event)
    (taken : controllerStep fireMachine c event = some next) :
    next.doorOpen = (next.remoteOpen != 0) ∧ next.doorPin = c.doorPin := by
  rcases quiet.cases taken with ⟨_, door, remote, _, output⟩ | ⟨_, noCause, _, stack, same⟩
  · exact ⟨by rw [door, remote, settled], output⟩
  · -- Of the whole iteration, only its door phase could move anything.
    obtain ⟨door, remote, output⟩ := driveDoor_settled settled noCause stack
    exact ⟨by rw [same.doorOpen, same.remoteOpen, door, remote, settled], same.doorPin.trans output⟩

end

/--
A remote request is cleared by the iteration that sees it exactly when that iteration finds the door closed.

Quiet iterations then lock the door exactly when it started open without a request, or closed with one,
or with its output locked.
-/
theorem remote_served_iff (fireMachine : Bool) (c : Controller) :
    (∀ stimulus next, c.runStopFlag = true → c.remoteOpen ≠ 0 → stimulus.Undisturbed →
      iterate fireMachine stimulus c = some next → (next.remoteOpen = 0 ↔ c.doorOpen = false)) ∧
    (∀ events finish, EveryStep (controllerStep fireMachine) Quiet c events →
      run (controllerStep fireMachine) c events = some finish →
      102 ≤ occurrences (controllerStep fireMachine) executed c events →
        (finish.doorPin = false ↔ c.doorOpen ≠ (c.remoteOpen != 0) ∨ c.doorPin = false)) := by
  constructor
  · intro stimulus next running requested undisturbed done
    rw [iterate_remoteOpen running requested undisturbed done]
    split
    · rename_i isOpen
      simp [isOpen, requested]
    · rename_i closed
      simpa using closed
  · intro events finish quiet ran long
    by_cases settled : c.doorOpen = (c.remoteOpen != 0)
    · -- Flag and output never move again.
      have still := run_invariant (fun state : Controller =>
          state.doorOpen = (state.remoteOpen != 0) ∧ state.doorPin = c.doorPin)
        (fun _ _ _ held quiet taken =>
          ⟨(settled_step held.1 quiet taken).1, (settled_step held.1 quiet taken).2.trans held.2⟩)
        ⟨settled, rfl⟩ quiet ran
      rw [still.2]
      simp [settled]
    · -- Otherwise the request is still to be served, or has been served already.
      have started : Relocking 0 c := by
        by_cases isOpen : c.doorOpen = true
        · have served : c.remoteOpen = 0 := by simpa [isOpen] using settled
          exact .counting isOpen served (Nat.zero_le _) (Or.inl rfl)
        · have closed : c.doorOpen = false := by simpa using isOpen
          exact .pending rfl closed (by simpa [closed] using settled)
      have ended : Relocking (occurrences (controllerStep fireMachine) executed c events) finish :=
        counted_invariant Relocking (fun _ _ _ _ held quiet taken => held.step quiet taken) started quiet ran
      -- After 102 iterations, neither the pending nor the counting phase can last.
      cases ended with
      | pending fresh => omega
      | counting _ _ behind below => omega
      | locked _ _ output => simp [output, settled]

/-- A single request opens the closed door, and 101 more iterations lock it again. -/
theorem remote_served_once : ∃ finish,
    run (controllerStep true) controllerInit (.surround (.door 1) :: .replicate 102 (.iterate idle)) =
      some finish ∧ finish.doorPin = false := by
  -- The request arrives first, so the theorem is applied to the state that it leaves.
  have quiet : EveryStep (controllerStep true) Quiet (surround true (.door 1) controllerInit)
      (.replicate 102 (.iterate idle)) := by decide +kernel
  obtain ⟨finish, rest⟩ := run_plain (quiet.mono fun _ _ quiet => quiet.plain)
  have arrives : controllerStep true controllerInit (.surround (.door 1)) =
      some (surround true (.door 1) controllerInit) := rfl
  have locked := (remote_served_iff true (surround true (.door 1) controllerInit)).2
    (.replicate 102 (.iterate idle)) finish quiet rest (by decide +kernel)
  refine ⟨finish, ?_, locked.mpr (Or.inr (by decide))⟩
  rw [run_cons, arrives, Option.bind_some, rest]

/-- A second request while the door is open is never cleared, and keeps the door open for ever. -/
theorem remoteOneShot_fails : ¬ RemoteOneShot true ∧ ¬ RemoteRelocks true := by
  -- The door has been opened by the first request when the second one arrives.
  have ends : (run (controllerStep true) controllerInit
      [.surround (.door 1), .iterate idle, .surround (.door 1)]).any (fun c =>
        c.runStopFlag && c.remoteOpen != 0 &&
        (iterate true idle c).any (fun next => next.remoteOpen != 0) &&
        decide (EveryStep (controllerStep true) Quiet c (.replicate 102 (.iterate idle))) &&
        decide (102 ≤ occurrences (controllerStep true) executed c (.replicate 102 (.iterate idle))) &&
        (run (controllerStep true) c (.replicate 102 (.iterate idle))).any (fun finish => finish.doorPin)) =
          true := by decide +kernel
  obtain ⟨c, ran, ends⟩ := (Option.any_eq_true _ _).mp ends
  simp only [Bool.and_eq_true, decide_eq_true_eq, bne_iff_ne] at ends
  obtain ⟨⟨⟨⟨⟨running, requested⟩, kept⟩, quiet⟩, long⟩, unlocked⟩ := ends
  have reached : Reachable true c := ⟨_, everyStep_of_forall (fun _ _ => trivial) _ _, ran⟩
  constructor
  · intro oneShot
    obtain ⟨next, done, remains⟩ := (Option.any_eq_true _ _).mp kept
    have cleared := oneShot c reached idle next running requested (by simp [Stimulus.Undisturbed, idle]) done
    simp [cleared] at remains
  · intro relocks
    obtain ⟨finish, ended, pin⟩ := (Option.any_eq_true _ _).mp unlocked
    have locked := relocks c reached _ finish quiet ended long
    simp [locked] at pin

end PkeFire
