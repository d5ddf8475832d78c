import PkeFire.Misc.FireMachine

/-! How the controller settles when nothing happens any more, and the two ways in which it never does. -/

namespace PkeFire

/-- The event neither requests anything nor drives an output. -/
def Surrounding.calm : Surrounding → Bool
  | .scan _ | .runStop _ => true
  | .door _ | .raiseSmoke _ | .shell _ => false

/-- Nothing happens: an executed iteration finds no key, no emergency, and no active input. -/
def Calm (c : Controller) : Event → Prop
  | .surround event => event.calm = true
  | .iterate _ => c.runStopFlag = true → c.extio.keySta extioSetKey ≠ .press ∧
      c.extio.keySta extioOpenKey = .release ∧ c.extio.isCheck extioCheckEmergency = false ∧
      c.extio.isFireMachine = false ∧ miscSmokeTarget c.extio = false

instance (c : Controller) : DecidablePred (Calm c)
  | .surround event => inferInstanceAs (Decidable (event.calm = true))
  | .iterate _ => inferInstanceAs (Decidable (c.runStopFlag = true → c.extio.keySta extioSetKey ≠ .press ∧
      c.extio.keySta extioOpenKey = .release ∧ c.extio.isCheck extioCheckEmergency = false ∧
      c.extio.isFireMachine = false ∧ miscSmokeTarget c.extio = false))

/-- The event raises `smoke_open`, as no module of this program does. -/
def Event.raisesSmoke : Event → Bool
  | .surround (.raiseSmoke _) => true
  | _ => false

/-- A plain event that does not raise `smoke_open`. -/
def Ordinary (c : Controller) (event : Event) : Prop :=
  Plain c event ∧ event.raisesSmoke = false

/-- Neither of the two flags that keep the door open will ever be cleared. -/
def Controller.Stuck (c : Controller) : Prop :=
  -- A request is cleared by the iteration that opens the door, but this door is open already.
  c.doorOpen = true ∧ c.remoteOpen ≠ 0 ∨
    -- The next poll withdraws the target before the release has been confirmed.
    c.smokeReport.fireMachineUpdate = true ∧ ¬ c.smokeReport.Releasable

/-- A controller that settles, after a number of calm iterations. -/
structure Settling (count : Nat) (c : Controller) : Prop where
  smokeless : c.smokeOpen = 0
  agree : c.fireMachineOpen = c.smokeReport.fireMachineUpdate
  releasing : Releasing count c
  /-- A request can only be left at the beginning. -/
  request : c.remoteOpen = 0 ∨ count = 0 ∧ c.doorOpen = false
  /-- The lock timer has been running since the twelfth iteration at the latest. -/
  locking : c.doorOpen = true → count = 0 ∨ count ≤ c.lockTime + 12 ∧ c.lockTime ≤ 100

section

variable {c next : Controller} {event : Event}

/-- A calm event is a plain one. -/
theorem Calm.plain (calm : Calm c event) : Plain c event := by
  cases event with
  | surround event =>
    cases event with
    | shell argv => cases calm
    | _ => rfl
  | iterate stimulus => exact fun running => (calm running).1

/-- A calm event sees no active input. -/
theorem Calm.released (calm : Calm c event) : Released c event := by
  cases event with
  | surround event => trivial
  | iterate stimulus => exact fun running => (calm running).2.2.2

/-- Driving the door keeps the flag of the smoke. -/
theorem driveDoor_smokeOpen (stack : BuildingStatus) (c : Controller) :
    (c.driveDoor stack).smokeOpen = c.smokeOpen := by
  rw [Controller.driveDoor]
  split
  · exact (Controller.openBranch_opened stack c).smokeOpen
  · cases Controller.closeBranch_closed c with
    | waits lockTime same => rw [same]
    | locks _ _ _ same =>
      obtain ⟨_, _, _, same⟩ := same
      rw [same]

/-- Only what raises the flag of the smoke changes it among the other threads. -/
theorem surround_smokeOpen (fireMachine : Bool) (event : Surrounding) (c : Controller)
    (silent : (Event.surround event).raisesSmoke = false) : (surround fireMachine event c).smokeOpen = c.smokeOpen := by
  cases event with
  | raiseSmoke floor => cases silent
  | shell argv =>
    obtain ⟨pin, same⟩ := miscDoorOpen_frame argv c
    rw [surround, same]
  | _ => rfl

/-- Without an event that raises it, the flag of the smoke stays clear. -/
theorem smokeless_step (smokeless : c.smokeOpen = 0) (ordinary : Ordinary c event)
    (taken : controllerStep true c event = some next) : next.smokeOpen = 0 := by
  cases event with
  | surround event =>
    rw [← Option.some.inj taken, surround_smokeOpen true event c ordinary.2]
    exact smokeless
  | iterate stimulus =>
    by_cases running : c.runStopFlag = true
    · rw [iterate_plain ordinary.1 running taken]
      obtain ⟨sta, kept⟩ := setKeyKeep_frame ((c.sampled.driveDoor stimulus.stack).supervise true)
      rw [kept]
      -- The report on the inputs keeps the flag or clears it.
      rcases (supervise_supervised true (c.sampled.driveDoor stimulus.stack)).smokeOpen with same | zero
      · exact same.trans ((driveDoor_smokeOpen stimulus.stack c.sampled).trans smokeless)
      · exact zero
    · rcases iterate_cases taken with ⟨_, same⟩ | ⟨ran, _⟩
      · rw [same]
        exact smokeless
      · exact absurd ran running

/-- A calm event is an ordinary one. -/
theorem Calm.ordinary (calm : Calm c event) : Ordinary c event := by
  refine ⟨calm.plain, ?_⟩
  cases event with
  | surround event =>
    cases event with
    | raiseSmoke floor => cases calm
    | _ => rfl
  | iterate stimulus => rfl

/-- What a calm event does: nothing to the door, or one door phase in which only the two flags count. -/
theorem Calm.cases (calm : Calm c event) (smokeless : c.smokeOpen = 0)
    (taken : controllerStep true c event = some next) :
    executed c event = false ∧ next.doorOpen = c.doorOpen ∧ next.remoteOpen = c.remoteOpen ∧
        next.lockTime = c.lockTime ∨
      executed c event = true ∧ c.sampled.openCause = (c.remoteOpen != 0 || c.fireMachineOpen) ∧
        miscSmokeTarget c.extio = false ∧ ∃ stack, SameDoor (c.sampled.driveDoor stack) next := by
  cases event with
  -- Between the iterations, calm means that nobody asks for the door.
  | surround event =>
    cases Option.some.inj taken
    obtain ⟨door, lock, _⟩ := surround_frame true event c
    have silent : event.isDoor = false := by
      cases event with
      | door valueint => cases calm
      | _ => rfl
    exact Or.inl ⟨rfl, door, surround_remoteOpen true event c silent, lock⟩
  | iterate stimulus =>
    by_cases running : c.runStopFlag = true
    · obtain ⟨_, key, emergency, _, smoke⟩ := calm running
      refine Or.inr ⟨running, ?_, smoke, stimulus.stack, ?_⟩
      · -- Sampling finds neither the key nor the emergency.
        have keyOpen : c.sampled.keyOpen = false := by
          show (c.extio.keySta extioOpenKey != .release) = false
          rw [key]
          rfl
        have emergencyOpen : c.sampled.emergencyOpen = false := emergency
        have smokeOpen : c.sampled.smokeOpen = 0 := smokeless
        rw [Controller.openCause, keyOpen, emergencyOpen, smokeOpen]
        simp only [Bool.false_or, bne_self_eq_false, Bool.or_false]
        rfl
      -- The rest of the iteration leaves the door alone.
      · rw [iterate_plain calm.plain running taken]
        exact served_sameDoor true _
    -- A stopped controller executes nothing.
    · rcases iterate_cases taken with ⟨_, same⟩ | ⟨ran, _⟩
      · rw [same]
        exact Or.inl ⟨by simpa [executed] using running, rfl, rfl, rfl⟩
      · exact absurd ran running

/-- The door phase of a calm iteration brings the locking forward. -/
theorem Settling.driveDoor {count : Nat} (held : Settling count c)
    (causes : c.sampled.openCause = (c.remoteOpen != 0 || c.fireMachineOpen))
    (smoke : miscSmokeTarget c.extio = false) (stack : BuildingStatus) :
    (c.sampled.driveDoor stack).remoteOpen = 0 ∧ ((c.sampled.driveDoor stack).doorOpen = true →
      count + 1 ≤ (c.sampled.driveDoor stack).lockTime + 12 ∧ (c.sampled.driveDoor stack).lockTime ≤ 100) := by
  rw [Controller.driveDoor, causes]
  by_cases active : (c.remoteOpen != 0 || c.fireMachineOpen) = true
  · rw [if_pos active]
    have opened := Controller.openBranch_opened stack c.sampled
    rw [opened.remoteOpen, opened.lockTime]
    constructor
    · -- A request that is left finds the door closed.
      rcases held.request with served | ⟨_, closed⟩
      · split
        · exact served
        · rfl
      · have before : c.sampled.doorOpen = false := closed
        rw [before]
        rfl
    · intro _
      rw [Bool.or_eq_true, bne_iff_ne] at active
      rcases active with requested | raised
      · rcases held.request with served | ⟨first, _⟩
        · exact absurd served requested
        · omega
      · -- The fire machine will have been released before the next poll.
        rcases held.releasing with clear | ⟨⟨_, early, _⟩, behind⟩
        · rw [held.agree, clear] at raised
          cases raised
        · omega
  -- Without a cause, the time towards the locking goes on.
  · rw [if_neg active]
    rw [Bool.or_eq_true, bne_iff_ne, not_or, not_not] at active
    cases Controller.closeBranch_closed c.sampled with
    | waits lockTime same advanced =>
      rw [same]
      refine ⟨active.1, fun isOpen => ?_⟩
      have door : c.doorOpen = true := isOpen
      rcases advanced with ⟨_, idle⟩ | ⟨_, more, limit⟩
      · -- With the door open and no smoke, the timer does not stand still.
        have counts : (c.doorOpen && !miscSmokeTarget c.extio) = false := idle
        rw [door, smoke] at counts
        cases counts
      · have before : c.sampled.lockTime = c.lockTime := rfl
        simp only
        rcases held.locking door with first | ⟨behind, _⟩ <;> omega
    -- A door that is locked is no longer open.
    | locks _ _ _ same =>
      obtain ⟨_, _, _, same⟩ := same
      rw [same]
      exact ⟨rfl, fun isOpen => by cases isOpen⟩

/-- A calm event brings the settling forward if it is an executed iteration. -/
theorem Settling.step {count : Nat} (held : Settling count c) (calm : Calm c event)
    (taken : controllerStep true c event = some next) :
    Settling (if executed c event then count + 1 else count) next := by
  have smokeless := smokeless_step held.smokeless calm.ordinary taken
  have agree := fireMachine_agree_step held.agree taken
  have releasing := held.releasing.step calm.released taken
  rcases calm.cases held.smokeless taken with ⟨skipped, door, remote, lock⟩ | ⟨ran, causes, smoke, stack, same⟩
  · -- Nothing of the task is executed, so that no time is counted.
    rw [skipped] at releasing ⊢
    refine ⟨smokeless, agree, releasing, ?_, ?_⟩
    · rw [remote, door]
      exact held.request
    · rw [door, lock]
      exact held.locking
  · rw [if_pos ran] at releasing ⊢
    obtain ⟨served, locking⟩ := held.driveDoor causes smoke stack
    refine ⟨smokeless, agree, releasing, Or.inl (same.remoteOpen.trans served), ?_⟩
    rw [same.doorOpen, same.lockTime]
    exact fun isOpen => Or.inr (locking isOpen)

/-- A stuck controller whose door is open after the first iteration. -/
def StuckOpen (count : Nat) (c : Controller) : Prop :=
  c.smokeOpen = 0 ∧ c.fireMachineOpen = c.smokeReport.fireMachineUpdate ∧ c.Stuck ∧
    (0 < count → c.doorOpen = true)

/-- A calm event leaves a stuck controller stuck, and an executed iteration leaves its door open. -/
theorem StuckOpen.step {count : Nat} (held : StuckOpen count c) (calm : Calm c event)
    (taken : controllerStep true c event = some next) :
    StuckOpen (if executed c event then count + 1 else count) next := by
  obtain ⟨smokeless, agree, stuck, isOpen⟩ := held
  have fire (raised : c.smokeReport.fireMachineUpdate = true ∧ ¬ c.smokeReport.Releasable) :=
    stuck_step raised calm.released taken
  refine ⟨smokeless_step smokeless calm.ordinary taken, fireMachine_agree_step agree taken, ?_⟩
  rcases calm.cases smokeless taken with ⟨skipped, door, remote, _⟩ | ⟨ran, causes, _, stack, same⟩
  -- What is skipped leaves the door as it was.
  · rw [skipped, Controller.Stuck, door, remote]
    exact ⟨stuck.imp_right fire, isOpen⟩
  · -- Either flag is a cause, so that the iteration ends with the door open.
    have active : c.sampled.openCause = true := by
      rw [causes, Bool.or_eq_true, bne_iff_ne]
      exact stuck.imp (fun request => request.2) fun raised => agree.trans raised.1
    have opened := Controller.openBranch_opened stack c.sampled
    rw [Controller.driveDoor, if_pos active] at same
    have door : next.doorOpen = true := same.doorOpen.trans opened.doorOpen
    refine ⟨?_, fun _ => door⟩
    -- A request that is pending while the door is open stays so, and so does a raised fire machine.
    rcases stuck with ⟨already, requested⟩ | raised
    · left
      have before : c.sampled.doorOpen = true := already
      rw [same.remoteOpen, opened.remoteOpen, before]
      exact ⟨door, requested⟩
    · exact Or.inr (fire raised)

end

/--
When nothing happens any more, 113 iterations lock the door and switch all alarms off, unless the controller is stuck.

A stuck controller has the door unlocked from its first executed iteration on, for as long as nothing happens.
-/
theorem settles_iff (c : Controller) (reached : ReachableFrom (controllerStep true) Ordinary controllerInit c)
    (events : List Event) (finish : Controller) (calm : EveryStep (controllerStep true) Calm c events)
    (ran : run (controllerStep true) c events = some finish) :
    (113 ≤ occurrences (controllerStep true) executed c events →
      (finish.doorPin = false ∧ finish.alarmPin = false ∧ finish.extio.output = 0 ↔ ¬ c.Stuck)) ∧
    (c.Stuck → 0 < occurrences (controllerStep true) executed c events → finish.doorPin = true) := by
  have smokeless : c.smokeOpen = 0 :=
    reached.invariant (fun c => c.smokeOpen = 0)
      (fun _ _ _ held ordinary taken => smokeless_step held ordinary taken) rfl
  have agree : c.fireMachineOpen = c.smokeReport.fireMachineUpdate :=
    reached.invariant (fun c => c.fireMachineOpen = c.smokeReport.fireMachineUpdate)
      (fun _ _ _ agree _ taken => fireMachine_agree_step agree taken) rfl
  obtain ⟨whole, ordinary, arrived⟩ := reached.run (calm.mono fun _ _ calm => calm.ordinary) ran
  -- In every plain run, the output follows the flag, and a closed door is silent.
  have door := doorInvariant_run (ordinary.mono fun _ _ ordinary => ordinary.1) arrived
  -- However long it takes, the door of a stuck controller is open.
  have unlocked : c.Stuck → 0 < occurrences (controllerStep true) executed c events → finish.doorPin = true := by
    intro stuck begun
    have started : StuckOpen 0 c := ⟨smokeless, agree, stuck, fun never => absurd never (Nat.lt_irrefl 0)⟩
    have ended : StuckOpen (occurrences (controllerStep true) executed c events) finish :=
      counted_invariant StuckOpen (fun _ _ _ _ held calm taken => held.step calm taken) started calm ran
    exact door.output.trans (ended.2.2.2 begun)
  refine ⟨fun long => ?_, unlocked⟩
  constructor
  · rintro ⟨locked, _⟩ stuck
    exact Bool.false_ne_true (locked.symm.trans (unlocked stuck (by omega)))
  · intro free
    rw [Controller.Stuck, not_or, not_and, not_not] at free
    have started : Settling 0 c := by
      refine ⟨smokeless, agree, ?_, ?_, fun _ => Or.inl rfl⟩
      · by_cases raised : c.smokeReport.fireMachineUpdate = true
        · exact Or.inr ⟨not_not.mp fun stuck => free.2 ⟨raised, stuck⟩, Nat.zero_le _⟩
        · exact Or.inl (Bool.not_eq_true _ ▸ raised)
      · by_cases isOpen : c.doorOpen = true
        · exact Or.inl (free.1 isOpen)
        · exact Or.inr ⟨rfl, Bool.not_eq_true _ ▸ isOpen⟩
    have ended : Settling (occurrences (controllerStep true) executed c events) finish :=
      counted_invariant Settling (fun _ _ _ _ held calm taken => held.step calm taken) started calm ran
    -- By now, the lock timer of an open door would be beyond its limit.
    have closed : finish.doorOpen = false := by
      cases isOpen : finish.doorOpen with
      | false => rfl
      | true =>
        have late := ended.locking isOpen
        omega
    exact ⟨door.output.trans closed, door.silent closed⟩

/-- A door that has been opened by its key is locked again. -/
theorem settles_key : ∃ c finish, run (controllerStep true) controllerInit (pressDoorKey ++ [.iterate idle]) = some c ∧
    c.doorPin = true ∧ run (controllerStep true) c (.replicate 113 (.iterate idle)) = some finish ∧
      finish.doorPin = false := by
  -- The run ends open, without a remote request or a pending confirmation, and goes on calmly.
  have ends : (run (controllerStep true) controllerInit (pressDoorKey ++ [.iterate idle])).any (fun c =>
      c.doorPin && decide (c.remoteOpen = 0) && !c.smokeReport.fireMachineUpdate &&
      decide (EveryStep (controllerStep true) Calm c (.replicate 113 (.iterate idle))) &&
      decide (113 ≤ occurrences (controllerStep true) executed c (.replicate 113 (.iterate idle))) &&
      (run (controllerStep true) c (.replicate 113 (.iterate idle))).isSome) = true := by decide +kernel
  obtain ⟨c, ran, ends⟩ := (Option.any_eq_true _ _).mp ends
  simp only [Bool.and_eq_true, decide_eq_true_eq, Bool.not_eq_true'] at ends
  obtain ⟨⟨⟨⟨⟨unlocked, served⟩, clear⟩, calm⟩, long⟩, finishes⟩ := ends
  obtain ⟨finish, ended⟩ := Option.isSome_iff_exists.mp finishes
  -- The press is an ordinary event, which raises no smoke alarm.
  have plain : EveryStep (controllerStep true) Plain controllerInit (pressDoorKey ++ [.iterate idle]) := by
    decide +kernel
  have raises : ∀ event ∈ pressDoorKey ++ [.iterate idle], event.raisesSmoke = false := by decide +kernel
  have reached : ReachableFrom (controllerStep true) Ordinary controllerInit c :=
    ⟨_, plain.and (everyStep_of_mem raises), ran⟩
  -- Neither kind of being stuck applies.
  have free : ¬ c.Stuck := by
    rintro (⟨_, requested⟩ | ⟨raised, _⟩)
    · exact requested served
    · rw [clear] at raised
      cases raised
  exact ⟨c, finish, ran, unlocked, ended, (((settles_iff c reached _ finish calm ended).1 long).mpr free).1⟩

end PkeFire
