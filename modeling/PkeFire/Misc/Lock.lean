import PkeFire.Misc.Door
import PkeFire.Run.Latch
import PkeFire.Run.Trace

/-! The purpose of the door control: a latch that a cause sets, and that falls off when the causes have been gone. -/

namespace PkeFire

/-- What an executed iteration shows to the lock: its leading cause, or else whether a detector is low. -/
def causeSeen (c : Controller) : Event → Option (Glance Cause)
  | .iterate _ =>
    if c.runStopFlag then some <|
      match c.sampled.leadingCause with
      | some cause => .trigger cause
      -- A detector does not open the door by itself, but it keeps an open one from being locked.
      | none => if miscSmokeTarget c.extio then .hold else .quiet
    else none
  | .surround _ => none

/-- What the executed iterations of a run from the start have shown, oldest first. -/
def causeHistory (fireMachine : Bool) (events : List Event) : List (Glance Cause) :=
  observations (controllerStep fireMachine) causeSeen controllerInit events

/-- The controller does what the latch does that is shown the same causes. -/
structure FollowsLatch (c : Controller) (latch : Option (Nat × Cause)) : Prop where
  doorOpen : c.doorOpen = latch.isSome
  doorPin : c.doorPin = latch.isSome
  lockTime : ∀ time cause, latch = some (time, cause) → c.lockTime = time
  /-- The alarms sound while the latch is set, if the cause that has set it sounds them. -/
  alarms : (c.alarmPin, c.extio.output) =
    if latch.any (fun set => set.2.sounds) then (true, 0xff) else (false, 0)

section

variable {fireMachine : Bool} {c next : Controller} {latch : Option (Nat × Cause)}

/-- Another controller with the same door does the same. -/
theorem FollowsLatch.congr (held : FollowsLatch c latch) (same : SameDoor c next) : FollowsLatch next latch := by
  refine ⟨?_, ?_, ?_, ?_⟩
  · rw [same.doorOpen, held.doorOpen]
  · rw [same.doorPin, held.doorPin]
  · rw [same.lockTime]
    exact held.lockTime
  · rw [same.alarmPin, same.output, held.alarms]

/-- The door phase of an iteration that finds a cause sets the latch. -/
theorem FollowsLatch.opens (held : FollowsLatch c latch) (stack : BuildingStatus) {cause : Cause}
    (leads : c.leadingCause = some cause) :
    FollowsLatch (c.openBranch stack) (latchNext 100 latch (.trigger cause)) := by
  have opened := Controller.openBranch_opened stack c
  have doorOpen := held.doorOpen
  have alarms := held.alarms
  cases latch with
  | none =>
    -- The door was closed, and its alarms were off.
    have closed : c.doorOpen = false := doorOpen
    refine ⟨opened.doorOpen, ?_, ?_, ?_⟩
    · rw [opened.doorPin, closed]
      rfl
    · rintro time mark same
      cases same
      exact opened.lockTime
    · rw [opened.alarms, closed, Controller.alarmsAfter, leads, alarms]
      rfl
  | some set =>
    -- An open door keeps its alarms, and only its time starts again.
    have already : c.doorOpen = true := doorOpen
    refine ⟨opened.doorOpen, ?_, ?_, ?_⟩
    · rw [opened.doorPin, already]
      exact held.doorPin
    · rintro time mark same
      cases same
      exact opened.lockTime
    · rw [opened.alarms, already]
      exact alarms

/-- The door phase of an iteration that finds no cause does not set the latch. -/
theorem FollowsLatch.closes (held : FollowsLatch c latch) :
    FollowsLatch c.closeBranch (latchNext 100 latch (if miscSmokeTarget c.extio then .hold else .quiet)) := by
  have doorOpen := held.doorOpen
  cases latch with
  | none =>
    have closed : c.doorOpen = false := doorOpen
    -- A closed door has no closing to wait for, and a latch that has fallen off stays so.
    have waits : c.closeBranch = c := by rw [Controller.closeBranch, closed, Bool.false_and, if_neg Bool.false_ne_true]
    have nothing (glance : Glance Cause) (other : glance.isTrigger = false) :
        latchNext 100 (none : Option (Nat × Cause)) glance = none := by
      cases glance with
      | trigger cause => cases other
      | _ => rfl
    rw [waits, nothing _ (by split <;> rfl)]
    exact held
  | some set =>
    obtain ⟨time, cause⟩ := set
    have already : c.doorOpen = true := doorOpen
    have passed : c.lockTime = time := held.lockTime time cause rfl
    cases Controller.closeBranch_closed c with
    | waits lockTime same advanced =>
      -- Either the time is kept, because a detector is active, or it advances by one.
      rw [already, Bool.true_and] at advanced
      have kept (lockTime : Nat) : FollowsLatch { c with lockTime := lockTime } (some (lockTime, cause)) := by
        refine ⟨doorOpen, held.doorPin, ?_, held.alarms⟩
        rintro time mark same
        cases same
        rfl
      rw [same]
      rcases advanced with ⟨rfl, smoke⟩ | ⟨quiet, rfl, early⟩
      -- An active detector holds the latch where it is.
      · rw [Bool.not_eq_false'] at smoke
        rw [smoke, if_pos rfl, passed]
        exact kept time
      -- A quiet iteration within the limit brings the release one closer.
      · rw [Bool.not_eq_true'] at quiet
        rw [passed] at early ⊢
        rw [quiet, if_neg Bool.false_ne_true, latchNext, if_pos early]
        exact kept (time + 1)
    | locks _ noSmoke elapsed same =>
      -- Locking the door switches the alarms off.
      obtain ⟨_, _, _, same⟩ := same
      rw [passed] at elapsed
      rw [same, noSmoke, if_neg Bool.false_ne_true, latchNext, if_neg (Nat.not_lt.mpr elapsed)]
      exact ⟨rfl, rfl, by simp, rfl⟩

/-- Every plain event is one step of the latch, or none. -/
theorem FollowsLatch.step {event : Event} (held : FollowsLatch c latch) (plain : Plain c event)
    (taken : controllerStep fireMachine c event = some next) :
    FollowsLatch next ((causeSeen c event).toList.foldl (latchNext 100) latch) := by
  cases event with
  | surround event =>
    -- Without a shell command, the other threads leave door and alarms alone.
    cases Option.some.inj taken
    obtain ⟨door, lock, _, _, siren, output, _⟩ := surround_frame fireMachine event c
    rw [causeSeen, Option.toList_none, List.foldl_nil]
    refine ⟨?_, ?_, ?_, ?_⟩
    · rw [door, held.doorOpen]
    · rw [surround_doorPin fireMachine event c plain, held.doorPin]
    · rw [lock]
      exact held.lockTime
    · rw [siren, output, held.alarms]
  | iterate stimulus =>
    by_cases running : c.runStopFlag = true
    · rw [iterate_plain plain running taken, causeSeen, if_pos running, Option.toList_some, List.foldl_cons,
        List.foldl_nil]
      refine FollowsLatch.congr ?_ (served_sameDoor fireMachine _)
      -- Sampling the inputs does not touch what the latch is compared with.
      have sampled : FollowsLatch c.sampled latch :=
        ⟨held.doorOpen, held.doorPin, held.lockTime, held.alarms⟩
      have leads := Controller.leadingCause_isSome c.sampled
      rw [Controller.driveDoor]
      cases leading : c.sampled.leadingCause with
      | some cause =>
        rw [leading] at leads
        have active : c.sampled.openCause = true := leads.symm
        -- A cause sets the latch anew.
        rw [if_pos active]
        exact sampled.opens stimulus.stack leading
      | none =>
        rw [leading] at leads
        -- Without a cause, the time towards the release is counted.
        have quiet : c.sampled.openCause = false := leads.symm
        rw [quiet, if_neg Bool.false_ne_true]
        exact sampled.closes
    · -- A halted iteration shows nothing and does nothing.
      rcases iterate_cases taken with ⟨_, same⟩ | ⟨executed, _⟩
      · rw [causeSeen, if_neg running, Option.toList_none, List.foldl_nil, same]
        exact ⟨held.doorOpen, held.doorPin, held.lockTime, held.alarms⟩
      · exact absurd executed running

end

/-- In every plain run, the controller follows the latch that is shown the same causes. -/
theorem followsLatch_run {fireMachine : Bool} {events : List Event} {c : Controller}
    (plain : EveryStep (controllerStep fireMachine) Plain controllerInit events)
    (ran : run (controllerStep fireMachine) controllerInit events = some c) :
    FollowsLatch c (latched 100 (causeHistory fireMachine events)) := by
  have initially : FollowsLatch controllerInit none := ⟨rfl, rfl, by simp, rfl⟩
  exact fold_run (latchNext 100) FollowsLatch (fun _ _ _ _ held plain taken => held.step plain taken) initially plain
    ran

/--
What the door control does, in terms of the causes that its iterations have found.

The door is unlocked if, and only if, there has been a cause and at most 100 quiet iterations since the last one.
The alarms sound if, and only if, the cause that found the door locked was one that sounds them, and the door has
been kept unlocked ever since.

An iteration is one event here, and its cause is the first that is active when the causes have been sampled.
-/
theorem door_unlocked_iff (fireMachine : Bool) (events : List Event) (c : Controller)
    (plain : EveryStep (controllerStep fireMachine) Plain controllerInit events)
    (ran : run (controllerStep fireMachine) controllerInit events = some c) :
    (c.doorPin = true ↔ ∃ before cause after, causeHistory fireMachine events = before ++ .trigger cause :: after ∧
      (∀ glance ∈ after, glance.isTrigger = false) ∧ after.countP Glance.isQuiet ≤ 100) ∧
    (c.alarmPin = true ↔ ∃ before cause after, causeHistory fireMachine events = before ++ .trigger cause :: after ∧
      latched 100 before = none ∧ cause.sounds = true ∧ Sustained 100 after) ∧
    c.extio.output = if c.alarmPin then 0xff else 0 := by
  have held := followsLatch_run plain ran
  refine ⟨?_, ?_, ?_⟩
  -- The door is unlocked while the latch holds.
  · rw [held.doorPin, latched_isSome_iff]
  · -- The alarms sound while the latch holds a mark that sounds them.
    have siren : c.alarmPin = (latched 100 (causeHistory fireMachine events)).any fun set => set.2.sounds := by
      have pair := congrArg Prod.fst held.alarms
      refine pair.trans ?_
      split <;> rename_i sounds
      · exact sounds.symm
      · exact ((Bool.not_eq_true _).mp sounds).symm
    have marked : (latched 100 (causeHistory fireMachine events)).any (fun set => set.2.sounds) = true ↔
        ∃ cause, (latched 100 (causeHistory fireMachine events)).map Prod.snd = some cause ∧ cause.sounds = true := by
      cases latched 100 (causeHistory fireMachine events) <;> simp
    rw [siren, marked]
    simp only [latched_mark_iff]
    constructor
    · rintro ⟨cause, ⟨before, after, split, fallen, sustained⟩, sounds⟩
      exact ⟨before, cause, after, split, fallen, sounds, sustained⟩
    · rintro ⟨before, cause, after, split, fallen, sounds, sustained⟩
      exact ⟨cause, ⟨before, after, split, fallen, sustained⟩, sounds⟩
  -- The floor alarms are read off together with the main alarm.
  · have pair := held.alarms
    split at pair <;> obtain ⟨siren, floors⟩ := Prod.mk.inj pair <;> simp [siren, floors]

/-- The scans by which the emergency line becomes active. -/
def tripEmergency : List Event :=
  .replicate 11 (.surround (.scan { restingPins with emergency := false }))

/-- A door that an emergency has opened sounds its alarms for a hundred quiet iterations, and no longer. -/
theorem door_unlocked_iff_emergency : ∃ c later,
    run (controllerStep true) controllerInit (tripEmergency ++ .iterate idle :: .surround (.scan restingPins) ::
      .replicate 100 (.iterate idle)) = some c ∧ c.alarmPin = true ∧
    run (controllerStep true) controllerInit (tripEmergency ++ .iterate idle :: .surround (.scan restingPins) ::
      .replicate 101 (.iterate idle)) = some later ∧ later.doorPin = false := by
  have plain : EveryStep (controllerStep true) Plain controllerInit (tripEmergency ++ .iterate idle ::
      .surround (.scan restingPins) :: .replicate 100 (.iterate idle)) := by decide +kernel
  have longer : EveryStep (controllerStep true) Plain controllerInit (tripEmergency ++ .iterate idle ::
      .surround (.scan restingPins) :: .replicate 101 (.iterate idle)) := by decide +kernel
  have history : causeHistory true (tripEmergency ++ .iterate idle :: .surround (.scan restingPins) ::
      .replicate 100 (.iterate idle)) = [] ++ .trigger .emergency :: .replicate 100 .quiet := by decide +kernel
  have late : latched 100 (causeHistory true (tripEmergency ++ .iterate idle ::
      .surround (.scan restingPins) :: .replicate 101 (.iterate idle))) = none := by decide +kernel
  obtain ⟨c, ran⟩ := run_plain plain
  obtain ⟨later, ranOn⟩ := run_plain longer
  refine ⟨c, later, ran, ?_, ranOn, ?_⟩
  · refine (door_unlocked_iff true _ c plain ran).2.1.mpr ⟨[], .emergency, _, history, rfl, rfl, ?_⟩
    intro part among _
    exact Nat.le_trans (List.countP_le_length) (Nat.le_trans among.length_le (by simp))
  · rw [← Bool.not_eq_true, (door_unlocked_iff true _ later longer ranOn).1, ← latched_isSome_iff, late]
    exact Bool.false_ne_true

end PkeFire
