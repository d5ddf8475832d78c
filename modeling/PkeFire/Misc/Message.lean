import PkeFire.Misc.Requests

/-! The building messages that are published, and what the stack memory contributes to them. -/

namespace PkeFire

/-- DEVICE_TYPE. -/
def deviceType : Nat := 1

/-- CMD_UP_BUILDING. -/
def cmdUpBuilding : Nat := 1

/-- The value of an item that is added to a message. -/
inductive Item where
  /-- `cJSON_CreateNumber`. -/
  | number (value : Int)
  /-- `cJSON_CreateString`. -/
  | text (value : String)
  deriving DecidableEq, Repr

/-- The state of `nb-iot.c` that a message is published from. -/
structure Uplink where
  mqttConnectSta : Bool
  /-- The configured `building_id`. -/
  buildingId : String
  /-- `nb_iot_get_second`. -/
  second : Int
  deriving DecidableEq, Repr

/-- `nb_iot_publish_building`: the items of the message, in the order in which they are added. -/
def nbIotPublishBuilding (uplink : Uplink) (status : BuildingStatus) : Option (List (String × Item)) :=
  -- Without a connection, nothing is published.
  if uplink.mqttConnectSta then
    -- The floor and the room are no longer among the items.
    some [("type", .number cmdUpBuilding), ("device_type", .number deviceType),
      ("building_id", .text uplink.buildingId), ("alarm", .number status.alarm.toNat),
      ("door_open", .number status.doorOpen.toNat), ("cause", .number status.cause.toNat),
      ("temperature", .number status.temperature.toNat), ("smoke", .number status.smoke.toNat),
      ("smoke_alarm", .number status.smokeAlarm.toNat), ("temp_alarm", .number status.tempAlarm.toNat),
      ("msg type", .text "building"), ("time", .number uplink.second)]
  else none

/-- The building message of a call, if it is one. -/
def Call.building : Call → Option BuildingStatus
  | .publishBuilding status => some status
  | .publishPowerdown _ | .configTimmingSave => none

/-- The building messages that the present iteration has published. -/
def Controller.messages (uplink : Uplink) (c : Controller) : List (List (String × Item)) :=
  (c.calls.filterMap Call.building).filterMap (nbIotPublishBuilding uplink)

/-- A raised floor is among the supervised ones, so that the opening message gets its measurements. -/
def Controller.Measures (c : Controller) : Prop :=
  c.smokeOpen ≠ 0 ∧ c.smokeOpen ≤ 20

instance (c : Controller) : Decidable c.Measures :=
  inferInstanceAs (Decidable (_ ∧ _))

/-- Two stack contents hold the same measurements. -/
def BuildingStatus.SameMeasurements (stack other : BuildingStatus) : Prop :=
  stack.temperature = other.temperature ∧ stack.smoke = other.smoke ∧ stack.smokeAlarm = other.smokeAlarm ∧
    stack.tempAlarm = other.tempAlarm

instance (stack other : BuildingStatus) : Decidable (stack.SameMeasurements other) :=
  inferInstanceAs (Decidable (_ ∧ _))

/-- The opening message is built in some stack memory, and has been published some events later in the iteration. -/
structure Announces (fireMachine : Bool) (t : Task) (choice : Choice) (rest : List TaskEvent) (finish : Task) :
    Prop where
  ran : run (taskEvent fireMachine) t (.step choice :: rest) = some finish
  within : EveryStep (taskEvent fireMachine) SameIteration t (.step choice :: rest)
  published : ∀ status, finish.pc ≠ .publishOpening status

/-- Two ends of one iteration agree on its messages and on the remembered cause, which is the published one. -/
structure Agree (uplink : Uplink) (first second : Controller) : Prop where
  messages : first.messages uplink = second.messages uplink
  lastCause : first.lastCause = second.lastCause
  remembered : ∀ message ∈ first.messages uplink,
    message.lookup "cause" = some (.number first.lastCause.toNat)

/-- In every reachable state, an opening iteration publishes and remembers the same over any two stack contents. -/
def StackBlind (fireMachine : Bool) : Prop :=
  ∀ t uplink fileOk stack other rest finish second, Leads fireMachine taskInit t → t.pc = .announce →
    Announces fireMachine t ⟨stack, fileOk⟩ rest finish → Announces fireMachine t ⟨other, fileOk⟩ rest second →
      Agree uplink finish.c second.c

/-- The two stack contents hold the same wherever the opening message shows them, and the cause that is found. -/
structure StackFits (uplink : Uplink) (c : Controller) (stack other : BuildingStatus) : Prop where
  cause : stack.cause = other.cause
  leading : uplink.mqttConnectSta = true → ∀ cause ∈ c.leadingCause, stack.cause = cause.code
  measured : uplink.mqttConnectSta = true → ¬ c.Measures → stack.SameMeasurements other

/-- The statements of an iteration up to the publication of an opening. -/
def Pc.early : Pc → Bool
  | .sampleKey | .sampleEmergency | .clearOpenKey | .evalOpen | .opening | .announce | .publishOpening _ => true
  | _ => false

/-- The statements that follow the publication of an opening within its iteration. -/
def Pc.late : Pc → Bool
  | .clearRequests | .powerdown | .smokeReport | .saveConfig | .setPress | .clearSetKey | .factory _ | .setKeep
  | .openKeep | .clearSetKeep | .clearOpenKeep | .delay => true
  | _ => false

section

variable {uplink : Uplink}

/-- Two published messages are the same when all published fields are. -/
theorem nbIotPublishBuilding_eq_iff {first second : BuildingStatus} :
    nbIotPublishBuilding uplink first = nbIotPublishBuilding uplink second ↔
      (uplink.mqttConnectSta = true → first.alarm = second.alarm ∧ first.doorOpen = second.doorOpen ∧
        first.cause = second.cause ∧ first.temperature = second.temperature ∧ first.smoke = second.smoke ∧
        first.smokeAlarm = second.smokeAlarm ∧ first.tempAlarm = second.tempAlarm) := by
  cases connected : uplink.mqttConnectSta with
  | false => simp [nbIotPublishBuilding, connected]
  | true =>
    -- The other items come from the uplink, which both messages share.
    simp only [nbIotPublishBuilding, connected, ↓reduceIte, Option.some.injEq, List.cons.injEq, Prod.mk.injEq,
      Item.number.injEq, Int.natCast_inj, UInt8.toNat_inj, true_and, UInt16.toNat_inj, and_true, forall_const]

/-- The published cause is the cause of the message. -/
theorem nbIotPublishBuilding_cause {status : BuildingStatus} {message : List (String × Item)}
    (sent : nbIotPublishBuilding uplink status = some message) :
    uplink.mqttConnectSta = true ∧ message.lookup "cause" = some (.number status.cause.toNat) := by
  cases connected : uplink.mqttConnectSta with
  | false => simp [nbIotPublishBuilding, connected] at sent
  | true =>
    simp only [nbIotPublishBuilding, connected, if_true, Option.some.injEq] at sent
    -- The items before the cause have other names.
    exact sent ▸ ⟨rfl, rfl⟩

/-- The opening message, less its floor and room, in terms of the stack memory. -/
theorem Controller.describeOpening_status (stack : BuildingStatus) (c : Controller) :
    ∃ floor room, (c.describeOpening stack).1 =
      { (if c.Measures then { stack with temperature := 26, smoke := 10, smokeAlarm := 1, tempAlarm := 0 } else stack)
        with
        alarm := if c.smokeOpen != 0 then 1 else 0, doorOpen := 1, floor := floor, room := room
        cause := (c.leadingCause.map Cause.code).getD stack.cause } := by
  -- Writing the remembered cause does not change which cause is found.
  have leads : leadingCause { c with lastCause := stack.cause, lastSmokeOpen := c.smokeOpen } = c.leadingCause :=
    rfl
  have led : leadingCause { c with lastCause := stack.cause } = c.leadingCause := rfl
  -- Whether the floor goes out depends on the remembered cause, and the rest on a raised floor.
  by_cases measures : c.Measures
  · have onFloor : (c.smokeOpen != 0 && decide (c.smokeOpen ≤ 20)) = true := by simpa [Measures] using measures
    simp only [describeOpening, onFloor, if_true, leads, if_pos measures]
    by_cases hides : (stack.cause != 4) = true
    · simp only [if_pos hides]
      cases c.leadingCause <;> exact ⟨_, _, rfl⟩
    · simp only [if_neg hides]
      cases c.leadingCause <;> exact ⟨_, _, rfl⟩
  · have noFloor : ¬ (c.smokeOpen != 0 && decide (c.smokeOpen ≤ 20)) = true := by simpa [Measures] using measures
    simp only [describeOpening, if_neg noFloor, led, if_neg measures]
    by_cases hides : (stack.cause != 4) = true
    · simp only [if_pos hides]
      cases c.leadingCause <;> exact ⟨_, _, rfl⟩
    · simp only [if_neg hides]
      cases c.leadingCause <;> exact ⟨_, _, rfl⟩

/-- Describing an opening remembers the cause that the stack memory holds, and publishes nothing yet. -/
theorem Controller.describeOpening_remembers (stack : BuildingStatus) (c : Controller) :
    (c.describeOpening stack).2.lastCause = stack.cause ∧ (c.describeOpening stack).2.calls = c.calls := by
  obtain ⟨floor, described⟩ := describeOpening_frame stack c
  -- Neither the remembered floor nor the alarms belong to what is claimed.
  rw [described]
  split <;> exact ⟨rfl, rfl⟩

end

/-- The plain statements that follow the building of a message lead to the end of the iteration. -/
def announcesToEnd (fireMachine : Bool) (choice : Choice) (count : Nat) (t : Task) : Bool :=
  decide (EveryStep (taskEvent fireMachine) SameIteration t (.step choice :: statements count)) &&
    (run (taskEvent fireMachine) t (.step choice :: statements count)).any fun finish => decide (finish.pc = .delay)

/-- A task that sleeps at the end of an iteration has published the message of the opening. -/
theorem announces_of_end {fireMachine : Bool} {t : Task} {choice : Choice} {count : Nat}
    (ends : announcesToEnd fireMachine choice count t = true) :
    ∃ finish, Announces fireMachine t choice (statements count) finish := by
  rw [announcesToEnd, Bool.and_eq_true, decide_eq_true_eq] at ends
  obtain ⟨within, ends⟩ := ends
  obtain ⟨finish, ran, ended⟩ := (Option.any_eq_true _ _).mp ends
  exact ⟨finish, ran, within, fun status publishing => by simp [publishing] at ended⟩

/-- A press of the door key, up to the statement that builds the opening message. -/
def keyOpening : List TaskEvent :=
  scans 3 { restingPins with doorKey := false } ++ scans 1 restingPins ++ statements 6

/-- An uplink with a connection. -/
def connectedUplink : Uplink :=
  { mqttConnectSta := true, buildingId := "1", second := 0 }

section

variable {fireMachine : Bool} {t : Task}

/-- A statement is followed by an early one when it begins the iteration, or has itself published nothing. -/
theorem taskStep_early (choice : Choice) (early : (taskStep fireMachine choice t).pc.early = true) :
    (taskStep fireMachine choice t).c.calls = [] ∨
      t.pc.early = true ∧ (taskStep fireMachine choice t).c.calls = t.c.calls := by
  obtain ⟨pc, opens, c⟩ := t
  cases pc with
  | top => exact .inl rfl
  | sampleKey | sampleEmergency | clearOpenKey | evalOpen => exact .inr ⟨rfl, rfl⟩
  | opening =>
    simp only [taskStep]
    split <;> exact .inr ⟨rfl, rfl⟩
  | announce => exact .inr ⟨rfl, (c.describeOpening_remembers choice.stack).2⟩
  | factory pc =>
    by_cases returned : pc = .returned
    · simp [taskStep, returned, Pc.early] at early
    · simp [taskStep_factory choice opens c returned, Pc.early] at early
  | closing =>
    simp only [taskStep] at early
    split at early <;> [split at early; skip] <;> simp [Pc.early] at early
  | setPress | setKeep | openKeep =>
    -- Both outcomes of the test lie behind the opening.
    simp only [taskStep] at early
    split at early <;> simp [Pc.early] at early
  | _ => simp [taskStep, Pc.early] at early

/-- Nothing is published in an iteration before its opening. -/
theorem calls_of_early (reached : Leads fireMachine taskInit t) (early : t.pc.early = true) : t.c.calls = [] := by
  obtain ⟨events, ran⟩ := reached
  -- The invariant speaks of every statement, and each event is either one or leaves the calls alone.
  refine run_invariant (fun t => t.pc.early = true → t.c.calls = []) ?_ (fun _ => rfl)
    (everyStep_of_forall (fun _ _ => trivial) _ _) ran early
  intro t event next before _ taken early
  cases event with
  | surround event =>
    cases Option.some.inj taken
    exact (surround_calls fireMachine event t.c).trans (before early)
  | step choice =>
    cases Option.some.inj taken
    rcases taskStep_early choice early with begun | ⟨earlier, same⟩
    · exact begun
    · exact same.trans (before earlier)

/-- The statements that follow an opening neither announce another one nor touch the remembered cause. -/
theorem taskStep_late (fireMachine : Bool) (choice : Choice) (late : t.pc.late = true) (going : t.pc ≠ .delay) :
    (taskStep fireMachine choice t).pc.late = true ∧
      (taskStep fireMachine choice t).c.lastCause = t.c.lastCause ∧
      (taskStep fireMachine choice t).c.calls.filterMap Call.building = t.c.calls.filterMap Call.building := by
  obtain ⟨pc, opens, c⟩ := t
  cases pc with
  | powerdown =>
    -- A change of the supply is reported in a message of its own.
    simp only [taskStep, Controller.reportPowerdown]
    split <;> [skip; split] <;> simp [Pc.late, Call.building]
  | smokeReport =>
    cases fireMachine with
    | true =>
      -- A report on the inputs writes the record and the flags of the fire.
      obtain ⟨_, remembered, silent⟩ := miscSmokeReport_frame c
      exact ⟨rfl, remembered, congrArg (List.filterMap Call.building) silent⟩
    | false => exact ⟨rfl, rfl, rfl⟩
  | saveConfig =>
    simp only [taskStep, Controller.tickSave]
    split <;> simp [Pc.late, Call.building]
  | factory pc =>
    by_cases returned : pc = .returned
    · subst returned
      exact ⟨rfl, rfl, rfl⟩
    · obtain ⟨_, _, _, _, written⟩ := factoryStep_writes choice.fileOk pc c
      rw [taskStep_factory choice opens c returned, written]
      exact ⟨rfl, rfl, rfl⟩
  | setPress | setKeep | openKeep =>
    simp only [taskStep]
    split <;> simp [Pc.late]
  | clearRequests | clearSetKey | clearSetKeep | clearOpenKeep => exact ⟨rfl, rfl, rfl⟩
  | delay => exact absurd rfl going
  | _ => simp [Pc.late] at late

/-- What another thread does leaves the remembered cause alone. -/
theorem surround_lastCause (fireMachine : Bool) (event : Surrounding) (c : Controller) :
    (surround fireMachine event c).lastCause = c.lastCause := by
  cases event with
  | shell argv =>
    obtain ⟨pin, same⟩ := miscDoorOpen_frame argv c
    rw [surround, same]
  | _ => rfl

/-- The message has been built but not published, or it is the only one that the iteration has published. -/
def Announced (status : BuildingStatus) (cause : UInt8) (t : Task) : Prop :=
  t.c.lastCause = cause ∧ (t.pc = .publishOpening status ∧ t.c.calls = [] ∨
    t.pc.late = true ∧ t.c.calls.filterMap Call.building = [status])

/-- Within the iteration, each event keeps the announced message and the remembered cause. -/
theorem Announced.step {status : BuildingStatus} {cause : UInt8} {event : TaskEvent} {next : Task}
    (announced : Announced status cause t) (within : SameIteration t event)
    (taken : taskEvent fireMachine t event = some next) : Announced status cause next := by
  obtain ⟨remembered, progress⟩ := announced
  cases event with
  | surround event =>
    cases Option.some.inj taken
    rw [Announced, surround_calls]
    exact ⟨(surround_lastCause fireMachine event t.c).trans remembered, progress⟩
  | step choice =>
    cases Option.some.inj taken
    rcases progress with ⟨publishing, nothing⟩ | ⟨late, published⟩
    · -- The only statement that publishes the message.
      obtain ⟨pc, opens, c⟩ := t
      cases publishing
      have nothing : c.calls = [] := nothing
      exact ⟨remembered, .inr ⟨rfl, by simp [taskStep, Controller.publishBuilding, nothing, Call.building]⟩⟩
    · obtain ⟨still, same, kept⟩ := taskStep_late fireMachine choice late within
      exact ⟨same.trans remembered, .inr ⟨still, kept.trans published⟩⟩

/-- However an opening iteration goes on, it publishes its message alone and remembers the cause of the stack. -/
theorem announced_of_announces {choice : Choice} {rest : List TaskEvent} {finish : Task}
    (reached : Leads fireMachine taskInit t) (announcing : t.pc = .announce)
    (announces : Announces fireMachine t choice rest finish) :
    finish.c.lastCause = choice.stack.cause ∧
      finish.c.calls.filterMap Call.building = [(t.c.describeOpening choice.stack).1] := by
  have nothing : t.c.calls = [] := calls_of_early reached (by rw [announcing]; rfl)
  obtain ⟨remembers, silent⟩ := t.c.describeOpening_remembers choice.stack
  have built : Announced (t.c.describeOpening choice.stack).1 choice.stack.cause (taskStep fireMachine choice t) := by
    obtain ⟨pc, opens, c⟩ := t
    cases announcing
    exact ⟨remembers, .inl ⟨rfl, silent.trans nothing⟩⟩
  -- From the statement that builds the message, the invariant holds to the end.
  obtain ⟨remembered, progress⟩ := run_invariant _ (fun _ _ _ announced within taken => announced.step within taken)
    built (announces.within.2 _ rfl) announces.ran
  rcases progress with ⟨publishing, _⟩ | ⟨_, published⟩
  · exact absurd publishing (announces.published _)
  · exact ⟨remembered, published⟩

/-- An iteration whose only building message is known publishes it as far as there is a connection. -/
theorem Controller.messages_eq (uplink : Uplink) {c : Controller} {status : BuildingStatus}
    (only : c.calls.filterMap Call.building = [status]) :
    c.messages uplink = (nbIotPublishBuilding uplink status).toList := by
  rw [messages, only, List.filterMap_cons]
  cases nbIotPublishBuilding uplink status <;> rfl

/-- The opening messages over two stack contents are the same exactly when the contents agree where they show. -/
theorem describeOpening_published_iff {uplink : Uplink} {c : Controller} {stack other : BuildingStatus} :
    nbIotPublishBuilding uplink (c.describeOpening stack).1 =
        nbIotPublishBuilding uplink (c.describeOpening other).1 ↔
      (uplink.mqttConnectSta = true →
        (c.leadingCause = none → stack.cause = other.cause) ∧
        (¬ c.Measures → stack.SameMeasurements other)) := by
  obtain ⟨_, _, first⟩ := c.describeOpening_status stack
  obtain ⟨_, _, second⟩ := c.describeOpening_status other
  rw [nbIotPublishBuilding_eq_iff, first, second]
  -- The alarm and the door state come from the controller in both messages.
  by_cases measures : c.Measures <;> cases c.leadingCause <;> simp [measures, BuildingStatus.SameMeasurements]

/-- The published cause is what the stack memory holds exactly when a published leading cause is found there. -/
theorem describeOpening_cause_iff {uplink : Uplink} {c : Controller} {stack : BuildingStatus} :
    (∀ message ∈ nbIotPublishBuilding uplink (c.describeOpening stack).1,
        message.lookup "cause" = some (.number stack.cause.toNat)) ↔
      (uplink.mqttConnectSta = true → ∀ cause ∈ c.leadingCause, stack.cause = cause.code) := by
  obtain ⟨_, _, status⟩ := c.describeOpening_status stack
  constructor
  · intro remembered connected cause leading
    obtain ⟨message, sent⟩ : ∃ message, nbIotPublishBuilding uplink (c.describeOpening stack).1 = some message :=
      ⟨_, by rw [nbIotPublishBuilding, if_pos connected]⟩
    have shown := (nbIotPublishBuilding_cause sent).2.symm.trans (remembered message sent)
    -- The published item and the remembered cause are the same number, hence the same byte.
    simp only [status, Option.mem_def.mp leading, Option.map_some, Option.getD_some, Option.some.injEq,
      Item.number.injEq, Int.natCast_inj, UInt8.toNat_inj] at shown
    exact shown.symm
  · intro fits message sent
    obtain ⟨connected, shown⟩ := nbIotPublishBuilding_cause sent
    rw [shown, status]
    cases leading : c.leadingCause with
    | none => rfl
    | some cause => rw [fits connected cause leading]; rfl

/-- An opening publishes and remembers the same over two stack contents exactly when the contents fit the opening. -/
theorem openings_agree_iff {uplink : Uplink} {fileOk : Bool} {stack other : BuildingStatus}
    {rest : List TaskEvent} {finish second : Task} (reached : Leads fireMachine taskInit t)
    (announcing : t.pc = .announce) (announces : Announces fireMachine t ⟨stack, fileOk⟩ rest finish)
    (again : Announces fireMachine t ⟨other, fileOk⟩ rest second) :
    Agree uplink finish.c second.c ↔ StackFits uplink t.c stack other := by
  obtain ⟨remembered, published⟩ := announced_of_announces reached announcing announces
  obtain ⟨rememberedAgain, publishedAgain⟩ := announced_of_announces reached announcing again
  -- Both iterations publish the message that they have built, and nothing else.
  have sent := Controller.messages_eq uplink published
  have sentAgain := Controller.messages_eq uplink publishedAgain
  constructor
  -- What both publish shows which part of the stack has gone out.
  · rintro ⟨messages, lastCause, shown⟩
    rw [sent, sentAgain] at messages
    have messages := describeOpening_published_iff.mp (by simpa using congrArg List.head? messages)
    rw [sent, remembered] at shown
    refine ⟨?_, ?_, fun connected => (messages connected).2⟩
    · rw [← remembered, lastCause, rememberedAgain]
    · exact describeOpening_cause_iff.mp fun message among => shown message (Option.mem_toList.mpr among)
  -- Contents that fit the opening do not show.
  · intro fits
    refine ⟨?_, ?_, ?_⟩
    · rw [sent, sentAgain, describeOpening_published_iff.mpr]
      exact fun connected => ⟨fun _ => fits.cause, fits.measured connected⟩
    · rw [remembered, rememberedAgain]
      exact fits.cause
    · rw [sent, remembered]
      intro message among
      exact describeOpening_cause_iff.mpr fits.leading message (Option.mem_toList.mp among)

end

/-- Over stack contents that hold the cause of the opening, the message and the remembered cause are the same. -/
theorem openings_agree_iff_key : ∃ t finish second, run (taskEvent true) taskInit keyOpening = some t ∧
    Announces true t ⟨⟨0, 0, 1, 7, 7, 20, 0, 0, 0⟩, true⟩ (statements 7) finish ∧
    Announces true t ⟨⟨9, 9, 1, 0, 0, 20, 0, 0, 0⟩, true⟩ (statements 7) second ∧
    Agree connectedUplink finish.c second.c := by
  have opened : (run (taskEvent true) taskInit keyOpening).any (fun t =>
      decide (t.pc = .announce) && decide (t.c.leadingCause = some .key) &&
      announcesToEnd true ⟨⟨0, 0, 1, 7, 7, 20, 0, 0, 0⟩, true⟩ 7 t &&
      announcesToEnd true ⟨⟨9, 9, 1, 0, 0, 20, 0, 0, 0⟩, true⟩ 7 t) = true := by
    decide +kernel
  obtain ⟨t, ran, opened⟩ := (Option.any_eq_true _ _).mp opened
  simp only [Bool.and_eq_true, decide_eq_true_eq] at opened
  obtain ⟨⟨⟨announcing, leading⟩, ends⟩, endsAgain⟩ := opened
  obtain ⟨finish, announces⟩ := announces_of_end ends
  obtain ⟨second, again⟩ := announces_of_end endsAgain
  refine ⟨t, finish, second, ran, announces, again, ?_⟩
  -- The contents differ in the alarm, the door, the floor, and the room only.
  refine (openings_agree_iff ⟨keyOpening, ran⟩ announcing announces again).mpr ⟨rfl, ?_, fun _ _ => by decide⟩
  rintro _ cause led
  rw [leading, Option.mem_some_iff] at led
  exact led ▸ rfl

/-- Over stack memory that holds different causes, a press of the door key is remembered under different causes. -/
theorem stackBlind_fails : ¬ StackBlind true := by
  intro blind
  have opened : (run (taskEvent true) taskInit keyOpening).any (fun t => decide (t.pc = .announce) &&
      announcesToEnd true ⟨⟨0, 0, 0, 0, 0, 0, 0, 0, 0⟩, true⟩ 7 t &&
      announcesToEnd true ⟨⟨0, 0, 5, 0, 0, 0, 0, 0, 0⟩, true⟩ 7 t) = true := by
    decide +kernel
  obtain ⟨t, ran, opened⟩ := (Option.any_eq_true _ _).mp opened
  simp only [Bool.and_eq_true, decide_eq_true_eq] at opened
  obtain ⟨⟨announcing, ends⟩, endsAgain⟩ := opened
  obtain ⟨finish, announces⟩ := announces_of_end ends
  obtain ⟨second, again⟩ := announces_of_end endsAgain
  have agree := blind t connectedUplink true _ _ _ finish second ⟨keyOpening, ran⟩ announcing announces again
  -- Each iteration remembers the cause that its own stack memory holds.
  have remembered := (announced_of_announces ⟨keyOpening, ran⟩ announcing announces).1
  have rememberedAgain := (announced_of_announces ⟨keyOpening, ran⟩ announcing again).1
  have same := remembered.symm.trans (agree.lastCause.trans rememberedAgain)
  simp at same

/-- The fields of a building message that go out. -/
def BuildingStatus.sent (status : BuildingStatus) : BuildingStatus :=
  { status with floor := 0, room := 0 }

/-- A call as far as its arguments go out. -/
def Call.sent : Call → Call
  | .publishBuilding status => .publishBuilding status.sent
  | .publishPowerdown powerdown => .publishPowerdown powerdown
  | .configTimmingSave => .configTimmingSave

/-- A statement as far as the message it is about to publish goes out. -/
def Pc.sent : Pc → Pc
  | .publishOpening status => .publishOpening status.sent
  | pc => pc

/-- Two tasks differ in nothing but the fields of their messages that do not go out. -/
inductive Alike : Task → Task → Prop where
  | intro {pc again : Pc} {opens : Bool} {c : Controller} {calls : List Call} (statement : pc.sent = again.sent)
      (published : c.calls.map Call.sent = calls.map Call.sent) :
      Alike ⟨pc, opens, c⟩ ⟨again, opens, { c with calls := calls }⟩

/-- Tasks that are alike have published the same messages, and remember the same cause. -/
theorem Alike.messages {first second : Task} (alike : Alike first second) (uplink : Uplink) :
    first.c.messages uplink = second.c.messages uplink ∧ first.c.lastCause = second.c.lastCause := by
  have sent : ∀ call : Call, (call.sent.building.bind (nbIotPublishBuilding uplink)) =
      call.building.bind (nbIotPublishBuilding uplink) := fun call => by cases call <;> rfl
  cases alike with
  | intro statement published =>
    -- Hiding the other fields of a call hides none of its message.
    have same := congrArg (List.filterMap fun call => call.building.bind (nbIotPublishBuilding uplink)) published
    simp only [List.filterMap_map, Function.comp_def, sent] at same
    exact ⟨by simpa only [Controller.messages, List.filterMap_filterMap] using same, rfl⟩

/-- Only a publication is not determined by what of it goes out. -/
theorem Pc.sent_inj {pc again : Pc} (same : pc.sent = again.sent) (other : ∀ status, pc ≠ .publishOpening status) :
    again = pc := by
  cases pc <;> cases again <;> simp_all [Pc.sent]

/-- The factory test neither makes calls nor looks at them. -/
theorem factoryStep_calls (fileOk : Bool) (pc : FactoryPc) (c : Controller) (calls : List Call) :
    factoryStep fileOk pc { c with calls := calls } =
      ((factoryStep fileOk pc c).1, { (factoryStep fileOk pc c).2 with calls := calls }) := by
  cases pc with
  | awaitLine num =>
    simp only [factoryStep]
    split <;> rfl
  | _ => rfl

/-- The stack memory is read by the statement that builds the opening message alone. -/
theorem Alike.taskStep {fireMachine : Bool} {choice other : Choice} {first second : Task} (alike : Alike first second)
    (fileOk : choice.fileOk = other.fileOk) (building : first.pc ≠ .announce) :
    Alike (taskStep fireMachine choice first) (taskStep fireMachine other second) := by
  cases alike with
  | @intro pc again opens c calls statement published =>
  by_cases publishing : ∃ status, pc = .publishOpening status
  · obtain ⟨status, rfl⟩ := publishing
    -- The second task is about to publish a message that is the same as far as it goes out.
    cases again <;> simp only [Pc.sent, reduceCtorEq, Pc.publishOpening.injEq] at statement
    exact .intro rfl (by simp [Controller.publishBuilding, published, Call.sent, statement])
  -- Any other statement is the same one for both tasks.
  · have same := Pc.sent_inj statement fun status publishes => publishing ⟨status, publishes⟩
    subst same
    cases again with
    | announce => exact absurd rfl building
    | publishOpening status => exact absurd ⟨status, rfl⟩ publishing
    | top => exact .intro rfl rfl
    | opening =>
      simp only [PkeFire.taskStep]
      split <;> exact .intro rfl published
    | closing =>
      simp only [PkeFire.taskStep, Controller.countQuiet]
      split <;> [split; skip] <;> exact .intro rfl published
    | publishClosing =>
      -- The remembered cause shows in the floor and the room only.
      exact .intro rfl (by simp [Controller.publishBuilding, published, Controller.closingStatus])
    | powerdown =>
      -- A change of the mains supply is published by both or by neither.
      simp only [PkeFire.taskStep, Controller.reportPowerdown]
      split <;> [skip; split] <;> exact .intro rfl (by simp [published])
    | smokeReport =>
      cases fireMachine with
      | true =>
        simp only [PkeFire.taskStep, miscSmokeReport, if_true]
        split <;> [split <;> [split <;> [split; split]; skip]; skip] <;> exact .intro rfl published
      | false => exact .intro rfl published
    | saveConfig =>
      simp only [PkeFire.taskStep, Controller.tickSave]
      split <;> exact .intro rfl (by simp [published])
    | factory pc =>
      -- The factory test publishes nothing.
      by_cases returned : pc = .returned
      · subst returned
        exact .intro rfl published
      · rw [taskStep_factory choice opens c returned, taskStep_factory other opens _ returned, ← fileOk,
          factoryStep_calls choice.fileOk pc c calls]
        exact .intro rfl ((congrArg _ (factoryStep_frame choice.fileOk pc c).2.2.1).trans published)
    | _ => exact .intro rfl published

/-- What an opening remembers depends on the cause in the stack memory, and not on the calls made before. -/
theorem Controller.describeOpening_calls {stack other : BuildingStatus} (c : Controller) (calls : List Call)
    (cause : stack.cause = other.cause) :
    (Controller.describeOpening other { c with calls := calls }).2 =
      { (c.describeOpening stack).2 with calls := calls } := by
  have leads : leadingCause { c with calls := calls } = c.leadingCause := rfl
  rw [describeOpening_snd, describeOpening_snd, cause, leads]
  cases c.leadingCause.any Cause.sounds <;> rfl

/-- Over stack contents that agree where they show, the same opening is announced. -/
theorem Alike.announce {fireMachine : Bool} {choice other : Choice} {first second : Task} (alike : Alike first second)
    (announcing : first.pc = .announce) (cause : choice.stack.cause = other.stack.cause)
    (measured : ¬ first.c.Measures → choice.stack.SameMeasurements other.stack) :
    Alike (PkeFire.taskStep fireMachine choice first) (PkeFire.taskStep fireMachine other second) := by
  cases alike with
  | @intro pc again opens c calls statement published =>
  cases announcing
  cases Pc.sent_inj statement fun _ => nofun
  have leads : Controller.leadingCause { c with calls := calls } = c.leadingCause := rfl
  have measures : Controller.Measures { c with calls := calls } = c.Measures := rfl
  obtain ⟨_, _, status⟩ := c.describeOpening_status choice.stack
  obtain ⟨_, _, statusAgain⟩ := Controller.describeOpening_status other.stack { c with calls := calls }
  have silent := (c.describeOpening_remembers choice.stack).2
  simp only [PkeFire.taskStep, c.describeOpening_calls calls cause]
  refine .intro ?_ (by rw [silent, published])
  -- What goes out of the message is either shown by both contents, or written over them.
  simp only [Pc.sent, BuildingStatus.sent, status, statusAgain, cause, leads, measures]
  by_cases measures : c.Measures
  · simp [measures]
  · obtain ⟨temperature, smoke, smokeAlarm, tempAlarm⟩ := measured measures
    simp [measures, temperature, smoke, smokeAlarm, tempAlarm]

/-- The pair of stack contents agrees where an opening message that is built over it shows them. -/
def SameShown (t : Task) (event : TaskEvent × BuildingStatus) : Prop :=
  match event.1 with
  | .surround _ => True
  | .step choice => t.pc = .announce →
    choice.stack.cause = event.2.cause ∧ (¬ t.c.Measures → choice.stack.SameMeasurements event.2)

/-- The same event over other stack memory. -/
def TaskEvent.over (stack : BuildingStatus) : TaskEvent → TaskEvent
  | .surround event => .surround event
  | .step choice => .step { choice with stack := stack }

/-- What another thread does neither makes calls nor looks at them. -/
theorem surround_withCalls (fireMachine : Bool) (event : Surrounding) (c : Controller) (calls : List Call) :
    surround fireMachine event { c with calls := calls } = { surround fireMachine event c with calls := calls } := by
  cases event with
  | shell argv =>
    simp only [surround, miscDoorOpen]
    split <;> [(split <;> [skip; split]); skip] <;> rfl
  | _ => rfl

/-- Alike tasks stay alike when another thread does the same to both. -/
theorem Alike.surround {fireMachine : Bool} {first second : Task} (alike : Alike first second) (event : Surrounding) :
    Alike { first with c := PkeFire.surround fireMachine event first.c }
      { second with c := PkeFire.surround fireMachine event second.c } := by
  cases alike with
  | intro statement published =>
    simp only [surround_withCalls]
    exact .intro statement (by simpa only [surround_calls] using published)

/-- Each pair of events over fitting stack contents keeps two alike tasks alike. -/
theorem Alike.step {fireMachine : Bool} {first second next again : Task} {event : TaskEvent × BuildingStatus}
    (alike : Alike first second) (same : SameShown first event)
    (taken : taskEvent fireMachine first event.1 = some next)
    (takenAgain : taskEvent fireMachine second (event.1.over event.2) = some again) : Alike next again := by
  obtain ⟨event, stack⟩ := event
  cases event with
  | surround event =>
    cases Option.some.inj taken
    cases Option.some.inj takenAgain
    exact alike.surround event
  | step choice =>
    cases Option.some.inj taken
    cases Option.some.inj takenAgain
    by_cases announcing : first.pc = .announce
    · exact alike.announce announcing (same announcing).1 (same announcing).2
    · exact alike.taskStep rfl announcing

/-- Two whole runs over stack contents that fit at every opening publish the same and remember the same cause. -/
theorem runs_alike {fireMachine : Bool} {events : List (TaskEvent × BuildingStatus)} {t finish second : Task}
    (same : EveryStep (fun t event => taskEvent fireMachine t event.1) SameShown t events)
    (ran : run (fun t event => taskEvent fireMachine t event.1) t events = some finish)
    (ranAgain : run (fun t event => taskEvent fireMachine t (event.1.over event.2)) t events = some second) :
    Alike finish second := by
  -- Both runs begin in the same state.
  refine runs_related Alike ?_ (.intro rfl rfl) same ran ranAgain
  intro first second event next again alike same taken takenAgain
  exact alike.step same taken takenAgain

end PkeFire
