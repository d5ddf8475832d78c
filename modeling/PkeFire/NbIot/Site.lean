import PkeFire.Misc.Server
import PkeFire.NbIot.Uplink

/-! The controller of a building with its connection: what it publishes, and what a message makes it do. -/

namespace PkeFire

/-- How far `nb_iot_task` has come since the processor was started. -/
inductive Connection where
  /-- `mqtt_connect_sta` is zero. -/
  | offline
  /-- The connection is up, and the message about the start is still to be published. -/
  | up
  /-- The message about the start has been published, with or without success. -/
  | announced (success : Bool)
  deriving DecidableEq, Repr

/-- `mqtt_connect_sta`. -/
def Connection.isUp : Connection → Bool
  | .offline => false
  | .up | .announced _ => true

/-- The server has been told about the start. -/
def Connection.isTold : Connection → Bool
  | .announced success => success
  | .offline | .up => false

/-- The controller of a building, and what has become of its reports since it was started. -/
structure Site where
  /-- The task, and its reports on the door and on the mains supply. -/
  watched : Watched
  /-- The reports on `run_stop_flag`. -/
  running : Reports UInt8
  /-- What the handler has assigned to `run_stop_flag`, if it is about to publish it. -/
  owed : Option Bool
  connection : Connection
  deriving DecidableEq, Repr

/-- A controller that has just been started. -/
def Site.init : Site where
  watched := Watched.init
  running := ⟨1, 0⟩
  owed := none
  connection := .offline

/-- What happens at a building. -/
inductive SiteEvent where
  /-- A statement of the task, or an act of another thread, but for the handler of CMD_DOWN_STOP and CMD_DOWN_RUN. -/
  | task (event : TaskEvent)
  /-- The handler of CMD_DOWN_STOP (false) or CMD_DOWN_RUN (true) assigns `run_stop_flag`. -/
  | assign (run : Bool)
  /-- It calls `nb_iot_publish_run_stop`. -/
  | answer
  /-- The handler calls `nb_iot_publish_status`. -/
  | status (stus : Stus)
  /-- `mqtt_connect` succeeds. -/
  | connect
  /-- `nb_iot_task` calls `nb_iot_publish_startup`. -/
  | announce
  /-- The processor is started again. -/
  | restart
  deriving DecidableEq, Repr

/-- An event, what the messages of that moment tell about the board, and whether `mqtt_publish` succeeds. -/
structure SiteAction where
  event : SiteEvent
  station : Station
  delivered : Bool
  deriving DecidableEq, Repr

/-- The event belongs to the handler of CMD_DOWN_STOP and CMD_DOWN_RUN. -/
def TaskEvent.isRunStop : TaskEvent → Bool
  | .surround (.runStop _) => true
  | .surround _ | .step _ => false

/-- The message that a call of the task publishes. -/
def Call.upMessage : Call → Option UpMessage
  | .publishBuilding status => some (.building status)
  | .publishPowerdown powerdown => some (.powerdown powerdown)
  | .configTimmingSave => none

namespace Site

/-- A report stands if it reaches a server that has been told about the start. -/
def stands (delivered : Bool) (site : Site) : Bool :=
  site.connection.isTold && delivered

/-- The controller after an event. -/
def next (fireMachine delivered : Bool) (site : Site) : SiteEvent → Option Site
  | .task event =>
    if event.isRunStop then none
    else (site.watched.step fireMachine ⟨event, site.stands delivered⟩).map fun next => { site with watched := next }
  | .assign run =>
    -- The handler takes one message at a time.
    if site.owed.isSome then none
    else (site.watched.step fireMachine ⟨.surround (.runStop run), site.stands delivered⟩).map fun next =>
      { site with watched := next, owed := some run }
  | .answer => site.owed.map fun run =>
    { site with owed := none, running := site.running.send (site.stands delivered) (flagByte run) }
  | .status _ => some site
  | .connect => if site.connection = .offline then some { site with connection := .up } else none
  -- This happens once, whether it succeeds or not.
  | .announce => if site.connection = .up then some { site with connection := .announced delivered } else none
  | .restart => some init

/-- The messages of an event. -/
def messages (site next : Site) : SiteEvent → List UpMessage
  | .task _ => (site.watched.t.made next.watched.t).filterMap Call.upMessage
  | .answer => site.owed.toList.map fun run => .runStop (flagByte run)
  | .status stus => [.status stus.code]
  | .announce => [.startup]
  | .assign _ | .connect | .restart => []

/-- What the publishing functions find: the state of the connection, and the name of the building. -/
def station (building : String) (station : Station) (site : Site) : Station :=
  { station with mqttConnectSta := site.connection.isUp, buildingId := building }

/-- The controller performs an event, and hands messages over to the connection. -/
def react {Building : Type} (fireMachine : Bool) (name : Building → String) (building : Building) (site : Site)
    (action : SiteAction) : Option (Site × List (List (String × Item))) :=
  (site.next fireMachine action.delivered action.event).map fun next =>
    (next, if action.delivered then
      (site.messages next action.event).filterMap (·.publish (site.station (name building) action.station))
    else [])

/-- Some events follow each other, and these are their messages. -/
def perform (fireMachine delivered : Bool) (site : Site) : List SiteEvent → Option (Site × List UpMessage)
  | [] => some (site, [])
  | event :: rest => (site.next fireMachine delivered event).bind fun later =>
    (later.perform fireMachine delivered rest).map fun (finish, sent) => (finish, site.messages later event ++ sent)

end Site

/-- The message that a call of the handler publishes. -/
def NbIotCall.upMessage : NbIotCall → Option UpMessage
  | .publishStatus stus => some (.status stus.code)
  | .publishRunStop run => some (.runStop (flagByte run))
  | .otaInit | .cpuReset => none

/-- The events that a member of a message asks for by the number one. -/
def askedEvents (root : Json) (name : String) (events : List SiteEvent) : List SiteEvent :=
  match root name with
  | some item => if item.valueint = 1 then events else []
  | none => []

/-- The events that the handler makes of a message of the server. -/
def messageEvents (root : Option Json) : List SiteEvent :=
  match root with
  | none => []
  | some root =>
    match root "type" with
    | none => []
    | some type =>
      if type.valueint = cmdDownDoor then
        (root "open").toList.map fun item => .task (.surround (.door item.valueint))
      else if type.valueint = cmdDownUpdate then askedEvents root "update" [.status .ota]
      else if type.valueint = cmdDownReset then askedEvents root "reset" [.status .rst, .restart]
      else if type.valueint = cmdDownStatus then askedEvents root "status" [.status .ok]
      else if type.valueint = cmdDownStop then [.assign false, .answer]
      else if type.valueint = cmdDownRun then [.assign true, .answer]
      else []

/-- Some events do at a building what the handler has done. -/
structure Site.Performs (fireMachine delivered : Bool) (site : Site) (events : List SiteEvent) (after : Handler)
    (later : Site) : Prop where
  ran : site.perform fireMachine delivered events = some (later, after.calls.filterMap NbIotCall.upMessage)
  free : later.owed = none
  reset : .cpuReset ∈ after.calls → later = Site.init
  kept : .cpuReset ∉ after.calls → later.watched.t.c =
    { site.watched.t.c with remoteOpen := after.remoteOpen, runStopFlag := after.runStopFlag }

section

variable {fireMachine delivered : Bool} {site later : Site}

/-- Each statement of the task leaves the flag alone that stops it. -/
theorem taskStep_runStopFlag (fireMachine : Bool) (choice : Choice) (t : Task) :
    (taskStep fireMachine choice t).c.runStopFlag = t.c.runStopFlag := by
  obtain ⟨pc, opens, c⟩ := t
  -- The cases are those whose effect on the controller is more than one assignment.
  cases pc with
  | opening =>
    simp only [taskStep]
    split <;> rfl
  | announce =>
    obtain ⟨floor, described⟩ := Controller.describeOpening_frame choice.stack c
    simp only [taskStep, described]
    split <;> rfl
  | closing =>
    simp only [taskStep, Controller.countQuiet]
    split <;> [split; skip] <;> rfl
  | powerdown => exact (reportPowerdown_supervised c).runStopFlag
  | smokeReport =>
    cases fireMachine with
    | true => exact (miscSmokeReport_supervised c).runStopFlag
    | false => rfl
  | saveConfig => exact (tickSave_supervised c).runStopFlag
  | factory pc =>
    by_cases returned : pc = .returned
    · subst returned
      rfl
    · -- The test writes its outputs and the keys only.
      rw [taskStep_factory choice opens c returned]
      obtain ⟨_, _, _, _, same⟩ := factoryStep_writes choice.fileOk pc c
      dsimp only
      rw [same]
  | _ => rfl

/-- So does every other thread, apart from the handler of the messages about it. -/
theorem taskEvent_runStopFlag {t after : Task} {event : TaskEvent} (other : event.isRunStop = false)
    (taken : taskEvent fireMachine t event = some after) : after.c.runStopFlag = t.c.runStopFlag := by
  cases event with
  | step choice =>
    cases Option.some.inj taken
    exact taskStep_runStopFlag fireMachine choice t
  | surround event =>
    cases Option.some.inj taken
    cases event with
    | runStop run => cases other
    | shell argv =>
      obtain ⟨pin, same⟩ := miscDoorOpen_frame argv t.c
      show (miscDoorOpen argv t.c).runStopFlag = t.c.runStopFlag
      rw [same]
    | _ => rfl

/-- What becomes of a controller and its reports in an event of the task. -/
theorem Watched.step_cases {w after : Watched} {event : TaskEvent}
    (taken : w.step fireMachine ⟨event, delivered⟩ = some after) :
    ∃ t, taskEvent fireMachine w.t event = some t ∧ after = w.receive delivered t := by
  obtain ⟨t, ran, same⟩ := Option.map_eq_some_iff.mp taken
  exact ⟨t, ran, same.symm⟩

/-- A message that changes none of the flags and calls nothing is no event. -/
theorem performs_silent {after : Handler} (free : site.owed = none) (calls : after.calls = [])
    (remote : after.remoteOpen = site.watched.t.c.remoteOpen)
    (flag : after.runStopFlag = site.watched.t.c.runStopFlag) :
    site.Performs fireMachine delivered [] after site := by
  refine ⟨by rw [calls]; rfl, free, fun among => ?_, fun _ => by rw [remote, flag]⟩
  rw [calls] at among
  cases among

/-- What a member of a message asks for is done, or nothing is. -/
theorem performs_request {root : Json} {name : String} {calls : List NbIotCall} {events : List SiteEvent} {h : Handler}
    (free : site.owed = none) (uncalled : h.calls = []) (remote : h.remoteOpen = site.watched.t.c.remoteOpen)
    (flag : h.runStopFlag = site.watched.t.c.runStopFlag)
    (asked : site.Performs fireMachine delivered events (h.call calls) later) :
    ∃ later, site.Performs fireMachine delivered (askedEvents root name events) (h.request root name calls) later := by
  rw [askedEvents, Handler.request]
  cases root name with
  | none => exact ⟨site, performs_silent free uncalled remote flag⟩
  | some item =>
    dsimp only
    -- Both look for the number one.
    by_cases one : item.valueint = 1
    · rw [if_pos one, if_pos one]
      exact ⟨later, asked⟩
    · rw [if_neg one, if_neg one]
      exact ⟨site, performs_silent free uncalled remote flag⟩

/-- Publishing a status changes nothing, whether an update begins with it or not. -/
theorem performs_status {h : Handler} (free : site.owed = none) (uncalled : h.calls = [])
    (remote : h.remoteOpen = site.watched.t.c.remoteOpen) (flag : h.runStopFlag = site.watched.t.c.runStopFlag)
    (stus : Stus) {more : List NbIotCall} (silent : more = [] ∨ more = [.otaInit]) :
    site.Performs fireMachine delivered [.status stus] (h.call (.publishStatus stus :: more)) site := by
  have published : (h.call (.publishStatus stus :: more)).calls = .publishStatus stus :: more := by
    rw [Handler.call, uncalled]
    rfl
  refine ⟨?_, free, fun among => ?_, fun _ => ?_⟩
  · -- The start of an update is no message.
    rw [published]
    rcases silent with rfl | rfl <;> rfl
  · rw [published] at among
    rcases silent with rfl | rfl <;> simp at among
  · rw [Handler.call]
    dsimp only
    rw [remote, flag]

/-- A restart is announced by its status. -/
theorem performs_reset {h : Handler} (uncalled : h.calls = []) :
    site.Performs fireMachine delivered [.status .rst, .restart] (h.call [.publishStatus .rst, .cpuReset])
      Site.init := by
  have published : (h.call [.publishStatus .rst, .cpuReset]).calls = [.publishStatus .rst, .cpuReset] := by
    rw [Handler.call, uncalled]
    rfl
  refine ⟨?_, rfl, fun _ => rfl, fun never => ?_⟩
  · rw [published]
    rfl
  · rw [published] at never
    exact absurd (by simp) never

/-- The handler of CMD_DOWN_STOP and CMD_DOWN_RUN assigns the flag and publishes it. -/
theorem performs_runStop {h : Handler} (free : site.owed = none) (uncalled : h.calls = [])
    (remote : h.remoteOpen = site.watched.t.c.remoteOpen) (run : Bool) :
    ∃ later, site.Performs fireMachine delivered [.assign run, .answer]
      (({ h with runStopFlag := run } : Handler).call [.publishRunStop run]) later := by
  have published : (({ h with runStopFlag := run } : Handler).call [.publishRunStop run]).calls =
      [.publishRunStop run] := by
    rw [Handler.call, uncalled]
    rfl
  let assigned : Site := { site with
    watched := site.watched.receive (site.stands delivered)
      { site.watched.t with c := surround fireMachine (.runStop run) site.watched.t.c }
    owed := some run }
  -- The handler may assign the flag because no other answer is owed.
  have assigns : site.next fireMachine delivered (.assign run) = some assigned := by
    rw [Site.next, free]
    rfl
  -- The answer follows as an event of its own, so that the task may act in between.
  refine ⟨{ assigned with
    owed := none, running := assigned.running.send (assigned.stands delivered) (flagByte run) }, ?_⟩
  refine ⟨?_, rfl, fun among => ?_, fun _ => ?_⟩
  · rw [published, Site.perform, assigns]
    rfl
  · rw [published] at among
    exact absurd (List.mem_singleton.mp among) (by simp)
  · rw [Handler.call]
    dsimp only
    rw [remote]
    rfl

/-- The handler of CMD_DOWN_DOOR writes the remote request, if the message says how. -/
theorem performs_door {root : Json} {h : Handler} (free : site.owed = none) (uncalled : h.calls = [])
    (remote : h.remoteOpen = site.watched.t.c.remoteOpen) (flag : h.runStopFlag = site.watched.t.c.runStopFlag) :
    ∃ later, site.Performs fireMachine delivered
      ((root "open").toList.map fun item => .task (.surround (.door item.valueint))) (h.openDoor root) later := by
  rw [Handler.openDoor]
  cases root "open" with
  -- A message that does not say how writes nothing.
  | none => exact ⟨site, performs_silent free uncalled remote flag⟩
  | some item =>
    let asked : Task := { site.watched.t with c := surround fireMachine (.door item.valueint) site.watched.t.c }
    -- Another thread than the task makes no calls.
    have made : site.watched.t.made asked = [] := by
      rw [Task.made, surround_calls]
      exact List.drop_length
    have asks : site.next fireMachine delivered (.task (.surround (.door item.valueint))) =
        some { site with watched := site.watched.receive (site.stands delivered) asked } := rfl
    refine ⟨{ site with watched := site.watched.receive (site.stands delivered) asked }, ?_, free, ?_, fun _ => ?_⟩
    · show site.perform fireMachine delivered [.task (.surround (.door item.valueint))] = _
      rw [uncalled, Site.perform, asks, Option.bind_some]
      show some (_, (site.watched.t.made asked).filterMap Call.upMessage ++ []) = _
      rw [made]
      rfl
    · rw [uncalled]
      exact fun among => absurd among List.not_mem_nil
    · dsimp only
      rw [flag]
      rfl

/-- Whatever the server sends, the handler does what some events at the building do, and publishes their messages. -/
theorem handler_performs (fireMachine delivered : Bool) (root : Option Json) (config : Config)
    (strings : StringItems root) (free : site.owed = none) :
    ∃ after, (site.watched.t.c.handler config).subTopicHandle1 root = some after ∧
      ∃ later, site.Performs fireMachine delivered (messageEvents root) after later := by
  cases root with
  | none => exact ⟨_, rfl, site, performs_silent free rfl rfl rfl⟩
  | some root =>
    cases typed : root "type" with
    | none =>
      -- A message without a type is not looked at.
      refine ⟨site.watched.t.c.handler config, by simp only [Handler.subTopicHandle1, typed], site, ?_⟩
      simp only [messageEvents, typed]
      exact performs_silent free rfl rfl rfl
    | some type =>
      have command : commandOf (some root) = some type.valueint := by
        rw [commandOf, Option.bind_some, typed, Option.map_some]
      have texts (five : type.valueint = cmdDownSetting) : (site.watched.t.c.handler config).settings root =
          some ((site.watched.t.c.handler config).write (textUpdates (settingTexts root))) :=
        settings_eq (strings (command.trans (congrArg some five)) root rfl)
      by_cases known : type.valueint ∈ [cmdDownAllSmoke, cmdDownDoor, cmdDownGetSmoke, cmdDownSetSmoke,
          cmdDownUpdate, cmdDownSetting, cmdDownReset, cmdDownStatus, cmdDownStop, cmdDownRun]
      · simp only [List.mem_cons, List.not_mem_nil, or_false] at known
        -- One case for each command, in the order of their numbers.
        rcases known with number | number | number | number | number | number | number | number | number | number
        -- Commands that only set or ask for numbers make no event.
        · refine ⟨_, by simp [Handler.subTopicHandle1, typed, number]; rfl, site, ?_⟩
          simp only [messageEvents, typed, number]
          exact performs_silent free rfl rfl rfl
        · refine ⟨_, by simp [Handler.subTopicHandle1, typed, number]; rfl, ?_⟩
          simp only [messageEvents, typed, number]
          exact performs_door free rfl rfl rfl
        · refine ⟨_, by simp [Handler.subTopicHandle1, typed, number]; rfl, site, ?_⟩
          simp only [messageEvents, typed, number]
          exact performs_silent free rfl rfl rfl
        · refine ⟨_, by simp [Handler.subTopicHandle1, typed, number]; rfl, site, ?_⟩
          simp only [messageEvents, typed, number]
          exact performs_silent free rfl rfl rfl
        · refine ⟨_, by simp [Handler.subTopicHandle1, typed, number]; rfl, ?_⟩
          simp only [messageEvents, typed, number]
          exact performs_request free rfl rfl rfl (performs_status free rfl rfl rfl .ota (Or.inr rfl))
        · refine ⟨_, by simp [Handler.subTopicHandle1, typed, number, texts number]; rfl, site, ?_⟩
          simp only [messageEvents, typed, number]
          exact performs_silent free rfl rfl rfl
        · refine ⟨_, by simp [Handler.subTopicHandle1, typed, number]; rfl, ?_⟩
          simp only [messageEvents, typed, number]
          exact performs_request free rfl rfl rfl (performs_reset rfl)
        · refine ⟨_, by simp [Handler.subTopicHandle1, typed, number]; rfl, ?_⟩
          simp only [messageEvents, typed, number]
          exact performs_request free rfl rfl rfl (performs_status free rfl rfl rfl .ok (Or.inl rfl))
        · refine ⟨_, by simp [Handler.subTopicHandle1, typed, number]; rfl, ?_⟩
          simp only [messageEvents, typed, number]
          exact performs_runStop free rfl rfl false
        · refine ⟨_, by simp [Handler.subTopicHandle1, typed, number]; rfl, ?_⟩
          simp only [messageEvents, typed, number]
          exact performs_runStop free rfl rfl true
      · -- Any other number is passed over.
        simp only [List.mem_cons, List.not_mem_nil, or_false, not_or, cmdDownAllSmoke, cmdDownDoor, cmdDownGetSmoke,
          cmdDownSetSmoke, cmdDownUpdate, cmdDownSetting, cmdDownReset, cmdDownStatus, cmdDownStop,
          cmdDownRun] at known
        refine ⟨_, by simp [Handler.subTopicHandle1, typed, known]; rfl, site, ?_⟩
        have unheard : messageEvents (some root) = [] := by simp [messageEvents, typed, known]
        rw [unheard]
        exact performs_silent free rfl rfl rfl

end

end PkeFire
