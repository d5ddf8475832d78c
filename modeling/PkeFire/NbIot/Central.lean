import PkeFire.NbIot.Site
import PkeFire.Run.Feeds

/-! The server of several buildings, and what it knows about each of them from the messages that reach it. -/

namespace PkeFire

/-- What the server knows about a building: the numbers that it has read last. -/
structure Mirror where
  doorOpen : Int
  powerdown : Int
  runStop : Int
  deriving DecidableEq, Repr

/-- What the server takes for granted about a building that has been started. -/
def Mirror.started : Mirror :=
  ⟨0, 0, 1⟩

/-- The server reads a message about a building. -/
def Mirror.read (mirror : Mirror) : UpReading → Mirror
  | .building _ doorOpen _ _ _ _ _ => { mirror with doorOpen := doorOpen }
  | .powerdown powerdown => { mirror with powerdown := powerdown }
  | .startup _ _ => .started
  | .status _ => mirror
  | .runStop status => { mirror with runStop := status }

/-- The items of a message are read. -/
def Mirror.write (mirror : Mirror) (items : List (String × Item)) : Mirror :=
  match readMessage items with
  | some (_, reading) => mirror.read reading
  | none => mirror

/-- The server files a message under the name of its building. -/
def hearMessage (known : String → Mirror) (items : List (String × Item)) : String → Mirror :=
  match readMessage items with
  | some (building, _) => Function.update known building ((known building).write items)
  | none => known

/-- The buildings and the server. -/
abbrev Network (Building : Type) :=
  Feeds Building Site (List (String × Item)) (String → Mirror)

/-- All controllers have just been started, and the server knows nothing. -/
def networkStart {Building : Type} (unknown : String → Mirror) : Network Building :=
  ⟨fun _ => Site.init, fun _ => [], unknown⟩

/-- The message comes from the building. -/
def ComesFrom {Building : Type} (name : Building → String) (building : Building)
    (items : List (String × Item)) : Prop :=
  ∃ reading, readMessage items = some (name building, reading)

/-- What a controller has told the server, as far as its reports stand. -/
def Site.told (site : Site) : Mirror :=
  ⟨site.watched.door.view.toNat, site.watched.powerdown.view.toNat, site.running.view.toNat⟩

/-- The state of the controller, as the server would know it. -/
def Controller.mirror (c : Controller) : Mirror :=
  ⟨(flagByte c.doorOpen).toNat, (flagByte c.smokeReport.powerdownFlag).toNat, (flagByte c.runStopFlag).toNat⟩

example : controllerInit.mirror = Mirror.started := rfl

/-- The reports of a controller, and what they come to when they have arrived. -/
structure Site.Follows (site : Site) (final : Mirror) : Prop where
  tracks : site.watched.Tracks
  owed : ∀ run ∈ site.owed, site.watched.t.c.runStopFlag = run
  running : site.owed = none → site.running.lost = 0 → site.running.view = flagByte site.watched.t.c.runStopFlag
  -- Before the server has been told about the start, no report stands.
  untold : site.connection.isTold = false → site.told = Mirror.started
  told : site.connection.isTold = true → final = site.told

section

variable {fireMachine delivered : Bool} {site later : Site} {station : Station} {mirror : Mirror}

/-- What is lost leaves the view alone. -/
theorem Reports.view_unsent {Value : Type} (values : List Value) (reports : Reports Value) :
    (values.foldl (fun reports value => reports.send false value) reports).view = reports.view := by
  induction values generalizing reports with
  | nil => rfl
  | cons value rest ih =>
    rw [List.foldl_cons, ih]
    rfl

/-- The server reads the values that are reported. -/
theorem read_calls (station : Station) (calls : List Call) (mirror : Mirror) (door powerdown : Reports UInt8)
    (sameDoor : mirror.doorOpen = door.view.toNat) (samePowerdown : mirror.powerdown = powerdown.view.toNat) :
    (calls.filterMap Call.upMessage).foldl (fun mirror message => mirror.read (message.reading station)) mirror =
      { mirror with
        doorOpen := ((calls.filterMap Call.doorOpen?).foldl
          (fun reports value => reports.send true value) door).view.toNat
        powerdown := ((calls.filterMap Call.powerdown?).foldl
          (fun reports value => reports.send true value) powerdown).view.toNat } := by
  -- The calls are read one after the other, each of them in one of the two flags at most.
  induction calls generalizing mirror door powerdown with
  | nil =>
    simp only [List.filterMap_nil, List.foldl_nil]
    rw [← sameDoor, ← samePowerdown]
  -- A building message shows the door, a message about the supply the supply, and a save is no message.
  | cons call rest ih =>
    cases call with
    | publishBuilding status =>
      simp only [List.filterMap_cons, Call.upMessage, Call.doorOpen?, Call.powerdown?, List.foldl_cons]
      exact ih { mirror with doorOpen := status.doorOpen.toNat } (door.send true status.doorOpen) powerdown rfl
        samePowerdown
    | publishPowerdown value =>
      simp only [List.filterMap_cons, Call.upMessage, Call.doorOpen?, Call.powerdown?, List.foldl_cons]
      exact ih { mirror with powerdown := value.toNat } door (powerdown.send true value) sameDoor rfl
    | configTimmingSave =>
      simp only [List.filterMap_cons, Call.upMessage, Call.doorOpen?, Call.powerdown?]
      exact ih mirror door powerdown sameDoor samePowerdown

/-- With a connection, every message is read for what it is. -/
theorem write_published (connected : station.mqttConnectSta = true) (messages : List UpMessage) (mirror : Mirror) :
    (messages.filterMap (·.publish station)).foldl Mirror.write mirror =
      messages.foldl (fun mirror message => mirror.read (message.reading station)) mirror := by
  induction messages generalizing mirror with
  | nil => rfl
  | cons message rest ih =>
    -- The first message is read, and then the others.
    obtain ⟨items, published, read⟩ := publish_read connected message
    rw [List.filterMap_cons_some published, List.foldl_cons, List.foldl_cons, ih]
    rw [Mirror.write, read]

/-- Every message is published under the name of the building. -/
theorem named_published {items : List (String × Item)} {message : UpMessage}
    (published : message.publish station = some items) :
    ∃ reading, readMessage items = some (station.buildingId, reading) := by
  cases connected : station.mqttConnectSta with
  | false =>
    rw [publish_unconnected connected] at published
    cases published
  | true =>
    obtain ⟨_, same, read⟩ := publish_read connected message
    rw [published] at same
    exact ⟨_, Option.some.inj same ▸ read⟩

/-- What an event of the task changes in what the server has been told. -/
theorem Site.told_receive (station : Station) (delivered : Bool) (after : Task) (site : Site) :
    ({ site with watched := site.watched.receive delivered after } : Site).told =
      if delivered then ((site.watched.t.made after).filterMap Call.upMessage).foldl
        (fun mirror message => mirror.read (message.reading station)) site.told
      else site.told := by
  cases delivered with
  | true =>
    exact (read_calls station (site.watched.t.made after) site.told site.watched.door site.watched.powerdown rfl
      rfl).symm
  | false =>
    -- None of the reports gets through.
    simp only [Site.told, Watched.receive, Reports.view_unsent]
    rfl

/-- A controller that has just been started has told nothing. -/
theorem Site.follows_init (final : Mirror) : Site.init.Follows final where
  tracks := Watched.tracks_init
  owed := fun _ never => absurd never (Option.not_mem_none _)
  running := fun _ _ => rfl
  untold := fun _ => rfl
  told := fun never => absurd never Bool.false_ne_true

/-- An event that leaves the handler alone keeps what is known of it. -/
theorem Site.Follows.receive (held : site.Follows mirror) {event : TaskEvent} {after : Watched}
    (taken : site.watched.step fireMachine ⟨event, site.stands delivered⟩ = some after) (station : Station) :
    after.Tracks ∧
      (site.connection.isTold = false → ({ site with watched := after } : Site).told = Mirror.started) ∧
      (site.connection.isTold = true → (if delivered then
        ((site.watched.t.made after.t).filterMap Call.upMessage).foldl
          (fun mirror message => mirror.read (message.reading station)) mirror
        else mirror) = ({ site with watched := after } : Site).told) := by
  obtain ⟨t, _, rfl⟩ := Watched.step_cases taken
  refine ⟨held.tracks.step taken, fun untold => ?_, fun told => ?_⟩
  · -- Reports made before the start is announced do not stand.
    have falls : site.stands delivered = false := by rw [Site.stands, untold, Bool.false_and]
    rw [Site.told_receive station, falls]
    exact held.untold untold
  · have stands : site.stands delivered = delivered := by rw [Site.stands, told, Bool.true_and]
    rw [Site.told_receive station, stands, held.told told]
    rfl

/-- Every event keeps the reports of a controller, and what they come to. -/
theorem Site.Follows.next {event : SiteEvent} (held : site.Follows mirror)
    (taken : site.next fireMachine delivered event = some later) (station : Station) :
    later.Follows (if delivered && site.connection.isUp then
      (site.messages later event).foldl (fun mirror message => mirror.read (message.reading station)) mirror
      else mirror) := by
  -- Whoever has been told about the start is connected.
  have up : site.connection.isTold = true → site.connection.isUp = true := by
    cases site.connection <;> simp [Connection.isTold, Connection.isUp]
  cases event with
  | task event =>
    rw [Site.next] at taken
    split at taken
    · cases taken
    · rename_i other
      obtain ⟨after, moved, rfl⟩ := Option.map_eq_some_iff.mp taken
      obtain ⟨tracks, untold, told⟩ := held.receive moved station
      obtain ⟨t, ran, same⟩ := Watched.step_cases moved
      -- Only the handler of a command assigns the flag, and not the task.
      have flag : after.t.c.runStopFlag = site.watched.t.c.runStopFlag := by
        rw [same]
        exact taskEvent_runStopFlag (Bool.eq_false_of_not_eq_true other) ran
      refine ⟨tracks, fun run owed => flag.trans (held.owed run owed), fun none kept => ?_, untold, fun isTold => ?_⟩
      · rw [flag]
        exact held.running none kept
      · rw [up isTold, Bool.and_true]
        exact told isTold
  | assign run =>
    rw [Site.next] at taken
    split at taken
    · cases taken
    · obtain ⟨after, moved, rfl⟩ := Option.map_eq_some_iff.mp taken
      obtain ⟨tracks, untold, told⟩ := held.receive moved station
      obtain ⟨t, ran, same⟩ := Watched.step_cases moved
      cases Option.some.inj ran
      -- Another thread than the task makes no calls.
      have made : site.watched.t.made after.t = [] := by
        rw [same]
        simp only [Task.made, Watched.receive, surround_calls]
        exact List.drop_length
      refine ⟨tracks, fun value owed => ?_, fun none => ?_, untold, fun isTold => ?_⟩
      · rw [same]
        exact Option.some.inj owed
      · cases none
      -- Without a call, the server reads nothing.
      · have kept := told isTold
        rw [made] at kept
        exact (ite_self _).trans ((ite_self _).symm.trans kept)
  | answer =>
    obtain ⟨run, owed, rfl⟩ := Option.map_eq_some_iff.mp taken
    have flag := held.owed run owed
    refine ⟨held.tracks, fun _ never => (by cases never), fun _ kept => ?_, fun isUntold => ?_, fun isTold => ?_⟩
    · -- A report that has been lost would have been counted.
      cases stands : site.stands delivered with
      | true => exact congrArg flagByte flag.symm
      | false =>
        rw [stands] at kept
        cases kept
    · have falls : site.stands delivered = false := by rw [Site.stands, isUntold, Bool.false_and]
      rw [falls]
      exact held.untold isUntold
    · have stands : site.stands delivered = delivered := by rw [Site.stands, isTold, Bool.true_and]
      rw [up isTold, Bool.and_true, stands, Site.messages, owed, held.told isTold]
      cases delivered <;> rfl
  | status stus =>
    -- A status is not about the flags.
    cases Option.some.inj taken
    refine ⟨held.tracks, held.owed, held.running, held.untold, fun isTold => ?_⟩
    exact (ite_self _).trans (held.told isTold)
  | connect =>
    rw [Site.next] at taken
    split at taken
    · rename_i offline
      cases Option.some.inj taken
      -- A connection alone tells the server nothing.
      refine ⟨held.tracks, held.owed, held.running, fun _ => held.untold (by rw [offline]; rfl), fun never => ?_⟩
      cases never
    · cases taken
  | announce =>
    rw [Site.next] at taken
    split at taken
    · rename_i isUp
      cases Option.some.inj taken
      have untold := held.untold (by rw [isUp]; rfl)
      refine ⟨held.tracks, held.owed, held.running, fun _ => untold, fun success => ?_⟩
      -- With the message about the start, the server forgets what it has known.
      have delivered : delivered = true := success
      rw [delivered, isUp]
      exact untold.symm
    · cases taken
  | restart =>
    cases Option.some.inj taken
    exact Site.follows_init _

end

section

variable {Building : Type} {fireMachine : Bool} {name : Building → String}

/-- The server keeps buildings with different names apart, and a message that comes twice says nothing new. -/
theorem parted_server (distinct : ∀ building other, name building = name other → building = other) :
    PartedView hearMessage (ComesFrom name) (fun building known => known (name building)) Mirror.write where
  own := by
    rintro building items known ⟨reading, read⟩
    rw [hearMessage, read]
    exact Function.update_self (name building) _ known
  other := by
    rintro building items other known ⟨reading, read⟩ apart
    rw [hearMessage, read]
    exact Function.update_of_ne (fun same => apart (distinct other building same)) _ known
  twice := by
    rintro building items old ⟨reading, read⟩
    rw [Mirror.write, Mirror.write, read]
    -- Every kind of message writes constants.
    cases reading <;> rfl

/-- Every message that is handed over carries the name of the building. -/
theorem react_named {building : Building} {site later : Site} {action : SiteAction}
    {sent : List (List (String × Item))} (reacted : site.react fireMachine name building action = some (later, sent)) :
    ∀ items ∈ sent, ComesFrom name building items := by
  obtain ⟨after, _, same⟩ := Option.map_eq_some_iff.mp reacted
  intro items among
  rw [← (Prod.mk.inj same).2] at among
  split at among
  · obtain ⟨message, _, published⟩ := List.mem_filterMap.mp among
    exact named_published published
  · cases among

/-- A controller follows its reports in all that it does. -/
theorem react_follows {building : Building} {site later : Site} {action : SiteAction}
    {sent : List (List (String × Item))} {final : Mirror} (held : site.Follows final)
    (reacted : site.react fireMachine name building action = some (later, sent)) :
    later.Follows (sent.foldl Mirror.write final) := by
  obtain ⟨after, moved, same⟩ := Option.map_eq_some_iff.mp reacted
  obtain ⟨rfl, rfl⟩ := Prod.mk.inj same
  have follows := held.next moved (site.station (name building) action.station)
  cases delivered : action.delivered with
  | false =>
    rw [delivered] at follows
    exact follows
  | true =>
    rw [delivered, Bool.true_and] at follows
    rw [if_pos rfl]
    cases isUp : site.connection.isUp with
    | true =>
      -- What has been published is what there was to be read.
      rw [isUp, if_pos rfl] at follows
      rw [write_published isUp]
      exact follows
    | false =>
      -- Without a connection, nothing is published.
      have silent : (site.messages after action.event).filterMap
          (·.publish (site.station (name building) action.station)) = [] :=
        List.filterMap_eq_nil_iff.mpr fun message _ => publish_unconnected isUp message
      rw [isUp] at follows
      rw [silent]
      exact follows

variable [DecidableEq Building]

/-- One event among the buildings and the server. -/
abbrev networkStep (fireMachine : Bool) (name : Building → String) :
    Network Building → FeedEvent Building SiteAction → Option (Network Building) :=
  feedStep (fun building site action => site.react fireMachine name building action) hearMessage

end

/--
Once all messages of a building have arrived, the server is right about its flags exactly when an even number of
reports on them is missing.

Whatever is published before the message about the start is missing, too, and so is what a restart of the processor
has cut off. It does not matter which other buildings there are, in which order their messages arrive, and which of
them arrive more than once.
-/
theorem server_knows_iff {Building : Type} [DecidableEq Building] (fireMachine : Bool) (name : Building → String)
    (distinct : ∀ building other, name building = name other → building = other) (unknown : String → Mirror)
    (events : List (FeedEvent Building SiteAction)) (finish : Network Building)
    (ran : run (networkStep fireMachine name) (networkStart unknown) events = some finish) (building : Building)
    (arrived : finish.underway building = []) (told : (finish.source building).connection.isTold = true)
    (settled : (finish.source building).watched.t.pc.reporting = false) :
    let site := finish.source building
    let known := finish.view (name building)
    let actual := site.watched.t.c.mirror
    (known.doorOpen = actual.doorOpen ↔ Even site.watched.door.lost) ∧
      (known.powerdown = actual.powerdown ↔ Even site.watched.powerdown.lost) ∧
      (site.owed = none → site.running.lost = 0 → known.runStop = actual.runStop) := by
  intro site known actual
  have start : (networkStart unknown : Network Building).Sound (ComesFrom name)
      (fun building known => known (name building)) Mirror.write (fun _ => Site.Follows) :=
    ⟨fun _ _ never => absurd never List.not_mem_nil, fun _ => Site.follows_init _⟩
  -- Each building is followed on its own, as if it were the only one.
  have sound := feeds_invariant (parted_server distinct) start ⟨react_named, react_follows⟩ ran
  have follows : site.Follows known := sound.arrived arrived
  have same : known = site.told := follows.told told
  have byte (first second : UInt8) : ((first.toNat : Int) = second.toNat) ↔ first = second :=
    Int.ofNat_inj.trans UInt8.toNat_inj
  have bits : flagByte true ≠ flagByte false := by decide
  rw [same]
  refine ⟨(byte _ _).trans ?_, (byte _ _).trans (follows.tracks.powerdown.view_eq_iff bits), fun free kept => ?_⟩
  · -- No message about the door is being built.
    have door : site.watched.door.Alternates flagByte site.watched.t.c.doorOpen := by
      have discounted := follows.tracks.door
      rw [settled, Bool.xor_false] at discounted
      exact discounted
    exact door.view_eq_iff bits
  · exact (byte _ _).mpr (follows.running free kept)

/-- The names of two buildings. -/
def eastWest (east : Bool) : String :=
  if east then "east" else "west"

/-- A short press of the door key, and the iteration that opens the door. -/
def keyPress : List TaskEvent :=
  scans 3 { restingPins with doorKey := false } ++ scans 1 restingPins ++ statements 16

/-- Something happens at a building while messages get through. -/
def online (east : Bool) (event : SiteEvent) : FeedEvent Bool SiteAction :=
  .act east ⟨event, ⟨connectedUplink, "", "", 0, 0, true⟩, true⟩

/-- Both doors are opened, the one in the east after the start has been announced, and the one in the west before. -/
def eastWestEvents : List (FeedEvent Bool SiteAction) :=
  [online true .connect, online false .connect, online true .announce] ++
    keyPress.flatMap (fun event => [online false (.task event), online true (.task event)]) ++
    [online false .announce, .deliver false, .again true, .deliver true, .deliver true, .deliver false]

/-- The server is right about the door in the east, and wrong about the one in the west. -/
theorem server_knows_iff_eastWest : ∃ finish,
    run (networkStep true eastWest) (networkStart fun _ => ⟨0, 0, 0⟩) eastWestEvents = some finish ∧
      (finish.view "east").doorOpen = (finish.source true).watched.t.c.mirror.doorOpen ∧
      (finish.view "west").doorOpen ≠ (finish.source false).watched.t.c.mirror.doorOpen := by
  have distinct : ∀ building other, eastWest building = eastWest other → building = other := by decide
  have observed : ((run (networkStep true eastWest) (networkStart fun _ => ⟨0, 0, 0⟩) eastWestEvents).any fun finish =>
      [true, false].all fun east => (finish.underway east).isEmpty &&
        (finish.source east).connection.isTold && !(finish.source east).watched.t.pc.reporting &&
        (finish.source east).watched.door.lost == if east then 0 else 1) = true := by decide +kernel
  obtain ⟨finish, ran, observed⟩ := (Option.any_eq_true _ _).mp observed
  simp only [List.all_cons, List.all_nil, Bool.and_eq_true, Bool.not_eq_true', List.isEmpty_iff, beq_iff_eq, if_true,
    Bool.false_eq_true, if_false, and_true] at observed
  obtain ⟨⟨⟨⟨eastArrived, eastTold⟩, eastSettled⟩, kept⟩, ⟨⟨westArrived, westTold⟩, westSettled⟩, missed⟩ := observed
  have east := server_knows_iff true eastWest distinct _ _ finish ran true eastArrived eastTold eastSettled
  have west := server_knows_iff true eastWest distinct _ _ finish ran false westArrived westTold westSettled
  refine ⟨finish, ran, east.1.mpr ?_, fun right => ?_⟩
  · rw [kept]
    exact Even.zero
  · have even := west.1.mp right
    rw [missed] at even
    exact absurd even (by decide)

end PkeFire
