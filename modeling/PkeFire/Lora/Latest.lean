import PkeFire.Lora.Network
import PkeFire.Run.Ledger

/-! In a shared channel, the table of a controller is a ledger of the latest reports of its own detectors. -/

namespace PkeFire

/-- The record that a frame with measurements stands for. -/
def recordOf (frame : List UInt8) : SmokeDev where
  floor := (protocolOf frame).floor
  room := (protocolOf frame).room
  smoke := UInt16.ofNat (256 * payload frame 0 + payload frame 1)
  temperature := UInt16.ofNat (256 * payload frame 2 + payload frame 3)
  battery := UInt16.ofNat (256 * payload frame 4 + payload frame 5)
  alarmSmoke := UInt8.ofNat (payload frame 6 % 2)
  alarmTemperature := UInt8.ofNat (payload frame 6 / 2 % 2)
  connect := 0
  activeTime := 0xff
  errSta := .ok

/-- A frame that carries measurements, or should. -/
def IsReport (frame : List UInt8) : Prop :=
  (protocolOf frame).cmd = cmdReport ∨ (protocolOf frame).cmd = cmdSet

instance : DecidablePred IsReport := fun _ => instDecidableOr

/-- What a frame tells the ledger of its detector. -/
def noteOf (frame : List UInt8) : (UInt8 × UInt8) × Option SmokeDev :=
  ((protocolOf frame).key, if IsReport frame then some (recordOf frame) else none)

/-- The notes of some frames, of which those that name no detector are left out. -/
def notesOf (frames : List (List UInt8)) : List ((UInt8 × UInt8) × Option SmokeDev) :=
  (frames.map noteOf).filter fun note => note.1 ≠ (0, 0)

/-- A detector that has registered but not reported is known by its numbers. -/
def silentRecord (key : UInt8 × UInt8) : SmokeDev :=
  { smokeDevClear with floor := key.1, room := key.2 }

/-- The record of a detector by the ledger. -/
def recordBy (frames : List (List UInt8)) (floor room : UInt8) : Option SmokeDev :=
  (ledger 20 (notesOf frames) (floor, room)).map fun value => value.getD (silentRecord (floor, room))

/-- The table is what some frames of this building's detectors have left, and nothing else. -/
structure Keeps (sta : LoraState) (frames : List (List UInt8)) : Prop where
  admits : ∃ registry : Registry (UInt8 × UInt8) 20, Represents sta registry ∧
    registry.keys = admitted 20 ((notesOf frames).map Prod.fst)
  records : ∀ i floor room, sta.Assigned i floor room →
    load sta.smokeDev i = (latest (notesOf frames) (floor, room)).getD (silentRecord (floor, room))

/-- Every report carries all of its measurements. -/
def Complete (frame : List UInt8) : Prop :=
  IsReport frame → 7 ≤ (protocolOf frame).data.length

section

variable {env : LoraEnv} {r : Receiver} {sta : LoraState} {frame : List UInt8} {frames : List (List UInt8)}
  {registry : Registry (UInt8 × UInt8) 20} {floor room : UInt8}

/-- A table that represents the admitted keys has the records of the ledger. -/
theorem Keeps.device (keeps : Keeps sta frames) (floor room : UInt8) :
    sta.device floor room = recordBy frames floor room := by
  obtain ⟨registry, represents, admits⟩ := keeps.admits
  rw [recordBy, ledger, ← admits]
  by_cases known : (floor, room) ∈ registry.keys
  · have assigned : ∃ i, sta.Assigned i floor room := by
      by_contra none
      exact represents.new_iff.mp (not_exists.mp none) known
    obtain ⟨i, assigned⟩ := assigned
    rw [if_pos known, represents.faithful.device_eq_some.mpr ⟨i, assigned, rfl⟩, keeps.records i floor room assigned,
      Option.map_some]
  · -- A detector that has not been admitted has no slot.
    rw [if_neg known, Option.map_none, Option.eq_none_iff_forall_ne_some]
    intro dev found
    obtain ⟨i, assigned, _⟩ := represents.faithful.device_eq_some.mp found
    exact represents.new_iff.mpr known i assigned

/-- Nothing is known before the first frame. -/
theorem keeps_nil : Keeps loraStateInit [] := by
  refine ⟨⟨Registry.empty, DeviceTable.tracks_init.1, rfl⟩, fun i floor room assigned => ?_⟩
  exact absurd assigned.1 (Nat.not_lt_zero _)

/-- What a complete report leaves in a record does not depend on what the record has held, apart from its numbers. -/
theorem readReport_eq (holds : r.Holds frame) (enough : 7 ≤ (protocolOf frame).data.length) {dev : SmokeDev}
    (own : dev.key = (protocolOf frame).key) (connect : dev.connect = 0) : r.readReport dev = recordOf frame := by
  have cell {n : Nat} (small : n < 7) {at_ : Fin 50} (place : at_.val = 23 + n) := payload_cell holds enough small place
  obtain ⟨sameFloor, sameRoom⟩ := Prod.mk.inj own
  have number (low high : Fin 50) (value : Nat)
      (bytes : 256 * (load r.recvBuf low).toNat + (load r.recvBuf high).toNat = value) :
      r.swapped low high = UInt16.ofNat value := by
    rw [← bytes, ← swapped_toNat, UInt16.ofNat_toNat]
  have flag (value : UInt8) (bit : Nat) (same : value.toNat = bit) : value = UInt8.ofNat bit := by
    rw [← same, UInt8.ofNat_toNat]
  rw [Receiver.readReport, recordOf, SmokeDev.mk.injEq]
  -- Three numbers of two bytes each, and two bits of the byte behind them.
  refine ⟨sameFloor, sameRoom, number _ _ _ ?_, number _ _ _ ?_, number _ _ _ ?_, flag _ _ ?_, flag _ _ ?_, connect,
    rfl, rfl⟩
  · rw [cell (by decide : 0 < 7) rfl, cell (by decide : 1 < 7) rfl]
  · rw [cell (by decide : 2 < 7) rfl, cell (by decide : 3 < 7) rfl]
  · rw [cell (by decide : 4 < 7) rfl, cell (by decide : 5 < 7) rfl]
  · rw [UInt8.toNat_and, cell (by decide : 6 < 7) rfl]
    exact Nat.and_one_is_mod _
  · rw [UInt8.toNat_and, UInt8.toNat_shiftRight, cell (by decide : 6 < 7) rfl]
    exact Nat.and_one_is_mod _

/-- No record says that its detector is connected, since nothing in the program does. -/
theorem connect_latest (frames : List (List UInt8)) (key : UInt8 × UInt8) :
    ((latest (notesOf frames) key).getD (silentRecord key)).connect = 0 := by
  cases found : latest (notesOf frames) key with
  | none => rfl
  | some dev =>
    -- The latest value is the record of one of the frames.
    have among := List.mem_of_getLast? found
    obtain ⟨note, listed, value⟩ := List.mem_filterMap.mp among
    obtain ⟨frame, _, rfl⟩ := List.mem_map.mp (List.mem_filter.mp listed).1
    by_cases report : IsReport frame
    · rw [noteOf, if_pos report] at value
      by_cases own : (protocolOf frame).key = key
      · rw [if_pos own] at value
        cases value
        rfl
      · rw [if_neg own] at value
        cases value
    · rw [noteOf, if_neg report, ite_self] at value
      cases value

/-- A frame that names no detector leaves no note. -/
theorem notesOf_append (frames : List (List UInt8)) (frame : List UInt8) :
    notesOf (frames ++ [frame]) =
      if (protocolOf frame).key = (0, 0) then notesOf frames else notesOf frames ++ [noteOf frame] := by
  rw [notesOf, List.map_append, List.filter_append, List.map_singleton]
  by_cases none : (protocolOf frame).key = (0, 0) <;> simp [none, noteOf, notesOf]

/-- A detector's next record starts from what the ledger has of it. -/
theorem Keeps.base (keeps : Keeps sta frames) (registrable : Registrable sta floor room) :
    sta.base floor room = (latest (notesOf frames) (floor, room)).getD (silentRecord (floor, room)) := by
  obtain ⟨registry, represents, admits⟩ := keeps.admits
  by_cases known : ∃ i, sta.Assigned i floor room
  · obtain ⟨i, assigned⟩ := known
    rw [represents.faithful.base_known assigned, keeps.records i floor room assigned]
  · -- There is still room for the detector, so that it has not been noted before.
    have new := not_exists.mp known
    have free := registrable.2.resolve_left known
    rw [represents.counted] at free
    rw [represents.faithful.base_new new, @latest_of_room _ _ _ 20 _ _ ?_ (admits ▸ free), Option.getD_none]
    · rfl
    · rw [← admits]
      exact represents.new_iff.mp new

/-- A search keeps what is known, and makes room for a new detector. -/
theorem Keeps.search (keeps : Keeps sta frames) (addressed : ¬ (floor = 0 ∧ room = 0)) :
    ∃ registry : Registry (UInt8 × UInt8) 20, Represents (loraSearchSmoke floor room sta).2 registry ∧
      registry.keys = admitted 20 ((notesOf frames).map Prod.fst ++ [(floor, room)]) ∧
      (∀ i, (loraSearchSmoke floor room sta).2.Assigned i floor room ↔ (loraSearchSmoke floor room sta).1 = some i) ∧
      ∀ i other another, (loraSearchSmoke floor room sta).2.Assigned i other another →
        load (loraSearchSmoke floor room sta).2.smokeDev i =
          (latest (notesOf frames) (other, another)).getD (silentRecord (other, another)) := by
  obtain ⟨registry, represents, admits⟩ := keeps.admits
  have later := (represents.search addressed).2.faithful
  refine ⟨_, (represents.search addressed).2, registry.search_admitted admits _, ?_⟩
  -- A search succeeds exactly for a number that can be registered.
  by_cases registrable : Registrable sta floor room
  · obtain ⟨slot, found, search, at_⟩ := represents.faithful.search_registrable registrable
    rw [search] at later ⊢
    refine ⟨fun i => ?_, fun i other another assigned => ?_⟩
    -- Its slot is the only one with the number.
    · constructor
      · exact fun assigned => congrArg some (later.slot_unique at_.assigned assigned)
      · exact fun same => Option.some.inj same ▸ at_.assigned
    · by_cases own : (other, another) = (floor, room)
      · obtain ⟨rfl, rfl⟩ := Prod.mk.inj own
        rw [later.slot_unique assigned at_.assigned, at_.record, keeps.base registrable]
      · -- Every other detector has its slot as before.
        have before := (at_.slots i other another own).mp assigned
        have apart : i ≠ slot := by
          rintro rfl
          exact own (assigned.2.symm.trans at_.assigned.2)
        rw [at_.others i apart, keeps.records i other another before]
  · have none : (loraSearchSmoke floor room sta).1 = none := by
      rwa [← represents.faithful.isSome_search, Option.not_isSome_iff_eq_none] at registrable
    rw [none, represents.faithful.unchanged floor room none]
    refine ⟨fun i => ⟨fun assigned => ?_, fun same => by cases same⟩, keeps.records⟩
    -- A detector with a slot would have been found.
    rw [represents.faithful.known i floor room assigned] at none
    cases none

/-- A frame of this building is put down in the ledger. -/
theorem Keeps.dispatch (keeps : Keeps r.sta frames) (holds : r.Holds frame) (long : 23 ≤ frame.length)
    (here : r.ForThisBuilding env) (complete : Complete frame) :
    Keeps (r.dispatch env).sta (frames ++ [frame]) := by
  -- The fields of the frame are read from the buffer, in which it is held.
  obtain ⟨floor, room, _, cmd, _⟩ := protocolOf_held env holds long
  have key : (protocolOf frame).key = (load r.recvBuf 2, load r.recvBuf 3) := by rw [Protocol.key, floor, room]
  have reports : r.Reports ↔ IsReport frame := by rw [Receiver.Reports, IsReport, cmd]
  by_cases none : (protocolOf frame).key = (0, 0)
  · -- A frame for no detector is neither kept nor noted.
    have unaddressed := none
    rw [key, Prod.mk.injEq] at unaddressed
    rw [dispatch_none here (loraSearchSmoke_unaddressed unaddressed)]
    refine ⟨?_, fun i floor room assigned => ?_⟩
    · rw [notesOf_append, if_pos none]
      exact keeps.admits
    · rw [notesOf_append, if_pos none]
      exact keeps.records i floor room assigned
  -- Any other number is searched for, and is a note about its detector.
  · have addressed : ¬ (load r.recvBuf 2 = 0 ∧ load r.recvBuf 3 = 0) := by
      rw [key, Prod.mk.injEq] at none
      exact none
    obtain ⟨registry, represents, admits, slots, records⟩ := keeps.search addressed
    have noted : (notesOf (frames ++ [frame])).map Prod.fst =
        (notesOf frames).map Prod.fst ++ [(load r.recvBuf 2, load r.recvBuf 3)] := by
      rw [notesOf_append, if_neg none, List.map_append, ← key]
      rfl
    -- The note changes what is known of this detector only, and only if it is a report.
    have told (other : UInt8 × UInt8) : latest (notesOf (frames ++ [frame])) other =
        if (protocolOf frame).key = other ∧ IsReport frame then some (recordOf frame)
        else latest (notesOf frames) other := by
      rw [notesOf_append, if_neg none, latest_append]
      by_cases own : (protocolOf frame).key = other <;> by_cases report : IsReport frame <;>
        simp [noteOf, own, report]
    cases search : loraSearchSmoke (load r.recvBuf 2) (load r.recvBuf 3) r.sta with
    | mk slot found =>
      rw [search] at represents slots records
      -- Where no record is written, the ledger has to be the same for every number that has a record.
      have kept (also : (r.dispatch env).sta = found)
          (others : ∀ i other another, found.Assigned i other another →
            ¬ ((protocolOf frame).key = (other, another) ∧ IsReport frame)) :
          Keeps (r.dispatch env).sta (frames ++ [frame]) := by
        rw [also]
        refine ⟨⟨registry, represents, by rw [noted, admits]⟩, fun i other another assigned => ?_⟩
        rw [told, if_neg (others i other another assigned), records i other another assigned]
      cases slot with
      | none =>
        refine kept (dispatch_none here search) fun i other another assigned own => ?_
        -- The detector of the frame has not found a slot.
        rw [key] at own
        obtain ⟨rfl, rfl⟩ := Prod.mk.inj own.1
        cases (slots i).mp assigned
      | some i =>
        by_cases report : IsReport frame
        -- A report is written to the record of its detector.
        · have assigned := (slots i).mpr rfl
          have record : r.readReport (load found.smokeDev i) = recordOf frame := by
            refine readReport_eq holds (complete report) (assigned.2.trans key.symm) ?_
            rw [records i _ _ assigned]
            exact connect_latest frames _
          rw [(dispatch_some here search).1 (reports.mpr report), record]
          have used := (represents.assigned_iff.mp assigned).1
          have sameKey : (recordOf frame).key = (load found.smokeDev i).key := key.trans assigned.2.symm
          have written := represents.put used sameKey
          have again : Represents { found.put i (recordOf frame) with msgid := load r.recvBuf 4 } registry :=
            ⟨written.counted, written.addressed, written.used, written.unused⟩
          refine ⟨⟨registry, again, by rw [noted, admits]⟩, ?_⟩
          rintro j other another ⟨within, own⟩
          simp only at within own ⊢
          rw [load_store] at own ⊢
          rw [told]
          by_cases same : i = j
          · subst same
            rw [if_pos rfl] at own ⊢
            rw [if_pos ⟨own, report⟩, Option.getD_some]
          · -- Another slot belongs to another detector.
            rw [if_neg same] at own ⊢
            have apart : ¬ ((protocolOf frame).key = (other, another) ∧ IsReport frame) := by
              rintro ⟨equal, _⟩
              rw [key] at equal
              obtain ⟨rfl, rfl⟩ := Prod.mk.inj equal
              exact same (Option.some.inj ((slots j).mp ⟨within, own⟩))
            rw [if_neg apart, records j other another ⟨within, own⟩]
        -- A frame that is no report leaves the record as it is.
        · have silent := (dispatch_some here search).2 fun other => report (reports.mp other)
          exact kept silent fun _ _ _ _ own => report own.2

end

section

variable {Building : Type} {estate : Estate Building} {m : Channel Building}

/-- Apart from the controllers, only detectors send anything, and their reports are complete. -/
def Estate.Complete (estate : Estate Building) (event : ChannelEvent Building) : Prop :=
  estate.Authentic event ∧ ∀ transmission, event = .say transmission → PkeFire.Complete transmission.frame

/-- A controller that hears one of its own detectors puts the frame down. -/
theorem Estate.Sound.keeps (sound : estate.Sound m) {building : Building} {transmission : Transmission Building}
    {frames : List (List UInt8)} (listed : transmission ∈ m.said) (own : transmission.sender = .detector building)
    (complete : PkeFire.Complete transmission.frame) (keeps : Keeps (m.party building).receiver.sta frames)
    {block : Block} {replies : List (Transmission Building)}
    (reacted : blockReact building (m.party building) (.heard transmission) = some (block, replies)) :
    Keeps block.receiver.sta (frames ++ [transmission.frame]) := by
  obtain ⟨ran, _, _⟩ := react_heard reacted
  have genuine := sound.said transmission listed
  have before := sound.blocks building
  have valid : ValidFrame (m.party building).env transmission.frame :=
    genuine.valid.common (by rw [before.checksum, estate.common, estate.common])
  obtain ⟨full, again, holds, sta, _⟩ := dispatch_frame before.waiting valid
  have same := Option.some.inj (ran.symm.trans again)
  -- The number in the frame is the one of this building.
  have here : full.ForThisBuilding (m.party building).env := by
    rw [← (protocolOf_held _ holds valid.long).2.2.2.2, genuine.named, own, before.number]
    rfl
  rw [← sta] at keeps
  rw [same]
  exact keeps.dispatch holds valid.long here complete

/-- What the detectors have sent is complete. -/
def AllComplete (m : Channel Building) : Prop :=
  ∀ transmission ∈ m.said, ∀ building, transmission.sender = .detector building → PkeFire.Complete transmission.frame

/-- Whatever a controller says is not a detector's. -/
theorem sender_replies {building : Building} {block after : Block} {replies : List (Transmission Building)}
    {input : PartyInput (Transmission Building) BlockAction}
    (reacted : blockReact building block input = some (after, replies)) :
    ∀ reply ∈ replies, reply.sender = .controller building := by
  intro reply among
  cases input with
  | heard transmission =>
    rw [blockReact, Option.map_eq_some_iff] at reacted
    obtain ⟨next, _, same⟩ := reacted
    obtain ⟨_, rfl⟩ := Prod.mk.inj same
    obtain ⟨_, _, rfl⟩ := List.mem_map.mp among
    rfl
  | did action =>
    cases action with
    | setBuilding =>
      cases Option.some.inj reacted
      rw [List.mem_singleton.mp among]
    | configure temp smoke poll =>
      cases Option.some.inj reacted
      cases among

variable [DecidableEq Building]

/-- Everything that the detectors send stays complete. -/
theorem AllComplete.step {next : Channel Building} {event : ChannelEvent Building} (all : AllComplete m)
    (complete : estate.Complete event) (taken : channelStep m event = some next) : AllComplete next := by
  obtain ⟨sent, rfl, rfl⟩ | ⟨building, input, block, replies, _, _, _, reacted, rfl⟩ := mediumStep_cases taken
  · intro transmission among other own
    rcases List.mem_append.mp among with before | new
    · exact all transmission before other own
    · rw [List.mem_singleton.mp new]
      exact complete.2 sent rfl
  · intro transmission among other own
    rcases List.mem_append.mp among with before | reply
    · exact all transmission before other own
    · -- A reply comes from a controller.
      cases own.symm.trans (sender_replies reacted transmission reply)

/-- The frame that a controller hears, if it comes from one of its own detectors. -/
def ownFrame (building : Building) : PartyInput (Transmission Building) BlockAction → Option (List UInt8)
  | .heard transmission => if transmission.sender = .detector building then some transmission.frame else none
  | .did _ => none

/-- The frames of its own detectors that a controller hears. -/
def ownFrames (building : Building) (inputs : List (PartyInput (Transmission Building) BlockAction)) :
    List (List UInt8) :=
  inputs.filterMap (ownFrame building)

/--
The table of a controller has the first twenty of its detectors that it has heard of, with the latest report of each.

Nothing else that is on the air has any effect on it.
-/
theorem table_is_ledger (estate : Estate Building) (stack : Building → Vector UInt8 50)
    (events : List (ChannelEvent Building)) (finish : Channel Building) (building : Building)
    (complete : ∀ event ∈ events, estate.Complete event)
    (ran : run channelStep (estate.start stack) events = some finish) (floor room : UInt8) :
    (finish.party building).receiver.sta.device floor room =
      recordBy (ownFrames building ((estate.start stack).inputs blockReact building events)) floor room := by
  -- Along the run, what is on the air is authentic, and its reports are complete.
  have every : EveryStep channelStep (fun m event => (estate.Sound m ∧ AllComplete m) ∧ estate.Complete event)
      (estate.start stack) events :=
    (everyStep_of_mem complete).with_invariant (fun m => estate.Sound m ∧ AllComplete m)
      (fun _ _ _ held complete taken => ⟨held.1.step complete.1 taken, held.2.step complete taken⟩)
      ⟨estate.sound_start stack, fun _ among => by cases among⟩
  refine Keeps.device ?_ floor room
  -- The table of the building keeps the ledger of the frames that it has heard of its own detectors.
  let invariant : Channel Building → List (PartyInput (Transmission Building) BlockAction) → Prop := fun m seen =>
    Keeps (m.party building).receiver.sta (ownFrames building seen)
  have started : invariant (estate.start stack) [] := keeps_nil
  refine observed_invariant (Medium.input building) invariant ?_ started every ran
  rintro m event next seen keeps ⟨⟨sound, all⟩, _⟩ taken
  obtain ⟨sent, rfl, rfl⟩ | ⟨actor, input, block, replies, own, others, listed, reacted, rfl⟩ := mediumStep_cases taken
  -- A loss concerns nobody.
  · rw [Medium.input, Option.toList_none, List.append_nil]
    exact keeps
  · by_cases here : actor = building
    · subst here
      -- The controller itself hears a frame or is told to do something.
      rw [own, Option.toList_some]
      show Keeps _ (ownFrames actor (seen ++ [input]))
      rw [ownFrames, List.filterMap_append, ← ownFrames]
      simp only [Function.update_self]
      cases input with
      | heard transmission =>
        by_cases detector : transmission.sender = .detector actor
        -- A frame of its own detector is entered, and any other one is ignored.
        · have complete := all transmission (listed _ rfl) actor detector
          simpa [ownFrame, detector] using sound.keeps (listed _ rfl) detector complete keeps reacted
        · obtain ⟨_, _, sta, _⟩ := sound.spared (listed _ rfl) detector reacted
          rw [sta]
          simpa [ownFrame, detector, invariant] using keeps
      | did action =>
        -- What is done at the controller leaves its table alone.
        have sta : block.receiver.sta = (m.party actor).receiver.sta := by
          cases action <;> cases Option.some.inj reacted <;> rfl
        have silent : ownFrame actor (.did action) = none := rfl
        rw [sta, List.filterMap_cons_none silent, List.filterMap_nil, List.append_nil]
        exact keeps
    -- Another controller's input changes nothing here.
    · rw [others building (Ne.symm here), Option.toList_none, List.append_nil]
      simpa only [invariant, Function.update_of_ne (Ne.symm here)] using keeps

end

/-- The only report that is on the air is a complete one. -/
theorem complete_heardByBoth : ∀ event ∈ heardByBoth, twoBlocks.Complete event := by
  intro event among
  refine ⟨authentic_heardByBoth event among, fun transmission same => ?_⟩
  subst same
  simp only [heardByBoth, List.mem_cons, MediumEvent.say.injEq, reduceCtorEq, List.not_mem_nil, or_false] at among
  rw [among]
  exact fun _ => by decide +kernel

/-- The first floor is in the ledger of its own block with what it has reported. -/
theorem table_is_ledger_two : ∃ finish, run channelStep (twoBlocks.start fun _ => .replicate 50 0) heardByBoth =
    some finish ∧ (finish.party true).receiver.sta.device 1 1 =
      some ⟨1, 1, 300, 25, 90, 1, 1, 0, 0xff, .ok⟩ := by
  obtain ⟨finish, ran⟩ := Option.isSome_iff_exists.mp ran_heardByBoth
  refine ⟨finish, ran, (table_is_ledger twoBlocks _ _ finish true complete_heardByBoth ran 1 1).trans ?_⟩
  decide +kernel

end PkeFire
