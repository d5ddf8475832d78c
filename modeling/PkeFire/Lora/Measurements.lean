import Mathlib.Data.List.Nodup
import PkeFire.Lora.Reply

/-! What a report leaves in the record of its detector, and when the order of reports does not matter. -/

namespace PkeFire

/-- `lora_debug_comm`, whose first argument is its own name. -/
def loraDebugComm (argv : List String) (sta : LoraState) : LoraState :=
  match argv with
  | [_, arg] =>
    if arg = "on" then { sta with debug := 1 }
    else if arg = "off" then { sta with debug := 0 }
    else sta
  -- Without an argument, the setting is only shown.
  | _ => sta

/-- What happens to the radio: it takes a reading, or its debug output is switched. -/
inductive RadioEvent where
  | reading (reading : Reading)
  | debugComm (argv : List String)

/-- One event at the radio. -/
def radioStep (r : Receiver) : RadioEvent → Option Receiver
  | .reading reading => receiveReading r reading
  | .debugComm argv => some { r with sta := loraDebugComm argv r.sta }

/-- The receivers that the radio can reach from its start, whatever it receives under whatever configuration. -/
abbrev RadioReachable (stack : Vector UInt8 50) (r : Receiver) : Prop :=
  ReachableFrom radioStep (fun _ _ => True) (receiverInit stack) r

/-- A byte of the payload of a frame, as a number. -/
def payload (frame : List UInt8) (i : Nat) : Nat :=
  ((protocolOf frame).data.getD i 0).toNat

/-- A frame with measurements for this building, from a detector that can have a slot. -/
structure Measures (env : LoraEnv) (sta : LoraState) (frame : List UInt8) : Prop where
  cmd : (protocolOf frame).cmd = cmdReport ∨ (protocolOf frame).cmd = cmdSet
  here : (protocolOf frame).buildingId = env.frameId
  registrable : Registrable sta (protocolOf frame).floor (protocolOf frame).room
  enough : 7 ≤ (protocolOf frame).data.length
  fits : (protocolOf frame).data.length ≤ 26

/-- The slot of the detector holds the measurements of the frame, and nothing else has changed. -/
structure DecodedAt (before after : LoraState) (frame : List UInt8) (i : Fin 20) : Prop where
  assigned : after.Assigned i (protocolOf frame).floor (protocolOf frame).room
  smoke : (load after.smokeDev i).smoke.toNat = 256 * payload frame 0 + payload frame 1
  temperature : (load after.smokeDev i).temperature.toNat = 256 * payload frame 2 + payload frame 3
  battery : (load after.smokeDev i).battery.toNat = 256 * payload frame 4 + payload frame 5
  alarmSmoke : (load after.smokeDev i).alarmSmoke.toNat = payload frame 6 % 2
  alarmTemperature : (load after.smokeDev i).alarmTemperature.toNat = payload frame 6 / 2 % 2
  activeTime : (load after.smokeDev i).activeTime = 0xff
  errSta : (load after.smokeDev i).errSta = .ok
  msgid : after.msgid = (protocolOf frame).msgId
  others : ∀ j, j ≠ i → load after.smokeDev j = load before.smokeDev j
  alarmSet : after.alarmSet = before.alarmSet
  debug : after.debug = before.debug

/-- The record of a detector, if it has one. -/
def LoraState.device (sta : LoraState) (floor room : UInt8) : Option SmokeDev :=
  ((List.finRange 20).find? fun i => decide (sta.Assigned i floor room)).map (load sta.smokeDev)

/-- The record that a report of a detector starts from, which is a cleared one if the detector is new. -/
def LoraState.base (sta : LoraState) (floor room : UInt8) : SmokeDev :=
  (sta.device floor room).getD { smokeDevClear with floor := floor, room := room }

/-- The numbers by which a frame names its detector. -/
def Protocol.key (protocol : Protocol) : UInt8 × UInt8 :=
  (protocol.floor, protocol.room)

/-- The detector that a frame names has no slot yet. -/
def LoraState.Lacks (sta : LoraState) (frame : List UInt8) : Prop :=
  ∀ i, ¬ sta.Assigned i (protocolOf frame).floor (protocolOf frame).room

instance (sta : LoraState) : DecidablePred sta.Lacks :=
  fun frame => inferInstanceAs (Decidable (∀ i, ¬ sta.Assigned i (protocolOf frame).floor (protocolOf frame).room))

/-- The detectors of some frames can have their slots together: one is left for each of them that has none yet. -/
def JointlyRegistrable (sta : LoraState) (frames : List (List UInt8)) : Prop :=
  sta.smokeNum.toNat + frames.countP (fun frame => decide (sta.Lacks frame)) ≤ 20

/-- Some frames carry measurements of different detectors, each of which can have a slot. -/
structure Independent (env : LoraEnv) (sta : LoraState) (frames : List (List UInt8)) : Prop where
  valid : ∀ frame ∈ frames, ValidFrame env frame
  measures : ∀ frame ∈ frames, Measures env sta frame
  apart : (frames.map fun frame => (protocolOf frame).key).Nodup

/-- In whatever order some frames are received, every detector ends up with the same record. -/
def OrderFree (env : LoraEnv) (r : Receiver) (frames : List (List UInt8)) : Prop :=
  ∃ records : UInt8 → UInt8 → Option SmokeDev, ∀ others : List (List UInt8), others.Perm frames →
    ∃ next, run (receive env) r others.flatten = some next ∧
      ∀ floor room, next.sta.device floor room = records floor room

/-- Every frame with measurements is decoded, and frames of different detectors may be received in any order. -/
def MeasurementsDecoded : Prop :=
  ∀ stack r, RadioReachable stack r →
    (∀ env ch frame next, r.accepted env ch = some frame → receive env r ch = some next → Measures env r.sta frame →
      ∃ i, DecodedAt r.sta next.sta frame i) ∧
    (∀ env frames, r.Waiting → Independent env r.sta frames → OrderFree env r frames)

/-- A detector has a slot with the record that its report starts from, and every other detector still has its own. -/
structure FoundAt (before after : LoraState) (floor room : UInt8) (i : Fin 20) : Prop where
  assigned : after.Assigned i floor room
  record : load after.smokeDev i = before.base floor room
  others : ∀ j, j ≠ i → load after.smokeDev j = load before.smokeDev j
  alarmSet : after.alarmSet = before.alarmSet
  debug : after.debug = before.debug
  slots : ∀ j other another, (other, another) ≠ (floor, room) →
    (after.Assigned j other another ↔ before.Assigned j other another)
  counted : after.smokeNum.toNat ≤ before.smokeNum.toNat + 1
  known : (∃ j, before.Assigned j floor room) → after.smokeNum = before.smokeNum

/-- What a detector has behind some frames: what its own frame has left it, or without one what it has had before. -/
def Reported (before after : LoraState) (frames : List (List UInt8)) (floor room : UInt8) : Prop :=
  (∃ frame ∈ frames, (protocolOf frame).key = (floor, room) ∧ ∃ full, Receiver.Holds frame full ∧
    after.device floor room = some (full.readReport (before.base floor room))) ∨
  (∀ frame ∈ frames, (protocolOf frame).key ≠ (floor, room)) ∧ after.device floor room = before.device floor room

/-- The report in the buffer has been kept in the slot of its detector. -/
structure KeptAt (before after : LoraState) (r : Receiver) (i : Fin 20) : Prop where
  found : ∃ sta, FoundAt before sta r.floor r.room i ∧ after = { sta with
    smokeDev := store sta.smokeDev i (r.readReport (before.base r.floor r.room)), msgid := load r.recvBuf 4 }

section

variable {env : LoraEnv} {r next : Receiver} {ch : UInt8} {frame : List UInt8} {sta : LoraState}
  {floor room : UInt8}

/-- A detector has at most one slot. -/
theorem LoraState.Faithful.slot_unique (faithful : sta.Faithful) {i j : Fin 20} (one : sta.Assigned i floor room)
    (other : sta.Assigned j floor room) : i = j :=
  faithful.distinct i j one.1 other.1 (one.2.trans other.2.symm)

/-- The record of a detector is what its slot holds. -/
theorem LoraState.Faithful.device_eq_some (faithful : sta.Faithful) {dev : SmokeDev} :
    sta.device floor room = some dev ↔ ∃ i, sta.Assigned i floor room ∧ load sta.smokeDev i = dev := by
  rw [device, Option.map_eq_some_iff]
  refine exists_congr fun i => and_congr_left fun _ => ?_
  constructor
  · intro found
    simpa using List.find?_some found
  · intro assigned
    -- The search stops at some slot of the detector, which is the only one.
    obtain ⟨j, found⟩ : ∃ j, (List.finRange 20).find? (fun i => decide (sta.Assigned i floor room)) = some j := by
      rw [← Option.isSome_iff_exists, List.find?_isSome]
      exact ⟨i, List.mem_finRange i, by simpa using assigned⟩
    have also : sta.Assigned j floor room := by simpa using List.find?_some found
    rw [found, faithful.slot_unique assigned also]

/-- A known detector's report starts from its record. -/
theorem LoraState.Faithful.base_known (faithful : sta.Faithful) {i : Fin 20} (assigned : sta.Assigned i floor room) :
    sta.base floor room = load sta.smokeDev i := by
  rw [base, faithful.device_eq_some.mpr ⟨i, assigned, rfl⟩, Option.getD_some]

/-- A new detector's report starts from a cleared record. -/
theorem LoraState.Faithful.base_new (faithful : sta.Faithful) (new : ∀ i, ¬ sta.Assigned i floor room) :
    sta.base floor room = { smokeDevClear with floor := floor, room := room } := by
  have none : sta.device floor room = none := by
    rw [Option.eq_none_iff_forall_ne_some]
    intro dev found
    obtain ⟨i, assigned, _⟩ := faithful.device_eq_some.mp found
    exact new i assigned
  rw [base, none, Option.getD_none]

/-- The search for a detector that can have a slot finds it. -/
theorem LoraState.Faithful.search_registrable (faithful : sta.Faithful) (registrable : Registrable sta floor room) :
    ∃ i found, loraSearchSmoke floor room sta = (some i, found) ∧ FoundAt sta found floor room i := by
  by_cases known : ∃ i, sta.Assigned i floor room
  · -- A detector that has a slot is found there, and nothing changes.
    obtain ⟨i, assigned⟩ := known
    exact ⟨i, sta, faithful.known i floor room assigned,
      { assigned := assigned
        record := (faithful.base_known assigned).symm
        others := fun _ _ => rfl
        alarmSet := rfl
        debug := rfl
        slots := fun _ _ _ _ => Iff.rfl
        counted := Nat.le_succ _
        known := fun _ => rfl }⟩
  · -- A new detector takes the first slot that is free.
    have new := not_exists.mp known
    have free : sta.smokeNum.toNat < 20 := registrable.2.resolve_left known
    have counted : (sta.smokeNum + 1).toNat = sta.smokeNum.toNat + 1 := toNat_succ rfl (by omega)
    refine ⟨_, _, faithful.new floor room registrable.1 new free,
      { assigned := ⟨by simp only [counted]; omega, by simp only [load_store_self]; rfl⟩
        record := (load_store_self _ _ _).trans (faithful.base_new new).symm
        others := fun j other => load_store_other _ _ other.symm
        alarmSet := rfl
        debug := rfl
        slots := fun j other another apart => ?_
        counted := by simp only [counted]; omega
        known := fun also => absurd also known }⟩
    simp only [LoraState.Assigned, counted, load_store, Fin.ext_iff]
    by_cases last : sta.smokeNum.toNat = j.val
    · -- The new slot belongs to the new detector, and has belonged to nobody.
      rw [if_pos last]
      exact ⟨fun both => absurd both.2.symm apart, fun both => absurd both.1 (by omega)⟩
    · -- Every other slot is as it was, and is in use if it was.
      rw [if_neg last]
      exact and_congr_left fun _ => by omega

/-- A report for this building, from a detector that can have a slot, is kept there. -/
theorem keptAt_dispatch (faithful : r.sta.Faithful) (here : r.ForThisBuilding env) (reports : r.Reports)
    (registrable : Registrable r.sta r.floor r.room) : ∃ i, KeptAt r.sta (r.dispatch env).sta r i := by
  obtain ⟨i, sta, search, found⟩ := faithful.search_registrable registrable
  refine ⟨i, ⟨sta, found, ?_⟩⟩
  rw [(dispatch_some here search).1 reports, found.record]

/-- What is kept of a report leaves the detector its slot. -/
theorem KeptAt.foundAt {before after : LoraState} {i : Fin 20} (kept : KeptAt before after r i) :
    after.Assigned i r.floor r.room ∧ load after.smokeDev i = r.readReport (before.base r.floor r.room) ∧
      (∀ j, j ≠ i → load after.smokeDev j = load before.smokeDev j) ∧
      (∀ j other another, (other, another) ≠ (r.floor, r.room) →
        (after.Assigned j other another ↔ before.Assigned j other another)) := by
  obtain ⟨sta, found, rfl⟩ := kept.found
  -- The report leaves the numbers in the record alone.
  have key : (r.readReport (before.base r.floor r.room)).key = (r.floor, r.room) := by
    rw [← found.record]
    exact found.assigned.2
  refine ⟨⟨found.assigned.1, ?_⟩, load_store_self _ _ _, fun j other => ?_, fun j other another apart => ?_⟩
  · simp only [load_store_self, key]
  · rw [load_store_other _ _ other.symm, found.others j other]
  · rw [← found.slots j other another apart]
    simp only [LoraState.Assigned, load_store]
    by_cases same : i = j
    · -- The slot keeps its numbers.
      subst same
      rw [if_pos rfl, key, found.assigned.2]
    · rw [if_neg same]

/-- After a report, its detector has what is kept of it, and every other detector has what it has had. -/
theorem KeptAt.device {before after : LoraState} {i : Fin 20} (kept : KeptAt before after r i)
    (faithful : before.Faithful) (later : after.Faithful) (floor room : UInt8) :
    after.device floor room = if (floor, room) = (r.floor, r.room) then
      some (r.readReport (before.base floor room)) else before.device floor room := by
  obtain ⟨assigned, record, others, slots⟩ := kept.foundAt
  by_cases own : (floor, room) = (r.floor, r.room)
  · -- The detector of the report still has its slot, with what has been kept there.
    rw [if_pos own]
    obtain ⟨rfl, rfl⟩ := Prod.mk.inj own
    exact later.device_eq_some.mpr ⟨i, assigned, record⟩
  · rw [if_neg own]
    apply Option.ext
    intro dev
    rw [later.device_eq_some, faithful.device_eq_some]
    refine exists_congr fun j => ?_
    rw [slots j floor room own]
    refine and_congr_right fun held => ?_
    -- The slot of the report belongs to another detector.
    have apart : j ≠ i := by
      rintro rfl
      exact own (((slots j floor room own).mpr held).2.symm.trans assigned.2)
    rw [others j apart]

/-- A number that is read with its bytes swapped has the first one in the high place. -/
theorem swapped_toNat (r : Receiver) (low high : Fin 50) :
    (r.swapped low high).toNat = 256 * (load r.recvBuf low).toNat + (load r.recvBuf high).toNat := by
  rw [← bigEndian_bytes, swapped_high, swapped_low, bigEndian]

/-- A frame with measurements reaches as far as their last byte. -/
theorem length_of_payload (enough : 7 ≤ (protocolOf frame).data.length) : 30 ≤ frame.length := by
  -- The payload is what is left behind the first 23 bytes, at most.
  simp only [protocolOf, List.length_take, List.length_drop] at enough
  omega

/-- The bytes of the payload lie behind the length in the buffer. -/
theorem payload_cell (holds : r.Holds frame) (enough : 7 ≤ (protocolOf frame).data.length) {i : Nat} (small : i < 7)
    {cell : Fin 50} (place : cell.val = 23 + i) : (load r.recvBuf cell).toNat = payload frame i := by
  have taken : (protocolOf frame).data.length ≤ (frame.drop 23).length := by
    simp only [protocolOf, List.length_take]
    omega
  have declared : (protocolOf frame).data.length ≤ (frame.getD 22 0).toNat := by
    simp only [protocolOf, List.length_take]
    omega
  rw [List.length_drop] at taken
  rw [holds.cell (by omega), place, payload]
  -- The declared length does not cut the byte off.
  have inside : i < (frame.getD 22 0).toNat := by omega
  simp only [protocolOf, List.getD_eq_getElem?_getD] at inside ⊢
  rw [List.getElem?_take_of_lt inside, List.getElem?_drop]

/-- The measurements that are kept are those in the payload. -/
theorem KeptAt.decodedAt {before after : LoraState} {i : Fin 20} (kept : KeptAt before after r i)
    (holds : r.Holds frame) (enough : 7 ≤ (protocolOf frame).data.length) : DecodedAt before after frame i := by
  have long := length_of_payload enough
  -- The fields of the frame stand at their places in the buffer.
  obtain ⟨floor, room, msgId, _⟩ := protocolOf_held quietRadio holds (by omega)
  obtain ⟨assigned, record, others, _⟩ := kept.foundAt
  have cell {n : Nat} (small : n < 7) {at_ : Fin 50} (place : at_.val = 23 + n) := payload_cell holds enough small place
  obtain ⟨sta, found, same⟩ := kept.found
  refine
    { assigned := by rw [floor, room]; exact assigned
      smoke := ?_
      temperature := ?_
      battery := ?_
      alarmSmoke := ?_
      alarmTemperature := ?_
      activeTime := by rw [record]; rfl
      errSta := by rw [record]; rfl
      msgid := by rw [msgId, same]
      others := others
      alarmSet := by rw [same]; exact found.alarmSet
      debug := by rw [same]; exact found.debug }
  -- Three numbers of two bytes each are followed by the byte of flags.
  all_goals rw [record]; simp only [Receiver.readReport]
  · rw [swapped_toNat, cell (by decide : 0 < 7) rfl, cell (by decide : 1 < 7) rfl]
  · rw [swapped_toNat, cell (by decide : 2 < 7) rfl, cell (by decide : 3 < 7) rfl]
  · rw [swapped_toNat, cell (by decide : 4 < 7) rfl, cell (by decide : 5 < 7) rfl]
  · rw [UInt8.toNat_and, cell (by decide : 6 < 7) rfl]
    exact Nat.and_one_is_mod _
  · rw [UInt8.toNat_and, UInt8.toNat_shiftRight, cell (by decide : 6 < 7) rfl]
    exact Nat.and_one_is_mod _

/-- A frame with measurements that is dispatched has them kept. -/
theorem keptAt_held (faithful : r.sta.Faithful) (holds : r.Holds frame) (measures : Measures env r.sta frame) :
    ∃ i, KeptAt r.sta (r.dispatch env).sta r i := by
  have long := length_of_payload measures.enough
  obtain ⟨floor, room, _, cmd, building⟩ := protocolOf_held env holds (by omega)
  -- What the frame says of itself is what the receiver reads in its buffer.
  have reports : r.Reports := by
    rw [Receiver.Reports, ← cmd]
    exact measures.cmd
  have registrable := measures.registrable
  rw [floor, room] at registrable
  exact keptAt_dispatch faithful (building.mp measures.here) reports registrable

/-- When the last byte of a frame with measurements is taken, they are kept. -/
theorem keptAt_receive (faithful : r.sta.Faithful) (taken : receive env r ch = some next)
    (accepted : r.accepted env ch = some frame) (measures : Measures env r.sta frame) :
    ∃ full i, Receiver.Holds frame full ∧ KeptAt r.sta next.sta full i := by
  obtain ⟨full, pushed, held, rfl⟩ := receive_accepted accepted taken
  -- The byte itself leaves the table alone.
  rw [← sta_push pushed] at faithful measures ⊢
  obtain ⟨i, kept⟩ := keptAt_held faithful held measures
  exact ⟨full, i, held, kept⟩

/-- Bytes that complete no frame leave the table alone, and nothing is sent. -/
theorem Reception.still {bytes : List UInt8} {verdicts : List (Option (List UInt8))}
    (reception : Reception env r bytes verdicts next) (quiet : ∀ verdict ∈ verdicts, verdict = none) :
    next.sta = r.sta ∧ next.sent = r.sent := by
  -- The induction is on the bytes, each of which has its own verdict.
  induction bytes generalizing r verdicts with
  | nil => exact Option.some.inj reception.1 ▸ ⟨rfl, rfl⟩
  | cons ch bytes ih =>
    obtain ⟨middle, rest, taken, rfl, later⟩ := Trace.uncons reception
    have first := receive_none taken (quiet _ (List.mem_append_left _ List.mem_cons_self))
    have others := ih later fun verdict among => quiet verdict (List.mem_append_right _ among)
    exact ⟨others.1.trans first.1, others.2.trans first.2⟩

/-- A receiver that waits takes a whole frame as if it found it in its buffer. -/
theorem dispatch_frame (waiting : r.Waiting) (valid : ValidFrame env frame) :
    ∃ full, run (receive env) r frame = some (Receiver.dispatch env full).restart ∧ full.Holds frame ∧
      full.sta = r.sta ∧ full.sent = r.sent := by
  obtain ⟨fields, data, filled, fits, rfl⟩ := valid
  -- The frame is accepted at its last byte, and no byte before it completes another one.
  obtain ⟨last, reception, _⟩ := receive_frame env waiting filled fits
  obtain ⟨before, ch, middle, split, reached, accepted⟩ := reception.last
  have ran := reception.1
  rw [split] at ran
  obtain ⟨also, first, taken⟩ := run_append_some.mp ran
  cases Option.some.inj (reached.symm.trans first)
  rw [run_singleton] at taken
  have seen := reception.2
  rw [split, observations_append reached, observations_singleton, Option.toList_some] at seen
  -- Everything is as it was when the last byte comes.
  have quiet := (List.append_inj' seen rfl).1
  obtain ⟨sta, sent⟩ : middle.sta = r.sta ∧ middle.sent = r.sent :=
    Reception.still ⟨reached, quiet⟩ fun verdict among => List.eq_of_mem_replicate among
  obtain ⟨full, pushed, held, rfl⟩ := receive_accepted accepted taken
  exact ⟨full, reception.1, held, (sta_push pushed).trans sta, (sent_push pushed).trans sent⟩

/-- A receiver in a run knows where it stands, and has a table that represents a registry. -/
def Receiver.Tracked (r : Receiver) : Prop :=
  (∃ received, Assembling received r) ∧ ∃ registry, Represents r.sta registry

/-- Every byte keeps track of both. -/
theorem Receiver.Tracked.receive (tracked : r.Tracked) (taken : PkeFire.receive env r ch = some next) :
    next.Tracked := by
  obtain ⟨⟨received, assembling⟩, registry, represents⟩ := tracked
  obtain ⟨later, again, _⟩ := represents.receive taken
  exact ⟨⟨_, assembling.step taken⟩, later, again⟩

/-- Every receiver that the radio reaches is on track. -/
theorem tracked_of_reachable {stack : Vector UInt8 50} (reached : RadioReachable stack r) : r.Tracked := by
  refine reached.invariant Receiver.Tracked ?_
    ⟨⟨[], assembling_waiting ⟨rfl, rfl⟩ _⟩, _, DeviceTable.tracks_init.1⟩
  intro r event next tracked _ taken
  cases event with
  | reading reading => exact tracked.receive taken
  | debugComm argv =>
    cases Option.some.inj taken
    obtain ⟨⟨received, assembling⟩, registry, represents⟩ := tracked
    refine ⟨⟨received, assembling⟩, registry, ?_⟩
    -- Switching the debug output touches no record.
    simp only [loraDebugComm]
    split
    · split
      · exact ⟨represents.counted, represents.addressed, represents.used, represents.unused⟩
      · split
        · exact ⟨represents.counted, represents.addressed, represents.used, represents.unused⟩
        · exact represents
    · exact represents

/-- A whole frame with measurements is kept by a receiver that waits for one. -/
theorem keptAt_frame (waiting : r.Waiting) (tracked : r.Tracked) (valid : ValidFrame env frame)
    (measures : Measures env r.sta frame) (ran : run (receive env) r frame = some next) :
    next.Waiting ∧ next.Tracked ∧ ∃ full i, Receiver.Holds frame full ∧ KeptAt r.sta next.sta full i := by
  have everywhere : EveryStep (receive env) (fun _ _ => True) r frame := everyStep_of_forall (fun _ _ => trivial) _ _
  have tracks := run_invariant Receiver.Tracked (fun _ _ _ held _ taken => held.receive taken) tracked everywhere ran
  obtain ⟨full, reached, held, sta, _⟩ := dispatch_frame waiting valid
  cases Option.some.inj (reached.symm.trans ran)
  refine ⟨⟨rfl, rfl⟩, tracks, full, ?_⟩
  -- The receiver that dispatches the frame still has the table from before it.
  obtain ⟨_, registry, represents⟩ := tracked
  have faithful := represents.faithful
  rw [← sta] at faithful measures ⊢
  obtain ⟨i, kept⟩ := keptAt_held faithful held measures
  exact ⟨i, held, kept⟩

/-- A report in the buffer comes from the detector that it names. -/
theorem held_key (holds : r.Holds frame) (enough : 7 ≤ (protocolOf frame).data.length) :
    (protocolOf frame).key = (r.floor, r.room) := by
  have long := length_of_payload enough
  obtain ⟨floor, room, _⟩ := protocolOf_held quietRadio holds (by omega)
  rw [Protocol.key, floor, room]
  rfl

/-- Receivers that hold the same report keep the same of it. -/
theorem readReport_held {other : Receiver} (holds : r.Holds frame) (also : other.Holds frame)
    (enough : 7 ≤ (protocolOf frame).data.length) (dev : SmokeDev) : r.readReport dev = other.readReport dev := by
  have long := length_of_payload enough
  -- The numbers are read from the first thirty bytes, which both hold alike.
  have cells (i : Fin 50) (within : i.val < 30) : load r.recvBuf i = load other.recvBuf i := by
    rw [holds.cell (by omega), also.cell (by omega)]
  simp only [Receiver.readReport, Receiver.swapped, cells 23 (by decide), cells 24 (by decide), cells 25 (by decide),
    cells 26 (by decide), cells 27 (by decide), cells 28 (by decide), cells 29 (by decide)]

/-- A frame that could have its measurements kept still can, while there is a slot left for its detector. -/
theorem Measures.of_jointly {before after : LoraState} {frames : List (List UInt8)}
    (measures : Measures env before frame) (jointly : JointlyRegistrable after frames) (among : frame ∈ frames) :
    Measures env after frame := by
  refine { measures with registrable := ⟨measures.registrable.1, ?_⟩ }
  by_cases lacks : after.Lacks frame
  · -- The detector itself counts among those that need a slot.
    have counted : 0 < frames.countP fun frame => decide (after.Lacks frame) :=
      List.countP_pos_iff.mpr ⟨frame, among, decide_eq_true lacks⟩
    rw [JointlyRegistrable] at jointly
    exact Or.inr (by omega)
  · exact Or.inl (by simpa [LoraState.Lacks] using lacks)

/-- The detectors of the frames behind a report can still have their slots together. -/
theorem KeptAt.jointly {before after : LoraState} {i : Fin 20} {frames : List (List UInt8)}
    (kept : KeptAt before after r i) (own : (protocolOf frame).key = (r.floor, r.room))
    (apart : ∀ other ∈ frames, (protocolOf frame).key ≠ (protocolOf other).key)
    (jointly : JointlyRegistrable before (frame :: frames)) : JointlyRegistrable after frames := by
  obtain ⟨_, _, _, slots⟩ := kept.foundAt
  obtain ⟨sta, found, same⟩ := kept.found
  have number : after.smokeNum = sta.smokeNum := by rw [same]
  -- The report gives no other detector a slot, and takes none away.
  have others : frames.countP (fun frame => decide (after.Lacks frame)) =
      frames.countP fun frame => decide (before.Lacks frame) := by
    refine List.countP_congr fun other among => ?_
    have distinct : ((protocolOf other).floor, (protocolOf other).room) ≠ (r.floor, r.room) :=
      fun equal => apart other among (own.trans equal.symm)
    rw [decide_eq_true_iff, decide_eq_true_iff]
    exact forall_congr' fun j => not_congr (slots j _ _ distinct)
  rw [JointlyRegistrable, List.countP_cons] at jointly
  rw [JointlyRegistrable, others, number]
  obtain ⟨floor, room⟩ := Prod.mk.inj own
  by_cases lacks : before.Lacks frame
  · -- A new detector takes the slot that has been counted for it.
    have counted := found.counted
    simp only [lacks, decide_true, if_true] at jointly
    omega
  · -- A known detector takes none.
    have known : ∃ j, before.Assigned j r.floor r.room := by
      rw [← floor, ← room]
      simpa [LoraState.Lacks] using lacks
    rw [found.known known]
    omega

/-- A report of another detector in front of some frames does not change what is reported by them. -/
theorem Reported.cons {before middle after : LoraState} {frames : List (List UInt8)}
    (apart : ∀ other ∈ frames, (protocolOf frame).key ≠ (protocolOf other).key) (holds : r.Holds frame)
    (device : ∀ floor room, middle.device floor room = if (floor, room) = (protocolOf frame).key then
      some (r.readReport (before.base floor room)) else before.device floor room)
    (reported : Reported middle after frames floor room) : Reported before after (frame :: frames) floor room := by
  by_cases first : (protocolOf frame).key = (floor, room)
  · -- The later frames leave the record of the first detector alone.
    rcases reported with ⟨other, among, same, _⟩ | ⟨_, unchanged⟩
    · exact absurd (first.trans same.symm) (apart other among)
    · exact Or.inl ⟨frame, List.mem_cons_self, first, r, holds, by rw [unchanged, device, if_pos first.symm]⟩
  · -- The first frame leaves the records alone that the later ones start from.
    have unchanged : middle.device floor room = before.device floor room := by
      rw [device, if_neg (Ne.symm first)]
    rcases reported with ⟨other, among, same, receiver, held, record⟩ | ⟨none, record⟩
    · refine Or.inl ⟨other, List.mem_cons_of_mem _ among, same, receiver, held, ?_⟩
      rw [record, LoraState.base, unchanged, LoraState.base]
    · exact Or.inr ⟨List.forall_mem_cons.mpr ⟨first, none⟩, record.trans unchanged⟩

/-- Behind independent frames, each of their detectors has its own report, and every other one what it has had. -/
theorem reported_of_independent {frames : List (List UInt8)} (waiting : r.Waiting) (tracked : r.Tracked)
    (independent : Independent env r.sta frames) (jointly : JointlyRegistrable r.sta frames) :
    ∃ next, run (receive env) r frames.flatten = some next ∧
      ∀ floor room, Reported r.sta next.sta frames floor room := by
  -- The induction takes the first frame off, which leaves the others independent.
  induction frames generalizing r with
  | nil => exact ⟨r, rfl, fun _ _ => Or.inr ⟨by simp, rfl⟩⟩
  | cons frame frames ih =>
    have valid := independent.valid frame List.mem_cons_self
    have measures := independent.measures frame List.mem_cons_self
    obtain ⟨alone, distinct⟩ := List.nodup_cons.mp independent.apart
    -- The frames of the others name other detectors.
    have apart : ∀ other ∈ frames, (protocolOf frame).key ≠ (protocolOf other).key :=
      fun other among same => alone (List.mem_map.mpr ⟨other, among, same.symm⟩)
    obtain ⟨middle, ranFrame⟩ : ∃ middle, run (receive env) r frame = some middle := by
      obtain ⟨full, ran, _⟩ := dispatch_frame waiting valid
      exact ⟨_, ran⟩
    -- The first frame finds its slot, and leaves room for the others.
    obtain ⟨again, tracks, full, i, holds, kept⟩ := keptAt_frame waiting tracked valid measures ranFrame
    have own := held_key holds measures.enough
    have left := kept.jointly own apart jointly
    have later : Independent env middle.sta frames :=
      { valid := fun other among => independent.valid other (List.mem_cons_of_mem _ among)
        measures := fun other among =>
          (independent.measures other (List.mem_cons_of_mem _ among)).of_jointly left among
        apart := distinct }
    obtain ⟨next, ranRest, reported⟩ := ih again tracks later left
    -- The first frame changes the record of its own detector only.
    obtain ⟨_, registry, represents⟩ := tracked
    obtain ⟨_, registryMiddle, representsMiddle⟩ := tracks
    have device := kept.device represents.faithful representsMiddle.faithful
    rw [← own] at device
    exact ⟨next, run_append_some.mpr ⟨middle, ranFrame, ranRest⟩, fun floor room =>
      (reported floor room).cons apart holds device⟩

/-- What is reported does not depend on the order of the frames. -/
theorem Reported.unique {before one other : LoraState} {frames others : List (List UInt8)}
    (independent : Independent env before frames) (reordered : others.Perm frames)
    (reported : Reported before one frames floor room) (also : Reported before other others floor room) :
    other.device floor room = one.device floor room := by
  rcases reported with ⟨frame, among, own, full, holds, record⟩ | ⟨none, record⟩
  · rcases also with ⟨another, listed, same, receiver, held, recorded⟩ | ⟨none, _⟩
    · -- The frame is the same one in both orders, since only one is of this detector.
      have equal : another = frame :=
        List.inj_on_of_nodup_map independent.apart (reordered.mem_iff.mp listed) among (same.trans own.symm)
      subst equal
      have enough := (independent.measures another among).enough
      rw [record, recorded, readReport_held holds held enough]
    · exact absurd own (none frame (reordered.mem_iff.mpr among))
  · rcases also with ⟨another, listed, same, _⟩ | ⟨_, recorded⟩
    · exact absurd same (none another (reordered.mem_iff.mp listed))
    · rw [record, recorded]

/-- The order of independent frames does not matter for detectors that can have their slots together. -/
theorem orderFree_of_jointly {frames : List (List UInt8)} (waiting : r.Waiting) (tracked : r.Tracked)
    (independent : Independent env r.sta frames) (jointly : JointlyRegistrable r.sta frames) :
    OrderFree env r frames := by
  obtain ⟨one, _, reported⟩ := reported_of_independent waiting tracked independent jointly
  refine ⟨one.sta.device, fun others reordered => ?_⟩
  -- Another order has the same frames, so that it meets the same conditions.
  have exchanged : Independent env r.sta others :=
    { valid := fun frame among => independent.valid frame (reordered.mem_iff.mp among)
      measures := fun frame among => independent.measures frame (reordered.mem_iff.mp among)
      apart := (reordered.map _).nodup_iff.mpr independent.apart }
  have together : JointlyRegistrable r.sta others := by
    rw [JointlyRegistrable, reordered.countP_eq]
    exact jointly
  obtain ⟨other, ran, also⟩ := reported_of_independent waiting tracked exchanged together
  exact ⟨other, ran, fun floor room => (reported floor room).unique independent reordered (also floor room)⟩

end

/--
Every frame with measurements is decoded into the record of its detector, and nothing else changes.

Frames of different detectors that can have their slots together may be received in any order.
-/
theorem measurements_decoded (stack : Vector UInt8 50) (r : Receiver) (reached : RadioReachable stack r) :
    (∀ env ch frame next, r.accepted env ch = some frame → receive env r ch = some next → Measures env r.sta frame →
      ∃ i, DecodedAt r.sta next.sta frame i) ∧
    (∀ env frames, r.Waiting → Independent env r.sta frames → JointlyRegistrable r.sta frames →
      OrderFree env r frames) := by
  have tracked := tracked_of_reachable reached
  refine ⟨?_, fun env frames waiting independent jointly =>
    orderFree_of_jointly waiting tracked independent jointly⟩
  intro env ch frame next accepted taken measures
  obtain ⟨_, registry, represents⟩ := tracked
  obtain ⟨full, i, holds, kept⟩ := keptAt_receive represents.faithful taken accepted measures
  exact ⟨i, kept.decodedAt holds measures.enough⟩

/-- A report with seven bytes of payload from one floor, to a radio that is not configured. -/
def floorReport (floor : UInt8) : List UInt8 :=
  frameBytes quietRadio ([floor, 1, 9, dirToSmoke] ++ List.replicate 15 0 ++ [cmdReport]) [1, 44, 0, 25, 0, 90, 3]

/-- The report is well formed, and carries measurements for a floor that can have a slot. -/
theorem independent_floorReport {sta : LoraState} {floors : List UInt8}
    (registrable : ∀ floor ∈ floors, Registrable sta floor 1) (distinct : floors.Nodup) :
    Independent quietRadio sta (floors.map floorReport) := by
  refine ⟨fun frame among => ?_, fun frame among => ?_, ?_⟩
  · obtain ⟨floor, _, rfl⟩ := List.mem_map.mp among
    exact ⟨_, _, rfl, by decide, rfl⟩
  · obtain ⟨floor, listed, rfl⟩ := List.mem_map.mp among
    exact ⟨Or.inl rfl, rfl, registrable floor listed, Nat.le_of_eq rfl, (by decide : 7 ≤ 26)⟩
  · -- The floor is one of the numbers of its detector.
    rw [List.map_map]
    exact distinct.map fun _ _ same => (Prod.mk.inj same).1

/-- The reports of three floors are decoded in any order. -/
theorem measurements_decoded_three :
    OrderFree quietRadio (receiverInit (.replicate 50 0)) ([1, 2, 3].map floorReport) := by
  have independent : Independent quietRadio (receiverInit (.replicate 50 0)).sta ([1, 2, 3].map floorReport) :=
    independent_floorReport (by decide +kernel) (by decide +kernel)
  have jointly : JointlyRegistrable (receiverInit (.replicate 50 0)).sta ([1, 2, 3].map floorReport) := by
    unfold JointlyRegistrable
    decide +kernel
  exact (measurements_decoded (.replicate 50 0) _ (.start _)).2 quietRadio _ ⟨rfl, rfl⟩ independent jointly

/-- Frames from nineteen floors, which carry no report but register their detectors. -/
def nineteenFloors : List RadioEvent :=
  ((List.range 19).flatMap fun floor => frameBytes quietRadio
    ([UInt8.ofNat (floor + 1), 1, 0, dirToSmoke] ++ List.replicate 15 0 ++ [0]) []).map
      fun ch => .reading ⟨quietRadio, ch⟩

/-- With a single slot left, the detector that reports first has it. -/
theorem measurements_ordered : ¬ MeasurementsDecoded := by
  intro decoded
  have course : ((run radioStep (receiverInit (.replicate 50 0)) nineteenFloors).any fun r =>
      decide (r.recvStep = .header1 ∧ r.recvLen = 0) &&
        decide (∀ floor ∈ ([20, 21] : List UInt8), Registrable r.sta floor 1) &&
        (run (receive quietRadio) r ([20, 21].map floorReport).flatten).any fun one =>
          (run (receive quietRadio) r ([21, 20].map floorReport).flatten).any fun other =>
            decide (one.sta.device 20 1 ≠ other.sta.device 20 1)) = true := by decide +kernel
  obtain ⟨r, ran, course⟩ := (Option.any_eq_true _ _).mp course
  simp only [Bool.and_eq_true, decide_eq_true_eq] at course
  obtain ⟨⟨waiting, registrable⟩, course⟩ := course
  obtain ⟨one, ranOne, course⟩ := (Option.any_eq_true _ _).mp course
  obtain ⟨other, ranOther, course⟩ := (Option.any_eq_true _ _).mp course
  have reached : RadioReachable (.replicate 50 0) r :=
    ⟨nineteenFloors, everyStep_of_forall (fun _ _ => trivial) _ _, ran⟩
  -- Each of the two detectors can have the last slot, but not both of them.
  have independent := independent_floorReport registrable (by decide +kernel)
  obtain ⟨records, same⟩ := (decoded _ r reached).2 quietRadio _ waiting independent
  obtain ⟨first, ranFirst, recordsFirst⟩ := same _ (List.Perm.refl _)
  obtain ⟨second, ranSecond, recordsSecond⟩ := same ([21, 20].map floorReport) (List.Perm.swap _ _ _)
  cases Option.some.inj (ranOne.symm.trans ranFirst)
  cases Option.some.inj (ranOther.symm.trans ranSecond)
  exact of_decide_eq_true course ((recordsFirst 20 1).trans (recordsSecond 20 1).symm)

end PkeFire
