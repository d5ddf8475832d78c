import Mathlib.Data.Fin.Tuple.Basic
import PkeFire.Lora.Assembly

/-! Which received frames change what the main unit keeps about its detectors, and what the change depends on. -/

namespace PkeFire

/-- The search for a detector finds a slot that already carries its numbers. -/
def Registered (sta : LoraState) (floor room : UInt8) : Prop :=
  ∃ i : Fin 20, i.val ≤ sta.smokeNum.toNat ∧ (load sta.smokeDev i).floor = floor ∧
    (load sta.smokeDev i).room = room

/-- The frame in the buffer carries the number of this building. -/
def Receiver.ForThisBuilding (env : LoraEnv) (r : Receiver) : Prop :=
  (r.bytes 21).drop 6 = env.frameId

/-- With this checksum, the frame in the buffer is a genuine report of a detector of this building. -/
def Genuine (env : LoraEnv) (r : Receiver) (ch : UInt8) : Prop :=
  ch = env.crc8Cal (r.bytes r.recvLen) ∧ r.ForThisBuilding env ∧ r.Reports ∧ 7 ≤ r.declared

/-- What the detectors' data become when the frame in the buffer is closed by the right checksum. -/
def Receiver.closedBy (env : LoraEnv) (crc8 : List UInt8 → UInt8) (r : Receiver) : Option LoraState :=
  (receive { env with crc8Cal := crc8 } r (crc8 (r.bytes r.recvLen))).map (·.sta)

/-- Two receivers have the same frame in their buffers, whatever lies behind it. -/
def SameFrame (r other : Receiver) : Prop :=
  other.recvStep = r.recvStep ∧ other.recvLen = r.recvLen ∧ other.bytes r.recvLen = r.bytes r.recvLen ∧
    other.sta = r.sta

/-- What is kept of the frame depends neither on its checksum nor on the bytes behind its data. -/
def PayloadOnly (env : LoraEnv) (r : Receiver) : Prop :=
  ∀ crc8 changed other, SameFrame r other → other.closedBy env changed = r.closedBy env crc8

/-- The frame in the buffer is genuine or changes nothing, and its checksum is not kept. -/
def Clean (env : LoraEnv) (r : Receiver) : Prop :=
  (∀ ch next, receive env r ch = some next → ¬ Genuine env r ch → next.sta = r.sta) ∧ PayloadOnly env r

/-- The receiver has everything of a frame but its checksum, for which there is room, while `lora_sta` is arbitrary. -/
def BeforeChecksum (env : LoraEnv) (r : Receiver) : Prop :=
  r.recvStep = .crc ∧ r.recvLen < 50 ∧ ∃ stack stream before,
    run (receive env) (receiverInit stack) stream = some before ∧ r = { before with sta := r.sta }

/-- Only genuine reports ever touch the data of the detectors. -/
def OnlyGenuine : Prop :=
  ∀ env r, BeforeChecksum env r → Clean env r

/-- A frame that neither registers a detector for an unknown command nor reports too little about one. -/
def Harmless (env : LoraEnv) (r : Receiver) : Prop :=
  r.ForThisBuilding env → ¬ (r.floor = 0 ∧ r.room = 0) →
    (r.Reports → 7 ≤ r.declared ∨ (¬ Registered r.sta r.floor r.room ∧ 20 ≤ r.sta.smokeNum.toNat)) ∧
    (¬ r.Reports → Registered r.sta r.floor r.room ∨ 20 ≤ r.sta.smokeNum.toNat)

/-- Two receivers agree on the first bytes of their buffers, and on the data of the detectors. -/
def AgreeUpTo (count : Nat) (r other : Receiver) : Prop :=
  (∀ i : Fin 50, i.val < count → load other.recvBuf i = load r.recvBuf i) ∧
    other.bytes 21 = r.bytes 21 ∧ other.sta = r.sta

section

variable {env : LoraEnv} {r next : Receiver} {ch : UInt8} {sta : LoraState} {floor room : UInt8}

/-- The numbers of no detector are not searched for. -/
theorem loraSearchSmoke_unaddressed (none : floor = 0 ∧ room = 0) :
    loraSearchSmoke floor room sta = (.none, sta) := by
  rw [loraSearchSmoke, if_pos none]

/-- A search finds the detector, registers it, or fails because every slot is taken by another one. -/
theorem loraSearchSmoke_cases (sta : LoraState) (addressed : ¬ (floor = 0 ∧ room = 0)) :
    (Registered sta floor room ∧ ∃ i, loraSearchSmoke floor room sta = (some i, sta)) ∨
    (¬ Registered sta floor room ∧ sta.smokeNum.toNat < 20 ∧ ∃ i dev, loraSearchSmoke floor room sta =
      (some i, { sta with smokeDev := dev, smokeNum := sta.smokeNum + 1 })) ∨
    (¬ Registered sta floor room ∧ 20 ≤ sta.smokeNum.toNat ∧
      loraSearchSmoke floor room sta = (none, sta)) := by
  rw [loraSearchSmoke, if_neg addressed]
  simp only [← Fin.find?_eq_find?_finRange]
  split
  · rename_i missing
    rw [Fin.find?_eq_none_iff] at missing
    -- No slot is unused, and none carries the numbers.
    have taken := missing (Fin.last 19)
    simp only [Bool.or_eq_false_iff, decide_eq_false_iff_not, Fin.val_last] at taken
    refine Or.inr (Or.inr ⟨?_, by omega, rfl⟩)
    -- A record with the numbers would have been found.
    rintro ⟨i, _, known⟩
    have other := missing i
    simp only [known, Bool.or_eq_false_iff] at other
    simp at other
  · rename_i i found
    obtain ⟨hit, earlier⟩ := Fin.find?_eq_some_iff.mp found
    -- The slots before the first hit are in use, by other detectors.
    have before (j : Fin 20) (less : j < i) : ¬ ((load sta.smokeDev j).floor = floor ∧
        (load sta.smokeDev j).room = room) ∧ j.val < sta.smokeNum.toNat := by
      have missed := earlier j less
      rw [Bool.or_eq_false_iff, decide_eq_false_iff_not, decide_eq_false_iff_not] at missed
      exact ⟨missed.1, by omega⟩
    split
    -- The slot that is found carries the numbers, or is the first unused one.
    · rename_i known
      refine Or.inl ⟨⟨i, ?_, known⟩, i, rfl⟩
      by_contra behind
      have earlier : sta.smokeNum.toNat < i.val := by omega
      have unused := (before ⟨sta.smokeNum.toNat, by omega⟩ (Fin.lt_def.mpr earlier)).2
      exact absurd unused (Nat.lt_irrefl _)
    · rename_i unknown
      rw [Bool.or_eq_true, decide_eq_true_iff, decide_eq_true_iff] at hit
      have unused : sta.smokeNum.toNat ≤ i.val := hit.resolve_left unknown
      refine Or.inr (Or.inl ⟨?_, by omega, i, _, rfl⟩)
      rintro ⟨j, within, known⟩
      have same : j ≠ i := fun same => unknown (same ▸ known)
      have less : j < i := lt_of_le_of_ne (Fin.le_def.mpr (by omega)) same
      exact (before j less).1 known

/-- A write behind the fields of a frame leaves them as they are. -/
theorem load_push (pushed : r.push ch = some next) {i : Fin 50} (before : i.val < r.recvLen) :
    load next.recvBuf i = load r.recvBuf i := by
  rw [Receiver.push] at pushed
  split at pushed
  · rw [← Option.some.inj pushed]
    refine load_store_other _ _ ?_
    intro same
    have equal := congrArg Fin.val same
    simp only at equal
    omega
  · cases pushed

/-- A write behind the first bytes of the buffer leaves them as they are. -/
theorem bytes_push (pushed : r.push ch = some next) {count : Nat} (before : count ≤ r.recvLen) :
    next.bytes count = r.bytes count := by
  rw [Receiver.push] at pushed
  split at pushed
  · rw [← Option.some.inj pushed]
    simp only [Receiver.bytes, store, Vector.toList_set, List.take_set_of_le before]
  · cases pushed

/-- A write does not touch the data of the detectors. -/
theorem sta_push (pushed : r.push ch = some next) : next.sta = r.sta := by
  rw [Receiver.push] at pushed
  split at pushed
  · rw [← Option.some.inj pushed]
  · cases pushed

/-- The last byte of a frame is followed by a fresh start, whatever is done with the frame. -/
theorem receive_checksum_eq (state : r.recvStep = .crc) (taken : receive env r ch = some next) :
    ∃ full, r.push ch = some full ∧
      next = (if ch = env.crc8Cal (r.bytes r.recvLen) then full.dispatch env else full).restart := by
  simp only [receive, state] at taken
  obtain ⟨full, pushed, rfl⟩ := Option.map_eq_some_iff.mp taken
  refine ⟨full, pushed, ?_⟩
  -- The checksum is taken before the byte that is compared with it.
  rw [(push_eq_some pushed).2.1, Nat.add_sub_cancel, bytes_push pushed (Nat.le_refl _)]

/-- What the last byte of a frame does to the data of the detectors. -/
theorem sta_receive_crc (state : r.recvStep = .crc) (taken : receive env r ch = some next) :
    ∃ full, r.push ch = some full ∧
      next.sta = if ch = env.crc8Cal (r.bytes r.recvLen) then (full.dispatch env).sta else r.sta := by
  obtain ⟨full, pushed, rfl⟩ := receive_checksum_eq state taken
  refine ⟨full, pushed, ?_⟩
  split
  · rfl
  · have kept : full.sta = r.sta := sta_push pushed
    exact kept

/-- A frame for another building changes nothing. -/
theorem dispatch_foreign (foreign : ¬ r.ForThisBuilding env) : r.dispatch env = r := by
  unfold Receiver.ForThisBuilding at foreign
  rw [Receiver.dispatch, if_neg foreign]

/-- A frame that finds no slot changes what its search changes. -/
theorem dispatch_none (here : r.ForThisBuilding env)
    (search : loraSearchSmoke (load r.recvBuf 2) (load r.recvBuf 3) r.sta = (none, sta)) :
    (r.dispatch env).sta = sta := by
  unfold Receiver.ForThisBuilding at here
  simp only [Receiver.dispatch, if_pos here, search]

/-- A frame that finds a slot stores its report there, if it is one. -/
theorem dispatch_some {i : Fin 20} (here : r.ForThisBuilding env)
    (search : loraSearchSmoke (load r.recvBuf 2) (load r.recvBuf 3) r.sta = (some i, sta)) :
    (r.Reports → (r.dispatch env).sta = { sta with
      smokeDev := store sta.smokeDev i (r.readReport (load sta.smokeDev i)), msgid := load r.recvBuf 4 }) ∧
    (¬ r.Reports → (r.dispatch env).sta = sta) := by
  unfold Receiver.ForThisBuilding at here
  unfold Receiver.Reports
  simp only [Receiver.dispatch, if_pos here, search]
  constructor
  · intro reports
    rw [if_pos reports]
  · intro other
    -- The frame is dropped only now, behind the search.
    rw [if_neg other]

/-- A write leaves its byte at the place of the length. -/
theorem load_push_self (pushed : r.push ch = some next) {i : Fin 50} (place : i.val = r.recvLen) :
    load next.recvBuf i = ch := by
  rw [Receiver.push] at pushed
  split at pushed
  · rename_i inside
    have same : (⟨r.recvLen, inside⟩ : Fin 50) = i := Fin.ext place.symm
    rw [← Option.some.inj pushed]
    simp only [same, load_store_self]
  · cases pushed

/-- While its data and its checksum are awaited, the length of a frame is in the buffer. -/
theorem declared_receive {seen : List UInt8} (placed : Placed seen r)
    (declares : r.recvStep = .data ∨ r.recvStep = .crc → load r.recvBuf 22 = r.dataLen)
    (taken : receive env r ch = some next) (waits : next.recvStep = .data ∨ next.recvStep = .crc) :
    load next.recvBuf 22 = next.dataLen := by
  have moved := receive_advances taken
  -- Only the steps behind the length lead to one that awaits data or the checksum.
  cases state : r.recvStep with
  | header1 =>
    simp only [Advances, state] at moved
    grind
  | header2 =>
    simp only [Advances, state] at moved
    grind
  | fields =>
    simp only [Advances, state] at moved
    grind
  | crc =>
    simp only [Advances, state] at moved
    grind
  | length =>
    simp only [receive, state] at taken
    obtain ⟨full, pushed, rfl⟩ := Option.map_eq_some_iff.mp taken
    simp only [Placed, state] at placed
    -- The length is written where `protocol_t` has it.
    have stored : load full.recvBuf 22 = ch := load_push_self pushed placed.1.symm
    by_cases admitted : ch < 30
    · simp only [if_pos admitted]
      split <;> exact stored
    · simp only [if_neg admitted, Receiver.restart] at waits
      cases waits <;> contradiction
  | data =>
    simp only [receive, state] at taken
    obtain ⟨full, pushed, rfl⟩ := Option.map_eq_some_iff.mp taken
    simp only [Placed, state] at placed
    obtain ⟨_, data, _, _, _, _, filled, _⟩ := placed
    -- The data are written behind the length, which stays what it was.
    have kept : load full.recvBuf 22 = load r.recvBuf 22 := load_push pushed (by
      show 22 < r.recvLen
      omega)
    have same := kept.trans ((declares (Or.inl state)).trans (push_eq_some pushed).2.2.2.1.symm)
    split <;> exact same

/-- Before its checksum, a frame has as many bytes of data as it declares. -/
theorem recvLen_beforeChecksum (waits : BeforeChecksum env r) : r.recvLen = 23 + r.declared := by
  obtain ⟨state, _, stack, stream, before, ran, same⟩ := waits
  have declares : before.recvStep = .data ∨ before.recvStep = .crc →
      load before.recvBuf 22 = before.dataLen := by
    -- The induction is on the bytes received, along which the length in the buffer is the one being counted.
    refine history_invariant (fun _ r => r.recvStep = .data ∨ r.recvStep = .crc →
      load r.recvBuf 22 = r.dataLen) ?_ ?_ ran
    · intro seen state ch next reached held taken waits
      exact declared_receive (placed_of_run reached) held taken waits
    · intro waits
      cases waits <;> contradiction
  have placed := placed_of_run ran
  rw [same] at state ⊢
  simp only at state
  simp only [Placed, state] at placed
  obtain ⟨_, data, _, _, whole, filled, _⟩ := placed
  rw [Receiver.declared, declares (Or.inr state)]
  simp only
  omega

/-- Buffers with the same first bytes have the same cells there. -/
theorem load_of_bytes {other : Receiver} {count : Nat} (same : other.bytes count = r.bytes count)
    {i : Fin 50} (within : i.val < count) : load other.recvBuf i = load r.recvBuf i := by
  unfold Receiver.bytes at same
  have cells := congrArg (fun bytes => bytes[i.val]?) same
  simpa [List.getElem?_take, within, load] using cells

/-- Agreement on more bytes is agreement on fewer. -/
theorem AgreeUpTo.mono {count fewer : Nat} {other : Receiver} (agree : AgreeUpTo count r other)
    (less : fewer ≤ count) : AgreeUpTo fewer r other :=
  ⟨fun i within => agree.1 i (by omega), agree.2⟩

/-- Two receivers that agree with a third agree with each other. -/
theorem AgreeUpTo.both {count : Nat} {one other : Receiver} (first : AgreeUpTo count r one)
    (second : AgreeUpTo count r other) : AgreeUpTo count one other :=
  ⟨fun i within => (second.1 i within).trans (first.1 i within).symm, second.2.1.trans first.2.1.symm,
    second.2.2.trans first.2.2.symm⟩

/-- Agreement passes on from one receiver to the next. -/
theorem AgreeUpTo.trans {count : Nat} {one other : Receiver} (first : AgreeUpTo count r one)
    (second : AgreeUpTo count one other) : AgreeUpTo count r other :=
  ⟨fun i within => (second.1 i within).trans (first.1 i within), second.2.1.trans first.2.1,
    second.2.2.trans first.2.2⟩

/-- Receivers with the same frame agree on it. -/
theorem SameFrame.agree {other : Receiver} (same : SameFrame r other) (fields : 21 ≤ r.recvLen) :
    AgreeUpTo r.recvLen r other := by
  obtain ⟨_, _, bytes, sta⟩ := same
  refine ⟨fun i within => load_of_bytes bytes within, ?_, sta⟩
  -- The shorter prefixes are prefixes of the same bytes.
  have shorter := congrArg (List.take 21) bytes
  simpa only [Receiver.bytes, List.take_take, Nat.min_eq_left fields] using shorter

/-- The byte that closes a frame does not change what is in front of it. -/
theorem agree_push (pushed : r.push ch = some next) (fields : 21 ≤ r.recvLen) :
    AgreeUpTo r.recvLen r next :=
  ⟨fun _ before => load_push pushed before, bytes_push pushed fields, sta_push pushed⟩

/-- What decides about a frame is read from its first bytes. -/
theorem AgreeUpTo.head (env : LoraEnv) {other : Receiver} (agree : AgreeUpTo 23 r other) :
    (other.ForThisBuilding env ↔ r.ForThisBuilding env) ∧ (other.Reports ↔ r.Reports) ∧
      other.declared = r.declared ∧ (Harmless env other ↔ Harmless env r) := by
  obtain ⟨cells, bytes, sta⟩ := agree
  -- The building, the numbers, the command and the length all lie in the first 23 bytes.
  have head (i : Fin 50) (within : i.val < 23) := cells i within
  unfold Harmless Receiver.ForThisBuilding Receiver.Reports Receiver.declared Receiver.floor Receiver.room
  rw [bytes, sta, head 2 (by decide), head 3 (by decide), head 21 (by decide), head 22 (by decide)]
  exact ⟨Iff.rfl, Iff.rfl, rfl, Iff.rfl⟩

/-- A harmless frame that is no genuine report changes nothing. -/
theorem dispatch_harmless (harmless : Harmless env r)
    (ordinary : ¬ (r.ForThisBuilding env ∧ r.Reports ∧ 7 ≤ r.declared)) : (r.dispatch env).sta = r.sta := by
  by_cases here : r.ForThisBuilding env
  · by_cases none : load r.recvBuf 2 = 0 ∧ load r.recvBuf 3 = 0
    · exact dispatch_none here (loraSearchSmoke_unaddressed none)
    · have judged := harmless here none
      obtain ⟨registered, i, search⟩ | ⟨unknown, free, i, dev, search⟩ | ⟨unknown, full, search⟩ :=
        loraSearchSmoke_cases r.sta none
      · -- A known detector's frame that stored something would be a genuine report.
        have other : ¬ r.Reports := by
          intro reports
          obtain long | ⟨unknown, _⟩ := judged.1 reports
          · exact ordinary ⟨here, reports, long⟩
          · exact unknown registered
        exact (dispatch_some here search).2 other
      · -- A new detector is registered by a genuine report alone.
        by_cases reports : r.Reports
        · obtain long | ⟨_, full⟩ := judged.1 reports
          · exact absurd ⟨here, reports, long⟩ ordinary
          · omega
        · obtain registered | full := judged.2 reports
          · exact absurd registered unknown
          · omega
      · exact dispatch_none here search
  · rw [dispatch_foreign here]

/-- A report reads the seven bytes behind the length. -/
theorem AgreeUpTo.readReport {other : Receiver} (agree : AgreeUpTo 30 r other) (dev : SmokeDev) :
    other.readReport dev = r.readReport dev := by
  have head (i : Fin 50) (within : i.val < 30) := agree.1 i within
  unfold Receiver.readReport Receiver.swapped
  rw [head 23 (by decide), head 24 (by decide), head 25 (by decide), head 26 (by decide),
    head 27 (by decide), head 28 (by decide), head 29 (by decide)]

/-- Whatever the radio is configured to answer, frames that agree on a whole report leave the same data. -/
theorem AgreeUpTo.dispatch {other : Receiver} {otherEnv : LoraEnv} (agree : AgreeUpTo 30 r other)
    (id : otherEnv.frameId = env.frameId) : (other.dispatch otherEnv).sta = (r.dispatch env).sta := by
  have head := (agree.mono (by decide : 23 ≤ 30)).head env
  have building : other.ForThisBuilding otherEnv ↔ other.ForThisBuilding env := by
    unfold Receiver.ForThisBuilding
    rw [id]
  by_cases here : r.ForThisBuilding env
  · have there := building.mpr (head.1.mpr here)
    have cells (i : Fin 50) (within : i.val < 30) := agree.1 i within
    cases search : loraSearchSmoke (load r.recvBuf 2) (load r.recvBuf 3) r.sta with
    | mk found sta =>
      have same := search
      rw [← cells 2 (by decide), ← cells 3 (by decide), ← agree.2.2] at same
      cases found with
      | none => rw [dispatch_none here search, dispatch_none there same]
      | some i =>
        -- The same slot receives the same report, or none does.
        by_cases reports : r.Reports
        · rw [(dispatch_some here search).1 reports, (dispatch_some there same).1 (head.2.1.mpr reports),
            agree.readReport, cells 4 (by decide)]
        · rw [(dispatch_some here search).2 reports,
            (dispatch_some there same).2 fun also => reports (head.2.1.mp also)]
  · -- A frame of another building is dropped by both.
    rw [dispatch_foreign here, dispatch_foreign fun there => here (head.1.mp (building.mp there)), agree.2.2]

/-- With room for it, the right checksum closes the frame. -/
theorem closedBy_eq (env : LoraEnv) (crc8 : List UInt8 → UInt8) (state : r.recvStep = .crc) (room : r.recvLen < 50) :
    ∃ full, r.push (crc8 (r.bytes r.recvLen)) = some full ∧
      r.closedBy env crc8 = some (full.dispatch { env with crc8Cal := crc8 }).sta := by
  have pushed : ∃ full, r.push (crc8 (r.bytes r.recvLen)) = some full := by
    rw [Receiver.push, dif_pos room]
    exact ⟨_, rfl⟩
  obtain ⟨full, pushed⟩ := pushed
  refine ⟨full, pushed, ?_⟩
  -- The checksum that is computed is the one just received, since it does not cover itself.
  have covered := bytes_push pushed (Nat.le_refl _)
  simp only [Receiver.closedBy, receive, state, pushed, Option.map_some, (push_eq_some pushed).2.1,
    Nat.add_sub_cancel, covered, if_true, Receiver.restart]

/-- A harmless frame is genuine or changes nothing, and its checksum is not kept. -/
theorem clean_of_harmless (waits : BeforeChecksum env r) (harmless : Harmless env r) : Clean env r := by
  have len := recvLen_beforeChecksum waits
  obtain ⟨state, room, _⟩ := waits
  constructor
  · intro ch next taken ordinary
    obtain ⟨full, pushed, sta⟩ := sta_receive_crc state taken
    have agree := agree_push pushed (by omega)
    have head := (agree.mono (by omega : 23 ≤ r.recvLen)).head env
    split at sta
    · rename_i right
      -- The checksum is right, so something else keeps the frame from being genuine.
      rw [sta, ← agree.2.2]
      apply dispatch_harmless (head.2.2.2.mpr harmless)
      rintro ⟨here, reports, long⟩
      exact ordinary ⟨right, head.1.mp here, head.2.1.mp reports, head.2.2.1 ▸ long⟩
    · -- A frame with a wrong checksum is dropped.
      exact sta
  · intro crc8 changed other same
    obtain ⟨full, pushed, first⟩ := closedBy_eq env crc8 state room
    obtain ⟨filled, written, second⟩ := closedBy_eq env changed (same.1.trans state)
      (same.2.1.symm ▸ room)
    have one := agree_push pushed (by omega)
    have there := agree_push written (by rw [same.2.1]; omega)
    rw [same.2.1] at there
    have other := (same.agree (by omega)).trans there
    rw [first, second]
    by_cases report : r.ForThisBuilding env ∧ r.Reports ∧ 7 ≤ r.declared
    · -- The whole report lies in front of the checksum.
      have agree := (one.both other).mono (by omega : 30 ≤ r.recvLen)
      exact congrArg some (agree.dispatch rfl)
    · -- Any other harmless frame changes nothing, whatever closes it.
      have unchanged (crc8 : List UInt8 → UInt8) {closed : Receiver} (agree : AgreeUpTo r.recvLen r closed) :
          (closed.dispatch { env with crc8Cal := crc8 }).sta = r.sta := by
        have head := (agree.mono (by omega : 23 ≤ r.recvLen)).head { env with crc8Cal := crc8 }
        rw [dispatch_harmless (head.2.2.2.mpr harmless), agree.2.2]
        rintro ⟨here, reports, long⟩
        exact report ⟨head.1.mp here, head.2.1.mp reports, head.2.2.1 ▸ long⟩
      rw [unchanged _ one, unchanged _ other]

/-- Swapping puts the byte that is read second in the low place. -/
theorem swapped_low (r : Receiver) (low high : Fin 50) :
    (r.swapped low high).toUInt8 = load r.recvBuf high := by
  apply UInt8.toBitVec_inj.mp
  ext i inside
  simp [Receiver.swapped]
  grind

/-- Swapping puts the byte that is read first in the high place. -/
theorem swapped_high (r : Receiver) (low high : Fin 50) :
    (r.swapped low high >>> 8).toUInt8 = load r.recvBuf low := by
  apply UInt8.toBitVec_inj.mp
  ext i inside
  -- The mask keeps the low byte, whose bits are all set in it.
  have mask : ∀ i < 8, (255#16).getLsbD i = true := by decide
  simp [Receiver.swapped]
  grind

/-- What a report stores tells the seven bytes that it has read apart, but for the unused bits of the last one. -/
theorem readReport_inj {other : Receiver} {dev : SmokeDev} (same : r.readReport dev = other.readReport dev)
    {i : Fin 50} (behind : 23 ≤ i.val) (within : i.val < 30) :
    load r.recvBuf i &&& 1 = load other.recvBuf i &&& 1 := by
  simp only [Receiver.readReport, SmokeDev.mk.injEq] at same
  obtain ⟨_, _, smoke, temperature, battery, alarm, _⟩ := same
  -- Each number gives back both of its bytes.
  have bytes {low high : Fin 50} (number : r.swapped low high = other.swapped low high) :
      load r.recvBuf low = load other.recvBuf low ∧ load r.recvBuf high = load other.recvBuf high := by
    rw [← swapped_high r low high, ← swapped_low r low high, number, swapped_high, swapped_low]
    exact ⟨rfl, rfl⟩
  have place : i = 23 ∨ i = 24 ∨ i = 25 ∨ i = 26 ∨ i = 27 ∨ i = 28 ∨ i = 29 := by
    simp only [Fin.ext_iff]
    show i.val = 23 ∨ i.val = 24 ∨ i.val = 25 ∨ i.val = 26 ∨ i.val = 27 ∨ i.val = 28 ∨ i.val = 29
    omega
  rcases place with rfl | rfl | rfl | rfl | rfl | rfl | rfl
  · rw [(bytes smoke).1]
  · rw [(bytes smoke).2]
  · rw [(bytes temperature).1]
  · rw [(bytes temperature).2]
  · rw [(bytes battery).1]
  · rw [(bytes battery).2]
  · exact alarm

/-- A frame that registers a detector is noticed in the number of detectors. -/
theorem smokeNum_succ_ne (count : UInt8) : count + 1 ≠ count := by
  intro same
  have numbers := congrArg UInt8.toNat same
  have bounded := count.toNat_lt
  rw [UInt8.toNat_add, UInt8.toNat_one] at numbers
  omega

/-- A report that finds a slot and declares too little is stored together with its checksum. -/
theorem not_payloadOnly {i : Fin 20} (waits : BeforeChecksum env r) (here : r.ForThisBuilding env)
    (reports : r.Reports) (short : r.declared < 7)
    (search : loraSearchSmoke (load r.recvBuf 2) (load r.recvBuf 3) r.sta = (some i, sta)) :
    ¬ PayloadOnly env r := by
  intro payloadOnly
  have len := recvLen_beforeChecksum waits
  obtain ⟨state, room, _⟩ := waits
  -- What is stored is read from the buffer, which ends in the checksum.
  have stored (crc : UInt8) : ∃ full, r.push crc = some full ∧ r.closedBy env (fun _ => crc) =
      some { sta with
        smokeDev := store sta.smokeDev i (full.readReport (load sta.smokeDev i)), msgid := load r.recvBuf 4 } := by
    obtain ⟨full, pushed, closed⟩ := closedBy_eq env (fun _ => crc) state room
    have agree := agree_push pushed (by omega)
    have head := (agree.mono (by omega : 23 ≤ r.recvLen)).head { env with crc8Cal := fun _ => crc }
    have cells (i : Fin 50) (within : i.val < 23) := agree.1 i (by omega)
    have found := search
    rw [← cells 2 (by decide), ← cells 3 (by decide), ← agree.2.2] at found
    have sta := (dispatch_some (head.1.mpr here) found).1 (head.2.1.mpr reports)
    rw [cells 4 (by decide)] at sta
    exact ⟨full, pushed, closed.trans (congrArg some sta)⟩
  -- Two checksums that differ in their lowest bit leave different reports.
  obtain ⟨zero, pushedZero, first⟩ := stored 0
  obtain ⟨one, pushedOne, second⟩ := stored 1
  have same := payloadOnly (fun _ => 0) (fun _ => 1) r ⟨rfl, rfl, rfl, rfl⟩
  rw [first, second, Option.some.injEq, LoraState.mk.injEq] at same
  have report := congrArg (fun table => load table i) same.2.2.1
  simp only [load_store_self] at report
  -- The checksum lies among the seven bytes of the report, because too little has been declared.
  have bits := readReport_inj report (i := ⟨r.recvLen, room⟩) (by show 23 ≤ r.recvLen; omega)
    (by show r.recvLen < 30; omega)
  rw [load_push_self pushedZero rfl, load_push_self pushedOne rfl] at bits
  exact absurd bits (by decide)

/-- A frame with an unknown command registers a detector that is not known yet. -/
theorem registers_unknown (waits : BeforeChecksum env r) (here : r.ForThisBuilding env)
    (addressed : ¬ (load r.recvBuf 2 = 0 ∧ load r.recvBuf 3 = 0)) (other : ¬ r.Reports)
    (unknown : ¬ Registered r.sta (load r.recvBuf 2) (load r.recvBuf 3)) (free : r.sta.smokeNum.toNat < 20) :
    ∃ next, receive env r (env.crc8Cal (r.bytes r.recvLen)) = some next ∧
      next.sta.smokeNum = r.sta.smokeNum + 1 := by
  have len := recvLen_beforeChecksum waits
  obtain ⟨state, room, _⟩ := waits
  obtain ⟨full, pushed, closed⟩ := closedBy_eq env env.crc8Cal state room
  obtain ⟨next, taken, sta⟩ := Option.map_eq_some_iff.mp closed
  refine ⟨next, taken, ?_⟩
  have agree := agree_push pushed (by omega)
  have head := (agree.mono (by omega : 23 ≤ r.recvLen)).head env
  have cells (i : Fin 50) (within : i.val < 23) := agree.1 i (by omega)
  rw [← cells 2 (by decide), ← cells 3 (by decide), ← agree.2.2] at unknown
  rw [← cells 2 (by decide), ← cells 3 (by decide)] at addressed
  rw [← agree.2.2] at free ⊢
  -- The search has registered the detector before the command is looked at.
  obtain ⟨registered, _⟩ | ⟨_, _, i, dev, search⟩ | ⟨_, taken, _⟩ := loraSearchSmoke_cases full.sta addressed
  · exact absurd registered unknown
  · rw [sta, (dispatch_some (head.1.mpr here) search).2 fun also => other (head.2.1.mp also)]
  · omega

/-- A frame is harmless if it is genuine or changes nothing, and its checksum is not kept. -/
theorem harmless_of_clean (waits : BeforeChecksum env r) (clean : Clean env r) : Harmless env r := by
  intro here addressed
  constructor
  · intro reports
    by_contra harmful
    -- Whether the detector is found or registered, its report is too short.
    obtain ⟨_, i, search⟩ | ⟨_, _, i, dev, search⟩ | ⟨unknown, full, _⟩ :=
      loraSearchSmoke_cases r.sta addressed
    · exact not_payloadOnly waits here reports (by omega) search clean.2
    · exact not_payloadOnly waits here reports (by omega) search clean.2
    · exact harmful (Or.inr ⟨unknown, full⟩)
  · intro other
    by_contra harmful
    rw [not_or] at harmful
    -- The frame is not genuine, and yet the number of detectors has changed.
    obtain ⟨next, taken, more⟩ := registers_unknown waits here addressed other harmful.1 (by omega)
    have same := clean.1 _ next taken fun genuine => other genuine.2.2.1
    rw [same] at more
    exact smokeNum_succ_ne _ more.symm

/-- Before its checksum, a frame is genuine or changes nothing, exactly if it is a harmless one. -/
theorem clean_iff_harmless (env : LoraEnv) (r : Receiver) (waits : BeforeChecksum env r) :
    Clean env r ↔ Harmless env r :=
  ⟨harmless_of_clean waits, clean_of_harmless waits⟩

end

/-- All but the checksum of a frame with an unknown command, from a detector that is not known yet. -/
def strangerBytes : List UInt8 :=
  [protoHeader1] ++ [protoHeader2] ++ [1, 1] ++ List.replicate 18 0 ++ [0]

/-- The receiver that has these bytes in its buffer. -/
def strangerReceiver : Receiver :=
  (run (receive quietRadio) (receiverInit (.replicate 50 0)) strangerBytes).getD (receiverInit (.replicate 50 0))

/-- Only the checksum of the frame is still awaited. -/
theorem strangerReceiver_waits : BeforeChecksum quietRadio strangerReceiver := by
  have ran : run (receive quietRadio) (receiverInit (.replicate 50 0)) strangerBytes =
      some strangerReceiver := by
    apply Option.eq_some_of_isSome
    decide +kernel
  exact ⟨by decide +kernel, by decide +kernel, _, _, _, ran, rfl⟩

/-- A frame with an unknown command takes a place in the table of detectors. -/
theorem onlyGenuine_fails : ¬ OnlyGenuine := by
  intro onlyGenuine
  have clean := onlyGenuine quietRadio strangerReceiver strangerReceiver_waits
  have here : strangerReceiver.ForThisBuilding quietRadio := by
    unfold Receiver.ForThisBuilding
    decide +kernel
  have other : ¬ strangerReceiver.Reports := by
    unfold Receiver.Reports
    decide +kernel
  have unknown : ¬ Registered strangerReceiver.sta (load strangerReceiver.recvBuf 2)
      (load strangerReceiver.recvBuf 3) := by
    unfold Registered
    decide +kernel
  obtain ⟨next, taken, more⟩ :=
    registers_unknown strangerReceiver_waits here (by decide +kernel) other unknown (by decide +kernel)
  have same := clean.1 _ next taken fun genuine => other genuine.2.2.1
  rw [same] at more
  exact smokeNum_succ_ne _ more.symm

/-- The frame of the unknown detector is one that the rule applies to. -/
theorem clean_iff_harmless_stranger :
    Clean quietRadio strangerReceiver ↔ Harmless quietRadio strangerReceiver :=
  clean_iff_harmless quietRadio strangerReceiver strangerReceiver_waits

end PkeFire
