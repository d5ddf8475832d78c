import PkeFire.Lora.Genuine
import PkeFire.Run.Registry

/-! The table of detectors as a registry that gives every detector its slot for good. -/

namespace PkeFire

/-- The numbers by which a detector is known. -/
def SmokeDev.key (dev : SmokeDev) : UInt8 × UInt8 :=
  (dev.floor, dev.room)

/-- One assignment of `serial_thread_entry` to the record that a search has returned. -/
inductive RecordWrite where
  | smoke (value : UInt16)
  | temperature (value : UInt16)
  | battery (value : UInt16)
  | alarmSmoke (value : UInt8)
  | alarmTemperature (value : UInt8)
  | activeTime (value : UInt8)
  | errSta (value : ErrSta)
  deriving DecidableEq, Repr

/-- The record after an assignment. -/
def RecordWrite.apply (dev : SmokeDev) : RecordWrite → SmokeDev
  | .smoke value => { dev with smoke := value }
  | .temperature value => { dev with temperature := value }
  | .battery value => { dev with battery := value }
  | .alarmSmoke value => { dev with alarmSmoke := value }
  | .alarmTemperature value => { dev with alarmTemperature := value }
  | .activeTime value => { dev with activeTime := value }
  | .errSta value => { dev with errSta := value }

/-- The assignments by which a report is kept. -/
def Receiver.recordWrites (r : Receiver) : List RecordWrite :=
  -- None of the values depends on what the record has held before.
  let report := r.readReport smokeDevClear
  [.smoke report.smoke, .temperature report.temperature, .battery report.battery,
    .alarmSmoke report.alarmSmoke, .alarmTemperature report.alarmTemperature,
    .activeTime report.activeTime, .errSta report.errSta]

/-- The table with one record overwritten. -/
def LoraState.put (sta : LoraState) (i : Fin 20) (dev : SmokeDev) : LoraState :=
  { sta with smokeDev := store sta.smokeDev i dev }

/-- The global `lora_sta`, and the record that the latest search has returned. -/
structure DeviceTable where
  sta : LoraState
  found : Option (Fin 20)
  deriving DecidableEq, Repr

/-- What happens to the table of detectors. -/
inductive TableEvent where
  /-- A call of `lora_search_smoke`. -/
  | search (floor room : UInt8)
  /-- An assignment to the record that has been returned. -/
  | write (write : RecordWrite)
  /-- An assignment to `lora_sta.msgid`. -/
  | msgid (value : UInt8)
  deriving DecidableEq, Repr

namespace DeviceTable

/-- The zeroed table, before the first search. -/
def init : DeviceTable where
  sta := loraStateInit
  found := none

/-- One event, where nothing is assigned through a null pointer. -/
def step (t : DeviceTable) : TableEvent → Option DeviceTable
  | .search floor room =>
    let (found, sta) := loraSearchSmoke floor room t.sta
    some ⟨sta, found⟩
  | .write write => t.found.map fun i =>
    { t with sta := t.sta.put i (write.apply (load t.sta.smokeDev i)) }
  | .msgid value => some { t with sta := { t.sta with msgid := value } }

end DeviceTable

/-- The number that the frame in the buffer carries. -/
def Receiver.msgId (r : Receiver) : UInt8 :=
  r.recvBuf.toList.getD 4 0

/-- Whether a frame is for this building is decided by comparing its bytes. -/
instance (env : LoraEnv) (r : Receiver) : Decidable (r.ForThisBuilding env) :=
  inferInstanceAs (Decidable ((r.bytes 21).drop 6 = env.frameId))

/-- Whether a frame is a report is decided by its command. -/
instance (r : Receiver) : Decidable r.Reports :=
  instDecidableOr

/-- What becomes of the table when the frame in the buffer is dispatched. -/
def Receiver.tableEvents (env : LoraEnv) (r : Receiver) : List TableEvent :=
  if r.ForThisBuilding env then
    -- The record is only written when there is one, and when the frame is a report.
    .search r.floor r.room ::
      if (loraSearchSmoke r.floor r.room r.sta).1.isSome ∧ r.Reports then
        r.recordWrites.map .write ++ [.msgid r.msgId]
      else []
  else []

/-- A slot of the table that is in use for a detector. -/
def LoraState.Assigned (sta : LoraState) (i : Fin 20) (floor room : UInt8) : Prop :=
  i.val < sta.smokeNum.toNat ∧ (load sta.smokeDev i).key = (floor, room)

/-- What a search may rely on, and what it does. -/
structure LoraState.Faithful (sta : LoraState) : Prop where
  /-- There are twenty detectors at most. -/
  bounded : sta.smokeNum.toNat ≤ 20
  /-- No two slots in use have the same numbers. -/
  distinct : ∀ i j : Fin 20, i.val < sta.smokeNum.toNat → j.val < sta.smokeNum.toNat →
    (load sta.smokeDev i).key = (load sta.smokeDev j).key → i = j
  /-- No slot in use has both numbers zero. -/
  addressed : ∀ i : Fin 20, i.val < sta.smokeNum.toNat → (load sta.smokeDev i).key ≠ (0, 0)
  /-- Every other slot is zero. -/
  unused : ∀ i : Fin 20, sta.smokeNum.toNat ≤ i.val → load sta.smokeDev i = smokeDevClear
  /-- A registered detector is found at its slot, and nothing changes. -/
  known : ∀ i floor room, sta.Assigned i floor room → loraSearchSmoke floor room sta = (some i, sta)
  /-- A new detector is appended with a cleared record, while there is a slot. -/
  new : ∀ floor room, ¬ (floor = 0 ∧ room = 0) → (∀ i, ¬ sta.Assigned i floor room) →
    ∀ free : sta.smokeNum.toNat < 20, loraSearchSmoke floor room sta =
      (some ⟨sta.smokeNum.toNat, free⟩, { sta with
        smokeDev := store sta.smokeDev ⟨sta.smokeNum.toNat, free⟩
          { smokeDevClear with floor := floor, room := room }
        smokeNum := sta.smokeNum + 1 })
  /-- The null pointer is returned exactly for no detector at all, and for a new one to a full table. -/
  null : ∀ floor room, (loraSearchSmoke floor room sta).1 = none ↔
    (floor = 0 ∧ room = 0) ∨ ((∀ i, ¬ sta.Assigned i floor room) ∧ sta.smokeNum.toNat = 20)
  /-- Together with a null pointer, nothing changes. -/
  unchanged : ∀ floor room, (loraSearchSmoke floor room sta).1 = none → (loraSearchSmoke floor room sta).2 = sta

/-- Every detector of a table is still at its slot in another one. -/
def LoraState.KeptIn (sta later : LoraState) : Prop :=
  sta.smokeNum.toNat ≤ later.smokeNum.toNat ∧
    ∀ i floor room, sta.Assigned i floor room → later.Assigned i floor room

/-- The table has a slot for each key of a registry, and nothing in the other slots. -/
structure Represents (sta : LoraState) (registry : Registry (UInt8 × UInt8) 20) : Prop where
  counted : sta.smokeNum.toNat = registry.keys.length
  addressed : (0, 0) ∉ registry.keys
  used : ∀ i : Fin 20, ∀ within : i.val < registry.keys.length,
    (load sta.smokeDev i).key = registry.keys[i.val]
  unused : ∀ i : Fin 20, registry.keys.length ≤ i.val → load sta.smokeDev i = smokeDevClear

section

variable {sta : LoraState} {registry : Registry (UInt8 × UInt8) 20} {floor room : UInt8}

/-- The assignments of a report leave what the report is kept as. -/
theorem foldl_recordWrites (r : Receiver) (dev : SmokeDev) :
    r.recordWrites.foldl RecordWrite.apply dev = r.readReport dev := rfl

/-- No assignment changes the numbers of a detector. -/
@[simp] theorem key_apply (dev : SmokeDev) (write : RecordWrite) : (write.apply dev).key = dev.key := by
  cases write <;> rfl

/-- A slot is in use for a detector exactly if the registry has the detector's key there. -/
theorem Represents.assigned_iff (represents : Represents sta registry) {i : Fin 20} :
    sta.Assigned i floor room ↔ ∃ within : i.val < registry.keys.length, registry.keys[i.val] = (floor, room) := by
  unfold LoraState.Assigned
  rw [represents.counted]
  constructor
  · rintro ⟨within, same⟩
    exact ⟨within, (represents.used i within).symm.trans same⟩
  · rintro ⟨within, same⟩
    exact ⟨within, (represents.used i within).trans same⟩

/-- A slot of the table matches the numbers of a search exactly if it is in use for them. -/
theorem Represents.matches_iff (represents : Represents sta registry) (addressed : ¬ (floor = 0 ∧ room = 0))
    {i : Fin 20} : ((load sta.smokeDev i).floor = floor ∧ (load sta.smokeDev i).room = room) ↔
      sta.Assigned i floor room := by
  constructor
  · rintro ⟨rfl, rfl⟩
    refine ⟨?_, rfl⟩
    -- An unused slot is zero, and no search is made for zero numbers.
    by_contra behind
    have unused := represents.unused i (by rw [← represents.counted]; omega)
    exact addressed ⟨by rw [unused]; rfl, by rw [unused]; rfl⟩
  · rintro ⟨_, same⟩
    exact Prod.mk.injEq _ _ _ _ ▸ same

/-- The search for a registered detector passes over the slots before its own. -/
theorem Represents.search_known (represents : Represents sta registry) (addressed : ¬ (floor = 0 ∧ room = 0))
    {i : Fin 20} (assigned : sta.Assigned i floor room) : loraSearchSmoke floor room sta = (some i, sta) := by
  have known := (represents.matches_iff addressed).mpr assigned
  obtain ⟨within, same⟩ := represents.assigned_iff.mp assigned
  rw [loraSearchSmoke, if_neg addressed]
  simp only [← Fin.find?_eq_find?_finRange]
  -- The search stops at the first record that carries the numbers or is unused.
  have found : Fin.find? (fun j : Fin 20 => (decide ((load sta.smokeDev j).floor = floor ∧
      (load sta.smokeDev j).room = room) || decide (sta.smokeNum.toNat ≤ j.val))) = some i := by
    rw [Fin.find?_eq_some_iff]
    refine ⟨by simp [known], ?_⟩
    intro j before
    -- An earlier slot is in use for another detector, since no key has two slots.
    have other : ¬ ((load sta.smokeDev j).floor = floor ∧ (load sta.smokeDev j).room = room) := by
      intro also
      obtain ⟨inside, again⟩ := represents.assigned_iff.mp ((represents.matches_iff addressed).mp also)
      have slots := (registry.distinct.getElem_inj_iff).mp (again.trans same.symm)
      exact absurd (Fin.ext slots) (Fin.ne_of_lt before)
    have used : ¬ sta.smokeNum.toNat ≤ j.val := by
      have less : j.val < i.val := before
      rw [represents.counted]
      omega
    simp [other, used]
  rw [found]
  simp only [known, and_self, if_true]

/-- The search for a new detector stops behind the slots in use. -/
theorem Represents.search_new (represents : Represents sta registry) (addressed : ¬ (floor = 0 ∧ room = 0))
    (new : ∀ i, ¬ sta.Assigned i floor room) (free : sta.smokeNum.toNat < 20) :
    loraSearchSmoke floor room sta = (some ⟨sta.smokeNum.toNat, free⟩, { sta with
      smokeDev := store sta.smokeDev ⟨sta.smokeNum.toNat, free⟩
        { smokeDevClear with floor := floor, room := room }
      smokeNum := sta.smokeNum + 1 }) := by
  have unknown (i : Fin 20) : ¬ ((load sta.smokeDev i).floor = floor ∧ (load sta.smokeDev i).room = room) :=
    fun also => new i ((represents.matches_iff addressed).mp also)
  rw [loraSearchSmoke, if_neg addressed]
  simp only [← Fin.find?_eq_find?_finRange]
  have found : Fin.find? (fun j : Fin 20 => (decide ((load sta.smokeDev j).floor = floor ∧
      (load sta.smokeDev j).room = room) || decide (sta.smokeNum.toNat ≤ j.val))) =
      some ⟨sta.smokeNum.toNat, free⟩ := by
    rw [Fin.find?_eq_some_iff]
    refine ⟨by simp, ?_⟩
    intro j before
    -- The slots before the first free one are in use for others.
    have used : ¬ sta.smokeNum.toNat ≤ j.val := Nat.not_le.mpr before
    simp [unknown j, used]
  rw [found]
  simp only [if_neg (unknown _)]

/-- The search for a new detector in a full table passes over every slot. -/
theorem Represents.search_full (represents : Represents sta registry) (addressed : ¬ (floor = 0 ∧ room = 0))
    (new : ∀ i, ¬ sta.Assigned i floor room) (full : 20 ≤ sta.smokeNum.toNat) :
    loraSearchSmoke floor room sta = (none, sta) := by
  rw [loraSearchSmoke, if_neg addressed]
  simp only [← Fin.find?_eq_find?_finRange]
  have missed : Fin.find? (fun j : Fin 20 => (decide ((load sta.smokeDev j).floor = floor ∧
      (load sta.smokeDev j).room = room) || decide (sta.smokeNum.toNat ≤ j.val))) = none := by
    rw [Fin.find?_eq_none_iff]
    intro j
    have unknown : ¬ ((load sta.smokeDev j).floor = floor ∧ (load sta.smokeDev j).room = room) :=
      fun also => new j ((represents.matches_iff addressed).mp also)
    -- No slot is beyond the number of those in use.
    have used : ¬ sta.smokeNum.toNat ≤ j.val := by omega
    simp [unknown, used]
  rw [missed]

/-- Detectors that are no key of the registry have no slot. -/
theorem Represents.new_iff (represents : Represents sta registry) :
    (∀ i, ¬ sta.Assigned i floor room) ↔ (floor, room) ∉ registry.keys := by
  constructor
  · intro new among
    obtain ⟨i, within, same⟩ := List.getElem_of_mem among
    -- A key's place in the registry is the number of a slot.
    have bounded : i < 20 := within.trans_le registry.bounded
    exact new ⟨i, bounded⟩ (represents.assigned_iff.mpr ⟨within, same⟩)
  · intro absent i assigned
    obtain ⟨within, same⟩ := represents.assigned_iff.mp assigned
    exact absent (same ▸ List.getElem_mem within)

/-- A new detector's record takes the slot of its key. -/
theorem Represents.register (represents : Represents sta registry) (addressed : ¬ (floor = 0 ∧ room = 0))
    (new : (floor, room) ∉ registry.keys) (left : registry.keys.length < 20) (free : sta.smokeNum.toNat < 20) :
    Represents { sta with
      smokeDev := store sta.smokeDev ⟨sta.smokeNum.toNat, free⟩
        { smokeDevClear with floor := floor, room := room }
      smokeNum := sta.smokeNum + 1 } (registry.register (floor, room) new left) := by
  have counted := represents.counted
  have longer : (registry.register (floor, room) new left).keys.length = registry.keys.length + 1 := by
    simp [Registry.register]
  refine ⟨?_, ?_, ?_, ?_⟩
  · -- The number of detectors is far from its limit.
    rw [longer]
    exact toNat_succ counted (by omega)
  · -- Zero numbers are neither among the keys nor the new one.
    simp only [Registry.register, List.mem_append, List.mem_singleton, Prod.mk.injEq, not_or]
    exact ⟨represents.addressed, fun zero => addressed ⟨zero.1.symm, zero.2.symm⟩⟩
  -- The other records stay, and the new one is behind them.
  · intro i within
    rw [longer] at within
    simp only [load_store, Fin.ext_iff]
    by_cases last : sta.smokeNum.toNat = i.val
    · -- The record behind the others carries the new key.
      rw [if_pos last]
      have place : i.val = registry.keys.length := last.symm.trans counted
      simp only [Registry.register, place, List.getElem_concat_length]
      rfl
    · have before : i.val < registry.keys.length := by omega
      rw [if_neg last, represents.used i before]
      simp only [Registry.register, List.getElem_append_left before]
  -- The records behind are still unused.
  · intro i behind
    rw [longer] at behind
    have other : ¬ sta.smokeNum.toNat = i.val := by omega
    simp only [load_store, Fin.ext_iff]
    rw [if_neg other]
    exact represents.unused i (by omega)

/-- A search of the table is a search of the registry. -/
theorem Represents.search (represents : Represents sta registry) (addressed : ¬ (floor = 0 ∧ room = 0)) :
    (loraSearchSmoke floor room sta).1.map Fin.val = (registry.search (floor, room)).1 ∧
      Represents (loraSearchSmoke floor room sta).2 (registry.search (floor, room)).2 := by
  by_cases known : (floor, room) ∈ registry.keys
  · obtain ⟨i, within, same⟩ := List.getElem_of_mem known
    have assigned : sta.Assigned ⟨i, within.trans_le registry.bounded⟩ floor room :=
      represents.assigned_iff.mpr ⟨within, same⟩
    rw [represents.search_known addressed assigned, ← same, registry.search_known within]
    exact ⟨rfl, represents⟩
  · have new := represents.new_iff.mpr known
    have counted := represents.counted
    by_cases left : registry.keys.length < 20
    · rw [represents.search_new addressed new (by omega), registry.search_new known left]
      exact ⟨congrArg some counted, represents.register addressed known left (by omega)⟩
    · rw [represents.search_full addressed new (by omega), registry.search_full known (by omega)]
      exact ⟨rfl, represents⟩

/-- The table represents the registry, and the record that has been returned is in use. -/
def DeviceTable.Tracks (t : DeviceTable) (registry : Registry (UInt8 × UInt8) 20) : Prop :=
  Represents t.sta registry ∧ ∀ i, t.found = some i → i.val < registry.keys.length

/-- A slot that has been found is in use for the detector. -/
theorem Represents.found (represents : Represents sta registry) (addressed : ¬ (floor = 0 ∧ room = 0))
    {i : Fin 20} (found : (loraSearchSmoke floor room sta).1 = some i) :
    i.val < (registry.search (floor, room)).2.keys.length := by
  have searched := (represents.search addressed).1
  rw [found, Option.map_some] at searched
  exact registry.search_found searched.symm

/-- A record in use may be overwritten by one with the same numbers. -/
theorem Represents.put (represents : Represents sta registry) {i : Fin 20} {dev : SmokeDev}
    (used : i.val < registry.keys.length) (same : dev.key = (load sta.smokeDev i).key) :
    Represents (sta.put i dev) registry := by
  refine ⟨represents.counted, represents.addressed, ?_, ?_⟩
  · intro j within
    rw [LoraState.put, load_store]
    by_cases own : i = j
    · -- The record keeps its numbers.
      subst own
      rw [if_pos rfl, same, represents.used i within]
    · rw [if_neg own, represents.used j within]
  · intro j behind
    -- A slot behind the registry is not the one that is overwritten.
    have other : i ≠ j := by
      rintro rfl
      omega
    rw [LoraState.put, load_store_other _ _ other, represents.unused j behind]

/-- An assignment to a record in use leaves the registry as it is. -/
theorem Represents.write (represents : Represents sta registry) {i : Fin 20}
    (used : i.val < registry.keys.length) (write : RecordWrite) :
    Represents (sta.put i (write.apply (load sta.smokeDev i))) registry :=
  represents.put used (key_apply (load sta.smokeDev i) write)

/-- Every event leaves a table that represents a registry, in which the keys so far stay where they are. -/
theorem DeviceTable.Tracks.step {t next : DeviceTable} (tracks : t.Tracks registry) {event : TableEvent}
    (taken : t.step event = some next) :
    ∃ later, next.Tracks later ∧ registry.keys <+: later.keys := by
  obtain ⟨represents, used⟩ := tracks
  cases event with
  | search floor room =>
    rw [DeviceTable.step, Option.some.injEq] at taken
    subst taken
    by_cases none : floor = 0 ∧ room = 0
    · -- Zero numbers are not searched for.
      rw [loraSearchSmoke_unaddressed none]
      exact ⟨registry, ⟨represents, fun i found => by cases found⟩, List.prefix_refl _⟩
    · exact ⟨_, ⟨(represents.search none).2, fun i found => represents.found none found⟩,
        registry.prefix_search _⟩
  | write write =>
    obtain ⟨i, found, rfl⟩ := Option.map_eq_some_iff.mp taken
    exact ⟨registry, ⟨represents.write (used i found) write, used⟩, List.prefix_refl _⟩
  | msgid value =>
    rw [DeviceTable.step, Option.some.injEq] at taken
    subst taken
    exact ⟨registry, ⟨⟨represents.counted, represents.addressed, represents.used, represents.unused⟩, used⟩,
      List.prefix_refl _⟩

/-- Every run leaves a table that represents a registry, in which the keys so far stay where they are. -/
theorem DeviceTable.Tracks.run {t finish : DeviceTable} (tracks : t.Tracks registry) {events : List TableEvent}
    (ran : PkeFire.run DeviceTable.step t events = some finish) :
    ∃ later, finish.Tracks later ∧ registry.keys <+: later.keys := by
  -- The keys are extended along the run, and never taken back.
  refine run_invariant
    (fun t : DeviceTable => ∃ later, t.Tracks later ∧ registry.keys <+: later.keys) ?_
    ⟨registry, tracks, List.prefix_refl _⟩ (everyStep_of_forall (fun _ _ => trivial) _ _) ran
  rintro state event next ⟨middle, tracks, extended⟩ _ taken
  obtain ⟨later, again, further⟩ := tracks.step taken
  exact ⟨later, again, extended.trans further⟩

/-- Nothing is registered in the zeroed table. -/
theorem DeviceTable.tracks_init : DeviceTable.init.Tracks Registry.empty := by
  refine ⟨⟨rfl, List.not_mem_nil, ?_, ?_⟩, fun i found => by cases found⟩
  · intro i within
    exact absurd within (Nat.not_lt_zero _)
  · -- Every slot has been cleared.
    intro i _
    exact load_replicate smokeDevClear i

/-- A table that represents a registry is a faithful one. -/
theorem Represents.faithful (represents : Represents sta registry) : sta.Faithful := by
  have counted := represents.counted
  have bounded := registry.bounded
  -- The records in use are the numbers of the registry, and none of them is zero.
  have addressed (i : Fin 20) (within : i.val < sta.smokeNum.toNat) :
      (load sta.smokeDev i).key ≠ (0, 0) := by
    rw [counted] at within
    rw [represents.used i within]
    exact fun zero => represents.addressed (zero ▸ List.getElem_mem within)
  refine
    { bounded := by omega
      distinct := ?_
      addressed := addressed
      unused := fun i behind => represents.unused i (by omega)
      known := ?_
      new := fun floor room none new free => represents.search_new none new free
      null := ?_
      unchanged := ?_ }
  -- Two records for the same number would be the same place of the registry.
  · intro i j within inside same
    rw [counted] at within inside
    rw [represents.used i within, represents.used j inside] at same
    exact Fin.ext ((registry.distinct.getElem_inj_iff).mp same)
  -- A number that has a record is found there.
  · intro i floor room assigned
    refine represents.search_known ?_ assigned
    rintro ⟨rfl, rfl⟩
    exact addressed i assigned.1 assigned.2
  -- A search fails for the number zero, or when the number is new and there is no free record.
  · intro floor room
    by_cases none : floor = 0 ∧ room = 0
    · rw [loraSearchSmoke_unaddressed none]
      exact ⟨fun _ => Or.inl none, fun _ => rfl⟩
    · -- What the search returns is decided by the registry.
      by_cases known : ∃ i, sta.Assigned i floor room
      · obtain ⟨i, assigned⟩ := known
        rw [represents.search_known none assigned]
        simp only [reduceCtorEq, none, false_or, false_iff, not_and]
        exact fun new => absurd assigned (new i)
      · have new : ∀ i, ¬ sta.Assigned i floor room := not_exists.mp known
        by_cases free : sta.smokeNum.toNat < 20
        · rw [represents.search_new none new free]
          simp only [reduceCtorEq, none, false_or, false_iff, not_and]
          omega
        · rw [represents.search_full none new (by omega)]
          exact ⟨fun _ => Or.inr ⟨new, by omega⟩, fun _ => rfl⟩
  -- A failed search leaves the table alone.
  · intro floor room missing
    by_cases none : floor = 0 ∧ room = 0
    · rw [loraSearchSmoke_unaddressed none]
    · obtain ⟨_, i, search⟩ | ⟨_, _, i, dev, search⟩ | ⟨_, _, search⟩ := loraSearchSmoke_cases sta none
      · rw [search]
      · rw [search] at missing
        cases missing
      · rw [search]

/-- A detector's slot is kept where the keys are only extended. -/
theorem Represents.keptIn {later : LoraState} {extended : Registry (UInt8 × UInt8) 20}
    (represents : Represents sta registry) (again : Represents later extended)
    (longer : registry.keys <+: extended.keys) : sta.KeptIn later := by
  have more := longer.length_le
  refine ⟨by rw [represents.counted, again.counted]; exact more, ?_⟩
  intro i floor room assigned
  obtain ⟨within, same⟩ := represents.assigned_iff.mp assigned
  -- The longer list has the same keys in front.
  exact again.assigned_iff.mpr ⟨within.trans_le more, (longer.getElem within).symm.trans same⟩

/-- A record that is overwritten twice holds what has been written last. -/
theorem put_put (sta : LoraState) (i : Fin 20) (dev last : SmokeDev) :
    (sta.put i dev).put i last = sta.put i last := by
  simp [LoraState.put, store]

/-- Assignments to a record in use are performed one after the other. -/
theorem run_writes (sta : LoraState) (i : Fin 20) (writes : List RecordWrite) (dev : SmokeDev) :
    run DeviceTable.step ⟨sta.put i dev, some i⟩ (writes.map .write) =
      some ⟨sta.put i (writes.foldl RecordWrite.apply dev), some i⟩ := by
  -- Each assignment starts from the record that the ones before it have left.
  induction writes generalizing dev with
  | nil => rfl
  | cons write writes ih =>
    have taken : DeviceTable.step ⟨sta.put i dev, some i⟩ (.write write) =
        some ⟨sta.put i (write.apply dev), some i⟩ := by
      simp only [DeviceTable.step, Option.map_some, put_put]
      simp only [LoraState.put, load_store_self]
    rw [List.map_cons, run_cons, taken, Option.bind_some, ih, List.foldl_cons]

/-- Dispatching a frame does to the table what the search and the assignments do. -/
theorem run_tableEvents (env : LoraEnv) (r : Receiver) (found : Option (Fin 20)) :
    ∃ last, run DeviceTable.step ⟨r.sta, found⟩ (r.tableEvents env) = some ⟨(r.dispatch env).sta, last⟩ := by
  by_cases here : r.ForThisBuilding env
  · rw [Receiver.tableEvents, if_pos here]
    cases search : loraSearchSmoke r.floor r.room r.sta with
    | mk slot sta =>
      have taken : DeviceTable.step ⟨r.sta, found⟩ (.search r.floor r.room) = some ⟨sta, slot⟩ := by
        rw [DeviceTable.step]
        simp only [search]
      cases slot with
      | none =>
        -- A search that fails leaves nothing to be written.
        rw [run_cons, taken, Option.bind_some, if_neg (by simp), run_nil, dispatch_none here search]
        exact ⟨none, rfl⟩
      | some i =>
        obtain ⟨stored, skipped⟩ := dispatch_some here search
        by_cases reports : r.Reports
        · -- The report is written to the record, and its number is remembered.
          have written := run_writes sta i r.recordWrites (load sta.smokeDev i)
          have same : sta.put i (load sta.smokeDev i) = sta := by simp [LoraState.put, store, load]
          rw [foldl_recordWrites, same] at written
          have number : r.msgId = load r.recvBuf 4 := (load_eq_getD r.recvBuf 4 0).symm
          rw [run_cons, taken, Option.bind_some, if_pos ⟨rfl, reports⟩, run_append, written, Option.bind_some,
            run_singleton, DeviceTable.step, stored reports, number]
          exact ⟨some i, rfl⟩
        -- A frame that is no report writes nothing.
        · rw [run_cons, taken, Option.bind_some, if_neg (fun both => reports both.2), run_nil, skipped reports]
          exact ⟨some i, rfl⟩
  · rw [Receiver.tableEvents, if_neg here, dispatch_foreign here]
    exact ⟨found, rfl⟩

/-- A frame is dispatched without losing track of the registry. -/
theorem Represents.dispatch {r : Receiver} (represents : Represents r.sta registry) (env : LoraEnv) :
    ∃ later, Represents (r.dispatch env).sta later ∧ registry.keys <+: later.keys := by
  obtain ⟨last, ran⟩ := run_tableEvents env r none
  have tracks : DeviceTable.Tracks ⟨r.sta, none⟩ registry := ⟨represents, fun i found => by cases found⟩
  obtain ⟨later, again, longer⟩ := tracks.run ran
  exact ⟨later, again.1, longer⟩

/-- Nothing is sent while a byte is written. -/
theorem sent_push {r next : Receiver} {ch : UInt8} (pushed : r.push ch = some next) : next.sent = r.sent := by
  rw [Receiver.push] at pushed
  split at pushed
  · rw [← Option.some.inj pushed]
  · cases pushed

/-- A byte that is not a checksum leaves the table alone, and nothing is sent. -/
theorem receive_other {r next : Receiver} {env : LoraEnv} {ch : UInt8} (other : r.recvStep ≠ .crc)
    (taken : receive env r ch = some next) : next.sta = r.sta ∧ next.sent = r.sent := by
  have written {r full : Receiver} (pushed : r.push ch = some full) : full.sta = r.sta ∧ full.sent = r.sent :=
    ⟨sta_push pushed, sent_push pushed⟩
  cases state : r.recvStep with
  | header1 =>
    simp only [receive, state] at taken
    split at taken
    · obtain ⟨full, pushed, rfl⟩ := Option.map_eq_some_iff.mp taken
      -- Clearing the buffer for the new frame touches neither of them.
      have kept := written pushed
      exact kept
    · rw [← Option.some.inj taken]
      exact ⟨rfl, rfl⟩
  | header2 =>
    simp only [receive, state] at taken
    split at taken
    · obtain ⟨full, pushed, rfl⟩ := Option.map_eq_some_iff.mp taken
      have kept := written pushed
      exact kept
    · rw [← Option.some.inj taken]
      exact ⟨rfl, rfl⟩
  | fields | data =>
    simp only [receive, state] at taken
    obtain ⟨full, pushed, rfl⟩ := Option.map_eq_some_iff.mp taken
    have kept := written pushed
    split <;> exact kept
  | length =>
    simp only [receive, state] at taken
    obtain ⟨full, pushed, rfl⟩ := Option.map_eq_some_iff.mp taken
    have kept := written pushed
    -- Whatever the length is, it only decides where the receiver goes on.
    split
    · split <;> exact kept
    · exact kept
  | crc => exact absurd state other

/-- The receiver never loses track of the registry. -/
theorem Represents.receive {r next : Receiver} (represents : Represents r.sta registry) {env : LoraEnv}
    {ch : UInt8} (taken : PkeFire.receive env r ch = some next) :
    ∃ later, Represents next.sta later ∧ registry.keys <+: later.keys := by
  by_cases checksum : r.recvStep = .crc
  · obtain ⟨full, pushed, sta⟩ := sta_receive_crc checksum taken
    rw [sta]
    split
    · -- A right checksum brings the frame to the table.
      rw [← sta_push pushed] at represents
      exact represents.dispatch env
    · exact ⟨registry, represents, List.prefix_refl _⟩
  · rw [(receive_other checksum taken).1]
    exact ⟨registry, represents, List.prefix_refl _⟩

/-- Along every run from the zeroed table, the table is a faithful registry, which keeps every detector it has. -/
theorem deviceTable_faithful (events : List TableEvent) (t : DeviceTable)
    (ran : run DeviceTable.step DeviceTable.init events = some t) :
    t.sta.Faithful ∧ ∀ more finish, run DeviceTable.step t more = some finish → t.sta.KeptIn finish.sta := by
  obtain ⟨registry, tracks, _⟩ := DeviceTable.tracks_init.run ran
  refine ⟨tracks.1.faithful, ?_⟩
  intro more finish later
  obtain ⟨extended, again, longer⟩ := tracks.run later
  exact tracks.1.keptIn again.1 longer

end

/-- One detector that reports some smoke and is found again, and a search for no detector. -/
def fewSearches : List TableEvent :=
  [.search 1 2, .write (.smoke 300), .msgid 7, .search 1 2, .search 0 0]

/-- The few searches leave a faithful registry. -/
theorem deviceTable_faithful_few : ∃ t, run DeviceTable.step DeviceTable.init fewSearches = some t ∧
    t.sta.Faithful ∧ ∀ more finish, run DeviceTable.step t more = some finish → t.sta.KeptIn finish.sta := by
  obtain ⟨t, ran⟩ := Option.isSome_iff_exists.mp
    (by decide +kernel : (run DeviceTable.step DeviceTable.init fewSearches).isSome = true)
  exact ⟨t, ran, deviceTable_faithful fewSearches t ran⟩

end PkeFire
