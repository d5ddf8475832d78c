import PkeFire.Run.Machine
import PkeFire.Extio.Scan

/-! What the scans of a key report about one hold of it, while the consumer clears events as it likes. -/

namespace PkeFire

/-- One key: the event waiting for the consumer, and the scans for which the key has been down. -/
structure KeyLine where
  sta : KeySta
  time : Nat
  deriving DecidableEq, Repr

/-- A scan of one key, whose level is low while it is down. -/
def KeyLine.scan (line : KeyLine) (level : Bool) : KeyLine :=
  if level then { time := 0, sta := if line.sta = .release ∧ line.time > 2 then .press else line.sta }
  else
    let time := if line.time < 255 then line.time + 1 else line.time
    { time := time, sta := if time > 20 then .keep else line.sta }

/-- One key of the two. -/
def Key.line (key : Key) (num : Fin 2) : KeyLine where
  sta := load key.sta num
  time := load key.time num

/-- What happens to the keys: a scan of their levels, or the consumer clearing the event of one of them. -/
inductive KeyEvent where
  /-- `extio_key_scan`, with the levels of the set key and the door key. -/
  | scan (pins : Vector Bool 2)
  /-- `key_clr`. -/
  | clr (num : Fin 2)
  deriving DecidableEq, Repr

/-- One event at the keys, which is never refused. -/
def keyEvent (extio : Extio) : KeyEvent → Option Extio
  | .scan pins => some { extio with key := extioKeyScan pins extio.key }
  | .clr num => some (extio.keyClr num)

/-- The level that an event samples of one key. -/
def KeyEvent.level (num : Fin 2) : KeyEvent → Option Bool
  | .scan pins => some (load pins num)
  | .clr _ => none

/-- The levels sampled of one key, oldest first. -/
def keyLevels (num : Fin 2) (events : List KeyEvent) : List Bool :=
  events.filterMap (KeyEvent.level num)

/-- The event that a scan newly reports for one key. -/
def KeyEvent.report (num : Fin 2) (extio : Extio) : KeyEvent → Option KeySta
  | .scan pins =>
    let sta := load (extioKeyScan pins extio.key).sta num
    if sta = extio.keySta num then none else some sta
  -- Clearing an event reports none.
  | .clr _ => none

/-- The events that the scans report for one key, oldest first. -/
def keyReports (num : Fin 2) (extio : Extio) (events : List KeyEvent) : List KeySta :=
  observations keyEvent (KeyEvent.report num) extio events

/-- The consumer has cleared the key since its last scan. -/
def clearedSince (num : Fin 2) (events : List KeyEvent) : Bool :=
  events.foldl (fun cleared event => match event with
    | .scan _ => false
    | .clr other => cleared || decide (other = num)) false

/-- A hold and its release report nothing, one press at the release, or nothing but that the key is held. -/
structure Exclusive (num : Fin 2) (start : Extio) (hold : List KeyEvent) (released : Vector Bool 2) : Prop where
  /-- Up to two scans are no event. -/
  short : (keyLevels num hold).length ≤ 2 → keyReports num start (hold ++ [.scan released]) = []
  /-- Up to twenty scans are a press, which is reported by the releasing scan. -/
  press : 3 ≤ (keyLevels num hold).length → (keyLevels num hold).length ≤ 20 →
    keyReports num start hold = [] ∧ keyReports num start (hold ++ [.scan released]) = [.press]
  /-- More scans are a hold, which is reported before the release, and which is no press. -/
  keep : 20 < (keyLevels num hold).length →
    keyReports num start hold ≠ [] ∧ ∀ sta ∈ keyReports num start (hold ++ [.scan released]), sta = .keep

/-- Every hold of a key that starts without an event is reported exclusively, whenever the consumer clears events. -/
def KeysExclusive : Prop :=
  ∀ num before start hold released, run keyEvent extioInit before = some start →
    (keyLevels num before).getLast? ≠ some false → start.keySta num = .release →
    (∀ level ∈ keyLevels num hold, level = false) → load released num = true →
      Exclusive num start hold released

section

variable {num : Fin 2} {key : Key} {pins : Vector Bool 2}

/-- The pass over one key scans that key and leaves the other one alone. -/
theorem keyScanOne_line (i : Fin 2) :
    (keyScanOne pins i key).line num = if i = num then (key.line i).scan (load pins i) else key.line num := by
  -- An event is written at the key itself, or it is not due and the waiting one is kept.
  have written : ∀ (due : Prop) [Decidable due] (event : KeySta),
      load (if due then store key.sta i event else key.sta) num =
        if i = num then if due then event else load key.sta i else load key.sta num := by
    intro due _ event
    by_cases same : i = num
    · subst same
      rw [apply_ite (fun sta => load sta i), load_store_self, if_pos rfl]
    · rw [apply_ite (fun sta => load sta num), load_store_other _ _ same, ite_self, if_neg same]
  by_cases same : i = num
  · -- Both the event and the time are those of the key that is scanned.
    subst same
    simp only [if_true] at written ⊢
    rw [keyScanOne, KeyLine.scan]
    cases load pins i with
    | true => exact congrArg₂ KeyLine.mk (written _ _) (load_store_self _ _ _)
    | false => exact congrArg₂ KeyLine.mk (written _ _) (load_store_self _ _ _)
  · -- Neither of them belongs to the other key.
    simp only [if_neg same] at written ⊢
    rw [keyScanOne]
    cases load pins i with
    | true => exact congrArg₂ KeyLine.mk (written _ _) (load_store_other _ _ same)
    | false => exact congrArg₂ KeyLine.mk (written _ _) (load_store_other _ _ same)

/-- A scan treats each key alone. -/
theorem extioKeyScan_line (key : Key) (pins : Vector Bool 2) (num : Fin 2) :
    (extioKeyScan pins key).line num = (key.line num).scan (load pins num) := by
  -- The loop passes over the first key and then over the second.
  simp only [extioKeyScan, countedLoop, keyScanOne_line]
  revert num
  exact Fin.forall_fin_two.mpr ⟨by simp, by simp⟩

/-- Clearing the event of a key keeps the time for which it has been down, and the other key. -/
theorem keyClr_line (extio : Extio) (other : Fin 2) :
    (extio.keyClr other).key.line num =
      if other = num then { extio.key.line num with sta := .release } else extio.key.line num := by
  by_cases same : other = num
  · subst same
    simp [Key.line, Extio.keyClr]
  · simp only [Key.line, Extio.keyClr, load_store_other _ _ same, if_neg same]

/-- A key that was last scanned as released has no time. -/
theorem keyTime_up {events : List KeyEvent} {extio : Extio} (ran : run keyEvent extioInit events = some extio)
    (up : (keyLevels num events).getLast? ≠ some false) : (extio.key.line num).time = 0 := by
  have initially : (extioInit.key.line num).time = 0 := by simp [Key.line, extioInit]
  refine history_invariant (fun events extio => (keyLevels num events).getLast? ≠ some false →
    (extio.key.line num).time = 0) ?_ (fun _ => initially) ran up
  intro seen extio event next _ held taken up
  cases event with
  | scan pins =>
    cases Option.some.inj taken
    -- The releasing scan clears the time.
    have level : load pins num = true := by
      simpa [keyLevels, KeyEvent.level] using up
    simp only [extioKeyScan_line, level, KeyLine.scan, if_true]
  | clr other =>
    cases Option.some.inj taken
    -- Clearing an event samples no level, and keeps the time.
    have same : keyLevels num (seen ++ [.clr other]) = keyLevels num seen := by simp [keyLevels, KeyEvent.level]
    rw [same] at up
    simp only [keyClr_line]
    split <;> exact held up

/-- No event at the keys is refused. -/
theorem keyEvent_total (extio : Extio) (event : KeyEvent) : ∃ next, keyEvent extio event = some next := by
  cases event <;> exact ⟨_, rfl⟩

/-- What a hold has led to: the time counts its scans, and the event depends on whether the consumer has cleared it. -/
structure Holding (num : Fin 2) (start extio : Extio) (hold : List KeyEvent) : Prop where
  time : (extio.key.line num).time = min (keyLevels num hold).length 255
  quiet : (keyLevels num hold).length ≤ 20 → extio.keySta num = .release ∧ keyReports num start hold = []
  kept : 20 < (keyLevels num hold).length →
    extio.keySta num = (if clearedSince num hold then .release else .keep) ∧
      keyReports num start hold ≠ [] ∧ ∀ sta ∈ keyReports num start hold, sta = .keep

/-- Reports of a joined run are the reports of its parts. -/
theorem keyReports_snoc (num : Fin 2) {start extio : Extio} {events : List KeyEvent}
    (ran : run keyEvent start events = some extio) (event : KeyEvent) :
    keyReports num start (events ++ [event]) = keyReports num start events ++ (event.report num extio).toList := by
  rw [keyReports, observations_append ran, observations_singleton]
  rfl

/-- Clearing an event continues a hold: the consumer neither samples the key nor reports anything. -/
theorem Holding.clr {start extio : Extio} {hold : List KeyEvent} (holding : Holding num start extio hold)
    (ran : run keyEvent start hold = some extio) (other : Fin 2) :
    Holding num start (extio.keyClr other) (hold ++ [.clr other]) := by
  have same : keyLevels num (hold ++ [.clr other]) = keyLevels num hold := by simp [keyLevels, KeyEvent.level]
  have silent : keyReports num start (hold ++ [.clr other]) = keyReports num start hold := by
    rw [keyReports_snoc num ran]
    simp [KeyEvent.report]
  have cleared : clearedSince num (hold ++ [.clr other]) = (clearedSince num hold || decide (other = num)) := by
    simp [clearedSince]
  have sta := Extio.keySta_keyClr extio other num
  refine ⟨?_, fun short => ?_, fun long => ?_⟩
  · simp only [same, keyClr_line]
    split <;> exact holding.time
  · -- There is nothing to clear yet.
    rw [same] at short
    obtain ⟨idle, none⟩ := holding.quiet short
    rw [silent, sta, idle, ite_self]
    exact ⟨rfl, none⟩
  · -- The event that waits is cleared if it belongs to this key.
    rw [same] at long
    obtain ⟨waiting, reports⟩ := holding.kept long
    rw [silent, sta, waiting, cleared]
    refine ⟨?_, reports⟩
    by_cases own : other = num
    · simp [own]
    · simp [own]

/-- After a scan of a key that is held, its time has grown, and its event is the hold from the twenty-first scan on. -/
theorem Holding.scanned {start extio : Extio} {hold : List KeyEvent} (holding : Holding num start extio hold)
    (low : load pins num = false) :
    (extioKeyScan pins extio.key).line num = ⟨if min ((keyLevels num hold).length + 1) 255 > 20 then .keep
      else extio.keySta num, min ((keyLevels num hold).length + 1) 255⟩ := by
  -- The time saturates far beyond the limit of a press.
  have advanced : (if (extio.key.line num).time < 255 then (extio.key.line num).time + 1
      else (extio.key.line num).time) = min ((keyLevels num hold).length + 1) 255 := by
    rw [holding.time]
    split <;> omega
  have line := extioKeyScan_line extio.key pins num
  rw [low, KeyLine.scan, if_neg Bool.false_ne_true, advanced] at line
  exact line

/-- A scan of a key that is held continues its hold. -/
theorem Holding.scan {start extio : Extio} {hold : List KeyEvent} (holding : Holding num start extio hold)
    (ran : run keyEvent start hold = some extio) (low : load pins num = false) :
    Holding num start { extio with key := extioKeyScan pins extio.key } (hold ++ [.scan pins]) := by
  have longer : (keyLevels num (hold ++ [.scan pins])).length = (keyLevels num hold).length + 1 := by
    simp [keyLevels, KeyEvent.level]
  have cleared : clearedSince num (hold ++ [.scan pins]) = false := by simp [clearedSince]
  -- The scan adds one to the time of the key, and reports it beyond the limit.
  have line := holding.scanned low
  have reports := keyReports_snoc num ran (.scan pins)
  have sta : load (extioKeyScan pins extio.key).sta num =
      if min ((keyLevels num hold).length + 1) 255 > 20 then .keep else extio.keySta num :=
    congrArg KeyLine.sta line
  refine ⟨by rw [longer]; exact congrArg KeyLine.time line, fun short => ?_, fun long => ?_⟩
  · -- Up to the limit of a press, a scan reports nothing.
    rw [longer] at short
    obtain ⟨idle, none⟩ := holding.quiet (by omega)
    rw [if_neg (by omega), idle] at sta
    exact ⟨sta, by rw [reports, none]; simp [KeyEvent.report, sta, idle]⟩
  · -- Beyond it, every scan reports the hold unless that is waiting already.
    rw [longer] at long
    rw [if_pos (by omega)] at sta
    refine ⟨by rw [cleared]; exact sta, ?_⟩
    rw [reports]
    by_cases waiting : extio.keySta num = .keep
    · -- A hold that has been reported already is not reported again.
      have before : 20 < (keyLevels num hold).length := by
        by_contra short
        rw [(holding.quiet (by omega)).1] at waiting
        cases waiting
      simpa [KeyEvent.report, sta, waiting] using (holding.kept before).2
    · -- What has been reported before can only be the hold as well.
      have every : ∀ sta ∈ keyReports num start hold, sta = .keep := by
        by_cases before : 20 < (keyLevels num hold).length
        · exact (holding.kept before).2.2
        · simp [(holding.quiet (by omega)).2]
      simpa [KeyEvent.report, sta, Ne.symm waiting, or_imp, forall_and] using every

/-- Another event of a hold continues it. -/
theorem Holding.event {start extio next : Extio} {hold : List KeyEvent} {event : KeyEvent}
    (holding : Holding num start extio hold) (ran : run keyEvent start hold = some extio)
    (down : ∀ level ∈ event.level num, level = false) (taken : keyEvent extio event = some next) :
    Holding num start next (hold ++ [event]) := by
  cases event with
  | clr other =>
    cases Option.some.inj taken
    exact holding.clr ran other
  | scan pins =>
    cases Option.some.inj taken
    -- Every scan of a hold finds the key down.
    exact holding.scan ran (down _ rfl)

/-- A hold leads to what its length and the consumer have made of it. -/
theorem holding_run {start extio : Extio} {hold : List KeyEvent} (idle : start.keySta num = .release)
    (up : (start.key.line num).time = 0) (down : ∀ level ∈ keyLevels num hold, level = false)
    (ran : run keyEvent start hold = some extio) : Holding num start extio hold := by
  have initially : Holding num start start [] :=
    ⟨by simp [up, keyLevels], fun _ => ⟨idle, rfl⟩, fun long => by simp [keyLevels] at long⟩
  refine history_invariant (fun hold extio => (∀ level ∈ keyLevels num hold, level = false) →
    Holding num start extio hold) ?_ (fun _ => initially) ran down
  intro seen extio event next before held taken down
  -- The levels of the longer hold are those of the shorter one and of the event.
  rw [keyLevels, List.filterMap_append] at down
  refine (held fun level among => down level (List.mem_append_left _ among)).event before ?_ taken
  intro level sampled
  exact down level (List.mem_append_right _ (by simpa using sampled))

/-- A releasing scan reports a press after more than two scans, if no event is waiting. -/
theorem report_release {extio : Extio} {scans : Nat} {released : Vector Bool 2} (high : load released num = true)
    (time : (extio.key.line num).time = min scans 255) :
    (KeyEvent.scan released).report num extio =
      if extio.keySta num = .release ∧ scans > 2 then some .press else none := by
  have line := extioKeyScan_line extio.key released num
  rw [high, KeyLine.scan, if_pos rfl, time] at line
  have sta : load (extioKeyScan released extio.key).sta num =
      if extio.keySta num = .release ∧ min scans 255 > 2 then .press else extio.keySta num :=
    congrArg KeyLine.sta line
  -- Saturation keeps the time above the limit.
  have limit : min scans 255 > 2 ↔ scans > 2 := by omega
  simp only [limit] at sta
  rw [KeyEvent.report, sta]
  by_cases pressed : extio.keySta num = .release ∧ scans > 2
  · simp [pressed]
  · simp only [if_neg pressed, if_true]

/-- A hold is reported exclusively if it is short, or if the consumer has not cleared the key since its last scan. -/
theorem keys_exclusive_iff {before hold : List KeyEvent} {start : Extio} {released : Vector Bool 2}
    (ran : run keyEvent extioInit before = some start) (up : (keyLevels num before).getLast? ≠ some false)
    (idle : start.keySta num = .release) (down : ∀ level ∈ keyLevels num hold, level = false)
    (high : load released num = true) :
    Exclusive num start hold released ↔ (keyLevels num hold).length ≤ 20 ∨ clearedSince num hold = false := by
  obtain ⟨extio, held⟩ := run_total keyEvent_total start hold
  obtain ⟨time, quiet, kept⟩ := holding_run idle (keyTime_up ran up) down held
  have released_ := keyReports_snoc num held (.scan released)
  rw [report_release high time] at released_
  by_cases short : (keyLevels num hold).length ≤ 20
  · -- Without an event waiting, the length decides whether a press is reported.
    obtain ⟨waiting, none⟩ := quiet short
    rw [none, waiting, List.nil_append] at released_
    refine ⟨fun _ => Or.inl short, fun _ => ⟨fun few => ?_, fun enough _ => ⟨none, ?_⟩, fun long => by omega⟩⟩
    · rw [released_, if_neg (by omega)]
      rfl
    · rw [released_, if_pos ⟨rfl, by omega⟩]
      rfl
  · obtain ⟨waiting, some_, every⟩ := kept (by omega)
    rw [waiting] at released_
    cases cleared : clearedSince num hold with
    | true =>
      -- A hold that has been cleared is taken for a press.
      rw [cleared, if_pos rfl, if_pos ⟨rfl, by omega⟩] at released_
      refine ⟨fun exclusive => ?_, fun met => by simp [short] at met⟩
      have press : KeySta.press = .keep := (exclusive.keep (by omega)).2 .press (by rw [released_]; simp)
      cases press
    | false =>
      -- The event that is still waiting keeps the release from being taken for a press.
      rw [cleared, if_neg (by simp), Option.toList_none, List.append_nil] at released_
      refine ⟨fun _ => Or.inr rfl, fun _ => ⟨fun few => by omega, fun _ _ => by omega, fun _ => ⟨some_, ?_⟩⟩⟩
      rwa [released_]

end

/-- A hold of twenty-one scans, after which the consumer clears the key just before its release. -/
def clearedHold : List KeyEvent :=
  .replicate 21 (.scan #v[true, false]) ++ [.clr extioOpenKey]

/-- A short press of the open key is reported exclusively. -/
theorem keys_exclusive_iff_press :
    Exclusive extioOpenKey extioInit (.replicate 3 (.scan #v[true, false])) #v[true, true] := by
  have reset : run keyEvent extioInit [] = some extioInit := rfl
  exact (keys_exclusive_iff reset (by decide) (by decide) (by decide) (by decide)).mpr (Or.inl (by decide))

/-- A long hold of the open key is reported as a press too, when the consumer clears it before its release. -/
theorem keys_not_exclusive : ¬KeysExclusive := by
  intro exclusive
  have hold := exclusive extioOpenKey [] extioInit clearedHold #v[true, true] rfl (by decide) (by decide)
    (by decide) (by decide)
  -- The report of the releasing scan is a press.
  have press := (hold.keep (by decide)).2 .press (by decide +kernel)
  cases press

end PkeFire
