import PkeFire.Misc.Durable
import PkeFire.Ota.Task

/-! The life of a main unit that updates itself: no version is installed again, whatever restarts come between. -/

namespace PkeFire

/-- A main unit with its update tasks. -/
structure OtaLife where
  unit : MainUnit
  /-- The global `new_ver`, which all update tasks share. -/
  newVer : UInt32
  /-- The downloads in progress, one for each update task that has started one. -/
  loading : Nat
  /-- The iterations since `ota_save_ver` was called last, if the processor has not been started again since. -/
  since : Option Nat

/-- What happens to a main unit with its update tasks. -/
inductive LifeEvent where
  | unit (event : UnitEvent)
  /-- `ota_task` up to the start of a download, in a program that was compiled at some time. -/
  | check (compileTime : UInt32) (root : Option Json)
  /-- The download is complete, and `ota_save_ver` is called. -/
  | complete
  /-- The download has failed. -/
  | fail

/-- What an update task is seen to do. -/
inductive OtaAct where
  /-- A version is passed on to `http_ota_fw_download`. -/
  | starts (ver : UInt32)
  /-- A version is saved by `ota_save_ver`. -/
  | saves (ver : UInt32)
  deriving DecidableEq, Repr

/-- The version that it is about. -/
def OtaAct.ver : OtaAct → UInt32
  | .starts ver | .saves ver => ver

/-- A version has been saved. -/
def OtaAct.isSave : OtaAct → Bool
  | .starts _ => false
  | .saves _ => true

/-- The event starts the processor again. -/
def UnitEvent.restarts (unit : MainUnit) : UnitEvent → Bool
  | .message root => unit.restarts root
  | .powerCycle _ | .cut _ _ _ => true
  | .task _ _ | .shell _ _ | .version _ => false

/-- Power fails once a save has begun to erase, so that neither the old configuration nor the new one is left. -/
def UnitEvent.loses (env : ConfigEnv) (unit : MainUnit) : UnitEvent → Bool
  | .cut _ count _ => count != 0 && env.crc8Cal unit.store.config.covered != unit.store.config.crc
  | _ => false

/-- The configuration in memory is replaced. -/
def MainUnit.setConfig (unit : MainUnit) (config : Config) : MainUnit :=
  { unit with store := { unit.store with config := config } }

/-- What `ota_task` makes of a manifest, if no download completes before it is done. -/
def OtaLife.checked (compileTime : UInt32) (root : Option Json) (life : OtaLife) : OtaState × Option Download :=
  otaTask compileTime ⟨life.unit.store.config, life.newVer⟩ ⟨root, false⟩

/-- A main unit that has been started, before anything is looked for. -/
def lifeInit (env : ConfigEnv) (memory flash : Config) : OtaLife :=
  ⟨boot env memory flash, 0, 0, none⟩

/-- A main unit with its update tasks performs one event. -/
def lifeStep (fireMachine : Bool) (env : ConfigEnv) (life : OtaLife) : LifeEvent → Option OtaLife
  -- The update tasks are the only ones to assign the version, which they do in events of their own.
  | .unit (.version _) => none
  | .unit event =>
    (unitStep fireMachine env life.unit event).map fun next =>
      if event.restarts life.unit then ⟨next, 0, 0, none⟩
      else { life with
        unit := next
        since := life.since.map fun count => if unitExecuted life.unit event then count + 1 else count }
  -- A second task may come while the first one is downloading, and overwrites its version.
  | .check compileTime root =>
    some { life with
      unit := life.unit.setConfig (life.checked compileTime root).1.config
      newVer := (life.checked compileTime root).1.newVer
      loading := if (life.checked compileTime root).2.isSome then life.loading + 1 else life.loading }
  | .complete =>
    if life.loading = 0 then none
    else some
      { unit := life.unit.setConfig (otaSaveVer ⟨life.unit.store.config, life.newVer⟩).config
        newVer := life.newVer
        loading := life.loading - 1
        since := some 0 }
  | .fail => if life.loading = 0 then none else some { life with loading := life.loading - 1 }

/-- What is seen of the update tasks, or that the configuration is lost, which is seen as nothing. -/
def otaAct (env : ConfigEnv) (life : OtaLife) : LifeEvent → Option (Option OtaAct)
  | .check compileTime root => (life.checked compileTime root).2.map fun download => some (.starts download.ver)
  | .complete => some (some (.saves life.newVer))
  | .unit event => if event.loses env life.unit then some none else none
  | .fail => none

/-- Nothing is left of what has been seen when the configuration is lost. -/
def actsNext (acts : List OtaAct) : Option OtaAct → List OtaAct
  | some act => acts ++ [act]
  | none => []

/-- What the update tasks have been seen to do since the configuration was lost last, if it was. -/
def sinceLoss (seen : List (Option OtaAct)) : List OtaAct :=
  seen.foldl actsNext []

/-- The new `update_uri` does not run over the version behind it. -/
def UriSpares : List (List UInt8) → Prop
  | [_, uri] => (cString uri).length < Field.updateUri.size
  | _ => True

/-- No command runs over the version. -/
def UnitEvent.Spares : UnitEvent → Prop
  | .shell setter argv => setter = .updateUri → UriSpares argv
  | .task _ _ | .message _ | .version _ | .powerCycle _ | .cut _ _ _ => True

/--
Flash works, no manifest is older, no command runs over the version, and one update task has ended before the next one.

Nor is the processor started again before a version has had time to be saved, unless the save itself is cut. The time
is that of twelve iterations, which `ota_save_ver` waits for.
-/
def Careful (fireMachine : Bool) (env : ConfigEnv) (life : OtaLife) : LifeEvent → Prop
  | .unit event => ChecksumTells fireMachine env life.unit event ∧ event.Spares ∧
      (event.restarts life.unit = true → event.loses env life.unit = true ∨ ∀ count ∈ life.since, 12 ≤ count)
  | .check compileTime root =>
    life.loading = 0 ∧ NotOlder compileTime ⟨life.unit.store.config, life.newVer⟩ ⟨root, false⟩
  | .complete | .fail => True

instance (compileTime : UInt32) (s : OtaState) (check : OtaCheck) : Decidable (NotOlder compileTime s check) :=
  decidable_of_iff (check.root.all fun root => s.Newer compileTime (otaVer root) || s.config.ver ≤ otaVer root) (by
    rw [NotOlder]
    cases check.root with
    | none => simp
    | some root => simp [Decidable.or_iff_not_imp_left])

instance : DecidablePred UriSpares
  | [_, uri] => inferInstanceAs (Decidable ((cString uri).length < Field.updateUri.size))
  | [] | [_] | _ :: _ :: _ :: _ => inferInstanceAs (Decidable True)

instance : DecidablePred UnitEvent.Spares
  | .shell setter argv => inferInstanceAs (Decidable (setter = .updateUri → UriSpares argv))
  | .task _ _ | .message _ | .version _ | .powerCycle _ | .cut _ _ _ => inferInstanceAs (Decidable True)

instance (fireMachine : Bool) (env : ConfigEnv) (life : OtaLife) : DecidablePred (Careful fireMachine env life)
  | .unit event => inferInstanceAs (Decidable (ChecksumTells fireMachine env life.unit event ∧ event.Spares ∧
      (event.restarts life.unit = true → event.loses env life.unit = true ∨ ∀ count ∈ life.since, 12 ≤ count)))
  | .check compileTime root => inferInstanceAs (Decidable (life.loading = 0 ∧
      NotOlder compileTime ⟨life.unit.store.config, life.newVer⟩ ⟨root, false⟩))
  | .complete | .fail => inferInstanceAs (Decidable True)

/-- A version that comes after one that has been saved is newer. -/
def Surpasses (earlier later : OtaAct) : Prop :=
  earlier.isSave = true → earlier.ver < later.ver

/-- No version that has been saved is newer than another version. -/
def NoneNewer (acts : List OtaAct) (ver : UInt32) : Prop :=
  ∀ act ∈ acts, act.isSave = true → act.ver ≤ ver

/-- The versions saved so far are below the one in memory, and below the one in flash when they had the time. -/
structure Installed (env : ConfigEnv) (life : OtaLife) (acts : List OtaAct) (register : Register Config) : Prop where
  shows : ShowsRegister env life.unit register
  ordered : acts.Pairwise Surpasses
  below : NoneNewer acts register.current.ver
  loading : life.loading ≠ 0 → life.loading = 1 ∧ register.current.ver < life.newVer
  stored : life.since = none → NoneNewer acts register.stored.ver
  pending : ∀ count ∈ life.since,
    NoneNewer acts register.stored.ver ∨ count ≤ life.unit.controller.saveTime ∧ count ≤ 11

section

variable {fireMachine : Bool} {env : ConfigEnv} {life next : OtaLife} {acts : List OtaAct} {register : Register Config}
  {config : Config} {updates : List Update}

/-- The version is not in the checksum. -/
theorem ver_settings (config : Config) : config.settings.ver = config.ver := by
  have same : Field.ver.bytes config.settings = Field.ver.bytes config := by
    refine slice_congr fun place begun within => ?_
    have behind : crcPlace ≠ place := by
      rintro rfl
      exact absurd within (by decide)
    rw [Config.settings, Config.setCrc, load_store, if_neg behind]
  rw [Config.ver, Field.value, same]
  rfl

/-- Statements about other members leave the version alone. -/
theorem ver_applyAll (within : ∀ update ∈ updates, update.Within ∧ update.field ≠ Field.ver) (config : Config) :
    (applyAll updates config).ver = config.ver := by
  have same : Field.ver.bytes (applyAll updates config) = Field.ver.bytes config := by
    refine slice_congr fun place begun inside => ?_
    have about : ∀ update ∈ updates, update.field ∈ updates.map (·.field) :=
      fun update among => List.mem_map_of_mem among
    refine load_applyAll (fun update among => (within update among).1) about fun field named => ?_
    obtain ⟨update, among, rfl⟩ := List.mem_map.mp named
    obtain ⟨⟨member, _⟩, other⟩ := within update among
    -- Different members do not overlap.
    have apart := apart_of_ne member (by decide) other
    unfold Field.Apart at apart
    unfold Field.Covers
    omega
  rw [Config.ver, Field.value, same]
  rfl

/-- A message leaves the version alone. -/
theorem ver_message (root : Option Json) (config : Config) :
    (applyAll ((subTopicHandle1 root).getD []) config).ver = config.ver := by
  have others : ∀ field ∈ messageFields, field ≠ Field.ver := by decide
  cases handled : subTopicHandle1 root with
  | none => rfl
  | some updates =>
    refine ver_applyAll (fun update among => ?_) config
    obtain ⟨exact, named⟩ := exact_message handled update among
    exact ⟨exact.within, others _ named⟩

/-- A shell command leaves the version alone if its text fits. -/
theorem ver_setter {setter : Setter} {argv : List (List UInt8)} (spares : setter = .updateUri → UriSpares argv)
    (config : Config) : (applyAll (setter.updates argv) config).ver = config.ver := by
  refine ver_applyAll (fun update among => ?_) config
  by_cases uri : setter = .updateUri
  · subst uri
    have fits := spares rfl
    rcases argv with _ | ⟨name, _ | ⟨uri, _ | _⟩⟩ <;>
      simp only [Setter.updates, configSetUpdateUri, List.not_mem_nil, List.mem_singleton] at among
    rw [among]
    have member : Field.updateUri ∈ Field.all ∧ Field.updateUri ≠ Field.ver := by decide
    refine ⟨⟨member.1, ?_⟩, member.2⟩
    -- The text is copied with its terminator.
    show (cString uri ++ [0]).length ≤ 50
    rw [List.length_append]
    exact fits
  · have others : ∀ field ∈ setter.fields, field ≠ Field.ver := by cases setter <;> decide
    obtain ⟨within, named⟩ := updates_within uri update among
    exact ⟨within, others _ named⟩

/-- What is newer than all that has been saved stays so when it is replaced by something newer. -/
theorem NoneNewer.mono {ver later : UInt32} (below : NoneNewer acts ver) (newer : ver ≤ later) : NoneNewer acts later :=
  fun act among saved => UInt32.le_trans (below act among saved) newer

/-- Something else is seen that has not been saved, or is not newer. -/
theorem NoneNewer.append {ver : UInt32} {act : OtaAct} (below : NoneNewer acts ver)
    (also : act.isSave = true → act.ver ≤ ver) : NoneNewer (acts ++ [act]) ver := by
  intro other among
  rcases List.mem_append.mp among with before | single
  · exact below other before
  · exact List.mem_singleton.mp single ▸ also

/-- A version comes after all that has been saved. -/
theorem Installed.append {act : OtaAct} (installed : Installed env life acts register)
    (newer : register.current.ver < act.ver) : (acts ++ [act]).Pairwise Surpasses := by
  refine List.pairwise_append.mpr ⟨installed.ordered, List.pairwise_singleton _ _, fun earlier among later single => ?_⟩
  rw [List.mem_singleton.mp single]
  exact fun saved => UInt32.lt_of_le_of_lt (installed.below earlier among saved) newer

/-- The version in memory is the one of the register. -/
theorem ShowsRegister.ver {unit : MainUnit} (shows : ShowsRegister env unit register) :
    register.current.ver = unit.store.config.ver := by
  rw [← shows.current, ver_settings]

/-- An assignment to the version is one to the register. -/
theorem ShowsRegister.setVer {unit : MainUnit} (shows : ShowsRegister env unit register) (ver newVer : UInt32) :
    ∃ again, ShowsRegister env (unit.setConfig (OtaState.setVer ⟨unit.store.config, newVer⟩ ver).config) again ∧
      again.current.ver = ver ∧ again.stored = register.stored := by
  have below : ∀ update ∈ [Update.assign Field.ver ver.toNat], update.Below := by
    intro update among
    have front : Field.ver.offset + Field.ver.size ≤ 663 := by decide
    rw [List.mem_singleton.mp among]
    exact (exact_assign (by decide) _).within.below front
  exact ⟨_, shows.write below, ver_assign register.current ver, rfl⟩

/-- Starting the processor again, after the versions have had time to be saved, loads none that is older. -/
theorem Installed.restart {unit : MainUnit} (installed : Installed env life acts register)
    (waited : ∀ count ∈ life.since, 12 ≤ count) (shows : ShowsRegister env unit ⟨register.stored, register.stored⟩) :
    Installed env ⟨unit, 0, 0, none⟩ acts ⟨register.stored, register.stored⟩ := by
  have stored : NoneNewer acts register.stored.ver := by
    cases since : life.since with
    | none => exact installed.stored since
    | some count =>
      have long := waited count since
      exact (installed.pending count since).resolve_right fun short => by omega
  exact ⟨shows, installed.ordered, stored, fun never => absurd rfl never, fun _ => stored,
    fun _ never => absurd never (Option.not_mem_none _)⟩

/-- A main unit that starts with nothing seen so far has nothing to keep. -/
theorem installed_start {unit : MainUnit} (shows : ShowsRegister env unit register) :
    Installed env ⟨unit, 0, 0, none⟩ [] register :=
  ⟨shows, .nil, fun _ never => absurd never List.not_mem_nil, fun never => absurd rfl never,
    fun _ _ never => absurd never List.not_mem_nil, fun _ never => absurd never (Option.not_mem_none _)⟩

/-- An event that keeps the version in memory, and the save counter. -/
theorem Installed.keep {unit : MainUnit} {again : Register Config} (installed : Installed env life acts register)
    (shows : ShowsRegister env unit again) (current : again.current.ver = register.current.ver)
    (stored : again.stored = register.stored) (time : unit.controller.saveTime = life.unit.controller.saveTime) :
    Installed env { life with unit := unit } acts again where
  shows := shows
  ordered := installed.ordered
  below := current ▸ installed.below
  loading := current ▸ installed.loading
  stored := fun none => stored ▸ installed.stored none
  pending := fun count among => by
    rw [stored]
    exact time ▸ installed.pending count among

/-- An iteration that saves puts the versions into flash, and another one brings the next save closer. -/
theorem Installed.task {task : Event} {outcome : SaveOutcome} {unit : MainUnit}
    (installed : Installed env life acts register)
    (tells : ChecksumTells fireMachine env life.unit (.task task outcome))
    (taken : unitStep fireMachine env life.unit (.task task outcome) = some unit) :
    ∃ again, Installed env { life with
      unit := unit
      since := life.since.map fun count => if unitExecuted life.unit (.task task outcome) then count + 1 else count }
      acts again := by
  obtain ⟨done, saves, _⟩ := unitStep_task taken
  have ticks := controllerStep_save done
  have shows := installed.shows.step tells taken
  rw [unitOp] at shows
  -- A save makes every version safe that has been passed on.
  by_cases saving : unitSaves fireMachine life.unit (.task task outcome) = true
  · rw [if_pos saving] at shows
    exact ⟨_, shows, installed.ordered, installed.below, installed.loading, fun _ => installed.below,
      fun _ _ => Or.inl installed.below⟩
  · rw [if_neg saving] at shows
    refine ⟨_, shows, installed.ordered, installed.below, installed.loading, fun none => ?_, fun count among => ?_⟩
    -- Without a save, what is in flash remains as it was.
    · exact installed.stored (by simpa using none)
    · obtain ⟨before, since, rfl⟩ := Option.mem_map.mp among
      -- The number of iterations since the version was saved bounds the counter of the loop from below.
      refine (installed.pending before since).imp id fun short => ?_
      rw [← saves] at ticks
      rw [Bool.not_eq_true] at saving
      rw [saving] at ticks
      have same : unitExecuted life.unit (.task task outcome) = executed life.unit.controller task := rfl
      rw [same]
      by_cases counts : executed life.unit.controller task = true
      · -- A counter that did not fire has been below its limit.
        rw [if_pos counts, tick] at ticks
        rw [if_pos counts]
        split at ticks
        · cases (Prod.mk.inj ticks).2
        · rename_i undue
          have next : unit.controller.saveTime = life.unit.controller.saveTime + 1 := (Prod.mk.inj ticks).1
          show before + 1 ≤ unit.controller.saveTime ∧ before + 1 ≤ 11
          omega
      -- An iteration without execution does not count.
      · rw [if_neg counts] at ticks
        rw [if_neg counts]
        have next : unit.controller.saveTime = life.unit.controller.saveTime := (Prod.mk.inj ticks).1
        show before ≤ unit.controller.saveTime ∧ before ≤ 11
        omega

/-- A completed download is one of those in progress, and assigns its version. -/
theorem lifeStep_complete (taken : lifeStep fireMachine env life .complete = some next) :
    life.loading ≠ 0 ∧ next =
      ⟨life.unit.setConfig (otaSaveVer ⟨life.unit.store.config, life.newVer⟩).config, life.newVer, life.loading - 1,
        some 0⟩ := by
  obtain ⟨begun, same⟩ := Option.ite_none_left_eq_some.mp taken
  exact ⟨begun, (Option.some.inj same).symm⟩

/-- What an event of the main unit does to its life. -/
theorem lifeStep_unit {event : UnitEvent} (taken : lifeStep fireMachine env life (.unit event) = some next) :
    ∃ unit, unitStep fireMachine env life.unit event = some unit ∧
      next = if event.restarts life.unit then ⟨unit, 0, 0, none⟩
        else { life with
          unit := unit
          since := life.since.map fun count => if unitExecuted life.unit event then count + 1 else count } := by
  cases event with
  | version ver => cases taken
  | _ =>
    simp only [lifeStep, Option.map_eq_some_iff] at taken
    obtain ⟨unit, done, same⟩ := taken
    exact ⟨unit, done, same.symm⟩

/-- An event of the main unit keeps what has been installed, unless the configuration is lost. -/
theorem Installed.unit {event : UnitEvent} (installed : Installed env life acts register)
    (careful : Careful fireMachine env life (.unit event))
    (taken : lifeStep fireMachine env life (.unit event) = some next) :
    ∃ again, Installed env next ((otaAct env life (.unit event)).toList.foldl actsNext acts) again := by
  obtain ⟨tells, spares, waited⟩ := careful
  obtain ⟨unit, moved, rfl⟩ := lifeStep_unit taken
  have shows := installed.shows.step tells moved
  have waits : event.restarts life.unit = true → event.loses env life.unit = false →
      ∀ count ∈ life.since, 12 ≤ count := fun starts kept =>
    (waited starts).resolve_left fun lost => Bool.false_ne_true (kept.symm.trans lost)
  cases event with
  | task task outcome => exact installed.task tells moved
  | message root =>
    rw [unitOp] at shows
    by_cases again : life.unit.restarts root = true
    · have starts : (UnitEvent.message root).restarts life.unit = true := again
      rw [if_pos again] at shows
      rw [if_pos starts]
      exact ⟨_, installed.restart (waits starts rfl) shows⟩
    · have goes : ¬ (UnitEvent.message root).restarts life.unit = true := again
      rw [if_neg again] at shows
      rw [if_neg goes]
      -- The handler writes neither the version nor the counter of the saves.
      have time : unit.controller.saveTime = life.unit.controller.saveTime := by
        obtain ⟨after, handled, rfl⟩ := Option.map_eq_some_iff.mp moved
        have same : life.unit.restarts root = after.calls.contains .cpuReset := by
          rw [MainUnit.restarts, handled, Option.any_some]
        rw [if_neg (same ▸ again)]
      have kept := installed.keep shows (ver_message root register.current) rfl time
      exact ⟨_, by simpa [unitExecuted, otaAct, UnitEvent.loses] using kept⟩
  | shell setter argv =>
    cases Option.some.inj moved
    -- No shell command assigns the version.
    have kept := installed.keep shows (ver_setter spares register.current) rfl rfl
    exact ⟨_, by simpa [unitExecuted, UnitEvent.restarts, otaAct, UnitEvent.loses] using kept⟩
  | version ver => cases taken
  | powerCycle memory => exact ⟨_, installed.restart (waits rfl rfl) shows⟩
  | cut stimulus count memory =>
    rw [unitOp] at shows
    by_cases early : count = 0 ∨ env.crc8Cal life.unit.store.config.covered = life.unit.store.config.crc
    · -- Nothing has been erased yet, or there is nothing to save.
      have kept : (UnitEvent.cut stimulus count memory).loses env life.unit = false := by
        rcases early with zero | same
        · simp [UnitEvent.loses, zero]
        · simp [UnitEvent.loses, same]
      rw [if_pos early] at shows
      rw [otaAct, kept, if_neg Bool.false_ne_true]
      exact ⟨_, installed.restart (waits rfl kept) shows⟩
    · -- The default is loaded, and everything begins anew.
      have lost : (UnitEvent.cut stimulus count memory).loses env life.unit = true := by
        obtain ⟨begun, differs⟩ := not_or.mp early
        simp [UnitEvent.loses, begun, differs]
      rw [if_neg early] at shows
      rw [otaAct, lost, if_pos rfl]
      exact ⟨_, installed_start shows⟩

/-- What a check comes to: nothing at all, a download, or an assignment to the version. -/
theorem checked_cases (compileTime : UInt32) (root : Option Json) (life : OtaLife) :
    life.checked compileTime root = (⟨life.unit.store.config, life.newVer⟩, none) ∨
    (∃ ver, life.unit.store.config.ver < ver ∧
      life.checked compileTime root = (⟨life.unit.store.config, ver⟩, some ⟨ver, false⟩)) ∨
    (∃ manifest, root = some manifest ∧
      ¬ OtaState.Newer compileTime ⟨life.unit.store.config, life.newVer⟩ (otaVer manifest) ∧
      life.checked compileTime root =
        (OtaState.setVer ⟨life.unit.store.config, life.newVer⟩ (otaVer manifest), none)) := by
  rw [OtaLife.checked]
  cases root with
  | none => exact Or.inl rfl
  | some manifest =>
    rw [otaTask]
    dsimp only
    -- A version that is not newer is assigned, and a newer one is downloaded if it names its file.
    by_cases newer : OtaState.Newer compileTime ⟨life.unit.store.config, life.newVer⟩ (otaVer manifest)
    · rw [if_pos newer]
      cases manifest "file" with
      | none => exact Or.inl rfl
      | some item => exact Or.inr (Or.inl ⟨otaVer manifest, newer.1, rfl⟩)
    · rw [if_neg newer]
      exact Or.inr (Or.inr ⟨manifest, rfl, newer, rfl⟩)

/-- A check starts a download that is newer than everything installed, or keeps what has been installed. -/
theorem Installed.check {compileTime : UInt32} {root : Option Json} (installed : Installed env life acts register)
    (careful : Careful fireMachine env life (.check compileTime root))
    (taken : lifeStep fireMachine env life (.check compileTime root) = some next) :
    ∃ again, Installed env next ((otaAct env life (.check compileTime root)).toList.foldl actsNext acts) again := by
  obtain ⟨single, notOlder⟩ := careful
  -- As the only task looks for a manifest, no download is in progress.
  have idle : ¬ life.loading ≠ 0 := not_not.mpr single
  cases Option.some.inj taken
  rw [otaAct]
  obtain result | ⟨ver, newer, result⟩ | ⟨manifest, rfl, refused, result⟩ := checked_cases compileTime root life
  · -- There is no manifest, or no file.
    rw [result]
    exact ⟨register, installed.shows, installed.ordered, installed.below, installed.loading, installed.stored,
      installed.pending⟩
  -- A manifest with a newer version is passed on to the download.
  · rw [← installed.shows.ver] at newer
    have unsaved {later : UInt32} (never : (OtaAct.starts ver).isSave = true) : (OtaAct.starts ver).ver ≤ later :=
      absurd never Bool.false_ne_true
    rw [result]
    refine ⟨register, installed.shows, installed.append newer, installed.below.append unsaved, ?_,
      fun none => (installed.stored none).append unsaved,
      fun count among => (installed.pending count among).imp (fun stored => stored.append unsaved) id⟩
    -- No other task is downloading, so this is the only download.
    intro _
    refine ⟨?_, newer⟩
    show life.loading + 1 = 1
    omega
  · -- The version of the manifest is stored, which is not older.
    obtain ⟨again, shows, current, stored⟩ := installed.shows.setVer (otaVer manifest) life.newVer
    have later : register.current.ver ≤ otaVer manifest := by
      rw [installed.shows.ver]
      exact notOlder manifest rfl refused
    have below : NoneNewer acts again.current.ver := by
      rw [current]
      exact installed.below.mono later
    rw [result]
    exact ⟨again, shows, installed.ordered, below, fun never => absurd never idle,
      fun none => stored ▸ installed.stored none, fun count among => stored ▸ installed.pending count among⟩

/-- A version that is saved is newer than everything installed, and waits for the next save. -/
theorem Installed.complete (installed : Installed env life acts register)
    (taken : lifeStep fireMachine env life .complete = some next) :
    ∃ again, Installed env next ((otaAct env life .complete).toList.foldl actsNext acts) again := by
  obtain ⟨begun, rfl⟩ := lifeStep_complete taken
  obtain ⟨single, newer⟩ := installed.loading begun
  obtain ⟨again, shows, current, stored⟩ := installed.shows.setVer life.newVer life.newVer
  refine ⟨again, shows, installed.append newer, ?_, ?_, fun never => ?_, fun count among => Or.inr ?_⟩
  · rw [current]
    exact (installed.below.mono (UInt32.le_of_lt newer)).append fun _ => UInt32.le_refl _
  · -- It was the only download.
    intro more
    exact absurd (show life.loading - 1 = 0 by omega) more
  · cases never
  · -- No iteration has passed since.
    cases Option.some.inj among
    exact ⟨Nat.zero_le _, Nat.zero_le _⟩

/-- Every event keeps the versions in order. -/
theorem Installed.step {event : LifeEvent} (installed : Installed env life acts register)
    (careful : Careful fireMachine env life event) (taken : lifeStep fireMachine env life event = some next) :
    ∃ again, Installed env next ((otaAct env life event).toList.foldl actsNext acts) again := by
  cases event with
  | unit event => exact installed.unit careful taken
  | check compileTime root => exact installed.check careful taken
  | complete => exact installed.complete taken
  | fail =>
    obtain ⟨begun, taken⟩ := Option.ite_none_left_eq_some.mp taken
    cases Option.some.inj taken
    have single := (installed.loading begun).1
    -- A failed download leaves everything installed as it is.
    exact ⟨register, installed.shows, installed.ordered, installed.below,
      fun more => absurd (show life.loading - 1 = 0 by omega) more, installed.stored, installed.pending⟩

/-- Iterations of the controller are careful if the checksum tells what is pending. -/
theorem careful_tasks {events : List UnitEvent} (tells : life.unit.Tells env)
    (unmodified : ∀ event ∈ events, Unmodified event) :
    EveryStep (lifeStep fireMachine env) (Careful fireMachine env) life (events.map .unit) := by
  -- The induction is on the events, each of which leaves a checksum that tells.
  induction events generalizing life with
  | nil => trivial
  | cons event rest ih =>
    obtain ⟨first, later⟩ := List.forall_mem_cons.mp unmodified
    cases event with
    | task task outcome =>
      obtain rfl : outcome = .succeeds := first
      refine ⟨⟨fun _ => ⟨rfl, tells⟩, trivial, fun never => absurd never Bool.false_ne_true⟩, fun next taken => ?_⟩
      obtain ⟨unit, moved, rfl⟩ := lifeStep_unit taken
      exact ih (tells.task moved) later
    | _ => exact first.elim

end

/--
In the whole life of a main unit, no version is downloaded or saved after one that has been saved and is not older.

Power may fail and return, and the server may restart the processor, in the middle of a download or whenever a version
that has been saved has had time to be stored. The program may be another one after each restart. If power fails once a
save has begun to erase, the default configuration is loaded, and the versions before that do not count any more.
-/
theorem updates_advance (fireMachine : Bool) (env : ConfigEnv) (memory flash : Config) (events : List LifeEvent)
    (finish : OtaLife)
    (careful : EveryStep (lifeStep fireMachine env) (Careful fireMachine env) (lifeInit env memory flash) events)
    (ran : run (lifeStep fireMachine env) (lifeInit env memory flash) events = some finish) :
    let acts := sinceLoss (observations (lifeStep fireMachine env) (otaAct env) (lifeInit env memory flash) events)
    acts.Pairwise Surpasses ∧ NoneNewer acts finish.unit.store.config.ver := by
  -- The register is carried along without being named in the result.
  obtain ⟨register, installed⟩ := fold_run actsNext (fun life acts => ∃ register, Installed env life acts register)
    (fun _ _ _ _ held careful taken => held.elim fun _ installed => installed.step careful taken)
    ⟨_, installed_start (showsRegister_boot env memory flash)⟩ careful ran
  exact ⟨installed.ordered, installed.shows.ver ▸ installed.below⟩

/-- A manifest with a version and a file. -/
def manifestOf (ver : Int) : Json := fun name =>
  if name = "ver" then some ⟨ver, none⟩ else if name = "file" then some ⟨0, some (ascii "pke_fire.rbl")⟩ else none

/-- Twelve iterations of the controller. -/
def twelveTasks : List UnitEvent :=
  .replicate 12 (.task (.iterate idle) .succeeds)

/-- A version is downloaded and saved, and has had time to be stored. -/
def savedOnce : List LifeEvent :=
  .check 2021041599 (some (manifestOf 2021050199)) :: .complete :: twelveTasks.map .unit

/-- Then power fails and returns. -/
def installedOnce : List LifeEvent :=
  savedOnce ++ [.unit (.powerCycle zeroConfig)]

/-- The main unit that these events begin with. -/
def storedLife : OtaLife :=
  ⟨⟨controllerInit, ⟨storedConfig, storedConfig⟩⟩, 0, 0, none⟩

/-- The version of the manifest is newer than the program and the stored one, so that its file is downloaded. -/
theorem checked_storedLife : storedLife.checked 2021041599 (some (manifestOf 2021050199)) =
    (⟨storedConfig, 2021050199⟩, some ⟨2021050199, false⟩) := by
  have newer : OtaState.Newer 2021041599 ⟨storedConfig, 0⟩ (otaVer (manifestOf 2021050199)) := by decide +kernel
  have same : storedLife.checked 2021041599 (some (manifestOf 2021050199)) =
      otaTask 2021041599 ⟨storedConfig, 0⟩ ⟨some (manifestOf 2021050199), false⟩ := rfl
  rw [same, otaTask]
  simp only [if_pos newer]
  rfl

/-- The version that is assigned is one that the checksum tells. -/
theorem savedVersion_changed :
    crcConfigEnv.crc8Cal (otaSaveVer ⟨storedConfig, 2021050199⟩).config.covered ≠
      (otaSaveVer ⟨storedConfig, 2021050199⟩).config.crc :=
  storedConfig_changed (by decide +kernel) (by decide +kernel)

/-- The events meet the conditions. -/
theorem careful_installedOnce :
    EveryStep (lifeStep true crcConfigEnv) (Careful true crcConfigEnv) storedLife installedOnce := by
  have accepted : NotOlder 2021041599 ⟨storedConfig, 0⟩ ⟨some (manifestOf 2021050199), false⟩ := by decide +kernel
  have waited : (run (lifeStep true crcConfigEnv) storedLife savedOnce).all
      (fun life => decide (∀ count ∈ life.since, 12 ≤ count)) = true := by decide +kernel
  refine everyStep_append.mpr ⟨?_, fun last ran => ⟨⟨trivial, trivial, fun _ => Or.inr ?_⟩, fun _ _ => trivial⟩⟩
  · refine ⟨⟨rfl, accepted⟩, fun loading checked => ⟨trivial, fun saved completed => careful_tasks ?_ ?_⟩⟩
    · obtain ⟨_, rfl⟩ := lifeStep_complete completed
      rw [lifeStep, checked_storedLife] at checked
      cases Option.some.inj checked
      exact fun same => absurd same savedVersion_changed
    · intro event among
      rw [List.eq_of_mem_replicate among]
      rfl
  · -- Twelve iterations have been executed when the power fails.
    rw [ran] at waited
    exact of_decide_eq_true waited

/-- The version is still there when the power returns. -/
theorem updates_advance_once : ∃ finish,
    run (lifeStep true crcConfigEnv) (lifeInit crcConfigEnv zeroConfig storedConfig) installedOnce = some finish ∧
      2021050199 ≤ finish.unit.store.config.ver := by
  have started : lifeInit crcConfigEnv zeroConfig storedConfig = storedLife := by
    rw [lifeInit, boot_valid valid_storedConfig, storedLife]
  have finishes : (run (lifeStep true crcConfigEnv) storedLife installedOnce).isSome = true := by decide +kernel
  obtain ⟨finish, ran⟩ := Option.isSome_iff_exists.mp finishes
  have seen : sinceLoss (observations (lifeStep true crcConfigEnv) (otaAct crcConfigEnv) storedLife installedOnce) =
      [.starts 2021050199, .saves 2021050199] := by decide +kernel
  rw [← started] at ran seen
  have advance := (updates_advance true crcConfigEnv zeroConfig storedConfig installedOnce finish
    (started ▸ careful_installedOnce) ran).2
  rw [seen] at advance
  exact ⟨finish, ran, advance (.saves 2021050199) (List.mem_cons_of_mem _ List.mem_cons_self) rfl⟩

end PkeFire
