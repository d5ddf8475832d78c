import PkeFire.Run.Machine
import PkeFire.Config.Setters

/-! The task that looks for a new firmware, and the version that it keeps. -/

namespace PkeFire

/-- What `ota_task` works on: the configuration, and the version that is being downloaded. -/
structure OtaState where
  config : Config
  newVer : UInt32
  deriving DecidableEq

/-- What a run of `ota_task` meets: the manifest, if it can be fetched and parsed, and the fate of a download. -/
structure OtaCheck where
  root : Option Json
  completes : Bool

/-- A version that is passed on to `http_ota_fw_download`, and whether it has been saved. -/
structure Download where
  ver : UInt32
  completed : Bool
  deriving DecidableEq, Repr

/-- The version in a manifest, which is zero when there is none. -/
def otaVer (root : Json) : UInt32 :=
  match root "ver" with
  | some item => UInt32.ofInt item.valueint
  | none => 0

/-- An assignment to `config.ver`. -/
def OtaState.setVer (s : OtaState) (ver : UInt32) : OtaState :=
  { s with config := (Update.assign Field.ver ver.toNat).apply s.config }

/-- `ota_save_ver`. -/
def otaSaveVer (s : OtaState) : OtaState :=
  s.setVer s.newVer

/-- A version is newer than the stored one and than the running program. -/
def OtaState.Newer (compileTime : UInt32) (s : OtaState) (ver : UInt32) : Prop :=
  s.config.ver < ver ∧ compileTime < ver

instance (compileTime : UInt32) (s : OtaState) (ver : UInt32) : Decidable (s.Newer compileTime ver) :=
  inferInstanceAs (Decidable (_ ∧ _))

/-- `ota_task`, and the download that it starts, if any. -/
def otaTask (compileTime : UInt32) (s : OtaState) (check : OtaCheck) : OtaState × Option Download :=
  match check.root with
  | none => (s, none)
  | some root =>
    if s.Newer compileTime (otaVer root) then
      match root "file" with
      | some _ =>
        let s := { s with newVer := otaVer root }
        -- Only a completed download saves its version.
        (if check.completes then otaSaveVer s else s, some ⟨otaVer root, check.completes⟩)
      -- A newer version without a file is neither downloaded nor stored.
      | none => (s, none)
    -- The version of a manifest that is not newer is stored all the same.
    else (s.setVer (otaVer root), none)

/-- One run of the task. -/
def otaStep (compileTime : UInt32) (s : OtaState) (check : OtaCheck) : Option OtaState :=
  -- A check that fails is a step as well, which leaves the state as it is.
  some (otaTask compileTime s check).1

/-- The downloads that a sequence of checks starts. -/
def downloads (compileTime : UInt32) (start : OtaState) (checks : List OtaCheck) : List Download :=
  observations (otaStep compileTime) (fun s check => (otaTask compileTime s check).2) start checks

/-- The stored version never decreases, and no download is older than one that has been saved before it. -/
def NeverRollsBack (compileTime : UInt32) (start : OtaState) (checks : List OtaCheck) : Prop :=
  EveryStep (otaStep compileTime)
      (fun s check => s.config.ver ≤ (otaTask compileTime s check).1.config.ver) start checks ∧
    (downloads compileTime start checks).Pairwise fun earlier later =>
      earlier.completed = true → earlier.ver < later.ver

/-- The downloads so far are in order, and none of those that have been saved is newer than the stored version. -/
def SavedBelow (s : OtaState) (seen : List Download) : Prop :=
  (seen.Pairwise fun earlier later => earlier.completed = true → earlier.ver < later.ver) ∧
    ∀ earlier ∈ seen, earlier.completed = true → earlier.ver ≤ s.config.ver

/-- The firmware is never rolled back, whatever manifests are met. -/
def FirmwareAdvances : Prop :=
  ∀ compileTime start checks, NeverRollsBack compileTime start checks

/-- A manifest whose version is not newer is at least not older than the stored one. -/
def NotOlder (compileTime : UInt32) (s : OtaState) (check : OtaCheck) : Prop :=
  ∀ root, check.root = some root → ¬ s.Newer compileTime (otaVer root) → s.config.ver ≤ otaVer root

section

variable {compileTime : UInt32} {s : OtaState} {check : OtaCheck}

/-- The version that has been assigned is the stored one. -/
@[simp] theorem ver_setVer (s : OtaState) (ver : UInt32) : (s.setVer ver).config.ver = ver :=
  ver_assign s.config ver

/-- A run of the task advances the stored version exactly if it meets no older manifest. -/
theorem ver_le_otaTask_iff :
    s.config.ver ≤ (otaTask compileTime s check).1.config.ver ↔ NotOlder compileTime s check := by
  unfold otaTask NotOlder
  cases manifest : check.root with
  | none => simp
  | some root =>
    simp only [Option.some.injEq, forall_eq']
    split
    · rename_i newer
      simp only [newer, not_true_eq_false, false_implies, iff_true]
      -- A newer version replaces the stored one, or nothing happens.
      cases file : root "file" with
      | none => exact UInt32.le_refl _
      | some item =>
        cases check.completes with
        | true =>
          simp only [if_true, otaSaveVer, ver_setVer]
          exact UInt32.le_of_lt newer.1
        | false => exact UInt32.le_refl _
    · rename_i refused
      -- The version of the manifest is the stored one from now on, whichever is greater.
      simp only [ver_setVer, refused, not_false_eq_true, true_implies]

/-- A download that is started is newer than the stored version, and is stored when it completes. -/
theorem otaTask_download {download : Download} (started : (otaTask compileTime s check).2 = some download) :
    s.config.ver < download.ver ∧
      (download.completed = true → (otaTask compileTime s check).1.config.ver = download.ver) := by
  unfold otaTask at started ⊢
  cases manifest : check.root with
  | none => simp [manifest] at started
  | some root =>
    simp only [manifest] at started ⊢
    split at started
    · rename_i newer
      simp only [if_pos newer]
      cases file : root "file" with
      | none => simp [file] at started
      | some item =>
        simp only [file, Option.some.injEq] at started
        rw [← started]
        refine ⟨newer.1, fun completed => ?_⟩
        rw [if_pos (id completed : check.completes = true)]
        exact ver_setVer _ _
    · cases started

/-- No sequence of checks gets stuck. -/
theorem run_otaStep (compileTime : UInt32) (start : OtaState) (checks : List OtaCheck) :
    ∃ finish, run (otaStep compileTime) start checks = some finish :=
  run_total (fun s check => ⟨(otaTask compileTime s check).1, rfl⟩) start checks

/-- While no older manifest is met, every download is newer than those that have been saved before it. -/
theorem downloads_pairwise {start : OtaState} {checks : List OtaCheck}
    (every : EveryStep (otaStep compileTime) (NotOlder compileTime) start checks) :
    (downloads compileTime start checks).Pairwise fun earlier later =>
      earlier.completed = true → earlier.ver < later.ver := by
  obtain ⟨finish, ran⟩ := run_otaStep compileTime start checks
  have nothing : SavedBelow start [] := ⟨List.Pairwise.nil, by simp⟩
  refine (observed_invariant (fun s check => (otaTask compileTime s check).2) SavedBelow ?_ nothing every ran).1
  -- The stored version stays above everything that has been saved.
  intro s check next seen held permitted taken
  obtain ⟨pairwise, below⟩ := held
  have advances := ver_le_otaTask_iff.mpr permitted
  rw [← Option.some.inj taken]
  cases started : (otaTask compileTime s check).2 with
  | none =>
    rw [Option.toList_none, List.append_nil]
    exact ⟨pairwise, fun earlier among completed => UInt32.le_trans (below earlier among completed) advances⟩
  | some download =>
    obtain ⟨newer, stored⟩ := otaTask_download started
    rw [Option.toList_some]
    constructor
    · rw [List.pairwise_append]
      -- The new download exceeds the stored version, and therefore all that has been saved.
      refine ⟨pairwise, List.pairwise_singleton _ _, ?_⟩
      intro earlier among later last completed
      rw [List.mem_singleton.mp last]
      exact UInt32.lt_of_le_of_lt (below earlier among completed) newer
    · intro earlier among completed
      obtain among | last := List.mem_append.mp among
      · exact UInt32.le_trans (below earlier among completed) advances
      · rw [List.mem_singleton.mp last] at completed ⊢
        rw [stored completed]
        exact UInt32.le_refl _

end

/-- The firmware is not rolled back exactly if no older manifest is met. -/
theorem neverRollsBack_iff (compileTime : UInt32) (start : OtaState) (checks : List OtaCheck) :
    NeverRollsBack compileTime start checks ↔
      EveryStep (otaStep compileTime) (NotOlder compileTime) start checks := by
  constructor
  · intro never
    exact never.1.mono fun _ _ advances => ver_le_otaTask_iff.mp advances
  · intro every
    exact ⟨every.mono fun _ _ notOlder => ver_le_otaTask_iff.mpr notOlder, downloads_pairwise every⟩

/-- A manifest without a version brings the stored one back to zero. -/
theorem firmwareAdvances_fails : ¬ FirmwareAdvances := by
  intro advances
  let start := OtaState.setVer ⟨zeroConfig, 0⟩ 1
  have kept := (advances 0 start [⟨some fun _ => none, false⟩]).1.1
  have older := ver_le_otaTask_iff.mp kept (fun _ => none) rfl (by rintro ⟨_, newer⟩; exact absurd newer (by decide))
  rw [ver_setVer] at older
  exact absurd older (by decide)

end PkeFire
