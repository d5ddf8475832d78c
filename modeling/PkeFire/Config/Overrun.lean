import PkeFire.Config.Strings

/-! Which shell commands write nothing but the members that they name. -/

namespace PkeFire

/-- A command leaves every byte outside the members that it names as it is. -/
def Setter.KeepsOthers (setter : Setter) (argv : List (List UInt8)) (config : Config) : Prop :=
  ∀ place : Fin configSize, (∀ field ∈ setter.fields, ¬ field.Covers place) →
    load (applyAll (setter.updates argv) config) place = load config place

/-- No command ever writes outside the members that it names. -/
def SettersKeepOthers : Prop :=
  ∀ setter argv config, ShellLine argv → Setter.KeepsOthers setter argv config

/-- What `strcpy` writes behind `update_uri`. -/
def behindUri (uri : List UInt8) : List UInt8 :=
  (cString uri ++ [0]).drop Field.updateUri.size

/-- What `strcpy` would write behind `update_uri` is there already. -/
def UriFits (uri : List UInt8) (config : Config) : Prop :=
  behindUri uri = slice config (Field.updateUri.offset + Field.updateUri.size) (behindUri uri).length

/-- The command is not `config_set_update_uri` with an argument, or that argument changes nothing behind its member. -/
def Setter.StaysWithin (setter : Setter) (argv : List (List UInt8)) (config : Config) : Prop :=
  setter = .updateUri → ∀ name uri, argv = [name, uri] → UriFits uri config

section

variable {config : Config} {argv : List (List UInt8)} {uri : List UInt8}

/-- The commands that copy with a bound, or assign numbers, write within the members that they name. -/
theorem updates_within {setter : Setter} (bounded : setter ≠ .updateUri) :
    ∀ update ∈ setter.updates argv, update.Within ∧ update.field ∈ setter.fields := by
  -- An assigned member is written by its own bytes.
  have assigned {field : Field} (member : field ∈ Field.all) (named : field ∈ setter.fields) (value : Int) :
      (Update.assign field value).Within ∧ (Update.assign field value).field ∈ setter.fields :=
    ⟨(exact_assign member value).within, named⟩
  have members : ∀ field ∈ setter.fields, field ∈ Field.all := by
    cases setter <;> decide
  by_cases replaces : setter ∈ textSetters
  -- A command for texts clears and copies members one after the other, each of them exactly.
  · intro update among
    rw [Setter.updates_eq replaces] at among
    have texts := setter.texts_sublist argv
    have exact := exact_textUpdates fun text listed =>
      members _ (texts.subset (List.mem_map_of_mem listed))
    exact ⟨(exact update among).within, texts.subset (field_textUpdates update among)⟩
  · cases setter with
    -- The other commands assign numbers, and do nothing when they are given another number of arguments.
    | loraFreq | loraUpdatetime =>
      rcases argv with _ | ⟨_, _ | ⟨number, _ | _⟩⟩ <;>
        simp only [Setter.updates, configSetLoraFreq, configSetLoraUpdatetime, setNumber, List.forall_mem_cons,
          List.not_mem_nil, false_implies, implies_true, and_true]
      exact assigned (by decide) (by decide) _
    | smoke =>
      rcases argv with _ | ⟨_, _ | ⟨_, _ | ⟨_, _ | ⟨_, _ | _⟩⟩⟩⟩ <;>
        simp only [Setter.updates, configSetSmoke, List.forall_mem_cons, List.not_mem_nil, false_implies,
          implies_true, and_true]
      exact ⟨assigned (by decide) (by decide) _, assigned (by decide) (by decide) _,
        assigned (by decide) (by decide) _⟩
    -- The one command that copies without a bound is excluded.
    | updateUri => exact absurd rfl bounded
    | host | user | passwd | id | publishTopic | subscribeTopic | buildingid | connect =>
      exact absurd (by decide) replaces

/-- The other bytes stay what they are while every statement of a command keeps to its member. -/
theorem keepsOthers_of_bounded {setter : Setter} (bounded : setter ≠ .updateUri) :
    setter.KeepsOthers argv config := by
  intro place outside
  have within : ∀ update ∈ setter.updates argv, update.Within ∧ update.field ∈ setter.fields :=
    updates_within bounded
  exact load_applyAll (fun update among => (within update among).1)
    (fun update among => (within update among).2) outside

/-- A copy without a bound writes the rest of its text behind its member. -/
theorem slice_behindUri (config : Config) (fits : uri.length ≤ 200) :
    slice ((Update.copyAll Field.updateUri uri).apply config) (Field.updateUri.offset + Field.updateUri.size)
      (behindUri uri).length = behindUri uri := by
  have chars : (cString uri).length ≤ uri.length := (List.takeWhile_sublist _).length_le
  have length : (Update.copyAll Field.updateUri uri).bytes.length = (cString uri).length + 1 := List.length_append
  have inside : Field.updateUri.offset + (Update.copyAll Field.updateUri uri).bytes.length ≤ configSize := by
    rw [length]
    show 460 + ((cString uri).length + 1) ≤ 664
    omega
  have written := slice_patch_same config inside
  -- The text as a whole begins where its member does.
  have rest := congrArg (List.drop Field.updateUri.size) written
  rw [slice, List.drop_take, List.drop_drop] at rest
  rw [behindUri, List.length_drop]
  exact rest

/-- A copy without a bound leaves every other byte alone exactly if what it writes past its member is there already. -/
theorem keepsOthers_uri_iff (name : List UInt8) (fits : uri.length ≤ 200) :
    Setter.updateUri.KeepsOthers [name, uri] config ↔ UriFits uri config := by
  have written := slice_behindUri config fits
  constructor
  · intro keeps
    refine written.symm.trans (slice_congr fun place begun _ => ?_)
    -- A place behind the member is one that the command does not name.
    refine keeps place fun field named => ?_
    rw [List.mem_singleton.mp named]
    unfold Field.Covers
    omega
  · intro same place outside
    have foreign := outside Field.updateUri List.mem_cons_self
    unfold Field.Covers at foreign
    by_cases behind : Field.updateUri.offset + Field.updateUri.size ≤ place.val ∧
        place.val < Field.updateUri.offset + Field.updateUri.size + (behindUri uri).length
    · exact load_of_slice (written.trans same) behind.1 behind.2
    · have length : (behindUri uri).length = (cString uri ++ [0]).length - Field.updateUri.size := List.length_drop
      refine load_patch_outside config ?_
      show place.val < Field.updateUri.offset ∨ Field.updateUri.offset + (cString uri ++ [0]).length ≤ place.val
      omega

/-- A command leaves everything that it does not name as it is exactly if no text runs over the end of `update_uri`. -/
theorem keepsOthers_iff (setter : Setter) (argv : List (List UInt8)) (config : Config) (line : ShellLine argv) :
    setter.KeepsOthers argv config ↔ setter.StaysWithin argv config := by
  by_cases unbounded : setter = .updateUri
  · subst unbounded
    by_cases two : ∃ name uri, argv = [name, uri]
    · obtain ⟨name, uri, rfl⟩ := two
      -- The text is no longer than the line of the shell.
      have fits : uri.length ≤ 200 := by
        simp only [ShellLine, List.map_cons, List.map_nil, List.sum_cons, List.sum_nil] at line
        omega
      rw [keepsOthers_uri_iff name fits]
      constructor
      · rintro same _ _ _ arguments
        cases arguments
        exact same
      · exact fun stays => stays rfl name uri rfl
    · -- With any other number of arguments, nothing is copied.
      have none : configSetUpdateUri argv = [] := by
        unfold configSetUpdateUri
        split
        · exact absurd ⟨_, _, rfl⟩ two
        · rfl
      refine ⟨fun _ _ name uri arguments => absurd ⟨name, uri, arguments⟩ two, fun _ place _ => ?_⟩
      rw [Setter.updates, none]
      rfl
  -- Every other command stays within its members anyway.
  · exact ⟨fun _ same => absurd same unbounded, fun _ => keepsOthers_of_bounded unbounded⟩

end

/-- An address of 51 characters is set from the shell. -/
def longUri : List (List UInt8) :=
  [ascii "config_set_update_uri", List.replicate 51 97]

/-- The long address fits on a line of the shell. -/
theorem shellLine_longUri : ShellLine longUri := by
  unfold ShellLine
  decide +kernel

/-- The last character of the long address is written into the version. -/
theorem settersKeepOthers_fails : ¬ SettersKeepOthers := by
  intro keep
  have keeps := keep .updateUri longUri zeroConfig shellLine_longUri
  have fits := (keepsOthers_uri_iff (ascii "config_set_update_uri") (by decide)).mp keeps
  exact absurd fits (by unfold UriFits; decide +kernel)

/-- The rule decides about the long address. -/
theorem keepsOthers_iff_longUri : Setter.updateUri.KeepsOthers longUri zeroConfig ↔
    Setter.updateUri.StaysWithin longUri zeroConfig :=
  keepsOthers_iff .updateUri longUri zeroConfig shellLine_longUri

end PkeFire
