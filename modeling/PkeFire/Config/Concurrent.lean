import PkeFire.Run.Machine
import PkeFire.Config.Checksum

/-! `config_timming_save` while other tasks write the configuration byte by byte. -/

namespace PkeFire

/-- Where a save of the controller's loop stands. -/
inductive SavePc where
  /-- No save has been started. -/
  | idle
  /-- The checksum has been taken over these bytes so far. -/
  | summing (seen : List UInt8)
  /-- The checksum differs from the one in the configuration, where it is to be stored. -/
  | storing (crc : UInt8)
  /-- The partition is looked for. -/
  | finding
  /-- The partition is to be erased. -/
  | erasing
  /-- A byte is to be programmed. -/
  | programming (place : Fin configSize)
  /-- The byte just programmed is to be compared with the one in memory. -/
  | verifying (place : Fin configSize)
  /-- The save has returned without anything to save. -/
  | unchanged
  /-- The save has returned because a flash call has failed. -/
  | failed
  /-- The save has returned, and its erase and its write have succeeded. -/
  | succeeded
  deriving DecidableEq, Repr

/-- The configuration in memory and in flash, and the place of the save that works on them. -/
structure SaveState where
  config : Config
  flash : Config
  pc : SavePc
  deriving DecidableEq

/-- What may happen next. -/
inductive SaveEvent where
  /-- The save goes on, or starts anew, with a flash call that works or does not. -/
  | advance (works : Bool)
  /-- Another task writes a byte of the configuration. -/
  | poke (place : Nat) (byte : UInt8)
  deriving DecidableEq, Repr

namespace SaveState

/-- The next step of the save. -/
def advance (crc8Cal : List UInt8 → UInt8) (works : Bool) (s : SaveState) : SaveState :=
  match s.pc with
  | .idle | .unchanged | .failed | .succeeded => { s with pc := .summing [] }
  | .summing seen =>
    if more : seen.length < configSize - 1 then
      -- The bytes are read from the configuration as it is now.
      { s with pc := .summing (seen ++ [load s.config ⟨seen.length, Nat.lt_of_lt_pred more⟩]) }
    else if crc8Cal seen ≠ s.config.crc then { s with pc := .storing (crc8Cal seen) }
    else { s with pc := .unchanged }
  | .storing crc => { s with config := s.config.setCrc crc, pc := .finding }
  | .finding => { s with pc := if works then .erasing else .failed }
  | .erasing =>
    if works then { s with flash := erased, pc := .programming ⟨0, by decide⟩ } else { s with pc := .failed }
  | .programming place =>
    if works then { s with flash := store s.flash place (load s.config place), pc := .verifying place }
    else { s with pc := .failed }
  | .verifying place =>
    if load s.flash place ≠ load s.config place then { s with pc := .failed }
    else if more : place.val + 1 < configSize then { s with pc := .programming ⟨place.val + 1, more⟩ }
    else { s with pc := .succeeded }

/-- One event. -/
def step (crc8Cal : List UInt8 → UInt8) (s : SaveState) : SaveEvent → Option SaveState
  | .advance works => some (s.advance crc8Cal works)
  | .poke place byte => some { s with config := PkeFire.poke s.config place byte }

end SaveState

/-- The bytes that a statement writes, one event for each. -/
def pokes : Nat → List UInt8 → List SaveEvent
  | _, [] => []
  | offset, byte :: bytes => .poke offset byte :: pokes (offset + 1) bytes

/-- A save that has succeeded leaves a partition that `config_init` accepts, whatever else has been going on. -/
def ConsistentSaves (crc8Cal : List UInt8 → UInt8) : Prop :=
  ∀ config flash events finish, run (SaveState.step crc8Cal) ⟨config, flash, .idle⟩ events = some finish →
    finish.pc = .succeeded → finish.flash.Valid crc8Cal

/-- Another task changes no byte that has been summed already, or is still to be programmed. -/
def Undisturbed (s : SaveState) : SaveEvent → Prop
  | .advance _ => True
  | .poke place byte => PkeFire.poke s.config place byte = s.config ∨
    match s.pc with
    | .idle | .unchanged | .failed | .succeeded => True
    | .summing seen => seen.length ≤ place
    -- The checksum in the configuration is about to be overwritten.
    | .storing _ => place = 663
    | .finding | .erasing => False
    | .programming next => place < next.val
    | .verifying last => place ≤ last.val

/-- Some valid configuration is in flash up to a place, and still in memory from there on. -/
def Halfway (crc8Cal : List UInt8 → UInt8) (count : Nat) (s : SaveState) : Prop :=
  ∃ saved : Config, saved.Valid crc8Cal ∧ (∀ i : Fin configSize, i.val < count → load s.flash i = load saved i) ∧
    ∀ i : Fin configSize, count ≤ i.val → load s.config i = load saved i

/-- What holds at each place of an undisturbed save. -/
def SaveInvariant (crc8Cal : List UInt8 → UInt8) (s : SaveState) : Prop :=
  match s.pc with
  | .idle | .unchanged | .failed => True
  | .summing seen => seen.length ≤ configSize - 1 ∧ seen = s.config.toList.take seen.length
  | .storing crc => crc = crc8Cal s.config.covered
  | .finding | .erasing => s.config.Valid crc8Cal
  | .programming next => Halfway crc8Cal next.val s
  | .verifying last => Halfway crc8Cal (last.val + 1) s
  | .succeeded => s.flash.Valid crc8Cal

section

variable {crc8Cal : List UInt8 → UInt8} {s next : SaveState}

/-- The bytes of a statement, written one after the other, have the effect of the statement. -/
theorem run_pokes (s : SaveState) (offset : Nat) (bytes : List UInt8) :
    run (SaveState.step crc8Cal) s (pokes offset bytes) =
      some { s with config := patch s.config offset bytes } := by
  -- Each byte is written before the ones behind it, as in the patch.
  induction bytes generalizing s offset with
  | nil => rfl
  | cons byte bytes ih =>
    rw [pokes, run_cons, SaveState.step, Option.bind_some, ih, patch]

/-- So the events of a statement let the other tasks do what the setters do. -/
theorem run_update (s : SaveState) (update : Update) :
    run (SaveState.step crc8Cal) s (pokes update.field.offset update.bytes) =
      some { s with config := update.apply s.config } := by
  rw [run_pokes, Update.apply]

/-- The save goes on as its invariant says. -/
theorem saveInvariant_advance (works : Bool) (held : SaveInvariant crc8Cal s) :
    SaveInvariant crc8Cal (s.advance crc8Cal works) := by
  cases place : s.pc with
  | idle | unchanged | failed | succeeded =>
    simp only [SaveInvariant, SaveState.advance, place]
    exact ⟨Nat.zero_le _, rfl⟩
  | summing seen =>
    simp only [SaveInvariant, place] at held
    obtain ⟨bounded, same⟩ := held
    simp only [SaveState.advance, place]
    split
    · -- One more byte is summed, which is the next one of the configuration.
      rename_i more
      have inside : seen.length < s.config.toList.length := by
        rw [Vector.length_toList]
        omega
      have byte : load s.config ⟨seen.length, by omega⟩ = s.config.toList[seen.length] := by
        rw [load, Vector.getElem_toList]
        rfl
      simp only [SaveInvariant, List.length_append, List.length_singleton]
      refine ⟨more, ?_⟩
      rw [List.take_succ_eq_append_getElem inside, ← same, byte]
    · rename_i all
      split
      · -- All the bytes have been summed, so the sum is the checksum.
        have whole : seen.length = configSize - 1 := by omega
        rw [whole] at same
        exact congrArg crc8Cal same
      · trivial
  | storing crc =>
    simp only [SaveInvariant, place] at held
    simp only [SaveInvariant, SaveState.advance, place]
    -- From here on, the configuration in memory is valid.
    rw [held]
    exact valid_setCrc s.config
  | finding =>
    simp only [SaveInvariant, place] at held
    simp only [SaveInvariant, SaveState.advance, place]
    cases works with
    | true => exact held
    | false => trivial
  | erasing =>
    simp only [SaveInvariant, place] at held
    simp only [SaveState.advance, place]
    cases works with
    | true =>
      -- Nothing is in flash yet, and everything is in memory.
      exact ⟨s.config, held, fun i before => absurd before (Nat.not_lt_zero _), fun _ _ => rfl⟩
    | false => trivial
  | programming next =>
    simp only [SaveInvariant, place] at held
    simp only [SaveState.advance, place]
    cases works with
    | true =>
      obtain ⟨saved, valid, written, left⟩ := held
      refine ⟨saved, valid, ?_, fun i above => left i (by omega)⟩
      intro i below
      simp only [if_true, load_store]
      -- The byte just programmed was still the one to be saved.
      by_cases here : next = i
      · rw [if_pos here, ← here]
        exact left next (Nat.le_refl _)
      · have other : next.val ≠ i.val := Fin.val_ne_of_ne here
        rw [if_neg here]
        exact written i (by omega)
    | false => trivial
  | verifying last =>
    simp only [SaveInvariant, place] at held
    simp only [SaveState.advance, place]
    split
    · -- A byte that has changed since it was programmed makes the save fail.
      trivial
    · split
      · exact held
      · -- Every byte has been programmed.
        obtain ⟨saved, valid, written, _⟩ := held
        have whole : s.flash = saved := memory_ext fun i => written i (by omega)
        exact whole ▸ valid

/-- A byte that has been programmed may change in memory. -/
theorem Halfway.poke {count place : Nat} (byte : UInt8) (halfway : Halfway crc8Cal count s) (before : place < count) :
    Halfway crc8Cal count { s with config := PkeFire.poke s.config place byte } := by
  obtain ⟨saved, valid, written, left⟩ := halfway
  refine ⟨saved, valid, written, ?_⟩
  -- The bytes that are still to be programmed stay as they are.
  intro i above
  simp only [load_poke]
  rw [if_neg (by omega)]
  exact left i above

/-- A byte of the configuration that does not matter any more may change. -/
theorem saveInvariant_poke {place : Nat} {byte : UInt8} (held : SaveInvariant crc8Cal s)
    (undisturbed : Undisturbed s (.poke place byte)) :
    SaveInvariant crc8Cal { s with config := poke s.config place byte } := by
  obtain same | allowed := undisturbed
  · -- A byte may always be written again as it is.
    rw [same]
    exact held
  cases stage : s.pc with
  | idle | unchanged | failed =>
    simp only [SaveInvariant]
  | succeeded =>
    simp only [SaveInvariant, stage] at held ⊢
    exact held
  | summing seen =>
    simp only [SaveInvariant, stage] at held allowed ⊢
    refine ⟨held.1, held.2.trans ?_⟩
    -- The byte lies behind the ones that have been summed.
    unfold poke
    split
    · simp only [store, Vector.toList_set]
      rw [List.take_set_of_le allowed]
    · rfl
  | storing crc =>
    simp only [SaveInvariant, stage] at held allowed ⊢
    -- The checksum itself is about to be replaced, and is not covered.
    have kept : Config.covered (poke s.config place byte) = s.config.covered := by
      rw [allowed]
      exact covered_setCrc s.config byte
    rw [kept]
    exact held
  | finding | erasing =>
    simp only [stage] at allowed
  | programming next =>
    simp only [SaveInvariant, stage] at held allowed ⊢
    exact held.poke byte allowed
  | verifying last =>
    simp only [SaveInvariant, stage] at held allowed ⊢
    exact held.poke byte (Nat.lt_succ_of_le allowed)

/-- In a run whose other tasks do not disturb the saves, every save that has succeeded is consistent. -/
theorem consistent_of_undisturbed (crc8Cal : List UInt8 → UInt8) (config flash : Config)
    (events : List SaveEvent) (finish : SaveState)
    (undisturbed : EveryStep (SaveState.step crc8Cal) Undisturbed ⟨config, flash, .idle⟩ events)
    (ran : run (SaveState.step crc8Cal) ⟨config, flash, .idle⟩ events = some finish)
    (done : finish.pc = .succeeded) : finish.flash.Valid crc8Cal := by
  -- Each event keeps the invariant, which at the end is the check of the next boot.
  have kept : SaveInvariant crc8Cal finish := by
    refine run_invariant (SaveInvariant crc8Cal) ?_ ?_ undisturbed ran
    · intro state event next held permitted taken
      cases event with
      | advance works => exact Option.some.inj taken ▸ saveInvariant_advance works held
      | poke place byte => exact Option.some.inj taken ▸ saveInvariant_poke held permitted
    · trivial
  simpa only [SaveInvariant, done] using kept

/-- Some steps of a save in a row, whose flash calls all work. -/
def advances (count : Nat) : List SaveEvent :=
  List.replicate count (.advance true)

/-- Steps in a row are taken in two parts. -/
theorem advances_add (count more : Nat) : advances (count + more) = advances count ++ advances more :=
  List.replicate_append_replicate.symm

/-- A save that nobody disturbs sums up all the bytes. -/
theorem run_summing (crc8Cal : List UInt8 → UInt8) (config flash : Config) {count : Nat}
    (within : count ≤ configSize - 1) :
    run (SaveState.step crc8Cal) ⟨config, flash, .idle⟩ (advances (count + 1)) =
      some ⟨config, flash, .summing (config.toList.take count)⟩ := by
  -- Each step adds the byte behind those that have been summed.
  induction count with
  | zero => rfl
  | succ count ih =>
    have inside : count < config.toList.length := by
      rw [Vector.length_toList]
      omega
    have length : (config.toList.take count).length = count := List.length_take_of_le (by omega)
    rw [advances, List.replicate_succ']
    refine run_append_some.mpr ⟨_, ih (by omega), ?_⟩
    rw [run_singleton, SaveState.step, SaveState.advance]
    simp only [length]
    rw [dif_pos (by omega), List.take_succ_eq_append_getElem inside]
    rfl

/-- The checksum is stored, and the partition is found. -/
theorem run_storing (config flash : Config) (differs : crc8Cal config.covered ≠ config.crc) :
    run (SaveState.step crc8Cal) ⟨config, flash, .summing (config.toList.take (configSize - 1))⟩ (advances 3) =
      some ⟨config.setCrc (crc8Cal config.covered), flash, .erasing⟩ := by
  have length : (config.toList.take (configSize - 1)).length = configSize - 1 :=
    List.length_take_of_le (by rw [Vector.length_toList]; omega)
  have differs : crc8Cal (config.toList.take (configSize - 1)) ≠ config.crc := differs
  simp only [advances, List.replicate_succ, List.replicate_zero, run_cons, run_nil, SaveState.step,
    SaveState.advance, Option.bind_some, length, Nat.lt_irrefl, dite_false, ne_eq, differs, not_false_eq_true,
    if_true]
  rfl

/-- A byte is programmed and found to be right. -/
theorem run_byte (config flash : Config) (place : Fin configSize) :
    run (SaveState.step crc8Cal) ⟨config, flash, .programming place⟩ (advances 2) =
      some ⟨config, store flash place (load config place),
        if more : place.val + 1 < configSize then .programming ⟨place.val + 1, more⟩ else .succeeded⟩ := by
  simp only [advances, List.replicate_succ, List.replicate_zero, run_cons, run_nil, SaveState.step,
    SaveState.advance, Option.bind_some, if_true, load_store_self, ne_eq, not_true_eq_false, if_false]
  -- The last byte completes the save, and any other one is followed by the next.
  split <;> rfl

/-- A save that nobody disturbs any more writes the bytes as they are. -/
theorem run_programming (config : Config) {count : Nat} (within : count < configSize) :
    run (SaveState.step crc8Cal) ⟨config, erased, .programming ⟨0, by decide⟩⟩ (advances (2 * count)) =
      some ⟨config, torn config count, .programming ⟨count, within⟩⟩ := by
  -- Each byte takes two steps.
  induction count with
  | zero =>
    rw [torn_zero]
    rfl
  | succ count ih =>
    rw [advances, Nat.mul_succ, ← List.replicate_append_replicate]
    refine run_append_some.mpr ⟨_, ih (by omega), ?_⟩
    rw [← advances, run_byte, dif_pos (by omega), store_torn]

/-- From its erase on, a save that nobody disturbs any more succeeds. -/
theorem run_erasing (config flash : Config) :
    run (SaveState.step crc8Cal) ⟨config, flash, .erasing⟩
      (advances 1 ++ advances (2 * (configSize - 1)) ++ advances 2) = some ⟨config, config, .succeeded⟩ := by
  -- The last byte is programmed on its own, since nothing follows it.
  refine run_append_some.mpr ⟨⟨config, torn config (configSize - 1), .programming ⟨configSize - 1, by decide⟩⟩,
    run_append_some.mpr ⟨⟨config, erased, .programming ⟨0, by decide⟩⟩, rfl, ?_⟩, ?_⟩
  · exact run_programming config (by decide)
  · rw [run_byte, dif_neg (by decide), store_torn config (by decide), torn_full config (by decide)]

/-- A save during which an update comes between the checksum and the erase. -/
def lateUpdate (update : Update) : List SaveEvent :=
  advances (configSize - 1 + 1) ++ advances 3 ++ pokes update.field.offset update.bytes ++
    (advances 1 ++ advances (2 * (configSize - 1)) ++ advances 2)

/-- The update is saved with the old checksum. -/
theorem run_lateUpdate (config flash : Config) (update : Update)
    (differs : crc8Cal config.covered ≠ config.crc) :
    run (SaveState.step crc8Cal) ⟨config, flash, .idle⟩ (lateUpdate update) =
      some ⟨update.apply (config.setCrc (crc8Cal config.covered)),
        update.apply (config.setCrc (crc8Cal config.covered)), .succeeded⟩ := by
  have summed := run_summing crc8Cal config flash (Nat.le_refl _)
  rw [lateUpdate, run_append, run_append, run_append, summed, Option.bind_some,
    run_storing config flash differs, Option.bind_some, run_update, Option.bind_some, run_erasing]

/-- A save that nobody disturbs. -/
def plainSave : List SaveEvent :=
  advances (configSize - 1 + 1) ++ advances 3 ++ (advances 1 ++ advances (2 * (configSize - 1)) ++ advances 2)

/-- It leaves the configuration in flash, with its checksum. -/
theorem run_plainSave (config flash : Config) (differs : crc8Cal config.covered ≠ config.crc) :
    run (SaveState.step crc8Cal) ⟨config, flash, .idle⟩ plainSave =
      some ⟨config.setCrc (crc8Cal config.covered), config.setCrc (crc8Cal config.covered), .succeeded⟩ := by
  have summed := run_summing crc8Cal config flash (Nat.le_refl _)
  rw [plainSave, run_append, run_append, summed, Option.bind_some, run_storing config flash differs,
    Option.bind_some, run_erasing]

/-- A save during which an update comes while the first bytes have been summed. -/
def earlyUpdate (count : Nat) (update : Update) : List SaveEvent :=
  advances (count + 1) ++ pokes update.field.offset update.bytes ++
    (advances (configSize - 1 - count) ++ advances 3 ++
      (advances 1 ++ advances (2 * (configSize - 1)) ++ advances 2))

/-- An update of bytes that have not been summed yet is saved as if it had come before the save. -/
theorem run_earlyUpdate (config flash : Config) {count : Nat} {update : Update}
    (before : count ≤ update.field.offset) (within : count ≤ configSize - 1) :
    run (SaveState.step crc8Cal) ⟨config, flash, .idle⟩ (earlyUpdate count update) =
      run (SaveState.step crc8Cal) ⟨update.apply config, flash, .idle⟩ plainSave := by
  -- The bytes that have been summed are the same in both configurations.
  have front : config.toList.take count = (update.apply config).toList.take count := by
    have same : slice config 0 count = slice (update.apply config) 0 count :=
      slice_congr fun i _ summed => (load_patch_outside config (Or.inl (by omega))).symm
    simpa only [slice, List.drop_zero] using same
  have whole : advances (configSize - 1 + 1) = advances (count + 1) ++ advances (configSize - 1 - count) := by
    rw [← advances_add]
    exact congrArg advances (by omega)
  -- What follows the sum of the first bytes is the same for both.
  let rest := advances (configSize - 1 - count) ++ advances 3 ++
    (advances 1 ++ advances (2 * (configSize - 1)) ++ advances 2)
  have anew : plainSave = advances (count + 1) ++ rest := by
    rw [plainSave, whole]
    simp only [rest, List.append_assoc]
  calc run (SaveState.step crc8Cal) ⟨config, flash, .idle⟩ (earlyUpdate count update)
      = run (SaveState.step crc8Cal) ⟨update.apply config, flash, .summing (config.toList.take count)⟩ rest := by
        rw [earlyUpdate, run_append, run_append, run_summing crc8Cal config flash within, Option.bind_some,
          run_update, Option.bind_some]
    _ = run (SaveState.step crc8Cal) ⟨update.apply config, flash, .idle⟩ plainSave := by
        rw [front, anew]
        rw [run_append _ (advances (count + 1)), run_summing crc8Cal (update.apply config) flash within,
          Option.bind_some]

/-- Such an update does not disturb the save. -/
theorem undisturbed_pokes (flash : Config) {offset : Nat} {seen : List UInt8} (behind : seen.length ≤ offset)
    (config : Config) (bytes : List UInt8) :
    EveryStep (SaveState.step crc8Cal) Undisturbed ⟨config, flash, .summing seen⟩ (pokes offset bytes) := by
  -- Each byte is written behind the one before it.
  induction bytes generalizing config offset with
  | nil => trivial
  | cons byte bytes ih =>
    refine ⟨Or.inr behind, fun next taken => ?_⟩
    cases Option.some.inj taken
    exact ih (Nat.le_succ_of_le behind) _

/-- Steps of the save itself never disturb it. -/
theorem undisturbed_advances (s : SaveState) (count : Nat) :
    EveryStep (SaveState.step crc8Cal) Undisturbed s (advances count) := by
  refine (everyStep_of_mem fun event among => List.eq_of_mem_replicate among).mono fun state event own => ?_
  rw [own]
  trivial

end

/-- A new time between reports that is set while its save has come to the hundredth byte is saved as well. -/
theorem consistent_of_undisturbed_poll :
    (pollConfig.setCrc (crcConfigEnv.crc8Cal pollConfig.covered)).Valid crcConfigEnv.crc8Cal := by
  let update : Update := .assign Field.pollTime 31
  have ran : run (SaveState.step crcConfigEnv.crc8Cal) ⟨storedConfig, storedConfig, .idle⟩ (earlyUpdate 100 update) =
      some ⟨pollConfig.setCrc (crcConfigEnv.crc8Cal pollConfig.covered),
        pollConfig.setCrc (crcConfigEnv.crc8Cal pollConfig.covered), .succeeded⟩ :=
    (run_earlyUpdate storedConfig storedConfig (by decide) (by decide)).trans
      (run_plainSave pollConfig storedConfig pollConfig_changed)
  have undisturbed : EveryStep (SaveState.step crcConfigEnv.crc8Cal) Undisturbed
      ⟨storedConfig, storedConfig, .idle⟩ (earlyUpdate 100 update) := by
    refine everyStep_append.mpr ⟨everyStep_append.mpr ⟨undisturbed_advances _ _, fun summing reached => ?_⟩,
      fun middle _ => ?_⟩
    · -- The time between reports stands behind the bytes that have been summed.
      rw [run_summing crcConfigEnv.crc8Cal storedConfig storedConfig (by decide)] at reached
      cases Option.some.inj reached
      exact undisturbed_pokes storedConfig (Nat.le_trans (List.length_take_le _ _) (by decide)) _ _
    · exact everyStep_append.mpr ⟨everyStep_append.mpr ⟨undisturbed_advances _ _, fun _ _ => undisturbed_advances _ _⟩,
        fun _ _ => everyStep_append.mpr ⟨everyStep_append.mpr ⟨undisturbed_advances _ _,
          fun _ _ => undisturbed_advances _ _⟩, fun _ _ => undisturbed_advances _ _⟩⟩
  exact consistent_of_undisturbed crcConfigEnv.crc8Cal storedConfig storedConfig (earlyUpdate 100 update)
    ⟨_, pollConfig.setCrc (crcConfigEnv.crc8Cal pollConfig.covered), .succeeded⟩ undisturbed ran rfl

/-- A save is not consistent when the poll time is changed behind its checksum. -/
theorem consistentSaves_fails : ¬ ∀ crc8Cal, ConsistentSaves crc8Cal := by
  intro consistent
  let update : Update := .assign Field.pollTime 31
  have sum : crc8 zeroConfig.covered = 0 := by rw [covered_zeroConfig, crc8_zeros]
  have stale : crc8 (zeroConfig.setCrc 1).covered ≠ (zeroConfig.setCrc 1).crc := by
    rw [covered_setCrc, sum, crc_setCrc]
    decide
  have ran := run_lateUpdate (zeroConfig.setCrc 1) (zeroConfig.setCrc 1) update stale
  have valid := consistent crc8 _ _ _ _ ran rfl
  -- The new poll time stands among zeros, in front of the old checksum.
  have below : update.field.offset + update.bytes.length ≤ 663 := by decide
  have zeros : ∀ i : Fin configSize, i.val < update.field.offset + update.bytes.length → load zeroConfig i = 0 :=
    fun i _ => load_replicate 0 i
  rw [covered_setCrc, sum, Config.Valid, apply_setCrc _ _ below, covered_setCrc, crc_setCrc,
    apply_setCrc _ _ below, covered_setCrc, ← sum, crc8_apply_iff below zeros] at valid
  exact absurd valid (by decide)

end PkeFire
