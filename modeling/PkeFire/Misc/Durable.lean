import PkeFire.Misc.MainUnit

/-! The configuration of the main unit is a register that survives power cycles with what has been saved last. -/

namespace PkeFire

/-- The message restarts the processor. -/
def MainUnit.restarts (root : Option Json) (unit : MainUnit) : Bool :=
  (unit.handler.subTopicHandle1 root).any fun after => after.calls.contains .cpuReset

/-- What an event is to the register of the settings. -/
def unitOp (fireMachine : Bool) (env : ConfigEnv) (unit : MainUnit) : UnitEvent → Option (RegisterOp Config)
  | .task event outcome => if unitSaves fireMachine unit (.task event outcome) then some .commit else none
  | .message root =>
    some (if unit.restarts root then .crash else .write (applyAll ((subTopicHandle1 root).getD [])))
  | .shell setter argv => some (.write (applyAll (setter.updates argv)))
  | .version ver => some (.write (applyAll [.assign Field.ver ver.toNat]))
  | .powerCycle _ => some .crash
  | .cut _ count _ =>
    -- Once the partition has been erased, neither the old settings nor the new ones are left.
    some (if count = 0 ∨ env.crc8Cal unit.store.config.covered = unit.store.config.crc then .crash else .reset)

/-- Flash works, the checksum tells each change from what is in flash, and it does not confirm what a cut has left. -/
def ChecksumTells (fireMachine : Bool) (env : ConfigEnv) (unit : MainUnit) : UnitEvent → Prop
  | .task event outcome => unitSaves fireMachine unit (.task event outcome) = true →
      outcome = .succeeds ∧
        (env.crc8Cal unit.store.config.covered = unit.store.config.crc → unit.store.config = unit.store.flash)
  | .shell _ argv => ShellLine argv
  | .cut _ count _ => count = 0 ∨
      let saved := unit.store.config.setCrc (env.crc8Cal unit.store.config.covered)
      env.crc8Cal (torn saved (count - 1)).covered ≠ 0xff
  | .message _ | .version _ | .powerCycle _ => True

instance (fireMachine : Bool) (env : ConfigEnv) (unit : MainUnit) :
    DecidablePred (ChecksumTells fireMachine env unit)
  | .task event outcome => inferInstanceAs (Decidable (unitSaves fireMachine unit (.task event outcome) = true →
      outcome = .succeeds ∧
        (env.crc8Cal unit.store.config.covered = unit.store.config.crc → unit.store.config = unit.store.flash)))
  | .shell _ argv => inferInstanceAs (Decidable ((argv.map (·.length)).sum ≤ 200))
  | .cut _ count _ => inferInstanceAs (Decidable (count = 0 ∨ env.crc8Cal (Config.covered
      (torn (unit.store.config.setCrc (env.crc8Cal unit.store.config.covered)) (count - 1))) ≠ 0xff))
  | .message _ | .version _ | .powerCycle _ => inferInstanceAs (Decidable True)

/-- The main unit shows the register: memory and flash hold its two values, and the checksum of the latter. -/
structure ShowsRegister (env : ConfigEnv) (unit : MainUnit) (register : Register Config) : Prop where
  current : unit.store.config.settings = register.current
  stored : unit.store.flash.settings = register.stored
  valid : unit.store.flash.Valid env.crc8Cal
  crc : unit.store.config.crc = unit.store.flash.crc

section

variable {fireMachine : Bool} {env : ConfigEnv} {unit next : MainUnit} {register : Register Config}

/-- The main unit starts with a configuration that is valid, and in flash. -/
theorem boot_store (env : ConfigEnv) (memory flash : Config) :
    (boot env memory flash).store.config = loaded env memory flash ∧
      (boot env memory flash).store.flash = loaded env memory flash ∧ (loaded env memory flash).Valid env.crc8Cal := by
  obtain ⟨same, valid⟩ := configInit_succeeds env ⟨memory, flash⟩
  exact ⟨rfl, same, valid⟩

/-- A main unit that finds a valid configuration in flash starts with it. -/
theorem boot_valid {memory flash : Config} (valid : flash.Valid env.crc8Cal) :
    boot env memory flash = ⟨controllerInit, ⟨flash, flash⟩⟩ := by
  obtain ⟨config, stored, _⟩ := boot_store env memory flash
  rw [loaded_valid valid] at config stored
  -- The controller always starts in the same way.
  have same : boot env memory flash =
      ⟨controllerInit, ⟨(boot env memory flash).store.config, (boot env memory flash).store.flash⟩⟩ := rfl
  rw [same, config, stored]

/-- The register begins with what has been loaded. -/
theorem showsRegister_boot (env : ConfigEnv) (memory flash : Config) :
    ShowsRegister env (boot env memory flash)
      ⟨(loaded env memory flash).settings, (loaded env memory flash).settings⟩ := by
  obtain ⟨config, stored, valid⟩ := boot_store env memory flash
  exact ⟨by rw [config], by rw [stored], stored ▸ valid, by rw [config, stored]⟩

/-- A restart brings back what is in flash. -/
theorem ShowsRegister.restart (held : ShowsRegister env unit register) (memory : Config) :
    ShowsRegister env (boot env memory unit.store.flash) ⟨register.stored, register.stored⟩ := by
  have same := showsRegister_boot env memory unit.store.flash
  rwa [loaded_valid held.valid, held.stored] at same

/-- Statements in front of the checksum write the settings in memory. -/
theorem ShowsRegister.write {updates : List Update} (held : ShowsRegister env unit register)
    (below : ∀ update ∈ updates, update.Below) :
    ShowsRegister env (unit.write updates) { register with current := applyAll updates register.current } := by
  obtain ⟨settings, crc⟩ := settings_applyAll unit.store.config below
  exact ⟨by rw [← held.current]; exact settings, held.stored, held.valid, crc.trans held.crc⟩

/-- A save that works stores the settings. -/
theorem ShowsRegister.save {store : ConfigStore} (held : ShowsRegister env unit register)
    (tells : env.crc8Cal unit.store.config.covered = unit.store.config.crc → unit.store.config = unit.store.flash)
    (saved : store = configTimmingSave env .succeeds unit.store) (controller : Controller) :
    ShowsRegister env ⟨controller, store⟩ { register with stored := register.current } := by
  rw [configTimmingSave_succeeds] at saved
  by_cases changed : env.crc8Cal unit.store.config.covered ≠ unit.store.config.crc
  · rw [if_pos changed] at saved
    rw [saved]
    have settings : (unit.store.config.setCrc (env.crc8Cal unit.store.config.covered)).settings = register.current := by
      rw [← held.current, Config.settings, Config.settings, setCrc_setCrc]
    exact ⟨settings, settings, valid_setCrc unit.store.config, rfl⟩
  · -- What seems to be saved is saved.
    rw [if_neg changed] at saved
    have same := tells (not_not.mp changed)
    rw [saved]
    exact ⟨held.current, by rw [← held.current, same], held.valid, held.crc⟩

/-- A cut leaves the settings in flash alone, or replaces them by the default. -/
theorem ShowsRegister.cut (held : ShowsRegister env unit register) {stimulus : Stimulus} {count : Nat}
    (within : count ≤ configSize) (memory : Config)
    (tells : ChecksumTells fireMachine env unit (.cut stimulus count memory)) :
    ShowsRegister env
      (boot env memory (interrupted unit.store.flash (saveSteps env.crc8Cal .timmingSave unit.store.config) count))
      (register.next (defaultSettings env).settings
        (if count = 0 ∨ env.crc8Cal unit.store.config.covered = unit.store.config.crc then .crash else .reset)) := by
  have same := showsRegister_boot env memory
    (interrupted unit.store.flash (saveSteps env.crc8Cal .timmingSave unit.store.config) count)
  rw [loaded_interrupted env memory .timmingSave unit.store.flash unit.store.config count held.valid] at same
  -- A cut before the first step, or of a save that does nothing, leaves the flash as it was.
  by_cases early : count = 0 ∨ env.crc8Cal unit.store.config.covered = unit.store.config.crc
  · have before : count = 0 ∨ (SaveCall.timmingSave = .timmingSave ∧
        env.crc8Cal unit.store.config.covered = unit.store.config.crc) := early.imp id fun equal => ⟨rfl, equal⟩
    rw [if_pos before, held.stored] at same
    rw [if_pos early]
    exact same
  -- Any other cut leaves a torn configuration, which loading replaces.
  · have late : ¬ (count = 0 ∨ (SaveCall.timmingSave = .timmingSave ∧
        env.crc8Cal unit.store.config.covered = unit.store.config.crc)) := fun before =>
      early (before.imp id And.right)
    have begun : count ≠ 0 := fun zero => early (Or.inl zero)
    have unconfirmed := tells.resolve_left begun
    rw [if_neg late] at same
    simp only [if_neg (Nat.not_lt.mpr within), if_neg unconfirmed] at same
    rw [if_neg early]
    -- The default does not depend on what the cut has left.
    have default : (defaultOf env (torn (unit.store.config.setCrc (env.crc8Cal unit.store.config.covered))
        (count - 1))).settings = (defaultSettings env).settings := by
      rw [defaultOf, settings_configDefault, Config.settings, Config.withChecksum, setCrc_setCrc, Config.settings]
    rw [default] at same
    exact same

/-- A message that is handled writes the settings, or restarts the main unit. -/
theorem ShowsRegister.receive (held : ShowsRegister env unit register) {root : Option Json}
    (taken : unit.receive env root = some next) :
    ShowsRegister env next (register.next (defaultSettings env).settings
      (if unit.restarts root then .crash else .write (applyAll ((subTopicHandle1 root).getD [])))) := by
  obtain ⟨after, handled, rfl⟩ := Option.map_eq_some_iff.mp taken
  have restarts : unit.restarts root = after.calls.contains .cpuReset := by
    rw [MainUnit.restarts, handled, Option.any_some]
  rw [restarts]
  split
  · exact held.restart after.config
  · -- The statements of the message are those that write the configuration.
    have config := config_subTopicHandle1 root unit.handler
    rw [handled, Option.map_some] at config
    obtain ⟨updates, statements, same⟩ := Option.map_eq_some_iff.mp config.symm
    have written := held.write (below_message statements)
    rw [statements, ← same]
    exact ⟨written.current, written.stored, written.valid, written.crc⟩

/-- Every event makes one operation of the register, or none. -/
theorem ShowsRegister.step {event : UnitEvent} (held : ShowsRegister env unit register)
    (tells : ChecksumTells fireMachine env unit event) (taken : unitStep fireMachine env unit event = some next) :
    ShowsRegister env next ((unitOp fireMachine env unit event).toList.foldl
      (Register.next (defaultSettings env).settings) register) := by
  cases event with
  | task task outcome =>
    obtain ⟨_, saves, store⟩ := unitStep_task taken
    rw [unitOp]
    -- Of the task, only a save is an operation of the register.
    by_cases saving : unitSaves fireMachine unit (.task task outcome) = true
    · obtain ⟨works, visible⟩ := tells saving
      rw [← saves, if_pos saving, works] at store
      rw [if_pos saving]
      exact held.save visible store next.controller
    · rw [← saves, if_neg saving] at store
      rw [if_neg saving]
      exact ⟨by rw [store]; exact held.current, by rw [store]; exact held.stored, by rw [store]; exact held.valid,
        by rw [store]; exact held.crc⟩
  | message root => exact held.receive taken
  | shell setter argv =>
    -- A shell command writes in front of the checksum.
    cases Option.some.inj taken
    exact held.write (below_setter setter tells)
  | version ver =>
    cases Option.some.inj taken
    refine held.write fun update among => ?_
    -- The version is stored in front of the checksum as well.
    have front : Field.ver.offset + Field.ver.size ≤ 663 := by decide
    rw [List.mem_singleton.mp among]
    exact (exact_assign (by decide) _).within.below front
  | powerCycle memory =>
    cases Option.some.inj taken
    exact held.restart memory
  | cut stimulus count memory =>
    -- A cut comes in the middle of a save, of which it leaves the first steps.
    obtain ⟨controller, _, cut⟩ := Option.bind_eq_some_iff.mp taken
    split at cut
    · rename_i saving
      cases Option.some.inj cut
      exact held.cut saving.2 memory tells
    · cases cut

/-- The checksum tells whether anything in memory is still to be saved. -/
def MainUnit.Tells (env : ConfigEnv) (unit : MainUnit) : Prop :=
  env.crc8Cal unit.store.config.covered = unit.store.config.crc → unit.store.config = unit.store.flash

/-- The checksum goes on telling what is pending while the controller runs. -/
theorem MainUnit.Tells.task {task : Event} (tells : unit.Tells env)
    (taken : unitStep fireMachine env unit (.task task .succeeds) = some next) : next.Tells env := by
  obtain ⟨_, _, store⟩ := unitStep_task taken
  rw [MainUnit.Tells, store, configTimmingSave_succeeds]
  split
  · split
    · -- What has been saved is in memory and in flash.
      exact fun _ => rfl
    · exact tells
  · exact tells

/-- While nothing else happens, no iteration hides anything from the checksum. -/
theorem checksumTells_tasks {events : List UnitEvent} (tells : unit.Tells env)
    (unmodified : ∀ event ∈ events, Unmodified event) :
    EveryStep (unitStep fireMachine env) (ChecksumTells fireMachine env) unit events := by
  -- The induction is on the events, each of which leaves a checksum that tells.
  induction events generalizing unit with
  | nil => trivial
  | cons event rest ih =>
    obtain ⟨first, later⟩ := List.forall_mem_cons.mp unmodified
    cases event with
    | task task outcome =>
      obtain rfl : outcome = .succeeds := first
      exact ⟨fun _ => ⟨rfl, tells⟩, fun next taken => ih (tells.task taken) later⟩
    | _ => exact first.elim

end

/--
The main unit refines a register of its settings.

The register works on the settings in memory, each save commits them, each restart goes back to the last ones that were
committed, and a cut that has begun to write replaces them by the default. So, as long as nothing else is stored, a
power cycle brings back the settings as they were when they were saved last.
-/
theorem settings_are_register (fireMachine : Bool) (env : ConfigEnv) (memory flash : Config) (events : List UnitEvent)
    (finish : MainUnit)
    (tells : EveryStep (unitStep fireMachine env) (ChecksumTells fireMachine env) (boot env memory flash) events)
    (ran : run (unitStep fireMachine env) (boot env memory flash) events = some finish) :
    let start : Register Config := ⟨(loaded env memory flash).settings, (loaded env memory flash).settings⟩
    let ops := observations (unitStep fireMachine env) (unitOp fireMachine env) (boot env memory flash) events
    let default := (defaultSettings env).settings
    finish.store.config.settings = (start.after default ops).current ∧
      ∀ again, (boot env again finish.store.flash).store.config.settings = (start.after default ops).stored ∧
        ∀ before rest, ops = before ++ .commit :: rest → (∀ op ∈ rest, op.stores = false) →
          (boot env again finish.store.flash).store.config.settings = (start.after default before).current := by
  -- The run and the register go side by side, event by event.
  have shown := fold_run (Register.next (defaultSettings env).settings) (ShowsRegister env)
    (fun _ _ _ _ held tells taken => held.step tells taken) (showsRegister_boot env memory flash) tells ran
  intro start ops default
  refine ⟨shown.current, fun again => ?_⟩
  have restored : (boot env again finish.store.flash).store.config.settings = (start.after default ops).stored :=
    (shown.restart again).current
  -- What has been stored last is what was current at the last save.
  refine ⟨restored, fun before rest split keep => ?_⟩
  rw [restored, split]
  exact Register.stored_after_commit keep

/-- A new time between reports that is saved by the twelfth iteration, and a power cycle. -/
def pollEvents : List UnitEvent :=
  .shell .loraUpdatetime [ascii "config_set_lora_updatetime", ascii "5"] ::
    (.replicate 12 (.task (.iterate idle) .succeeds) ++ [.powerCycle zeroConfig])

/-- A new time between reports survives a power cycle that follows twelve iterations. -/
theorem settings_are_register_poll : ∃ finish,
    run (unitStep true crcConfigEnv) (boot crcConfigEnv zeroConfig storedConfig) pollEvents = some finish ∧
      Field.pollTime.value finish.store.config.settings = 5 := by
  -- The stored configuration is valid, and is loaded as it is.
  have started : boot crcConfigEnv zeroConfig storedConfig = ⟨controllerInit, ⟨storedConfig, storedConfig⟩⟩ :=
    boot_valid valid_storedConfig
  have finishes : (run (unitStep true crcConfigEnv) ⟨controllerInit, ⟨storedConfig, storedConfig⟩⟩
      pollEvents).isSome = true := by decide +kernel
  obtain ⟨finish, ran⟩ := Option.isSome_iff_exists.mp finishes
  rw [← started] at ran
  have tells : EveryStep (unitStep true crcConfigEnv) (ChecksumTells true crcConfigEnv)
      (boot crcConfigEnv zeroConfig storedConfig) pollEvents := by
    have line : ShellLine [ascii "config_set_lora_updatetime", ascii "5"] := by
      unfold ShellLine
      decide +kernel
    refine ⟨line, fun next taken => everyStep_append.mpr ⟨checksumTells_tasks ?_ ?_, fun _ _ => ⟨trivial, fun _ _ =>
      trivial⟩⟩⟩
    · -- The command leaves a change that the checksum tells.
      cases Option.some.inj taken
      have statements : Setter.updates .loraUpdatetime [ascii "config_set_lora_updatetime", ascii "5"] =
          [.assign Field.pollTime 5] := by decide +kernel
      rw [started, statements]
      intro same
      exact absurd same (storedConfig_changed (by decide) (by decide))
    -- The other events are iterations whose saves succeed.
    · exact fun event among => List.eq_of_mem_replicate among ▸ rfl
  have shown := settings_are_register true crcConfigEnv zeroConfig storedConfig pollEvents finish tells ran
  refine ⟨finish, ran, ?_⟩
  rw [shown.1, loaded_valid valid_storedConfig, started]
  decide +kernel

end PkeFire
