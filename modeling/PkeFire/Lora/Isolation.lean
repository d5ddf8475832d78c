import PkeFire.Config.Strings
import PkeFire.Lora.Measurements

/-! The frames of one building at the controller of another, whose building number may begin in the same way. -/

namespace PkeFire

/-- The radio of a controller with this configuration. -/
def Config.radio (crc8Cal : List UInt8 → UInt8) (config : Config) : LoraEnv where
  crc8Cal := crc8Cal
  buildingId := .ofFn fun i => load config (i.castLE (by decide))
  tempThreshold := UInt16.ofNat (Field.tempThreshold.value config)
  smokeThreshold := UInt16.ofNat (Field.smokeThreshold.value config)
  pollTime := UInt8.ofNat (Field.pollTime.value config)

/-- The building number of a configuration is this string, with zeros behind it to the end of the member. -/
structure Config.NamedBy (config : Config) (id : List UInt8) : Prop where
  text : 0 ∉ id
  fits : id.length < Field.buildingId.size
  kept : Field.buildingId.bytes config = Field.buildingId.padded id

/-- A call of `lora_send`: what the sender keeps at that moment, and what the caller passes. -/
structure Emission where
  sta : LoraState
  message : Message

/-- The frame that a call of `lora_send` emits. -/
def Emission.frame (sender : LoraEnv) (emission : Emission) : List UInt8 :=
  emission.message.frame sender emission.sta

/-- The receiver has room for the data, as it has for the six bytes of both callers. -/
def Emission.Fits (emission : Emission) : Prop :=
  emission.message.data.length ≤ 26

/-- A receiver takes some bytes without changing its table, sending anything, or being left within a frame. -/
def Ignores (env : LoraEnv) (r : Receiver) (stream : List UInt8) : Prop :=
  ∃ next, run (receive env) r stream = some next ∧ next.Waiting ∧ next.sta = r.sta ∧ next.sent = r.sent

/-- Nothing that the one radio sends matters to the other. -/
structure Isolated (sender receiver : LoraEnv) : Prop where
  /-- Any number of frames is ignored by a receiver that waits for one. -/
  stream : ∀ emissions : List Emission, (∀ emission ∈ emissions, emission.Fits) → ∀ r, Receiver.Waiting r →
    Ignores receiver r (emissions.flatMap (Emission.frame sender))
  /-- A frame that is accepted has no effect, whatever has been received before it. -/
  accepted : ∀ emission : Emission, emission.Fits → ∀ r ch next,
    Receiver.accepted receiver r ch = some (emission.frame sender) → receive receiver r ch = some next →
      next.sta = r.sta ∧ next.sent = r.sent

/-- Controllers of buildings with different numbers are isolated from each other. -/
def BuildingsIsolated : Prop :=
  ∀ crc8Cal sender receiver id name, Config.NamedBy sender id → Config.NamedBy receiver name → id ≠ name →
    Isolated (sender.radio crc8Cal) (receiver.radio crc8Cal)

section

variable {sender receiver : LoraEnv} {r next : Receiver} {config : Config} {id name text : List UInt8}

/-- The beginning of a member that holds a string is the beginning of the string, with zeros behind it. -/
theorem take_padded (whole : 0 ∉ text) {field : Field} {count : Nat} (within : count ≤ field.size) :
    (field.padded text).take count = text.take count ++ List.replicate (count - text.length) 0 := by
  simp only [Field.padded, Update.bytes, cString_of_notMem whole, List.take_append, List.take_take,
    List.take_replicate, List.length_take, Nat.min_eq_left within]
  congr 2
  omega

/-- The string that the beginning of a member holds is the beginning of the string. -/
theorem cString_take_padded (whole : 0 ∉ text) {field : Field} {count : Nat} (within : count ≤ field.size) :
    cString ((field.padded text).take count) = text.take count := by
  have nonzero : ∀ char ∈ text.take count, decide (char ≠ 0) = true := by
    intro char among
    simpa using ne_of_mem_of_not_mem (List.mem_of_mem_take among) whole
  -- The zeros begin where the string ends.
  rw [take_padded whole within, cString, List.takeWhile_append_of_pos nonzero, List.takeWhile_replicate]
  simp

/-- Two strings begin in the same way exactly if the members that hold them do. -/
theorem take_padded_inj (whole : 0 ∉ text) (also : 0 ∉ name) {field : Field} {count : Nat}
    (within : count ≤ field.size) :
    (field.padded text).take count = (field.padded name).take count ↔ text.take count = name.take count := by
  constructor
  · intro same
    rw [← cString_take_padded whole within, same, cString_take_padded also within]
  · intro same
    -- Strings that end early end at the same place.
    have lengths := congrArg List.length same
    rw [List.length_take, List.length_take] at lengths
    rw [take_padded whole within, take_padded also within, same]
    congr 2
    omega

/-- The radio knows the bytes of the building number in their order. -/
theorem toList_buildingId (crc8Cal : List UInt8 → UInt8) (config : Config) :
    (config.radio crc8Cal).buildingId.toList = Field.buildingId.bytes config := by
  apply List.ext_getElem?
  intro i
  simp only [Config.radio, Field.bytes, slice, Field.buildingId, List.drop_zero, List.getElem?_take]
  by_cases within : i < 20
  · -- The member lies at the beginning of the configuration.
    have inside : i < configSize := Nat.lt_trans within (by decide)
    simp [within, inside, load]
  · simp [within]

/-- The checksum is the same function everywhere. -/
theorem crc8Cal_radio (crc8Cal : List UInt8 → UInt8) (config other : Config) :
    (other.radio crc8Cal).crc8Cal = (config.radio crc8Cal).crc8Cal := rfl

/-- Frames carry and compare the first fifteen bytes of the member. -/
theorem frameId_radio (crc8Cal : List UInt8 → UInt8) (config : Config) :
    (config.radio crc8Cal).frameId = (Field.buildingId.bytes config).take 15 := by
  rw [LoraEnv.frameId, toList_buildingId]

/-- Two named configurations put the same number into their frames exactly if their strings begin in the same way. -/
theorem frameId_inj (crc8Cal : List UInt8 → UInt8) {config other : Config} (named : config.NamedBy id)
    (also : other.NamedBy name) :
    (config.radio crc8Cal).frameId = (other.radio crc8Cal).frameId ↔ id.take 15 = name.take 15 := by
  rw [frameId_radio, frameId_radio, named.kept, also.kept]
  exact take_padded_inj named.text also.text (by decide)

/-- Every command or message that sets the building number to a string that fits gives the configuration this name. -/
theorem namedBy_modification {modification : Modification} (replaces : modification.ReplacesTexts)
    (listed : (Field.buildingId, text) ∈ modification.texts) (fits : (cString text).length < Field.buildingId.size) :
    (applyAll modification.updates config).NamedBy (cString text) := by
  obtain ⟨named, sublist, distinct, strings⟩ := texts_sublist replaces
  have members : ∀ text ∈ modification.texts, text.1 ∈ Field.all := fun text among =>
    mem_all_of_text (strings _ (sublist.subset (List.mem_map_of_mem among)))
  refine ⟨zero_notMem_cString text, fits, ?_⟩
  rw [updates_eq_textUpdates replaces, bytes_textUpdates members (distinct.sublist sublist) listed]
  -- What lies behind the first zero of the text is not copied.
  simp only [Field.padded, Update.bytes, cString_of_notMem (zero_notMem_cString text)]

/-- A frame is well formed for every radio with the same checksum. -/
theorem Emission.validFrame {emission : Emission} (fits : emission.Fits) (same : receiver.crc8Cal = sender.crc8Cal) :
    ValidFrame receiver (emission.frame sender) := by
  refine ⟨_, _, length_fields sender emission.sta emission.message, fits, ?_⟩
  rw [Emission.frame, frame_eq_frameBytes, frameBytes, frameBytes, same]

/-- The fields of a frame reach as far as the length. -/
theorem Emission.long (sender : LoraEnv) (emission : Emission) : 23 ≤ (emission.frame sender).length := by
  rw [Emission.frame, frame_eq_frameBytes, frameBytes]
  simp only [List.length_append, List.length_cons, List.length_nil, length_frameId]
  omega

/-- A frame in the buffer is for the building whose number it has been sent with. -/
theorem Emission.forThisBuilding {emission : Emission} (fits : emission.Fits)
    (holds : r.Holds (emission.frame sender)) : r.ForThisBuilding receiver ↔ sender.frameId = receiver.frameId := by
  -- The number is read back as it has been put into the frame.
  have proto : (protocolOf (emission.frame sender)).buildingId = sender.frameId :=
    congrArg Protocol.buildingId (protocolOf_frame emission.sta fits)
  rw [← (protocolOf_held receiver holds (emission.long sender)).2.2.2.2, proto]

/-- A frame with another number is ignored by a receiver that waits for one. -/
theorem Emission.ignores {emission : Emission} (fits : emission.Fits) (same : receiver.crc8Cal = sender.crc8Cal)
    (other : sender.frameId ≠ receiver.frameId) (waiting : r.Waiting) :
    Ignores receiver r (emission.frame sender) := by
  obtain ⟨full, ran, holds, sta, sent⟩ := dispatch_frame waiting (emission.validFrame fits same)
  -- The frame is dropped before its command is looked at.
  rw [dispatch_foreign fun here => other ((Emission.forThisBuilding fits holds).mp here)] at ran
  exact ⟨_, ran, ⟨rfl, rfl⟩, sta, sent⟩

/-- Frames that are ignored one by one are ignored together. -/
theorem ignores_flatMap {env : LoraEnv} {frame : Emission → List UInt8} {emissions : List Emission}
    (each : ∀ emission ∈ emissions, ∀ r, Receiver.Waiting r → Ignores env r (frame emission)) (waiting : r.Waiting) :
    Ignores env r (emissions.flatMap frame) := by
  -- Each frame leaves the receiver ready for the next one.
  induction emissions generalizing r with
  | nil => exact ⟨r, rfl, waiting, rfl, rfl⟩
  | cons emission emissions ih =>
    obtain ⟨middle, ran, again, sta, sent⟩ := each emission List.mem_cons_self r waiting
    obtain ⟨next, rest, waits, kept, silent⟩ := ih (fun other among => each other (List.mem_cons_of_mem _ among)) again
    exact ⟨next, run_append_some.mpr ⟨middle, ran, rest⟩, waits, kept.trans sta, silent.trans sent⟩

/-- Radios that put different numbers into their frames are isolated from each other. -/
theorem isolated_of_frameId (same : receiver.crc8Cal = sender.crc8Cal) (other : sender.frameId ≠ receiver.frameId) :
    Isolated sender receiver where
  stream _ fits _ waiting :=
    ignores_flatMap (fun emission among _ waits => emission.ignores (fits emission among) same other waits) waiting
  accepted emission fits r ch next verdict taken := by
    obtain ⟨full, pushed, held, rfl⟩ := receive_accepted verdict taken
    -- Wherever the frame has been assembled, its number is compared.
    rw [dispatch_foreign fun here => other ((Emission.forThisBuilding fits held).mp here), Receiver.restart,
      sta_push pushed, sent_push pushed]
    exact ⟨rfl, rfl⟩

/-- The answer to a detector that the sender has heard. -/
def detectorAnswer (sender : LoraEnv) : Emission where
  sta := loraStateInit
  message := ⟨1, 2, cmdReport ||| 0x80, Receiver.answerData sender loraStateInit⟩

/-- A radio that puts the same number into its frames registers the detectors that the other one answers. -/
theorem not_isolated_of_frameId (same : receiver.crc8Cal = sender.crc8Cal) (equal : sender.frameId = receiver.frameId) :
    ¬ Isolated sender receiver := by
  intro isolated
  have fits : (detectorAnswer sender).Fits := by
    show (Receiver.answerData sender loraStateInit).length ≤ 26
    exact (by decide : 6 ≤ 26)
  have waiting : (receiverInit (.replicate 50 0)).Waiting := ⟨rfl, rfl⟩
  -- Isolation would have the whole frame ignored by a receiver that has just started.
  obtain ⟨full, ran, holds, sta, _⟩ := dispatch_frame waiting (Emission.validFrame fits same)
  obtain ⟨next, also, _, kept, _⟩ := isolated.stream [detectorAnswer sender] (by simpa using fits) _ waiting
  rw [List.flatMap_singleton] at also
  cases Option.some.inj (ran.symm.trans also)
  have proto : protocolOf ((detectorAnswer sender).frame sender) = _ := protocolOf_frame loraStateInit fits
  obtain ⟨floor, room, _, cmd, _⟩ := protocolOf_held receiver holds ((detectorAnswer sender).long sender)
  rw [proto] at floor room cmd
  simp only [detectorAnswer] at floor room cmd
  have search : loraSearchSmoke (load full.recvBuf 2) (load full.recvBuf 3) full.sta =
      (some 0, (loraSearchSmoke 1 2 loraStateInit).2) := by
    rw [← floor, ← room, sta]
    rfl
  -- An answer is no report, so that it only registers its detector.
  have other : ¬ full.Reports := by
    rw [Receiver.Reports, ← cmd]
    decide
  -- The detector takes the first slot of a table that has been empty.
  have registered := (dispatch_some ((Emission.forThisBuilding fits holds).mpr equal) search).2 other
  have counted := congrArg LoraState.smokeNum (registered.symm.trans kept)
  exact absurd counted (by decide)

end

/-- Controllers are isolated from each other exactly if the first fifteen characters of their numbers differ. -/
theorem buildings_isolated_iff (crc8Cal : List UInt8 → UInt8) (sender receiver : Config) (id name : List UInt8)
    (named : sender.NamedBy id) (other : receiver.NamedBy name) :
    Isolated (sender.radio crc8Cal) (receiver.radio crc8Cal) ↔ id.take 15 ≠ name.take 15 := by
  have same := crc8Cal_radio crc8Cal sender receiver
  rw [← (frameId_inj crc8Cal named other).ne]
  constructor
  · intro isolated equal
    -- The frames of the two could not be told apart.
    exact not_isolated_of_frameId same equal isolated
  · intro differ
    exact isolated_of_frameId same differ

/-- The command that sets the building number. -/
def setBuilding (id : String) : Modification :=
  .shell .buildingid [ascii "config_set_buildingid", ascii id]

/-- The configuration that the command makes of a cleared one. -/
def buildingConfig (id : String) : Config :=
  applyAll (setBuilding id).updates zeroConfig

/-- The command gives the configuration its name. -/
theorem namedBy_buildingConfig {id : String} (line : ShellLine [ascii "config_set_buildingid", ascii id])
    (fits : (cString (ascii id)).length < Field.buildingId.size) :
    (buildingConfig id).NamedBy (cString (ascii id)) := by
  have replaces : (setBuilding id).ReplacesTexts := ⟨by decide, line⟩
  -- The number is the only text of the command.
  exact namedBy_modification replaces List.mem_cons_self fits

/-- Different default numbers keep two controllers apart. -/
theorem buildings_isolated_iff_default :
    Isolated ((buildingConfig "0012ABCD").radio fun _ => 0) ((buildingConfig "0012ABCE").radio fun _ => 0) ↔
      (cString (ascii "0012ABCD")).take 15 ≠ (cString (ascii "0012ABCE")).take 15 :=
  buildings_isolated_iff (fun _ => 0) _ _ _ _
    (namedBy_buildingConfig (by unfold ShellLine; decide +kernel) (by decide +kernel))
    (namedBy_buildingConfig (by unfold ShellLine; decide +kernel) (by decide +kernel))

/-- Two blocks of one estate, whose numbers are told apart by the sixteenth character, are not isolated. -/
theorem buildings_not_isolated : ¬ BuildingsIsolated := by
  intro isolated
  have sender : (buildingConfig "SUNSHINE-ESTATE1").NamedBy _ :=
    namedBy_buildingConfig (by unfold ShellLine; decide +kernel) (by decide +kernel)
  have receiver : (buildingConfig "SUNSHINE-ESTATE2").NamedBy _ :=
    namedBy_buildingConfig (by unfold ShellLine; decide +kernel) (by decide +kernel)
  have different : cString (ascii "SUNSHINE-ESTATE1") ≠ cString (ascii "SUNSHINE-ESTATE2") := by decide +kernel
  -- A frame ends its number before the characters that differ.
  have same : (cString (ascii "SUNSHINE-ESTATE1")).take 15 = (cString (ascii "SUNSHINE-ESTATE2")).take 15 := by
    decide +kernel
  have apart := isolated (fun _ => 0) _ _ _ _ sender receiver different
  have equal := (frameId_inj (fun _ => 0) sender receiver).mpr same
  exact not_isolated_of_frameId (crc8Cal_radio _ _ _) equal apart

end PkeFire
