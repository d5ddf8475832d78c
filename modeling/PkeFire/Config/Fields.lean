import PkeFire.Config.Setters

/-! What the statements that write the configuration do to each of its members, and what they leave alone. -/

namespace PkeFire

/-- Two members have no byte in common. -/
def Field.Apart (field other : Field) : Prop :=
  field.offset + field.size ≤ other.offset ∨ other.offset + other.size ≤ field.offset

/-- A byte of the configuration belongs to a member. -/
def Field.Covers (field : Field) (place : Nat) : Prop :=
  field.offset ≤ place ∧ place < field.offset + field.size

/-- A text as a member keeps it: cut to the size of the member, and filled up with zeros. -/
def Field.padded (field : Field) (text : List UInt8) : List UInt8 :=
  (Update.copy field text).bytes

/-- A statement writes no bytes outside its member. -/
def Update.Within (update : Update) : Prop :=
  update.field ∈ Field.all ∧ update.bytes.length ≤ update.field.size

/-- A statement writes all the bytes of a member, and no others. -/
def Update.Exact (update : Update) : Prop :=
  update.field ∈ Field.all ∧ update.bytes.length = update.field.size

/-- The arguments of a command fit on one line of the shell (FINSH_CMD_SIZE). -/
def ShellLine (argv : List (List UInt8)) : Prop :=
  (argv.map (·.length)).sum ≤ 200

/-- The members that a shell command names. -/
def Setter.fields : Setter → List Field
  | .host => [Field.mqttHost]
  | .user => [Field.mqttUser]
  | .passwd => [Field.mqttPassword]
  | .id => [Field.mqttId]
  | .publishTopic => [Field.mqttPublishTopic]
  | .subscribeTopic => [Field.mqttSubscribeTopic]
  | .buildingid => [Field.buildingId]
  | .connect => [Field.buildingId, Field.mqttId, Field.mqttUser, Field.mqttPassword]
  | .smoke => [Field.tempThreshold, Field.smokeThreshold, Field.pollTime]
  | .loraFreq => [Field.loraFreq]
  | .loraUpdatetime => [Field.pollTime]
  | .updateUri => [Field.updateUri]

/-- The statements by which some texts replace those of their members. -/
def textUpdates (texts : List (Field × List UInt8)) : List Update :=
  texts.flatMap fun text => [.clear text.1, .copy text.1 text.2]

section

variable {config : Config} {field other : Field} {update : Update} {text : List UInt8}

/-- Whether two members have a byte in common is decided by their places. -/
instance (field other : Field) : Decidable (field.Apart other) :=
  instDecidableOr

/-- Different members of the configuration have no byte in common. -/
theorem apart_of_ne (member : field ∈ Field.all) (also : other ∈ Field.all) (distinct : field ≠ other) :
    field.Apart other := by
  have each : ∀ field ∈ Field.all, ∀ other ∈ Field.all, field ≠ other → field.Apart other := by decide
  exact each field member other also distinct

/-- Every member lies within the configuration. -/
theorem inside_of_mem (member : field ∈ Field.all) : field.offset + field.size ≤ configSize := by
  have each : ∀ field ∈ Field.all, field.offset + field.size ≤ configSize := by decide
  exact each field member

/-- A member that is cleared is overwritten as a whole. -/
theorem exact_clear (member : field ∈ Field.all) : (Update.clear field).Exact :=
  ⟨member, List.length_replicate⟩

/-- A text fills its member, with zeros if need be. -/
theorem length_padded (field : Field) (text : List UInt8) : (field.padded text).length = field.size := by
  simp only [Field.padded, Update.bytes, List.length_append, List.length_replicate, List.length_take]
  omega

/-- A member whose text is replaced is overwritten as a whole. -/
theorem exact_copy (member : field ∈ Field.all) : (Update.copy field text).Exact :=
  ⟨member, length_padded field text⟩

/-- A number fills its member. -/
theorem exact_assign (member : field ∈ Field.all) (value : Int) : (Update.assign field value).Exact :=
  ⟨member, length_assign field value⟩

/-- A statement that overwrites its member as a whole writes nothing else. -/
theorem Update.Exact.within (exact : update.Exact) : update.Within :=
  ⟨exact.1, Nat.le_of_eq exact.2⟩

/-- A statement leaves the bytes outside its member alone. -/
theorem Update.Within.load (within : update.Within) {place : Fin configSize} (outside : ¬ update.field.Covers place) :
    load (update.apply config) place = load config place := by
  have short := within.2
  unfold Field.Covers at outside
  refine load_patch_outside config ?_
  omega

/-- The bytes of a member after a statement that has written them. -/
theorem Update.Exact.bytes_self (exact : update.Exact) : update.field.bytes (update.apply config) = update.bytes := by
  have inside := inside_of_mem exact.1
  rw [← exact.2] at inside
  have read := slice_patch_same config inside
  rwa [exact.2] at read

/-- The bytes of a member after a statement about another one. -/
theorem Update.Exact.bytes_other (exact : update.Exact) (member : field ∈ Field.all)
    (distinct : update.field ≠ field) : field.bytes (update.apply config) = field.bytes config := by
  have apart := apart_of_ne exact.1 member distinct
  unfold Field.Apart at apart
  refine slice_congr fun place begun within => exact.within.load ?_
  -- No byte belongs to both members.
  unfold Field.Covers
  omega

/-- Statements about some members leave all other bytes alone. -/
theorem load_applyAll {updates : List Update} {named : List Field} (within : ∀ update ∈ updates, update.Within)
    (about : ∀ update ∈ updates, update.field ∈ named) {place : Fin configSize}
    (outside : ∀ field ∈ named, ¬ field.Covers place) :
    load (applyAll updates config) place = load config place := by
  -- The induction is on the statements, each of which has its own member.
  induction updates generalizing config with
  | nil => rfl
  | cons update updates ih =>
    have first : load (update.apply config) place = load config place :=
      (within update List.mem_cons_self).load (outside _ (about update List.mem_cons_self))
    rw [← first]
    exact ih (fun later among => within later (List.mem_cons_of_mem _ among))
      (fun later among => about later (List.mem_cons_of_mem _ among))

/-- Statements about other members leave a member alone. -/
theorem bytes_applyAll {updates : List Update} (exact : ∀ update ∈ updates, update.Exact)
    (member : field ∈ Field.all) (others : ∀ update ∈ updates, update.field ≠ field) :
    field.bytes (applyAll updates config) = field.bytes config := by
  induction updates generalizing config with
  | nil => rfl
  | cons update updates ih =>
    -- The first statement leaves the member to the later ones.
    have first : field.bytes (update.apply config) = field.bytes config :=
      (exact update List.mem_cons_self).bytes_other member (others update List.mem_cons_self)
    rw [← first]
    exact ih (fun later among => exact later (List.mem_cons_of_mem _ among))
      (fun later among => others later (List.mem_cons_of_mem _ among))

/-- Among statements about different members, each leaves what it writes in its own. -/
theorem bytes_applyAll_mem {updates : List Update} (exact : ∀ update ∈ updates, update.Exact)
    (distinct : (updates.map (·.field)).Nodup) (listed : update ∈ updates) :
    update.field.bytes (applyAll updates config) = update.bytes := by
  -- The statements behind it are about other members.
  induction updates generalizing config with
  | nil => cases listed
  | cons first updates ih =>
    have later (other) (among : other ∈ updates) := exact other (List.mem_cons_of_mem _ among)
    rw [List.map_cons, List.nodup_cons] at distinct
    rcases List.mem_cons.mp listed with rfl | among
    · have own := exact update List.mem_cons_self
      have kept : update.field.bytes (applyAll updates (update.apply config)) =
          update.field.bytes (update.apply config) :=
        bytes_applyAll later own.1 fun other among same => distinct.1 (same ▸ List.mem_map_of_mem among)
      exact kept.trans own.bytes_self
    · exact ih later distinct.2 among

/-- The bytes of a number that has been assigned stand for what is left of it. -/
theorem ofLittleEndian_assign (member : field ∈ Field.all) (value : Int) :
    ofLittleEndian (Update.assign field value).bytes = (value % 256 ^ field.size).toNat := by
  rw [← value_assign zeroConfig value (inside_of_mem member), Field.value]
  exact congrArg ofLittleEndian (exact_assign member value).bytes_self.symm

/-- Two groups of statements in a row. -/
theorem applyAll_append (updates later : List Update) (config : Config) :
    applyAll (updates ++ later) config = applyAll later (applyAll updates config) :=
  List.foldl_append

/-- Texts replace whole members. -/
theorem exact_textUpdates {texts : List (Field × List UInt8)} (members : ∀ text ∈ texts, text.1 ∈ Field.all) :
    ∀ update ∈ textUpdates texts, update.Exact := by
  intro update among
  rw [textUpdates, List.mem_flatMap] at among
  obtain ⟨text, listed, among⟩ := among
  simp only [List.mem_cons, List.not_mem_nil, or_false] at among
  rcases among with rfl | rfl
  · exact exact_clear (members text listed)
  · exact exact_copy (members text listed)

/-- Texts replace the members they are listed with. -/
theorem field_textUpdates {texts : List (Field × List UInt8)} :
    ∀ update ∈ textUpdates texts, update.field ∈ texts.map (·.1) := by
  intro update among
  rw [textUpdates, List.mem_flatMap] at among
  obtain ⟨text, listed, among⟩ := among
  simp only [List.mem_cons, List.not_mem_nil, or_false] at among
  rcases among with rfl | rfl <;> exact List.mem_map_of_mem listed

/-- A member for which there is no text keeps its bytes. -/
theorem bytes_textUpdates_other {texts : List (Field × List UInt8)} (members : ∀ text ∈ texts, text.1 ∈ Field.all)
    (member : field ∈ Field.all) (absent : field ∉ texts.map (·.1)) :
    field.bytes (applyAll (textUpdates texts) config) = field.bytes config :=
  bytes_applyAll (exact_textUpdates members) member fun update among same =>
    absent (same ▸ field_textUpdates update among)

/-- A member for which there is a text holds it in the end, cut to its size and filled up with zeros. -/
theorem bytes_textUpdates {texts : List (Field × List UInt8)} (members : ∀ text ∈ texts, text.1 ∈ Field.all)
    (distinct : (texts.map (·.1)).Nodup) (listed : (field, text) ∈ texts) :
    field.bytes (applyAll (textUpdates texts) config) = field.padded text := by
  -- The texts behind the member's own belong to other members.
  induction texts generalizing config with
  | nil => cases listed
  | cons first texts ih =>
    have later (text) (among : text ∈ texts) := members text (List.mem_cons_of_mem _ among)
    rw [List.map_cons, List.nodup_cons] at distinct
    rw [textUpdates, List.flatMap_cons, applyAll_append, ← textUpdates]
    rcases List.mem_cons.mp listed with rfl | among
    · have member := members _ List.mem_cons_self
      rw [bytes_textUpdates_other later member distinct.1]
      exact (exact_copy member).bytes_self
    · exact ih later distinct.2 among

end

end PkeFire
