import PkeFire.Config.Decimal
import PkeFire.NbIot.Handler

/-! Which numbers are stored as they are when the server or the shell sets them. -/

namespace PkeFire

/-- An integer as `valueint` has it, which is as near as an `int` comes to it. -/
def saturated (value : Int) : Int :=
  max (-2147483648) (min 2147483647 value)

/-- A member of a message carries a number. -/
def Carries (root : Json) (name : String) (value : Int) : Prop :=
  ∃ item, root name = some item ∧ item.valueint = saturated value

/-- What a number is stored in. -/
inductive Target where
  /-- A member of the configuration. -/
  | field (field : Field)
  /-- The global `remote_open`. -/
  | remoteOpen
  deriving DecidableEq, Repr

/-- How many bytes there are for the number. -/
def Target.size : Target → Nat
  | .field named => named.size
  | .remoteOpen => 1

/-- The number that is stored. -/
def Target.read (h : Handler) : Target → Nat
  | .field named => named.value h.config
  | .remoteOpen => h.remoteOpen.toNat

/-- A message of the server, or a command of the shell. -/
inductive Instruction where
  | message (root : Json)
  | shell (setter : Setter) (argv : List (List UInt8))

/-- An instruction is carried out, unless a null pointer is in the way. -/
def Instruction.perform (h : Handler) : Instruction → Option Handler
  | .message root => h.subTopicHandle1 (some root)
  | .shell setter argv => some (h.write (setter.updates argv))

/-- An argument is a number in decimal notation, which an `int` can hold. -/
def Denotes (argument : List UInt8) (value : Int) : Prop :=
  argument = decimal value ∧ saturated value = value

/-- An instruction sets a number. -/
def Instruction.Sets (target : Target) (value : Int) : Instruction → Prop
  | .message root =>
    ((commandOf (some root) = some cmdDownAllSmoke ∨ commandOf (some root) = some cmdDownSetSmoke) ∧
      ∃ item ∈ smokeItems, target = .field item.2 ∧ Carries root item.1 value) ∨
    (commandOf (some root) = some cmdDownDoor ∧ target = .remoteOpen ∧ Carries root "open" value)
  | .shell .smoke argv => ∃ name temp smoke time, argv = [name, temp, smoke, time] ∧
      ((target = .field Field.tempThreshold ∧ Denotes temp value) ∨
        (target = .field Field.smokeThreshold ∧ Denotes smoke value) ∨
          (target = .field Field.pollTime ∧ Denotes time value))
  | .shell .loraUpdatetime argv =>
    ∃ name time, argv = [name, time] ∧ target = .field Field.pollTime ∧ Denotes time value
  | .shell _ _ => False

/-- Afterwards the number is what it has been set to, or what it was before, and a door to be opened is remembered. -/
def StoredFaithfully (target : Target) (value : Int) (before after : Handler) : Prop :=
  ((target.read after : Int) = value ∨ target.read after = target.read before) ∧
    (target = .remoteOpen → value ≠ 0 → target.read after ≠ 0)

/-- What is left of a number in the bytes that there are for it. -/
def Target.cut (target : Target) (value : Int) : Nat :=
  (saturated value % 256 ^ target.size).toNat

/-- The number fits, or what is left of it is stored already and, in the case of the door, is not zero. -/
def Storable (target : Target) (value : Int) (before : Handler) : Prop :=
  (0 ≤ value ∧ value < 256 ^ target.size) ∨
    (target.cut value = target.read before ∧ (target = .remoteOpen → target.read before ≠ 0))

/-- Every number that is set is stored as it is, or not at all. -/
def NumbersStored : Prop :=
  ∀ target value (instruction : Instruction) before after, instruction.Sets target value →
    instruction.perform before = some after → StoredFaithfully target value before after

section

variable {target : Target} {value : Int} {before after : Handler} {root : Json}

/-- An `int` is what it is. -/
theorem saturated_of_small (small : 0 ≤ value ∧ value < 65536) : saturated value = value := by
  unfold saturated
  omega

/-- A number that is stored by its low bytes is stored faithfully exactly if it fits or they are stored already. -/
theorem storedFaithfully_iff (short : target.size = 1 ∨ target.size = 2)
    (stored : target.read after = target.cut value) :
    StoredFaithfully target value before after ↔ Storable target value before := by
  unfold StoredFaithfully Storable
  rw [stored]
  -- The limit is that of one byte or of two.
  have limit : (256 : Int) ^ target.size = 256 ∨ (256 : Int) ^ target.size = 65536 := by
    rcases short with one | two
    · rw [one]; decide
    · rw [two]; decide
  have door : target = .remoteOpen → (256 : Int) ^ target.size = 256 := by
    rintro rfl
    rfl
  unfold Target.cut
  generalize (256 : Int) ^ target.size = bound at limit door ⊢
  have positive : 0 < bound := by omega
  -- What is stored lies within the limit.
  have low := Int.emod_nonneg (saturated value) (by omega : bound ≠ 0)
  have high := Int.emod_lt_of_pos (saturated value) positive
  constructor
  · rintro ⟨same | kept, remembered⟩
    · -- A number that is read back as it is fits.
      exact Or.inl (by omega)
    -- A number that does not fit is only kept, as the value stored before.
    · by_cases fits : 0 ≤ value ∧ value < bound
      · exact Or.inl fits
      · refine Or.inr ⟨kept, fun remote => ?_⟩
        have nonzero : value ≠ 0 := by omega
        rw [← kept]
        exact remembered remote nonzero
  · rintro (fits | ⟨kept, nonzero⟩)
    -- A number that fits is neither saturated nor cut.
    · have same : saturated value % bound = value := by
        rw [saturated_of_small (by omega), Int.emod_eq_of_lt fits.1 fits.2]
      rw [same]
      exact ⟨Or.inl (by omega), fun _ => by omega⟩
    · exact ⟨Or.inr kept, fun remote _ => by rw [kept]; exact nonzero remote⟩

/-- Among assignments to different members, each leaves what fits of its number. -/
theorem value_applyAll (config : Config) {updates : List Update} {field : Field} {number : Int}
    (exact : ∀ update ∈ updates, update.Exact) (distinct : (updates.map (·.field)).Nodup)
    (listed : Update.assign field number ∈ updates) :
    field.value (applyAll updates config) = (number % 256 ^ field.size).toNat := by
  have member : field ∈ Field.all := (exact _ listed).1
  rw [← ofLittleEndian_assign member]
  exact congrArg ofLittleEndian (bytes_applyAll_mem exact distinct listed)

/-- A message assigns each of its numbers once. -/
theorem distinct_smokeItems (root : Json) :
    ((smokeItems.flatMap fun item => assignItem root item.1 item.2).map (·.field)).Nodup := by
  have item (name : String) (field : Field) : ((assignItem root name field).map (·.field)).Sublist [field] := by
    unfold assignItem
    cases root name with
    | none => exact List.nil_sublist _
    | some value => exact List.Sublist.refl _
  have members : (smokeItems.map (·.2)).Nodup := by decide
  refine List.Sublist.nodup ?_ members
  simp only [smokeItems, List.flatMap_cons, List.flatMap_nil, List.append_nil, List.map_append]
  exact (item _ _).append ((item _ _).append (item _ _))

/-- A message stores what fits of a number. -/
theorem read_message (sets : (Instruction.message root).Sets target value)
    (performed : before.subTopicHandle1 (some root) = some after) : target.read after = target.cut value := by
  have ordinary : StringItems (some root) := by
    intro setting
    rcases sets with ⟨other | other, _⟩ | ⟨other, _⟩ <;> rw [other] at setting <;> exact absurd setting (by decide)
  obtain ⟨same, ran, effect⟩ := handled (some root) before ordinary
  cases Option.some.inj (ran.symm.trans performed)
  rcases sets with ⟨command, item, listed, rfl, number, found, carried⟩ | ⟨command, rfl, item, found, carried⟩
  · -- The member carries one of the three numbers.
    have assigned : Update.assign item.2 number.valueint ∈
        smokeItems.flatMap fun item => assignItem root item.1 item.2 :=
      List.mem_flatMap.mpr ⟨item, listed, by simp [assignItem, found]⟩
    have exact := fun update among => (exact_smokeItems root update among).1
    have stored := value_applyAll before.config exact (distinct_smokeItems root) assigned
    rw [Target.read, effect.config, if_pos command, Option.getD_some, stored, carried]
    rfl
  · rw [Target.read, effect.remoteOpen, if_pos command, Option.getD_some, Handler.openDoor, found]
    simp only [carried, Target.cut, Target.size, UInt8.ofInt, UInt8.toNat_ofNat']
    -- Only the low byte is stored.
    omega

/-- A shell command stores what fits of a number. -/
theorem read_shell {setter : Setter} {argv : List (List UInt8)}
    (sets : (Instruction.shell setter argv).Sets target value) :
    target.read (before.write (setter.updates argv)) = target.cut value := by
  have stored {updates : List Update} {field : Field} {argument : List UInt8} (denotes : Denotes argument value)
      (exact : ∀ update ∈ updates, update.Exact) (distinct : (updates.map (·.field)).Nodup)
      (listed : Update.assign field (atoi argument) ∈ updates) :
      (Target.field field).read (before.write updates) = (Target.field field).cut value := by
    -- What the shell hands over is the number, within the range of an integer.
    have number : atoi argument = saturated value := by rw [denotes.1, atoi_decimal, denotes.2]
    rw [number] at listed
    exact value_applyAll _ exact distinct listed
  cases setter with
  | smoke =>
    obtain ⟨name, temp, smoke, time, rfl, sets⟩ := sets
    have exact : ∀ update ∈ configSetSmoke [name, temp, smoke, time], update.Exact := by
      simp only [configSetSmoke, List.forall_mem_cons, List.not_mem_nil, false_implies, implies_true, and_true]
      exact ⟨exact_assign (by decide) _, exact_assign (by decide) _, exact_assign (by decide) _⟩
    have distinct : [Field.tempThreshold, Field.smokeThreshold, Field.pollTime].Nodup := by decide
    -- Each of the three arguments has its own member.
    rcases sets with ⟨rfl, denotes⟩ | ⟨rfl, denotes⟩ | ⟨rfl, denotes⟩
    · exact stored denotes exact distinct List.mem_cons_self
    · exact stored denotes exact distinct (List.mem_cons_of_mem _ List.mem_cons_self)
    · exact stored denotes exact distinct (List.mem_cons_of_mem _ (List.mem_cons_of_mem _ List.mem_cons_self))
  | loraUpdatetime =>
    obtain ⟨name, time, rfl, rfl, denotes⟩ := sets
    -- The other command has a single argument and a single member.
    refine stored denotes ?_ (List.nodup_singleton _) List.mem_cons_self
    intro update among
    rw [List.mem_singleton.mp among]
    exact exact_assign (by decide) _
  | host | user | passwd | id | publishTopic | subscribeTopic | buildingid | connect | loraFreq | updateUri =>
    exact absurd sets id

/-- Every number that can be set has one byte or two. -/
theorem size_of_sets {instruction : Instruction} (sets : instruction.Sets target value) :
    target.size = 1 ∨ target.size = 2 := by
  cases instruction with
  | message root =>
    rcases sets with ⟨_, item, listed, rfl, _⟩ | ⟨_, rfl, _⟩
    · have sizes : ∀ item ∈ smokeItems, item.2.size = 1 ∨ item.2.size = 2 := by decide
      exact sizes item listed
    · exact Or.inl rfl
  | shell setter argv =>
    cases setter with
    | smoke =>
      obtain ⟨_, _, _, _, _, ⟨rfl, _⟩ | ⟨rfl, _⟩ | ⟨rfl, _⟩⟩ := sets
      · exact Or.inr rfl
      · exact Or.inr rfl
      · exact Or.inl rfl
    | loraUpdatetime =>
      obtain ⟨_, _, _, rfl, _⟩ := sets
      exact Or.inl rfl
    | host | user | passwd | id | publishTopic | subscribeTopic | buildingid | connect | loraFreq | updateUri =>
      exact absurd sets id

/-- A number that is set is stored faithfully exactly if it fits, or if what is left of it changes nothing. -/
theorem numbers_stored_iff (target : Target) (value : Int) (instruction : Instruction) (before after : Handler)
    (sets : instruction.Sets target value) (performed : instruction.perform before = some after) :
    StoredFaithfully target value before after ↔ Storable target value before := by
  refine storedFaithfully_iff (size_of_sets sets) ?_
  cases instruction with
  | message root => exact read_message sets performed
  | shell setter argv =>
    rw [← Option.some.inj performed]
    exact read_shell sets

end

/-- A message that asks for the door to be opened by a number whose low byte is zero. -/
def doorMessage : Json := fun name =>
  if name = "type" then some ⟨1, none⟩
  else if name = "open" then some ⟨256, none⟩
  else none

/-- The message sets the request for the door. -/
theorem sets_doorMessage : (Instruction.message doorMessage).Sets .remoteOpen 256 :=
  Or.inr ⟨rfl, rfl, ⟨256, none⟩, rfl, by decide⟩

/-- A request that is pending is withdrawn by the message. -/
theorem numbersStored_fails : ¬ NumbersStored := by
  intro stored
  let before : Handler := ⟨zeroConfig, 1, true, []⟩
  have performed : (Instruction.message doorMessage).perform before = some { before with remoteOpen := 0 } := by
    simp [Instruction.perform, Handler.subTopicHandle1, doorMessage, Handler.openDoor]
    rfl
  have faithful := stored .remoteOpen 256 _ before _ sets_doorMessage performed
  exact faithful.2 rfl (by decide) rfl

/-- The rule decides about the message to a controller without a request. -/
theorem numbers_stored_iff_door : ∃ after,
    (Instruction.message doorMessage).perform ⟨zeroConfig, 0, true, []⟩ = some after ∧
      (StoredFaithfully .remoteOpen 256 ⟨zeroConfig, 0, true, []⟩ after ↔
        Storable .remoteOpen 256 ⟨zeroConfig, 0, true, []⟩) := by
  have performed : (Instruction.message doorMessage).perform ⟨zeroConfig, 0, true, []⟩ =
      some ⟨zeroConfig, 0, true, []⟩ := by
    simp [Instruction.perform, Handler.subTopicHandle1, doorMessage, Handler.openDoor]
    rfl
  exact ⟨_, performed, numbers_stored_iff .remoteOpen 256 _ _ _ sets_doorMessage performed⟩

end PkeFire
