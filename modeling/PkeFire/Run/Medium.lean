import Mathlib.Logic.Function.Basic
import PkeFire.Run.Machine

/-! Parties that share a medium, where whatever has been said may be heard by anybody, late and any number of times. -/

namespace PkeFire

universe u v w x

/-- The states of the parties, and everything that has been said. -/
structure Medium (Party : Type u) (State : Type v) (Message : Type w) where
  party : Party → State
  said : List Message

/-- What happens to one party. -/
inductive PartyInput (Message : Type w) (Action : Type x) where
  | heard (message : Message)
  | did (action : Action)
  deriving DecidableEq, Repr

/-- What happens on a medium. -/
inductive MediumEvent (Party : Type u) (Message : Type w) (Action : Type x) where
  /-- A message comes from outside the parties. -/
  | say (message : Message)
  /-- A party hears one of the messages so far. -/
  | hear (party : Party) (place : Nat)
  /-- A party does something of its own accord. -/
  | act (party : Party) (action : Action)
  deriving DecidableEq, Repr

section

variable {Party : Type u} {State : Type v} {Message : Type w} {Action : Type x} [DecidableEq Party]
  (react : Party → State → PartyInput Message Action → Option (State × List Message))

/-- A party takes an input, and says its replies. -/
def Medium.take (m : Medium Party State Message) (party : Party) (input : PartyInput Message Action) :
    Option (Medium Party State Message) :=
  (react party (m.party party) input).map fun (next, replies) =>
    ⟨Function.update m.party party next, m.said ++ replies⟩

/-- One event on a medium. -/
def mediumStep (m : Medium Party State Message) : MediumEvent Party Message Action → Option (Medium Party State Message)
  | .say message => some { m with said := m.said ++ [message] }
  -- Nothing can be heard that has not been said.
  | .hear party place => m.said[place]?.bind fun message => m.take react party (.heard message)
  | .act party action => m.take react party (.did action)

/-- What a party does by itself with an input. -/
def partyStep (party : Party) (state : State) (input : PartyInput Message Action) : Option State :=
  (react party state input).map Prod.fst

/-- The input that an event is to a party. -/
def Medium.input (party : Party) (m : Medium Party State Message) :
    MediumEvent Party Message Action → Option (PartyInput Message Action)
  | .say _ => none
  | .hear other place => if other = party then m.said[place]?.map .heard else none
  | .act other action => if other = party then some (.did action) else none

/-- The inputs of a party along a run. -/
def Medium.inputs (party : Party) (m : Medium Party State Message) (events : List (MediumEvent Party Message Action)) :
    List (PartyInput Message Action) :=
  observations (mediumStep react) (Medium.input party) m events

end

section

variable {Party : Type u} {State : Type v} {Message : Type w} {Action : Type x} [DecidableEq Party]
  {react : Party → State → PartyInput Message Action → Option (State × List Message)}
  {m next finish : Medium Party State Message} {party : Party}

/-- A party that takes an input changes by itself, and its replies are added to what has been said. -/
theorem take_eq_some {input : PartyInput Message Action} (taken : m.take react party input = some next) :
    ∃ state replies, react party (m.party party) input = some (state, replies) ∧
      next = ⟨Function.update m.party party state, m.said ++ replies⟩ := by
  rw [Medium.take, Option.map_eq_some_iff] at taken
  obtain ⟨⟨state, replies⟩, reacted, rfl⟩ := taken
  exact ⟨state, replies, reacted, rfl⟩

/-- What one event does: something is said from outside, or one party takes its input. -/
theorem mediumStep_cases {event : MediumEvent Party Message Action} (taken : mediumStep react m event = some next) :
    (∃ message, event = .say message ∧ next = { m with said := m.said ++ [message] }) ∨
    ∃ party input state replies, m.input party event = some input ∧
      (∀ other, other ≠ party → m.input other event = none) ∧
      (∀ message, input = .heard message → message ∈ m.said) ∧
      react party (m.party party) input = some (state, replies) ∧
      next = ⟨Function.update m.party party state, m.said ++ replies⟩ := by
  cases event with
  -- A message from outside is no party's input.
  | say message => exact Or.inl ⟨message, rfl, (Option.some.inj taken).symm⟩
  | hear party place =>
    rw [mediumStep, Option.bind_eq_some_iff] at taken
    obtain ⟨message, found, taken⟩ := taken
    obtain ⟨state, replies, reacted, same⟩ := take_eq_some taken
    refine Or.inr ⟨party, .heard message, state, replies, ?_, ?_, ?_, reacted, same⟩
    · rw [Medium.input, if_pos rfl, found, Option.map_some]
    · intro other different
      rw [Medium.input, if_neg different.symm]
    · -- The message has been found among what has been said.
      rintro heard ⟨⟩
      exact List.mem_of_getElem? found
  | act party action =>
    -- An action is an input, too, but it has not been heard.
    obtain ⟨state, replies, reacted, same⟩ := take_eq_some taken
    refine Or.inr ⟨party, .did action, state, replies, ?_, ?_, ?_, reacted, same⟩
    · rw [Medium.input, if_pos rfl]
    · intro other different
      rw [Medium.input, if_neg different.symm]
    · rintro heard ⟨⟩

/--
A party goes through a run as it would by itself, even if it is spared the inputs that do not concern it.

The condition is what the other parties guarantee about the medium whenever this one takes an input.
-/
theorem run_alone {condition : Medium Party State Message → Prop} (related : State → State → Prop)
    (concerns : PartyInput Message Action → Bool)
    (kept : ∀ (m : Medium Party State Message) input other state replies, condition m →
      (∀ message, input = .heard message → message ∈ m.said) → related (m.party party) other →
      react party (m.party party) input = some (state, replies) →
      if concerns input then ∃ again, partyStep react party other input = some again ∧ related state again
      else related state other)
    {events : List (MediumEvent Party Message Action)} {other : State} (initially : related (m.party party) other)
    (every : EveryStep (mediumStep react) (fun m _ => condition m) m events)
    (ran : run (mediumStep react) m events = some finish) :
    ∃ alone, run (partyStep react party) other ((m.inputs react party events).filter concerns) = some alone ∧
      related (finish.party party) alone := by
  -- The invariant runs the lonely party over what has been observed so far.
  let invariant : Medium Party State Message → List (PartyInput Message Action) → Prop := fun state seen =>
    ∃ alone, run (partyStep react party) other (seen.filter concerns) = some alone ∧ related (state.party party) alone
  have started : invariant m [] := ⟨other, rfl, initially⟩
  have held := observed_invariant (Medium.input party) invariant ?_ started every ran
  · exact held
  · rintro state event next seen ⟨alone, before, same⟩ permitted taken
    obtain ⟨message, rfl, rfl⟩ | ⟨actor, input, after, replies, own, others, listed, reacted, rfl⟩ :=
      mediumStep_cases taken
    -- A new message is nobody's input before it is heard.
    · simp only [Medium.input, Option.toList_none, List.append_nil]
      exact ⟨alone, before, same⟩
    · by_cases here : actor = party
      · subst here
        -- What the party takes in does to both what it does to one.
        have moved := kept state input alone after replies permitted listed same reacted
        rw [own, Option.toList_some]
        simp only [invariant, List.filter_append, Function.update_self]
        cases matters : concerns input with
        | true =>
          rw [matters, if_pos rfl] at moved
          obtain ⟨again, also, still⟩ := moved
          rw [List.filter_cons_of_pos matters, List.filter_nil]
          exact ⟨again, run_append_some.mpr ⟨alone, before, (run_singleton _ _).trans also⟩, still⟩
        -- An input that does not concern the party is left out for the lonely one.
        | false =>
          rw [matters, if_neg Bool.false_ne_true] at moved
          rw [List.filter_cons_of_neg (by simp [matters]), List.filter_nil, List.append_nil]
          exact ⟨alone, before, moved⟩
      · -- The input of another party is none of this one's.
        simp only [invariant, others party (Ne.symm here), Option.toList_none, List.append_nil,
          Function.update_of_ne (Ne.symm here)]
        exact ⟨alone, before, same⟩

end

end PkeFire
