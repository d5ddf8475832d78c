import Mathlib.Logic.Function.Basic
import PkeFire.Run.Machine

/-! Sources that send messages to one observer, each through a queue of its own that may repeat its oldest message. -/

namespace PkeFire

universe u v w x y z

/-- The states of the sources, the messages underway from each of them, and what the observer has made of the rest. -/
structure Feeds (Source : Type u) (State : Type v) (Message : Type w) (View : Type x) where
  source : Source → State
  /-- The oldest message comes first. -/
  underway : Source → List Message
  view : View

/-- What happens between the sources and the observer. -/
inductive FeedEvent (Source : Type u) (Action : Type y) where
  | act (source : Source) (action : Action)
  /-- The oldest message of a source arrives. -/
  | deliver (source : Source)
  /-- The oldest message of a source arrives, and will arrive again. -/
  | again (source : Source)
  deriving DecidableEq, Repr

section

variable {Source : Type u} {State : Type v} {Message : Type w} {View : Type x} {Action : Type y} {Part : Type z}
  (react : Source → State → Action → Option (State × List Message))
  (hear : View → Message → View)

/-- One event between the sources and the observer. -/
def feedStep [DecidableEq Source] (feeds : Feeds Source State Message View) :
    FeedEvent Source Action → Option (Feeds Source State Message View)
  | .act source action => (react source (feeds.source source) action).map fun (next, sent) =>
    { feeds with
      source := Function.update feeds.source source next
      underway := Function.update feeds.underway source (feeds.underway source ++ sent) }
  | .deliver source =>
    match feeds.underway source with
    | [] => none
    | message :: rest =>
      some { feeds with
        underway := Function.update feeds.underway source rest
        view := hear feeds.view message }
  | .again source => (feeds.underway source).head?.map fun message => { feeds with view := hear feeds.view message }

/-- Each source has its part of the view, which no message of another source writes, nor the same message twice. -/
structure PartedView (sends : Source → Message → Prop) (part : Source → View → Part)
    (write : Part → Message → Part) : Prop where
  own : ∀ {source message} (view : View), sends source message →
    part source (hear view message) = write (part source view) message
  other : ∀ {source message other} (view : View), sends source message → other ≠ source →
    part other (hear view message) = part other view
  twice : ∀ {source message} (old : Part), sends source message →
    write (write old message) message = write old message

/-- A source sends messages of its own only, and they tell its part what it does. -/
structure FaithfulSources (sends : Source → Message → Prop) (write : Part → Message → Part)
    (holds : Source → State → Part → Prop) : Prop where
  honest : ∀ {source state action next sent}, react source state action = some (next, sent) →
    ∀ message ∈ sent, sends source message
  step : ∀ {source state action next sent final}, holds source state final →
    react source state action = some (next, sent) → holds source next (sent.foldl write final)

/-- The part of a source after everything underway has arrived. -/
def Feeds.final (part : Source → View → Part) (write : Part → Message → Part)
    (feeds : Feeds Source State Message View) (source : Source) : Part :=
  (feeds.underway source).foldl write (part source feeds.view)

/-- Every message underway is one of its source, and each source and its part hold together once it has arrived. -/
structure Feeds.Sound (sends : Source → Message → Prop) (part : Source → View → Part)
    (write : Part → Message → Part) (holds : Source → State → Part → Prop)
    (feeds : Feeds Source State Message View) : Prop where
  sent : ∀ source, ∀ message ∈ feeds.underway source, sends source message
  held : ∀ source, holds source (feeds.source source) (feeds.final part write source)

variable {react hear} {sends : Source → Message → Prop} {part : Source → View → Part}
  {write : Part → Message → Part} {holds : Source → State → Part → Prop} {feeds next : Feeds Source State Message View}

/-- Once all messages of a source have arrived, its part is what it comes to. -/
theorem Feeds.Sound.arrived (sound : feeds.Sound sends part write holds) {source : Source}
    (none : feeds.underway source = []) : holds source (feeds.source source) (part source feeds.view) := by
  have held := sound.held source
  rwa [Feeds.final, none] at held

variable [DecidableEq Source]

/-- A message arrives in the part of its source. -/
theorem PartedView.arrive (parted : PartedView hear sends part write) {source : Source} {message : Message}
    (sent : sends source message) (view : View) (other : Source) :
    part other (hear view message) = if other = source then write (part other view) message else part other view := by
  split
  · rename_i same
    rw [same]
    exact parted.own view sent
  · rename_i apart
    exact parted.other view sent apart

/-- What a source does concerns its own part, as far as its messages tell. -/
theorem Feeds.Sound.act (sound : feeds.Sound sends part write holds)
    (faithful : FaithfulSources react sends write holds)
    {source : Source} {action : Action} (taken : feedStep react hear feeds (.act source action) = some next) :
    next.Sound sends part write holds := by
  obtain ⟨⟨state, sent⟩, reacted, rfl⟩ := Option.map_eq_some_iff.mp taken
  constructor
  · -- New messages are appended to the queue of this source, and to no other.
    intro other message among
    dsimp only at among
    by_cases same : other = source
    · subst same
      rw [Function.update_self] at among
      exact (List.mem_append.mp among).elim (sound.sent other message) (faithful.honest reacted message)
    · rw [Function.update_of_ne same] at among
      exact sound.sent other message among
  · intro other
    have before := sound.held other
    unfold Feeds.final at before ⊢
    dsimp only
    by_cases same : other = source
    · subst same
      -- What is appended arrives after everything else.
      rw [Function.update_self, Function.update_self, List.foldl_append]
      exact faithful.step before reacted
    · rw [Function.update_of_ne same, Function.update_of_ne same]
      exact before

/-- Neither an arrival nor a repetition changes what the parts come to. -/
theorem Feeds.Sound.arrive (parted : PartedView hear sends part write) (sound : feeds.Sound sends part write holds)
    {source : Source} {message : Message} {rest kept : List Message}
    (oldest : feeds.underway source = message :: rest) (left : kept = rest ∨ kept = message :: rest) :
    Feeds.Sound sends part write holds { feeds with
      underway := Function.update feeds.underway source kept
      view := hear feeds.view message } := by
  have sent : sends source message := sound.sent source message (oldest ▸ List.mem_cons_self)
  constructor
  · intro other again among
    dsimp only at among
    by_cases same : other = source
    · subst same
      rw [Function.update_self] at among
      refine sound.sent other again (oldest ▸ ?_)
      exact left.elim (fun rest => List.mem_cons_of_mem message (rest ▸ among)) fun all => all ▸ among
    · rw [Function.update_of_ne same] at among
      exact sound.sent other again among
  · intro other
    have before := sound.held other
    unfold Feeds.final at before ⊢
    dsimp only
    rw [parted.arrive sent feeds.view other]
    by_cases same : other = source
    · subst same
      rw [if_pos rfl, Function.update_self]
      rw [oldest, List.foldl_cons] at before
      rcases left with rfl | rfl
      · -- The message has moved from the queue into the part.
        exact before
      · -- The message is written again, which makes no difference.
        rw [List.foldl_cons, parted.twice _ sent]
        exact before
    · rw [if_neg same, Function.update_of_ne same]
      exact before

/-- Whatever arrives when: what holds between a source and its part by the messages sent, holds once they are there. -/
theorem feeds_invariant {start finish : Feeds Source State Message View} {events : List (FeedEvent Source Action)}
    (parted : PartedView hear sends part write) (sound : start.Sound sends part write holds)
    (faithful : FaithfulSources react sends write holds)
    (ran : run (feedStep react hear) start events = some finish) : finish.Sound sends part write holds := by
  -- The invariant is kept by every event, so that none has to be excluded.
  have always : EveryStep (feedStep react hear) (fun _ _ => True) start events :=
    everyStep_of_forall (fun _ _ => trivial) start events
  refine run_invariant (·.Sound sends part write holds) ?_ sound always ran
  intro feeds event next sound _ taken
  cases event with
  | act source action => exact sound.act faithful taken
  | deliver source =>
    rw [feedStep] at taken
    split at taken
    · cases taken
    -- The oldest message arrives and leaves the queue.
    · rename_i oldest
      cases Option.some.inj taken
      exact sound.arrive parted oldest (Or.inl rfl)
  | again source =>
    obtain ⟨message, first, rfl⟩ := Option.map_eq_some_iff.mp taken
    obtain ⟨rest, oldest⟩ := List.head?_eq_some_iff.mp first
    have same : Function.update feeds.underway source (message :: rest) = feeds.underway := by
      rw [← oldest, Function.update_eq_self]
    -- A repetition leaves the queue as it is.
    rw [← same]
    exact sound.arrive parted oldest (Or.inr rfl)

end

end PkeFire
