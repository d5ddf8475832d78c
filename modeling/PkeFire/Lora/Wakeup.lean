import PkeFire.Lora.Stream
import PkeFire.Lora.Uart
import PkeFire.Run.Lossy
import PkeFire.Run.Periodic

/-! What the receive path keeps when bytes come in bursts or faster than they are read: order, and the last one. -/

namespace PkeFire

/-- The interrupt finds room in the count of the semaphore. -/
def PostsFit (m : Link) : LinkEvent → Prop
  | .interrupt _ => m.rxSem.toNat + 1 < 65536
  | .thread => True

/-- Whether the semaphore can count an interrupt can be decided. -/
instance PostsFit.instDecidable (m : Link) : (event : LinkEvent) → Decidable (PostsFit m event)
  | .interrupt _ => inferInstanceAs (Decidable (m.rxSem.toNat + 1 < 65536))
  | .thread => .isTrue trivial

/-- The event is an interrupt. -/
def isInterrupt (_ : Link) : LinkEvent → Bool
  | .interrupt _ => true
  | .thread => false

/-- The event is an execution of the switch on `recv_step`. -/
def isDispatch (m : Link) : LinkEvent → Bool
  | .interrupt _ => false
  | .thread => m.pc == .dispatch

/-- How many executions of the switch are to come. -/
def Link.owed (m : Link) : Nat :=
  m.rxSem.toNat + match m.pc with
    | .read | .dispatch => 1
    | .take | .blocked => 0

/-- How many steps the thread takes until it waits, when nothing else arrives. -/
def Link.work (m : Link) : Nat :=
  m.rxFifo.used + 3 * m.rxSem.toNat + match m.pc with
    | .read => 3
    | .dispatch => 2
    | .take => 1
    | .blocked => 0

/-- The receiver of the link is about to write its byte behind the end of its buffer. -/
def Link.Overruns (m : Link) : Prop :=
  m.pc = .dispatch ∧ m.receiver.push m.ch = none

/-- What the thread has in its hand: the byte read last, which is at some place before the queue. -/
def InHand (m : Link) (queue : List UInt8) (hand : Nat) : Prop :=
  m.received[hand]? = some m.ch ∧ hand + queue.length < m.received.length ∧
    (queue = [] → hand + 1 = m.received.length) ∧ Echoes hand m.received m.processed

/-- The newest bytes are in the queue, those before have passed in order, and the thread knows of what is waiting. -/
structure Served (m : Link) (queue : List UInt8) : Prop where
  keeps : m.rxFifo.Keeps queue
  newest : queue <:+ m.received
  starting : m.startUp = true → m.processed = [] ∧ (queue = [] → m.received = [])
  started : m.startUp = false → ∃ hand, InHand m queue hand
  executed : m.pc = .take ∨ m.pc = .blocked → m.startUp = false → m.processed.getLast? = some m.ch
  posted : m.pc = .dispatch ∨ m.pc = .take → queue ≠ [] → 0 < m.rxSem
  rested : m.pc = .blocked → queue = [] ∧ m.rxSem = 0

section

variable {env : LoraEnv} {m next : Link} {event : LinkEvent} {queue bytes : List UInt8}

/-- The link is served when the loop is entered. -/
theorem served_start (index : Fin 128) (posts : UInt16) (stale : UInt8) (stack : Vector UInt8 50) :
    Served (linkStart index posts stale stack) [] where
  keeps := (RingBuffer.holds_nil rfl rfl).keeps
  newest := List.nil_suffix
  starting := fun _ => ⟨rfl, fun _ => rfl⟩
  started := fun never => absurd never (by simp [linkStart])
  executed := fun elsewhere => absurd elsewhere (by simp [linkStart])
  posted := fun elsewhere => absurd elsewhere (by simp [linkStart])
  rested := fun never => absurd never (by simp [linkStart])

/-- What an interrupt does: its bytes are stored, and the semaphore is released once. -/
theorem rtHwSerialIsr_eq (keeps : m.rxFifo.Keeps queue) (some : bytes ≠ []) :
    rtHwSerialIsr bytes m =
      rtSemRelease { m with rxFifo := bytes.foldl RingBuffer.put m.rxFifo, received := m.received ++ bytes } := by
  have stored := keeps.puts bytes (by decide)
  -- At least the last byte is in the ring.
  have waiting : (bytes.foldl RingBuffer.put m.rxFifo).used ≠ 0 := by
    have more : 0 < bytes.length := List.length_pos_iff.mpr some
    rw [stored.counted, List.rtake, List.length_drop, List.length_append]
    omega
  rw [rtHwSerialIsr]
  exact if_pos waiting

/-- An interrupt keeps the link served. -/
theorem Served.interrupt (served : Served m queue) (some : bytes ≠ []) (fits : PostsFit m (.interrupt bytes)) :
    Served (rtHwSerialIsr bytes m) ((queue ++ bytes).rtake 127) := by
  have stored := served.keeps.puts bytes (by decide)
  have length : ((queue ++ bytes).rtake 127).length ≤ queue.length + bytes.length := by
    rw [List.rtake, List.length_drop, List.length_append]
    omega
  have waiting : (queue ++ bytes).rtake 127 ≠ [] := by
    have more : 0 < bytes.length := List.length_pos_iff.mpr some
    refine List.ne_nil_of_length_pos ?_
    rw [List.rtake, List.length_drop, List.length_append]
    omega
  have newest : (queue ++ bytes).rtake 127 <:+ m.received ++ bytes := by
    obtain ⟨front, split⟩ := served.newest
    exact (List.drop_suffix _ _).trans ⟨front, by rw [← List.append_assoc, split]⟩
  have starting (start : m.startUp = true) : m.processed = [] ∧
      ((queue ++ bytes).rtake 127 = [] → m.received ++ bytes = []) :=
    ⟨(served.starting start).1, fun empty => absurd empty waiting⟩
  have started (start : m.startUp = false) : ∃ hand, (m.received ++ bytes)[hand]? = Option.some m.ch ∧
      hand + ((queue ++ bytes).rtake 127).length < (m.received ++ bytes).length ∧
      ((queue ++ bytes).rtake 127 = [] → hand + 1 = (m.received ++ bytes).length) ∧
      Echoes hand (m.received ++ bytes) m.processed := by
    -- What is in the hand stays where it is.
    obtain ⟨hand, found, before, _, echoes⟩ := served.started start
    refine ⟨hand, (List.getElem?_append_left (List.getElem?_eq_some_iff.mp found).1).trans found, ?_,
      fun empty => absurd empty waiting, echoes.hear bytes⟩
    rw [List.length_append]
    omega
  rw [rtHwSerialIsr_eq served.keeps some, rtSemRelease]
  split
  · -- The thread is resumed, and is going to read.
    exact ⟨stored, newest, starting, started, fun elsewhere => absurd elsewhere (by simp),
      fun elsewhere => absurd elsewhere (by simp), fun never => absurd never (by simp)⟩
  · -- The semaphore counts, and the thread goes on.
    rename_i awake
    refine ⟨stored, newest, starting, started, served.executed, fun _ _ => ?_, fun waits => absurd waits awake⟩
    have counted : m.rxSem.toNat + 1 < 65536 := fits
    rw [UInt16.lt_iff_toNat_lt, UInt16.toNat_add]
    show 0 < (m.rxSem.toNat + 1) % 65536
    omega

/-- A read with something in the ring keeps the link served. -/
theorem Served.read {byte : UInt8} {rest : RingBuffer UInt8 128} (served : Served m (byte :: queue))
    (keeps : rest.Keeps queue) : Served { m with pc := .read, ch := byte, rxFifo := rest, startUp := false } queue := by
  obtain ⟨front, split⟩ := served.newest
  have length : m.received.length = front.length + (queue.length + 1) := by
    rw [← split, List.length_append, List.length_cons]
  have echoes : Echoes front.length m.received m.processed := by
    cases start : m.startUp with
    | true => exact (served.starting start).1 ▸ Echoes.nil _ _
    | false =>
      -- What has been in the hand before was in front of the whole queue.
      obtain ⟨hand, _, before, _, echoes⟩ := served.started start
      rw [List.length_cons] at before
      exact echoes.mono (by omega)
  refine ⟨keeps, ⟨front ++ [byte], by rw [← split, List.append_assoc]; rfl⟩, fun never => absurd never (by simp),
    fun _ => ⟨front.length, ?_, ?_, ?_, echoes⟩, fun elsewhere => absurd elsewhere (by simp),
    fun elsewhere => absurd elsewhere (by simp), fun never => absurd never (by simp)⟩
  · rw [← split, List.getElem?_append_right (Nat.le_refl _), Nat.sub_self]
    rfl
  · show front.length + queue.length < m.received.length
    omega
  · rintro rfl
    exact length.symm

/-- A step of the thread keeps the link served. -/
theorem Served.thread (served : Served m queue) (taken : serialThread env m = some next) :
    ∃ left, Served next left := by
  cases here : m.pc with
  | read =>
    cases queue with
    | nil =>
      -- There is nothing to read, and nothing to know of.
      simp only [serialThread, here, served.keeps.get_nil] at taken
      cases Option.some.inj taken
      exact ⟨[], served.keeps, served.newest, served.starting, served.started,
        fun elsewhere => absurd elsewhere (by simp), fun _ never => absurd rfl never,
        fun never => absurd never (by simp)⟩
    | cons byte queue =>
      obtain ⟨rest, read, keeps⟩ := served.keeps.get_cons
      simp only [serialThread, here, read] at taken
      cases Option.some.inj taken
      exact ⟨queue, served.read keeps⟩
  | dispatch =>
    simp only [serialThread, here] at taken
    obtain ⟨receiver, _, rfl⟩ := Option.map_eq_some_iff.mp taken
    refine ⟨queue, served.keeps, served.newest, fun start => ?_, fun start => ?_, fun _ start => ?_,
      fun _ => served.posted (Or.inl here), fun never => absurd never (by simp)⟩
    · simp only [if_pos start]
      exact served.starting start
    · -- The byte in hand is executed, for the first time or once more.
      obtain ⟨hand, found, before, latest, echoes⟩ := served.started start
      refine ⟨hand, found, before, latest, ?_⟩
      rw [if_neg (ne_true_of_eq_false start)]
      exact echoes.say found
    · rw [if_neg (ne_true_of_eq_false start)]
      exact List.getLast?_concat
  | take =>
    simp only [serialThread, here, rtSemTake] at taken
    cases Option.some.inj taken
    split
    · exact ⟨queue, served.keeps, served.newest, served.starting, served.started,
        fun elsewhere => absurd elsewhere (by simp), fun elsewhere => absurd elsewhere (by simp),
        fun never => absurd never (by simp)⟩
    · -- Without a post, there is nothing waiting.
      rename_i unposted
      have empty : queue = [] := by
        by_contra waiting
        exact unposted (served.posted (Or.inr here) waiting)
      exact ⟨queue, served.keeps, served.newest, served.starting, served.started,
        fun _ => served.executed (Or.inl here), fun elsewhere => absurd elsewhere (by simp),
        fun _ => ⟨empty, by simpa using unposted⟩⟩
  | blocked =>
    simp only [serialThread, here] at taken
    cases taken

/-- A step of the link that its semaphore can count keeps it served. -/
theorem Served.step (served : Served m queue) (fits : PostsFit m event) (taken : linkStep env m event = some next) :
    ∃ left, Served next left := by
  cases event with
  | interrupt bytes =>
    simp only [linkStep] at taken
    split at taken
    · cases taken
    · rename_i some
      cases Option.some.inj taken
      exact ⟨_, served.interrupt some fits⟩
  | thread => exact served.thread taken

/-- A count that is taken from is one less. -/
theorem toNat_sub_one {count : UInt16} (posted : 0 < count) : (count - 1).toNat + 1 = count.toNat := by
  rw [UInt16.lt_iff_toNat_lt] at posted
  have enough : (1 : UInt16) ≤ count := UInt16.le_iff_toNat_le.mpr posted
  rw [UInt16.toNat_sub_of_le _ _ enough]
  exact Nat.sub_add_cancel posted

/-- Each interrupt is owed one execution of the switch. -/
theorem owed_step {queue : List UInt8} (served : Served m queue) (fits : PostsFit m event)
    (taken : linkStep env m event = some next) :
    (if isDispatch m event then 1 else 0) + next.owed = m.owed + (if isInterrupt m event then 1 else 0) := by
  cases event with
  | interrupt bytes =>
    simp only [linkStep] at taken
    split at taken
    · cases taken
    · rename_i some
      cases Option.some.inj taken
      have counted : m.rxSem.toNat + 1 < 65536 := fits
      rw [rtHwSerialIsr_eq served.keeps some, rtSemRelease]
      by_cases waits : m.pc = .blocked
      · -- The post resumes the thread instead of being counted.
        rw [if_pos waits]
        simp [Link.owed, isDispatch, isInterrupt, waits]
      · have added : (m.rxSem + 1).toNat = m.rxSem.toNat + 1 := by
          rw [UInt16.toNat_add]
          exact Nat.mod_eq_of_lt counted
        rw [if_neg waits]
        simp only [Link.owed, isDispatch, isInterrupt, added, Bool.false_eq_true, if_false, if_true]
        omega
  | thread =>
    cases here : m.pc with
    | read =>
      simp only [linkStep, serialThread, here] at taken
      split at taken <;> cases Option.some.inj taken <;> simp [Link.owed, isDispatch, isInterrupt, here]
    | dispatch =>
      simp only [linkStep, serialThread, here] at taken
      obtain ⟨receiver, _, rfl⟩ := Option.map_eq_some_iff.mp taken
      simp [Link.owed, isDispatch, isInterrupt, here, Nat.add_comm]
    | take =>
      simp only [linkStep, serialThread, here, rtSemTake] at taken
      cases Option.some.inj taken
      by_cases posted : 0 < m.rxSem
      · -- The post that is taken is the execution that comes next.
        simp [Link.owed, isDispatch, isInterrupt, here, posted, toNat_sub_one posted]
      · simp [Link.owed, isDispatch, isInterrupt, here, posted]
    | blocked =>
      simp only [linkStep, serialThread, here] at taken
      cases taken

/-- A step of the thread does one part of its work. -/
theorem work_thread (served : Served m queue) (taken : serialThread env m = some next) : next.work + 1 = m.work := by
  cases here : m.pc with
  | read =>
    cases queue with
    | nil =>
      simp only [serialThread, here, served.keeps.get_nil] at taken
      cases Option.some.inj taken
      -- An empty ring sends the thread back to the semaphore.
      simp [Link.work, here]
    | cons byte queue =>
      obtain ⟨rest, read, keeps⟩ := served.keeps.get_cons
      simp only [serialThread, here, read] at taken
      cases Option.some.inj taken
      simp only [Link.work, here, keeps.counted, served.keeps.counted, List.length_cons]
      omega
  | dispatch =>
    simp only [serialThread, here] at taken
    obtain ⟨receiver, _, rfl⟩ := Option.map_eq_some_iff.mp taken
    simp [Link.work, here]
  | take =>
    simp only [serialThread, here, rtSemTake] at taken
    cases Option.some.inj taken
    split
    · -- One post is used up.
      rename_i posted
      have fewer := toNat_sub_one posted
      simp only [Link.work, here]
      omega
    · simp [Link.work, here]
  | blocked =>
    simp only [serialThread, here] at taken
    cases taken

/-- The thread waits when its work is done, and not before. -/
theorem Served.work_eq_zero (served : Served m queue) : m.work = 0 ↔ m.pc = .blocked := by
  constructor
  · intro done
    cases here : m.pc <;> simp [Link.work, here] at done ⊢
  · intro waits
    obtain ⟨rfl, unposted⟩ := served.rested waits
    simp [Link.work, waits, unposted, served.keeps.counted]

/-- What has been executed has been received before, in the same order. -/
theorem Served.echoes (served : Served m queue) : Echoes m.received.length m.received m.processed := by
  cases start : m.startUp with
  | true => exact (served.starting start).1 ▸ Echoes.nil _ _
  | false =>
    obtain ⟨hand, found, _, _, echoes⟩ := served.started start
    exact echoes.mono (Nat.le_of_lt (List.getElem?_eq_some_iff.mp found).1)

/-- When the thread waits, it has executed the byte received last. -/
theorem Served.latest (served : Served m []) (waits : m.pc = .blocked) :
    m.processed.getLast? = m.received.getLast? := by
  cases start : m.startUp with
  | true =>
    obtain ⟨none, empty⟩ := served.starting start
    rw [none, empty rfl]
  | false =>
    -- The byte in hand is the last one, and has been executed.
    obtain ⟨hand, found, _, last, _⟩ := served.started start
    rw [served.executed (Or.inr waits) start, List.getLast?_eq_getElem?, ← last rfl, Nat.add_sub_cancel, found]

/-- A step of the thread is only refused when it waits, or when its receiver overruns its buffer. -/
theorem serialThread_eq_none (refused : serialThread env m = none) : m.pc = .blocked ∨ m.Overruns := by
  cases here : m.pc with
  | read =>
    -- With or without a byte in the ring, the read goes on.
    simp only [serialThread, here] at refused
    split at refused <;> cases refused
  | dispatch =>
    simp only [serialThread, here] at refused
    have full := receive_eq_none (Option.map_eq_none_iff.mp refused)
    exact Or.inr ⟨here, push_eq_none.mpr full⟩
  | take =>
    simp only [serialThread, here] at refused
    cases refused
  | blocked => exact Or.inl rfl

/-- Left alone, the thread finishes its work, unless its receiver overruns its buffer before. -/
theorem finishes_or_overruns (served : Served m queue) :
    (∃ finish, run (linkStep env) m (.replicate m.work .thread) = some finish) ∨
      ∃ count stuck, count < m.work ∧ run (linkStep env) m (.replicate count .thread) = some stuck ∧
        stuck.Overruns := by
  -- The induction is on the work, of which each step of the thread does one part.
  induction left : m.work generalizing m queue with
  | zero => exact Or.inl ⟨m, rfl⟩
  | succ work ih =>
    have busy : m.pc ≠ .blocked := by
      intro waits
      have done := served.work_eq_zero.mpr waits
      omega
    cases taken : serialThread env m with
    | none =>
      have stuck := (serialThread_eq_none taken).resolve_left busy
      exact Or.inr ⟨0, m, Nat.succ_pos _, rfl, stuck⟩
    | some next =>
      obtain ⟨rest, again⟩ := served.thread taken
      have first := work_thread served taken
      have step (count : Nat) : run (linkStep env) m (.replicate (count + 1) .thread) =
          run (linkStep env) next (.replicate count .thread) := by
        rw [List.replicate_succ, run_cons]
        exact congrArg (Option.bind · _) taken
      obtain ⟨finish, ran⟩ | ⟨count, stuck, less, ran, overruns⟩ := ih again (by omega)
      · exact Or.inl ⟨finish, (step work).trans ran⟩
      · exact Or.inr ⟨count + 1, stuck, by omega, (step count).trans ran, overruns⟩

/-- Left alone, the thread does its work step by step. -/
theorem work_alone {finish : Link} {count : Nat} (served : Served m queue)
    (ran : run (linkStep env) m (.replicate count .thread) = some finish) :
    count + finish.work = m.work ∧ ∃ left, Served finish left := by
  -- Each step leaves one part less.
  induction count generalizing m queue with
  | zero =>
    cases Option.some.inj ran
    exact ⟨Nat.zero_add _, queue, served⟩
  | succ count ih =>
    rw [List.replicate_succ, run_cons, Option.bind_eq_some_iff] at ran
    obtain ⟨next, taken, ran⟩ := ran
    obtain ⟨left, again⟩ := served.thread taken
    obtain ⟨rest, ended⟩ := ih again ran
    have first := work_thread served taken
    exact ⟨by omega, ended⟩

end

/--
What the receive path keeps, however the interrupts come and however many bytes they bring.

The switch executes the bytes in their order, some of them more than once and some of them never. Whenever the thread
waits, nothing is left in the ring or to be taken, the byte received last has been executed last, and the switch has
been executed once for each post and each interrupt, and once more. Left alone, the thread waits after as many steps as
it has work, unless its receiver overruns its buffer before; nothing else stops it.
-/
theorem served_in_order (env : LoraEnv) (index : Fin 128) (posts : UInt16) (stale : UInt8) (stack : Vector UInt8 50)
    (events : List LinkEvent) (m : Link)
    (fits : EveryStep (linkStep env) PostsFit (linkStart index posts stale stack) events)
    (ran : run (linkStep env) (linkStart index posts stale stack) events = some m) :
    Echoes m.received.length m.received m.processed ∧
    (m.pc = .blocked → m.rxFifo.used = 0 ∧ m.rxSem = 0 ∧ m.processed.getLast? = m.received.getLast? ∧
      occurrences (linkStep env) isDispatch (linkStart index posts stale stack) events =
        posts.toNat + occurrences (linkStep env) isInterrupt (linkStart index posts stale stack) events + 1) ∧
    (∀ count finish, run (linkStep env) m (.replicate count .thread) = some finish →
      count ≤ m.work ∧ (finish.pc = .blocked ↔ count = m.work)) ∧
    ((∃ finish, run (linkStep env) m (.replicate m.work .thread) = some finish) ∨
      ∃ count stuck, count < m.work ∧ run (linkStep env) m (.replicate count .thread) = some stuck ∧
        stuck.Overruns) := by
  -- Whatever comes, the link is served.
  have start := served_start index posts stale stack
  have kept (state : Link) (event : LinkEvent) (next : Link) (served : ∃ queue, Served state queue)
      (fits : PostsFit state event) (taken : linkStep env state event = some next) : ∃ queue, Served next queue :=
    served.elim fun _ served => served.step fits taken
  obtain ⟨queue, served⟩ := run_invariant (fun m => ∃ queue, Served m queue) kept ⟨[], start⟩ fits ran
  -- The executions that are owed are balanced along the run.
  have balanced := balanced_run Link.owed (fun state event next held taken =>
      held.1.elim fun _ served => owed_step served held.2 taken)
    (fits.with_invariant (fun m => ∃ queue, Served m queue) kept ⟨[], start⟩) ran
  refine ⟨served.echoes, fun waits => ?_, fun count finish alone => ?_, finishes_or_overruns served⟩
  -- A waiting thread has nothing left to read, to take or to execute.
  · obtain ⟨rfl, unposted⟩ := served.rested waits
    refine ⟨served.keeps.counted, unposted, served.latest waits, ?_⟩
    simp only [Link.owed, waits, unposted, linkStart] at balanced ⊢
    simpa [Nat.add_right_comm] using balanced
  -- Alone, it is done exactly when its work is.
  · obtain ⟨work, left, ended⟩ := work_alone served alone
    rw [← ended.work_eq_zero]
    omega

/-- Two interrupts that come before the thread reads bring three bytes, of which only the last is executed. -/
def burstEvents : List LinkEvent :=
  .replicate 3 .thread ++ .interrupt [0xa5, 0x5a] :: .interrupt [0x01] :: .replicate 9 .thread

/-- After a burst, the thread has executed the last byte once for each interrupt. -/
theorem served_in_order_burst : ∃ m,
    run (linkStep quietRadio) (linkStart 0 0 0 (.replicate 50 0)) burstEvents = some m ∧
    m.processed = [0x01, 0x01] ∧ Echoes 3 m.received m.processed ∧ m.processed.getLast? = m.received.getLast? := by
  have ends : (run (linkStep quietRadio) (linkStart 0 0 0 (.replicate 50 0)) burstEvents).any (fun m =>
      decide (m.pc = .blocked ∧ m.received.length = 3 ∧ m.processed = [0x01, 0x01])) = true := by
    decide +kernel
  obtain ⟨m, ran, ends⟩ := (Option.any_eq_true _ _).mp ends
  obtain ⟨waits, length, executed⟩ := of_decide_eq_true ends
  have served := served_in_order quietRadio 0 0 0 (.replicate 50 0) burstEvents m (by decide +kernel) ran
  exact ⟨m, ran, executed, length ▸ served.1, (served.2.1 waits).2.2.1⟩

end PkeFire
