import PkeFire.Lora.Receiver
import PkeFire.Run.RingBuffer

/-! The way of a byte from the receive interrupt to the state machine of the serial thread. -/

namespace PkeFire

/-- What the loop of `serial_thread_entry` does next. -/
inductive SerialPc where
  /-- A byte is about to be read from the device. -/
  | read
  /-- The switch on `recv_step` is about to be executed. -/
  | dispatch
  /-- The semaphore is about to be taken. -/
  | take
  /-- The thread is suspended until the semaphore is released. -/
  | blocked
  deriving DecidableEq, Repr

/-- The receive path: what the interrupt shares with the thread, the locals of the thread, and two records. -/
structure Link where
  /-- `serial_rx` of the device, of the configured size. -/
  rxFifo : RingBuffer UInt8 128
  rxSem : UInt16
  pc : SerialPc
  ch : UInt8
  receiver : Receiver
  /-- No byte has been read yet, so that `ch` is not initialised. -/
  startUp : Bool
  /-- Every byte that the interrupt has received. -/
  received : List UInt8
  /-- Every byte on which the switch has been executed after the start-up. -/
  processed : List UInt8
  deriving DecidableEq, Repr

/-- The link when the loop is entered: the answer of the radio module has been read, but its posts remain. -/
def linkStart (index : Fin 128) (posts : UInt16) (stale : UInt8) (stack : Vector UInt8 50) : Link where
  rxFifo := { buffer := .replicate 128 0, putIndex := index, getIndex := index, isFull := false }
  rxSem := posts
  pc := .read
  ch := stale
  receiver := receiverInit stack
  startUp := true
  received := []
  processed := []

/-- An atomic action: one receive interrupt with its bytes, or one step of the thread. -/
inductive LinkEvent where
  | interrupt (bytes : List UInt8)
  | thread
  deriving DecidableEq, Repr

/-- `rt_sem_release` on `rx_sem`, which resumes the thread rather than count when it waits. -/
def rtSemRelease (m : Link) : Link :=
  if m.pc = .blocked then { m with pc := .read } else { m with rxSem := m.rxSem + 1 }

/-- `rt_sem_take` on `rx_sem`, which suspends the thread when the count is zero. -/
def rtSemTake (m : Link) : Link :=
  if 0 < m.rxSem then { m with rxSem := m.rxSem - 1, pc := .read } else { m with pc := .blocked }

/-- `rt_hw_serial_isr` with `uart_input` as its callback. -/
def rtHwSerialIsr (bytes : List UInt8) (m : Link) : Link :=
  -- All bytes that the hardware holds are stored before the callback is invoked once.
  let m := { m with rxFifo := bytes.foldl RingBuffer.put m.rxFifo, received := m.received ++ bytes }
  if m.rxFifo.used ≠ 0 then rtSemRelease m else m

/-- One action of `serial_thread_entry`, which fails when the thread waits or its receiver fails. -/
def serialThread (env : LoraEnv) (m : Link) : Option Link :=
  match m.pc with
  | .read =>
    match m.rxFifo.get with
    -- A byte that has been read ends the inner loop, and the outer one enters it again.
    | some (ch, rest) => some { m with ch := ch, rxFifo := rest, startUp := false }
    -- The body of the inner loop is executed when there is nothing to read.
    | none => some { m with pc := .dispatch }
  | .dispatch =>
    -- The switch sees the byte last read, whether it has seen it before or not.
    (receive env m.receiver m.ch).map fun receiver =>
      { m with
        receiver := receiver
        pc := .take
        processed := if m.startUp then m.processed else m.processed ++ [m.ch] }
  | .take => some (rtSemTake m)
  | .blocked => none

/-- One action of the link. -/
def linkStep (env : LoraEnv) (m : Link) (event : LinkEvent) : Option Link :=
  match event with
  -- There is no interrupt without a byte.
  | .interrupt bytes => if bytes = [] then none else some (rtHwSerialIsr bytes m)
  | .thread => serialThread env m

/-- The interrupt finds room for its bytes. -/
def Room (m : Link) : LinkEvent → Prop
  | .interrupt bytes => m.rxFifo.used + bytes.length < 128
  | .thread => True

/-- Whether an interrupt finds room can be decided. -/
instance Room.instDecidable (m : Link) : (event : LinkEvent) → Decidable (Room m event)
  | .interrupt bytes => inferInstanceAs (Decidable (m.rxFifo.used + bytes.length < 128))
  | .thread => .isTrue trivial

/-- The switch has seen the bytes received in their order, and all of them once there is nothing left to do. -/
def InOrder (m : Link) : Prop :=
  m.processed <+: m.received ∧
    (m.pc = .blocked → m.rxSem = 0 → m.rxFifo.used = 0 → m.processed = m.received)

/-- No byte is lost or repeated between the interrupt and the switch, however they interleave. -/
def BytesKept : Prop :=
  ∀ env index posts stale stack events m,
    EveryStep (linkStep env) Room (linkStart index posts stale stack) events →
      run (linkStep env) (linkStart index posts stale stack) events = some m → InOrder m

/-- The interrupt brings a single byte, and finds the link idle: nothing queued, nothing posted, and no read due. -/
def Paced (m : Link) : LinkEvent → Prop
  | .interrupt bytes => bytes.length = 1 ∧ m.rxFifo.used = 0 ∧ m.rxSem = 0 ∧ m.pc ≠ .read
  | .thread => True

/-- Whether an interrupt is paced can be decided. -/
instance Paced.instDecidable (m : Link) : (event : LinkEvent) → Decidable (Paced m event)
  | .interrupt bytes =>
    inferInstanceAs (Decidable (bytes.length = 1 ∧ m.rxFifo.used = 0 ∧ m.rxSem = 0 ∧ m.pc ≠ .read))
  | .thread => .isTrue trivial

/-- Where the bytes are that have been received and not yet executed: in the thread's hand, and in the queue. -/
def Underway (m : Link) (hand queue : List UInt8) : Prop :=
  -- The queue may hold one byte, which has been posted.
  let posted := queue = [] ∧ (m.startUp = true ∨ m.rxSem = 0) ∨ queue.length = 1 ∧ m.rxSem = 1
  match m.pc with
  | .read => hand = [] ∧ queue = [] ∧ m.startUp = true ∨ hand = [] ∧ queue.length = 1 ∧ m.rxSem = 0 ∨
      hand = [m.ch] ∧ queue = [] ∧ m.startUp = false ∧ m.rxSem = 0
  | .dispatch => hand = (if m.startUp then [] else [m.ch]) ∧ posted
  | .take => hand = [] ∧ posted
  | .blocked => hand = [] ∧ queue = [] ∧ m.rxSem = 0

/-- Every byte received has been executed, or is underway. -/
def InStep (m : Link) : Prop :=
  ∃ hand queue, m.rxFifo.Holds queue ∧ m.received = m.processed ++ hand ++ queue ∧ Underway m hand queue

section

variable {env : LoraEnv} {m next : Link} {event : LinkEvent}

/-- A link that is in step has kept the bytes in their order. -/
theorem InStep.inOrder (kept : InStep m) : InOrder m := by
  obtain ⟨hand, queue, _, split, place⟩ := kept
  constructor
  · -- What is underway comes after what has been executed.
    rw [split, List.append_assoc]
    exact List.prefix_append _ _
  · -- Nothing is underway while the thread waits.
    intro waits _ _
    simp only [Underway, waits] at place
    rw [split, place.1, place.2.1, List.append_nil, List.append_nil]

/-- The link is in step when the loop is entered. -/
theorem inStep_start (index : Fin 128) (posts : UInt16) (stale : UInt8) (stack : Vector UInt8 50) :
    InStep (linkStart index posts stale stack) :=
  ⟨[], [], RingBuffer.holds_nil rfl rfl, rfl, Or.inl ⟨rfl, rfl, rfl⟩⟩

/-- A paced interrupt keeps the link in step. -/
theorem InStep.interrupt {bytes : List UInt8} (kept : InStep m) (paced : Paced m (.interrupt bytes)) :
    InStep (rtHwSerialIsr bytes m) := by
  obtain ⟨hand, queue, holds, split, place⟩ := kept
  obtain ⟨single, empty, unposted, elsewhere⟩ := paced
  obtain ⟨byte, rfl⟩ := List.length_eq_one_iff.mp single
  cases holds.eq_nil empty
  -- The byte is the only one in the queue, and the callback is invoked for it.
  have queued := holds.put byte (by simp)
  have nonempty : (m.rxFifo.put byte).used ≠ 0 := by simp [queued.counted]
  have arrived : rtHwSerialIsr [byte] m =
      rtSemRelease { m with rxFifo := m.rxFifo.put byte, received := m.received ++ [byte] } := by
    rw [rtHwSerialIsr]
    exact if_pos nonempty
  have joined : m.received ++ [byte] = m.processed ++ hand ++ [byte] := by rw [split, List.append_nil]
  have posted : m.rxSem + 1 = 1 := by rw [unposted]; rfl
  rw [arrived, rtSemRelease]
  refine ⟨hand, [byte], ?_⟩
  cases here : m.pc with
  | read => exact absurd here elsewhere
  | blocked =>
    -- The thread is resumed without a count, and will read the byte.
    simp only [Underway, here] at place
    rw [if_pos rfl]
    exact ⟨queued, joined, Or.inr (Or.inl ⟨place.1, rfl, unposted⟩)⟩
  | dispatch | take =>
    simp only [Underway, here] at place
    rw [if_neg (by simp)]
    exact ⟨queued, joined, place.1, Or.inr ⟨rfl, posted⟩⟩

/-- A step of the thread keeps the link in step. -/
theorem InStep.thread (kept : InStep m) (taken : serialThread env m = some next) : InStep next := by
  obtain ⟨hand, queue, holds, split, place⟩ := kept
  cases here : m.pc with
  | read =>
    simp only [Underway, here] at place
    obtain ⟨rfl, rfl, starting⟩ | ⟨rfl, single, unposted⟩ | ⟨rfl, rfl, started, unposted⟩ := place
    · -- Nothing has arrived yet, and the switch is about to run on an uninitialised byte.
      simp only [serialThread, here, holds.get_nil] at taken
      cases Option.some.inj taken
      exact ⟨[], [], holds, split, by rw [if_pos starting], Or.inl ⟨rfl, Or.inl starting⟩⟩
    · obtain ⟨byte, rfl⟩ := List.length_eq_one_iff.mp single
      obtain ⟨rest, read, holds⟩ := holds.get_cons
      simp only [serialThread, here, read] at taken
      cases Option.some.inj taken
      -- The thread stays at its read, with the byte in hand.
      exact ⟨[byte], [], holds, by simpa using split, Or.inr (Or.inr ⟨rfl, rfl, rfl, unposted⟩)⟩
    · -- The read fails with the byte in hand, which is why the switch gets to see it.
      simp only [serialThread, here, holds.get_nil] at taken
      cases Option.some.inj taken
      exact ⟨[m.ch], [], holds, split, by simp [started], Or.inl ⟨rfl, Or.inr unposted⟩⟩
  | dispatch =>
    simp only [Underway, here] at place
    obtain ⟨inHand, posted⟩ := place
    simp only [serialThread, here] at taken
    obtain ⟨receiver, _, rfl⟩ := Option.map_eq_some_iff.mp taken
    refine ⟨[], queue, holds, ?_, rfl, posted⟩
    -- The byte in hand joins the executed ones, and during the start-up there is none.
    rw [split, inHand, List.append_nil]
    by_cases starting : m.startUp = true
    · simp [starting]
    · simp [starting]
  | take =>
    simp only [Underway, here] at place
    obtain ⟨rfl, posted⟩ := place
    simp only [serialThread, here, rtSemTake] at taken
    cases Option.some.inj taken
    split
    · -- After the start-up, a count means that a byte is waiting.
      rename_i positive
      obtain ⟨rfl, starting | unposted⟩ | ⟨single, one⟩ := posted
      · exact ⟨[], [], holds, split, Or.inl ⟨rfl, rfl, starting⟩⟩
      · simp [unposted] at positive
      · exact ⟨[], queue, holds, split, Or.inr (Or.inl ⟨rfl, single, by simp [one]⟩)⟩
    · rename_i zero
      have none : m.rxSem = 0 := by
        simpa using zero
      obtain ⟨rfl, _⟩ | ⟨_, one⟩ := posted
      · exact ⟨[], [], holds, split, rfl, rfl, none⟩
      · simp [one] at none
  | blocked =>
    simp only [serialThread, here] at taken
    cases taken

/-- A paced action keeps the link in step. -/
theorem InStep.step (kept : InStep m) (paced : Paced m event) (taken : linkStep env m event = some next) :
    InStep next := by
  cases event with
  | interrupt bytes =>
    simp only [linkStep] at taken
    split at taken
    · cases taken
    · cases Option.some.inj taken
      exact kept.interrupt paced
  | thread => exact kept.thread taken

end

/-- A paced run keeps the link in step. -/
theorem inStep_of_paced {env : LoraEnv} {index : Fin 128} {posts : UInt16} {stale : UInt8}
    {stack : Vector UInt8 50} {events : List LinkEvent} {m : Link}
    (paced : EveryStep (linkStep env) Paced (linkStart index posts stale stack) events)
    (ran : run (linkStep env) (linkStart index posts stale stack) events = some m) : InStep m := by
  refine run_invariant InStep ?_ (inStep_start index posts stale stack) paced ran
  intro state event next kept permitted taken
  exact kept.step permitted taken

/-- What the receiver has been fed: some bytes of the start-up, and then those that are recorded. -/
def Fed (env : LoraEnv) (stale : UInt8) (stack : Vector UInt8 50) (m : Link) : Prop :=
  (m.startUp = true → m.ch = stale ∧ m.processed = []) ∧
    ∃ count, run (receive env) (receiverInit stack) (.replicate count stale ++ m.processed) = some m.receiver

/-- Along every run, paced or not, the receiver assembles its frames from the recorded bytes. -/
theorem receiver_fed {env : LoraEnv} {index : Fin 128} {posts : UInt16} {stale : UInt8}
    {stack : Vector UInt8 50} {events : List LinkEvent} {m : Link}
    (ran : run (linkStep env) (linkStart index posts stale stack) events = some m) : Fed env stale stack m := by
  have every : EveryStep (linkStep env) (fun _ _ => True) (linkStart index posts stale stack) events :=
    everyStep_of_forall (fun _ _ => trivial) _ _
  have initially : Fed env stale stack (linkStart index posts stale stack) :=
    ⟨fun _ => ⟨rfl, rfl⟩, 0, rfl⟩
  refine run_invariant (Fed env stale stack) ?_ initially every ran
  intro state event next fed _ taken
  obtain ⟨starting, count, fed⟩ := fed
  cases event with
  | interrupt bytes =>
    -- The interrupt touches neither the thread's byte nor its receiver.
    simp only [linkStep] at taken
    -- Whether the thread is resumed or a count is added, the records are the same.
    split at taken
    · cases taken
    · cases Option.some.inj taken
      simp only [rtHwSerialIsr, rtSemRelease]
      split
      · split
        · exact ⟨starting, count, fed⟩
        · exact ⟨starting, count, fed⟩
      · exact ⟨starting, count, fed⟩
  | thread =>
    simp only [linkStep] at taken
    cases here : state.pc with
    | read =>
      simp only [serialThread, here] at taken
      split at taken
      · cases Option.some.inj taken
        exact ⟨fun none => (by cases none), count, fed⟩
      · cases Option.some.inj taken
        exact ⟨starting, count, fed⟩
    | dispatch =>
      simp only [serialThread, here] at taken
      obtain ⟨receiver, executed, rfl⟩ := Option.map_eq_some_iff.mp taken
      by_cases start : state.startUp = true
      · -- The uninitialised byte is fed once more.
        obtain ⟨same, none⟩ := starting start
        refine ⟨fun _ => ⟨same, by simp [start, none]⟩, count + 1, ?_⟩
        rw [none, List.append_nil] at fed
        simp only [if_pos start, none, List.append_nil, List.replicate_succ']
        rw [run_append, fed, Option.bind_some, run_singleton, ← same, executed]
      · refine ⟨fun still => absurd still start, count, ?_⟩
        simp only [if_neg start]
        rw [← List.append_assoc, run_append, fed, Option.bind_some, run_singleton, executed]
    | take =>
      simp only [serialThread, here, rtSemTake] at taken
      cases Option.some.inj taken
      split
      · exact ⟨starting, count, fed⟩
      · exact ⟨starting, count, fed⟩
    | blocked =>
      simp only [serialThread, here] at taken
      cases taken

/-- When a paced link has come to rest, its receiver has been given every byte received, in order. -/
theorem receiver_of_received {env : LoraEnv} {index : Fin 128} {posts : UInt16} {stale : UInt8}
    {stack : Vector UInt8 50} {events : List LinkEvent} {m : Link}
    (paced : EveryStep (linkStep env) Paced (linkStart index posts stale stack) events)
    (ran : run (linkStep env) (linkStart index posts stale stack) events = some m) (rests : m.pc = .blocked) :
    ∃ count, run (receive env) (receiverInit stack) (.replicate count stale ++ m.received) = some m.receiver := by
  -- At rest, the recorded bytes are all that have been received.
  obtain ⟨_, count, fed⟩ := receiver_fed ran
  obtain ⟨hand, queue, _, split, place⟩ := inStep_of_paced paced ran
  simp only [Underway, rests] at place
  rw [place.1, place.2.1, List.append_nil, List.append_nil] at split
  exact ⟨count, split ▸ fed⟩

/-- While every interrupt brings a single byte to an idle link, no byte is lost or repeated. -/
theorem bytes_kept (env : LoraEnv) (index : Fin 128) (posts : UInt16) (stale : UInt8)
    (stack : Vector UInt8 50) (events : List LinkEvent) (m : Link)
    (paced : EveryStep (linkStep env) Paced (linkStart index posts stale stack) events)
    (ran : run (linkStep env) (linkStart index posts stale stack) events = some m) : InOrder m :=
  (inStep_of_paced paced ran).inOrder

/-- Three interrupts: to a thread that waits, to one about to execute the switch for the first byte, and at rest. -/
def pacedEvents : List LinkEvent :=
  .replicate 3 .thread ++ .interrupt [protoHeader1] :: .replicate 2 .thread ++
    .interrupt [protoHeader2] :: .replicate 6 .thread ++ .interrupt [0x07] :: .replicate 4 .thread

/-- Bytes that come one by one, to a thread that waits or is busy with the one before, are executed in their order. -/
theorem bytes_kept_paced : ∃ m,
    run (linkStep quietRadio) (linkStart 0 0 0 (.replicate 50 0)) pacedEvents = some m ∧ m.pc = .blocked ∧
      m.received = [protoHeader1, protoHeader2, 0x07] ∧ m.processed = m.received := by
  have ends : (run (linkStep quietRadio) (linkStart 0 0 0 (.replicate 50 0)) pacedEvents).any (fun m =>
      decide (m.pc = .blocked ∧ m.rxSem = 0 ∧ m.rxFifo.used = 0 ∧
        m.received = [protoHeader1, protoHeader2, 0x07])) = true := by
    decide +kernel
  obtain ⟨m, ran, ends⟩ := (Option.any_eq_true _ _).mp ends
  obtain ⟨waits, unposted, empty, arrived⟩ := of_decide_eq_true ends
  have kept := bytes_kept quietRadio 0 0 0 (.replicate 50 0) _ m (by decide +kernel) ran
  exact ⟨m, ran, waits, arrived, kept.2 waits unposted empty⟩

/-- Of two bytes that one interrupt brings to a thread that waits, the switch sees only the second. -/
theorem bytesKept_fails : ¬ BytesKept := by
  intro kept
  have lost : (run (linkStep quietRadio) (linkStart 0 0 0 (.replicate 50 0))
      (.replicate 3 .thread ++ .interrupt [protoHeader1, protoHeader2] :: .replicate 4 .thread)).any (fun m =>
        decide (m.received = [protoHeader1, protoHeader2] ∧ m.processed = [protoHeader2])) = true := by
    decide +kernel
  obtain ⟨m, ran, lost⟩ := (Option.any_eq_true _ _).mp lost
  obtain ⟨arrived, seen⟩ := of_decide_eq_true lost
  have start := (kept quietRadio 0 0 0 (.replicate 50 0) _ m (by decide +kernel) ran).1
  rw [arrived, seen] at start
  exact absurd start (by decide)

end PkeFire
