import AdkAaf.Adk.LockFreeMsgQueue.Manager
import AdkAaf.Lib.ByteMemory

/-! `MPSCQueue` (`adk/include/adk/lock_free_msg_queue.h`): producers reserve indices, fill their
entries and publish them in the order of the indices; one consumer takes the entries and gives
them back. A step is what a thread does up to its next access to something that another thread
uses. `release_alert_` is not set.

An entry is a place counted from the first one. Its `pos` is kept apart from the bytes of its
payload, and the cursors and `pos`, of 64 bits, are numbers that do not wrap. -/

set_option autoImplicit false

namespace AdkAaf.Adk.LockFreeMsgQueue.Mpsc

open Function

structure Ring where
  queueSize : Nat
  queueMask : Nat
  entryBits : Nat

def Ring.create (entryPayloadSize queueSize : UInt32) : Ring where
  queueSize := (roundToPowerOf2 queueSize).toNat
  queueMask := (roundToPowerOf2 queueSize - 1).toNat
  entryBits := getBits (calcEntrySize entryPayloadSize)

/-- The bytes that `Create` asks for; the sum and the product are of `uint32_t`. -/
def createdSize (entryPayloadSize queueSize : UInt32) : UInt32 :=
  pageSize + roundToPowerOf2 queueSize * calcEntrySize entryPayloadSize

def Ring.entry (ring : Ring) (index : Nat) : Nat := (index &&& ring.queueMask) <<< ring.entryBits

/-- The functions that the threads call: `AllocEntry` and `PostEntry` (`Push` and `EmplacePush`
call them), those of `PushTsc`, and those of `PushExp`. -/
inductive Family where
  | plain
  | tsc
  | exp
  deriving DecidableEq

/-- `payloadSize` is `sizeof(T)`; producers may share a handle. -/
structure Usage (Thread : Type) where
  ring : Ring
  family : Family
  payloadSize : Nat
  handle : Thread → Nat

structure Message where
  index : Nat
  payload : List UInt8
  deriving DecidableEq

/-- An entry that `AllocEntry` has returned, with the payload that was written to it. -/
structure Granted where
  index : Nat
  payload : Option (List UInt8) := none
  deriving DecidableEq

/-- What a producer does next. The first six are `GetFreeEntry`, without `swap` and with
`rollBack` they are `GetFreeEntryExp`. -/
inductive ProducerPc where
  | idle
  | load
  | check (index : Nat)
  | readRelease (index : Nat)
  | store (index threshold : Nat)
  | recheck (index : Nat)
  | swap (index : Nat)
  | rollBack (index : Nat)
  | setPos (index : Nat)
  | write (index : Nat) (payload : List UInt8) (written : Nat)
  | readPos (message : Message)
  | wait (message : Message) (pos : Nat)
  | stamp (message : Message) (pos : Nat)
  | publish (message : Message) (pos : Nat)
  deriving DecidableEq

structure Producer where
  pc : ProducerPc := .idle
  held : List Granted := []
  dead : Bool := false

/-- `Pop`, `WaitEntry` or `WaitEntry<true>`. -/
inductive Form where
  | pop
  | wait
  | peek
  deriving DecidableEq

/-- What the consumer does next. `give` returns an entry, `copy` reads the payload in `Pop`;
the last four are `FreeEntry`, where `ordered` is for `FreeEntryOrdered`. -/
inductive ConsumerPc where
  | idle
  | load (form : Form)
  | check (form : Form) (index : Nat)
  | readTail (form : Form) (index : Nat)
  | take (form : Form) (index : Nat)
  | give (index : Nat)
  | copy (index : Nat) (copied : List UInt8)
  | readPos (index : Nat) (ordered : Bool)
  | setHead (index pos : Nat) (ordered : Bool)
  | waitRelease (pos : Nat)
  | setRelease (pos : Nat)
  deriving DecidableEq

/-- `held` are the entries that `WaitEntry` has returned and that were not freed, `peeked` the
one that `WaitEntry<true>` has returned last. -/
structure Consumer where
  pc : ConsumerPc := .idle
  headThreshold : Nat := 0
  held : List Nat := []
  peeked : Option Nat := none
  dead : Bool := false

/-- What one consumer process has taken from `first` on, and where it has left the cursors. -/
structure Session where
  first : Nat
  release : Nat
  head : Nat
  popped : List Message

/-- `posted` are the messages that were published, with their producers; `popped` those that
the consumer process was given since it found `head` at `first`, and `earlier` the sessions of
former processes. -/
structure State (Thread : Type) where
  reserve : Nat := 1
  tail : Nat := 1
  head : Nat := 1
  release : Nat := 1
  pos : Nat → Nat := fun _ => 0
  bytes : Lib.Memory
  threshold : Nat → Nat
  producers : Thread → Producer := fun _ => {}
  consumer : Consumer := {}
  posted : List (Thread × Message) := []
  popped : List Message := []
  first : Nat := 1
  earlier : List Session := []

def start {Thread : Type} (usage : Usage Thread) (bytes : Lib.Memory) : State Thread where
  bytes := bytes
  threshold _ := usage.ring.queueSize

inductive ProducerMove where
  | alloc
  | fill (index : Nat) (payload : List UInt8)
  | post (index : Nat)
  | next (ticks : Nat)

inductive ConsumerMove where
  | start (form : Form)
  | free (ordered : Bool)
  | next

/-- `kill` ends a producer, `killConsumer` the consumer; `restoreConsumer` is
`ConsumerEndConsistent` with a new consumer, `restoreProducers` is `ProducerEndConsistent`. -/
inductive Action (Thread : Type) where
  | producer (thread : Thread) (move : ProducerMove)
  | consumer (move : ConsumerMove)
  | kill (thread : Thread)
  | killConsumer
  | restoreConsumer (fixElemLeak : Bool)
  | restoreProducers

def posMask : Nat := 2 ^ 63 + (2 ^ 32 - 1)

def stampedPos (pos ticks : Nat) : Nat := (pos &&& posMask) ||| ((ticks % 2 ^ 32 / 32) <<< 32)

namespace State

variable {Thread : Type} [DecidableEq Thread]

variable (usage : Usage Thread) (state : State Thread)

def payload (index : Nat) : List UInt8 :=
  state.bytes.loadBytes (usage.ring.entry index + 8) usage.payloadSize

def setProducer (state : State Thread) (thread : Thread) (producer : Producer) : State Thread :=
  { state with producers := update state.producers thread producer }

def goto (thread : Thread) (pc : ProducerPc) : State Thread :=
  state.setProducer thread { state.producers thread with pc := pc }

def grant (thread : Thread) (entry : Granted) : State Thread :=
  let producer := state.producers thread
  state.setProducer thread { producer with pc := .idle, held := producer.held ++ [entry] }

def reserved (thread : Thread) (index : Nat) : State Thread :=
  match usage.family with
  | .plain | .tsc => state.goto thread (.swap index)
  | .exp => state.grant thread { index := index }

def produce (thread : Thread) (ticks : Nat) : Option (State Thread) :=
  match (state.producers thread).pc with
  | .idle => none
  | .load =>
    match usage.family with
    | .plain | .tsc => some (state.goto thread (.check state.reserve))
    | .exp =>
      some { state.goto thread (.check state.reserve) with reserve := state.reserve + 1 }
  | .check index =>
    if index ≥ state.threshold (usage.handle thread) then
      some (state.goto thread (.readRelease index))
    else
      some (state.reserved usage thread index)
  | .readRelease index =>
    some (state.goto thread (.store index (state.release + usage.ring.queueSize)))
  | .store index threshold =>
    some { state.goto thread (.recheck index) with
      threshold := update state.threshold (usage.handle thread) threshold }
  | .recheck index =>
    if index ≥ state.threshold (usage.handle thread) then
      match usage.family with
      | .plain | .tsc => some (state.goto thread .idle)
      | .exp => some (state.goto thread (.rollBack index))
    else
      some (state.reserved usage thread index)
  | .swap index =>
    if state.reserve = index then
      some { state.goto thread (.setPos index) with reserve := index + 1 }
    else
      some (state.goto thread .load)
  | .rollBack index =>
    if state.reserve = index + 1 then
      some { state.goto thread .idle with reserve := index }
    else
      some (state.goto thread (.check index))
  | .setPos index =>
    some { state.grant thread { index := index } with
      pos := update state.pos (usage.ring.entry index) index }
  | .write index payload written =>
    match payload[written]? with
    | some byte =>
      some { state.goto thread (.write index payload (written + 1)) with
        bytes := state.bytes.storeByte (usage.ring.entry index + 8 + written) byte }
    | none => some (state.grant thread { index := index, payload := some payload })
  | .readPos message =>
    some (state.goto thread (.wait message (state.pos (usage.ring.entry message.index))))
  | .wait message pos =>
    if state.tail = pos then
      match usage.family with
      | .plain | .exp => some (state.goto thread (.publish message pos))
      | .tsc => some (state.goto thread (.stamp message pos))
    else
      some state
  | .stamp message pos =>
    let entry := usage.ring.entry message.index
    some { state.goto thread (.publish message pos) with
      pos := update state.pos entry (stampedPos (state.pos entry) ticks) }
  | .publish message pos =>
    some { state.goto thread .idle with
      tail := pos + 1
      posted := state.posted ++ [(thread, message)] }

/-- A producer calls a function, or does the next statement of the one it is in. A payload has
the size of the type; an entry is posted when it was written. -/
def produceMove (thread : Thread) :
    ProducerMove → Option (State Thread)
  | .alloc =>
    if (state.producers thread).pc = .idle then some (state.goto thread .load) else none
  | .fill index payload =>
    let producer := state.producers thread
    if producer.pc = .idle ∧ payload.length = usage.payloadSize then
      (producer.held.find? fun entry => entry.index = index).map fun entry =>
        state.setProducer thread
          { producer with pc := .write index payload 0, held := producer.held.erase entry }
    else
      none
  | .post index =>
    let producer := state.producers thread
    if producer.pc = .idle then
      (producer.held.find? fun entry => entry.index = index).bind fun entry =>
        entry.payload.map fun payload =>
          let message : Message := { index := index, payload := payload }
          let pc : ProducerPc :=
            match usage.family with
            | .plain | .tsc => .readPos message
            | .exp => .wait message index
          state.setProducer thread
            { producer with pc := pc, held := producer.held.erase entry }
    else
      none
  | .next ticks => state.produce usage thread ticks

def setConsumer (pc : ConsumerPc) : State Thread :=
  { state with consumer := { state.consumer with pc := pc } }

def freeing (pos : Nat) (ordered : Bool) : State Thread :=
  state.setConsumer (if ordered then .setRelease pos else .waitRelease pos)

def consume : Option (State Thread) :=
  match state.consumer.pc with
  | .idle => none
  | .load form => some (state.setConsumer (.check form state.head))
  | .check form index =>
    if index ≥ state.consumer.headThreshold then
      some (state.setConsumer (.readTail form index))
    else
      some (state.setConsumer (.take form index))
  | .readTail form index =>
    let pc : ConsumerPc := if index ≥ state.tail then .idle else .take form index
    some { state with consumer := { state.consumer with headThreshold := state.tail, pc := pc } }
  | .take form index =>
    match form with
    | .pop => some { state.setConsumer (.copy index []) with head := index + 1 }
    | .wait => some { state.setConsumer (.give index) with head := index + 1 }
    | .peek =>
      some { state with consumer := { state.consumer with peeked := some index, pc := .idle } }
  | .give index =>
    some { state with
      consumer := { state.consumer with held := state.consumer.held ++ [index], pc := .idle }
      popped := state.popped ++ [{ index := index, payload := state.payload usage index }] }
  | .copy index copied =>
    if copied.length < usage.payloadSize then
      let byte := state.bytes (usage.ring.entry index + 8 + copied.length)
      some (state.setConsumer (.copy index (copied ++ [byte])))
    else
      some { state.setConsumer .idle with
        release := state.release + 1
        popped := state.popped ++ [{ index := index, payload := copied }] }
  | .readPos index ordered =>
    let pos := state.pos (usage.ring.entry index)
    match state.consumer.peeked with
    | some _ => some (state.setConsumer (.setHead index pos ordered))
    | none => some (state.freeing pos ordered)
  | .setHead index pos ordered =>
    some { state.freeing pos ordered with
      head := pos + 1
      popped := state.popped ++ [{ index := index, payload := state.payload usage index }] }
  | .waitRelease pos =>
    some (if state.release = pos then state.setConsumer (.setRelease pos) else state)
  | .setRelease pos =>
    some { state with
      release := pos + 1
      consumer := { state.consumer with
        held := state.consumer.held.tail
        peeked := none
        pc := .idle } }

/-- The consumer pops or peeks while it has no entry, and frees the oldest one it has. -/
def consumeMove :
    ConsumerMove → Option (State Thread)
  | .start form =>
    let consumer := state.consumer
    let may : Bool :=
      match form with
      | .pop => consumer.held = [] ∧ consumer.peeked = none
      | .wait => usage.family = .plain ∧ consumer.peeked = none
      | .peek => usage.family = .plain ∧ consumer.held = []
    if consumer.pc = .idle ∧ may then some (state.setConsumer (.load form)) else none
  | .free ordered =>
    let consumer := state.consumer
    if consumer.pc = .idle ∧ usage.family = .plain then
      (consumer.peeked.or consumer.held.head?).map fun index =>
        state.setConsumer (.readPos index ordered)
    else
      none
  | .next => state.consume usage

def session : Session where
  first := state.first
  release := state.release
  head := state.head
  popped := state.popped

def step : Action Thread → Option (State Thread)
  | .producer thread move =>
    if (state.producers thread).dead then none else state.produceMove usage thread move
  | .consumer move => if state.consumer.dead then none else state.consumeMove usage move
  | .kill thread =>
    some (state.setProducer thread { state.producers thread with dead := true })
  | .killConsumer => some { state with consumer := { state.consumer with dead := true } }
  | .restoreConsumer fixElemLeak =>
    if state.consumer.dead then
      let cursor := if fixElemLeak then state.release else state.head
      some { state with
        head := cursor
        release := cursor
        consumer := {}
        popped := []
        first := cursor
        earlier := state.earlier ++ [state.session] }
    else
      none
  | .restoreProducers =>
    -- what the dead producers had reserved is given up
    some { state with
      reserve := state.tail
      producers := fun thread =>
        if (state.producers thread).dead then { dead := true } else state.producers thread }

end State

end AdkAaf.Adk.LockFreeMsgQueue.Mpsc
