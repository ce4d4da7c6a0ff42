import AdkAaf.Adk.QueueVariant.Spsc
import AdkAaf.Lib.ByteMemory
import AdkAaf.Lib.Transition

/-! `UnboundedStreamBuffer` of `adk/include/adk/lock_free_stream_buffer.h`: a chain of
nodes with a prefix zone and a block each. The producer appends nodes at `tail_ptr_`; the
consumer reads from `head_ptr_`, and when it leaves a node copies what is left of it into
the prefix zone of the next. Nodes go back through `cache_node_`, or through
`unused_cache_nodes_` when that is taken.

A node is named by a natural in place of its address. Each action of a side is one access
to memory that both sides use: a byte, `tail`, `next`, `cache_node_`, `free_nr_`, or an
access inside of `unused_cache_nodes_`. `ResetStreamNode` is one action, of a node that
only the producer has, and so is the load of `next` with that of `tail_threshold` where
the consumer leaves a node to which nobody stores any more. -/

set_option autoImplicit false

namespace AdkAaf.Adk.UnboundedStreamBuffer

open Function QueueVariant

open Lib (Memory)

def int32 (value : Int) : Int := value.bmod (2 ^ 32)

def toUint32 (value : Int) : Nat := (value % 2 ^ 32).toNat

/-- `block_size_`, `prefix_size_` and `node_limit_nr_`, and the slots of
`unused_cache_nodes_` -/
structure Config where
  blockSize : Int
  prefixSize : Int
  cacheSize : Nat
  nodeLimitNr : Nat

/-- The checks of `Create` and `Init`, and what they make of the arguments. -/
def create (blockSize prefixSize unusedCacheSize nodeLimitNr : UInt32) : Option Config :=
  let unusedCacheSize := max unusedCacheSize 1
  if blockSize < prefixSize ∨ nodeLimitNr < unusedCacheSize + 2 then
    none
  else
    some
      { blockSize := int32 (roundUp blockSize).toNat
        prefixSize := int32 (roundUp prefixSize).toNat
        cacheSize := (roundToPowerOf2 (max unusedCacheSize 2)).toNat
        nodeLimitNr := nodeLimitNr.toNat }

namespace Config

def tailThreshold (config : Config) : Int := int32 (config.prefixSize + config.blockSize)

/-- The bytes of `node_memory`. The size of the block with its header of 24 bytes is a
`uint32_t`. -/
def nodeBytes (config : Config) : Nat :=
  toUint32 (24 + config.prefixSize + config.blockSize) - 24

/-- The count of bytes that `Init` passes to `memset`, as a `size_t` -/
def clearedBytes (config : Config) : Nat := (config.tailThreshold % 2 ^ 64).toNat

end Config

structure Node where
  next : Option Nat
  tail : Int
  tailThreshold : Int
  memory : Memory

namespace Node

/-- The address in `node_memory` of an `offset` that is passed as a `uint32_t`. -/
def streamBuffer (offset : Int) : Nat := toUint32 offset

def freeSize (node : Node) : Nat := toUint32 (node.tailThreshold - node.tail)

end Node

open Node (streamBuffer)

/-- Who has a node: nobody, the chain under a number, the producer that is about to append
it, the consumer that is about to recycle it, `cache_node_`, or `unused_cache_nodes_`. -/
inductive Owner where
  | heap
  | chain (number : Nat)
  | producer
  | consumer
  | cacheNode
  | unusedCache
  deriving DecidableEq

/-- The nodes, and as history variables the owner of each, the nodes of the chain by
number with the position in the stream at which the block of each begins, which of the
numbers are in the chain, and the accepted bytes. -/
structure Chain where
  nodes : Nat → Node
  owner : Nat → Owner
  place : Nat → Nat
  base : Nat → Nat := fun _ => 0
  first : Nat := 0
  last : Nat := 0
  accepted : List UInt8 := []

/-- The call in which the producer appends a node. Of `Push` it has the data and the count
of bytes that are in the buffer. -/
inductive Call where
  | allocateBuffer (allocateLen : Nat)
  | postBuffer
  | push (data : List UInt8) (done : Nat)
  deriving DecidableEq

/-- `limiting` is the load of `free_nr_` in `ReachLimit`, and up to `linking` follow the
steps of `AppendTail`. Of the next `count` bytes of its data `Push` has `copied` so many. -/
inductive ProducerPc where
  | idle
  | limiting (call : Call)
  | loading (call : Call)
  | taking (call : Call) (id : Nat)
  | popping (call : Call)
  | allocating (call : Call)
  | resetting (call : Call) (id : Nat)
  | linking (call : Call) (id : Nat)
  | copying (data : List UInt8) (done count copied : Nat)
  deriving DecidableEq

/-- `granted` is the length of the buffer that `AllocateBuffer` has returned, if not
`nullptr`, and `returned` the result of `Push`. -/
structure Producer where
  tailPtr : Nat
  allocateNr : Nat
  allocateNrThreshold : Nat := 0
  granted : Option Nat := none
  returned : Nat := 0
  pc : ProducerPc := .idle

/-- `WaitBuffer`. With `waiting_more_` set, `checking` and `comparing` are the loads of
`next` and `tail`; with an empty buffer in hand, `rechecking` and `rereading`. Without a
`next`, the load of `tail` is `reloading`. The node of the last steps is the new head. -/
inductive ConsumerPc where
  | idle
  | checking
  | comparing
  | rechecking
  | rereading
  | reloading
  | following
  | skipping
  | copying (next copied : Nat)
  | advancing (next : Nat)
  | recycling (next : Nat)
  | caching (next : Nat)
  | deleting (next : Nat)
  | releasing (next : Nat)
  deriving DecidableEq

structure Consumer where
  headPtr : Nat
  freeNr : Nat := 0
  head : Int
  headThreshold : Int
  waitingMore : Bool := false
  pc : ConsumerPc := .idle

/-- As history variables the bytes freed and the number of calls of `WaitBuffer` that have
returned. -/
structure State where
  chain : Chain
  cacheNode : Option Nat
  cache : QueueVariant.Ring Nat
  producer : Producer
  consumer : Consumer
  freed : List UInt8 := []
  waits : Nat := 0

inductive Action where
  | push (data : List UInt8)
  | allocateBuffer (allocateLen : Nat)
  | write (offset : Nat) (byte : UInt8)
  | postBuffer (dataLen : Nat)
  | producer
  | malloc (id : Nat) (garbage : Node)
  | waitBuffer
  | consumer
  | freeBuffer (length : Nat)

namespace Chain

variable (chain : Chain)

def setNode (id : Nat) (node : Node) : Chain :=
  { chain with nodes := update chain.nodes id node }

def setOwner (id : Nat) (owner : Owner) : Chain :=
  { chain with owner := update chain.owner id owner }

def store (id address : Nat) (byte : UInt8) : Chain :=
  let node := chain.nodes id
  chain.setNode id { node with memory := node.memory.storeByte address byte }

/-- The store of `tail` with which the producer hands over more bytes. -/
def post (id length : Nat) (data : List UInt8) : Chain :=
  let node := chain.nodes id
  { chain.setNode id { node with tail := node.tail + length } with
    accepted := chain.accepted ++ data }

/-- The store of `next` with which a node becomes the last of the chain. -/
def append (tailPtr id : Nat) : Chain :=
  let node := chain.nodes tailPtr
  { chain.setNode tailPtr { node with next := some id } with
    owner := update chain.owner id (.chain (chain.last + 1))
    place := update chain.place (chain.last + 1) id
    base := update chain.base (chain.last + 1) chain.accepted.length
    last := chain.last + 1 }

def leave (headPtr : Nat) : Chain :=
  { chain.setOwner headPtr .consumer with first := chain.first + 1 }

end Chain

section Steps

variable (config : Config) (state : State)

def moveProducer (pc : ProducerPc) : State :=
  { state with producer := { state.producer with pc } }

def startCopy (node : Node) (data : List UInt8) (done : Nat) : ProducerPc :=
  let leftDataLen := data.length - done
  let count := if leftDataLen > node.freeSize then node.freeSize else leftDataLen
  .copying data done count 0

/-- `ReachLimit` before it loads `free_nr_` -/
def reachLimit (call : Call) : ProducerPc :=
  let producer := state.producer
  if producer.allocateNr > producer.allocateNrThreshold + config.nodeLimitNr then
    .limiting call
  else
    .loading call

def refuse : Call → State
  | .allocateBuffer _ =>
    { state with producer := { state.producer with granted := none, pc := .idle } }
  | .postBuffer => moveProducer state .idle
  | .push _ done => { state with producer := { state.producer with returned := done, pc := .idle } }

def proceed (producer : Producer) (node : Node) : Call → Producer
  | .allocateBuffer allocateLen => { producer with granted := some allocateLen, pc := .idle }
  | .postBuffer => { producer with pc := .idle }
  | .push data done => { producer with pc := startCopy node data done }

def resetStreamNode (node : Node) : Node :=
  { node with next := none, tail := config.prefixSize, tailThreshold := config.tailThreshold }

def stepProducer : Option State :=
  let chain := state.chain
  let producer := state.producer
  let node := chain.nodes producer.tailPtr
  match producer.pc with
  | .idle | .allocating _ => none
  | .limiting call =>
    let threshold := state.consumer.freeNr
    let reloaded := { state with
      producer := { producer with allocateNrThreshold := threshold } }
    if producer.allocateNr > threshold + config.nodeLimitNr then
      some (refuse reloaded call)
    else
      some (moveProducer reloaded (.loading call))
  | .loading call =>
    match state.cacheNode with
    | some id => some (moveProducer state (.taking call id))
    | none => some (moveProducer { state with cache := state.cache.startPop } (.popping call))
  | .taking call id =>
    let taken := { state with cacheNode := none, chain := chain.setOwner id .producer }
    some (moveProducer taken (.resetting call id))
  | .popping call =>
    match Ring.stepPop config.cacheSize state.cache with
    | some (cache, .running) => some { state with cache }
    | some (cache, .kQueueEmpty) => some (moveProducer { state with cache } (.allocating call))
    | some (cache, .kSuccess id) =>
      let taken := { state with cache, chain := chain.setOwner id .producer }
      some (moveProducer taken (.resetting call id))
    | none => none
  | .resetting call id =>
    let reset := chain.setNode id (resetStreamNode config (chain.nodes id))
    some (moveProducer { state with chain := reset } (.linking call id))
  | .linking call id =>
    let appended := chain.append producer.tailPtr id
    some { state with
      chain := appended
      producer := proceed { producer with tailPtr := id } (appended.nodes id) call }
  | .copying data done count copied =>
    if copied < count then
      (data[done + copied]?).map fun byte =>
        let address := streamBuffer node.tail + copied
        moveProducer { state with chain := chain.store producer.tailPtr address byte }
          (.copying data done count (copied + 1))
    else
      let posted := { state with
        chain := chain.post producer.tailPtr count ((data.drop done).take count) }
      if done + count < data.length then
        some (moveProducer posted (reachLimit config state (.push data (done + count))))
      else
        some { posted with producer := { producer with returned := done + count, pc := .idle } }

def allocateBuffer (allocateLen : Nat) : State :=
  let producer := state.producer
  let node := state.chain.nodes producer.tailPtr
  if node.tail + allocateLen > node.tailThreshold then
    if allocateLen > toUint32 config.blockSize then
      { state with producer := { producer with granted := none } }
    else
      moveProducer { state with producer := { producer with granted := none } }
        (reachLimit config state (.allocateBuffer allocateLen))
  else
    { state with producer := { producer with granted := some allocateLen } }

def postBuffer (dataLen : Nat) : State :=
  let producer := state.producer
  let node := state.chain.nodes producer.tailPtr
  let address := streamBuffer node.tail
  let posted := { state with
    chain := state.chain.post producer.tailPtr dataLen
      (node.memory.slice address (address + dataLen))
    producer := { producer with granted := producer.granted.map (· - dataLen) } }
  if node.tail + dataLen = node.tailThreshold then
    moveProducer posted (.loading .postBuffer)
  else
    posted

def moveConsumer (pc : ConsumerPc) : State :=
  { state with consumer := { state.consumer with pc } }

/-- `WaitBuffer` returns what is between `head_` and `head_threshold_`. -/
def returnBuffer (consumer : Consumer) : State :=
  { state with consumer := { consumer with pc := .idle }, waits := state.waits + 1 }

/-- The length of the buffer that has been returned, less what has been freed of it. -/
def exposedLength : Nat := toUint32 (state.consumer.headThreshold - state.consumer.head)

def exposed : List UInt8 :=
  let address := streamBuffer state.consumer.head
  let node := state.chain.nodes state.consumer.headPtr
  node.memory.slice address (address + exposedLength state)

def waitBuffer : State :=
  let consumer := state.consumer
  let waiting := { consumer with waitingMore := true }
  if consumer.waitingMore = true then
    moveConsumer state .checking
  else if consumer.head = consumer.headThreshold then
    { state with consumer := { waiting with pc := .rechecking } }
  else
    returnBuffer state waiting

def stepConsumer : Option State :=
  let chain := state.chain
  let consumer := state.consumer
  let node := chain.nodes consumer.headPtr
  let leave (next : Nat) (head : Int) : State := { state with
    chain := chain.leave consumer.headPtr
    consumer := { consumer with head, pc := .advancing next } }
  match consumer.pc with
  | .idle => none
  | .checking =>
    match node.next with
    | none => some (moveConsumer state .reloading)
    | some _ => some (moveConsumer state .comparing)
  | .comparing =>
    if consumer.headThreshold ≠ node.tail then
      some (returnBuffer state { consumer with headThreshold := node.tail })
    else
      some (moveConsumer state .following)
  | .rechecking =>
    match node.next with
    | none => some (moveConsumer state .reloading)
    | some _ => some (moveConsumer state .rereading)
  | .rereading =>
    if consumer.head = node.tail then
      some { state with
        consumer := { consumer with headThreshold := node.tail, pc := .skipping } }
    else
      some (returnBuffer state { consumer with headThreshold := node.tail })
  | .reloading => some (returnBuffer state { consumer with headThreshold := node.tail })
  | .following =>
    node.next.map fun next =>
      if consumer.headThreshold > node.tailThreshold then
        leave next config.prefixSize
      else
        moveConsumer state (.copying next 0)
  | .skipping => node.next.map fun next => leave next config.prefixSize
  | .copying next copied =>
    let leftLen := consumer.headThreshold - consumer.head
    let nextHead := config.prefixSize - leftLen
    if (copied : Int) < leftLen then
      let byte := node.memory (streamBuffer consumer.head + copied)
      let stored := chain.store next (streamBuffer nextHead + copied) byte
      some (moveConsumer { state with chain := stored } (.copying next (copied + 1)))
    else
      some (leave next nextHead)
  | .advancing next =>
    some { state with
      consumer := { consumer with
        headThreshold := (chain.nodes next).tail, pc := .recycling next } }
  | .recycling next =>
    match state.cacheNode with
    | none => some (moveConsumer state (.caching next))
    | some _ =>
      let cache := state.cache.startPush consumer.headPtr
      some (moveConsumer { state with cache } (.deleting next))
  | .caching next =>
    some (returnBuffer
      { state with
        cacheNode := some consumer.headPtr
        chain := chain.setOwner consumer.headPtr .cacheNode }
      { consumer with headPtr := next })
  | .deleting next =>
    match Ring.stepPush config.cacheSize state.cache with
    | some (cache, .running) => some { state with cache }
    | some (cache, .kQueueFull) => some (moveConsumer { state with cache } (.releasing next))
    | some (cache, .kSuccess) =>
      let recycled := chain.setOwner consumer.headPtr .unusedCache
      some (returnBuffer { state with cache, chain := recycled }
        { consumer with headPtr := next })
    | none => none
  | .releasing next =>
    some (returnBuffer { state with chain := chain.setOwner consumer.headPtr .heap }
      { consumer with headPtr := next, freeNr := consumer.freeNr + 1 })

def step : Action → Option State
  | .push data =>
    let producer := state.producer
    if producer.pc = .idle ∧ data.length < 2 ^ 32 then
      let pc := startCopy (state.chain.nodes producer.tailPtr) data 0
      some { state with producer := { producer with granted := none, pc } }
    else
      none
  | .allocateBuffer allocateLen =>
    if state.producer.pc = .idle ∧ allocateLen < 2 ^ 32 then
      some (allocateBuffer config state allocateLen)
    else
      none
  | .write offset byte =>
    let producer := state.producer
    if producer.pc = .idle ∧ offset < producer.granted.getD 0 then
      let address := streamBuffer (state.chain.nodes producer.tailPtr).tail + offset
      some { state with chain := state.chain.store producer.tailPtr address byte }
    else
      none
  | .postBuffer dataLen =>
    if state.producer.pc = .idle ∧ dataLen ≤ state.producer.granted.getD 0 then
      some (postBuffer state dataLen)
    else
      none
  | .producer => stepProducer config state
  | .malloc id garbage =>
    match state.producer.pc with
    | .allocating call =>
      if state.chain.owner id = .heap then
        some { state with
          chain := (state.chain.setNode id garbage).setOwner id .producer
          producer := { state.producer with
            allocateNr := state.producer.allocateNr + 1, pc := .resetting call id } }
      else
        none
    | _ => none
  | .waitBuffer => if state.consumer.pc = .idle then some (waitBuffer state) else none
  | .consumer => stepConsumer config state
  | .freeBuffer length =>
    let consumer := state.consumer
    if consumer.pc = .idle ∧ length ≤ exposedLength state then
      some { state with
        consumer := { consumer with head := consumer.head + length, waitingMore := false }
        freed := state.freed ++ (exposed state).take length }
    else
      none

/-- A second `WaitBuffer` with no `FreeBuffer` before it is made only when at most
`prefix_size_` bytes are left. -/
def Allowed : Action → Prop
  | .waitBuffer =>
    state.consumer.waitingMore = true → (exposedLength state : Int) ≤ config.prefixSize
  | _ => True

instance (action : Action) : Decidable (Allowed config state action) := by
  cases action with
  | waitBuffer => exact inferInstanceAs (Decidable (_ → _))
  | _ => exact inferInstanceAs (Decidable True)

end Steps

/-- What `Init` leaves behind: the first allocated node is in `cache_node_`, the second is
the chain. -/
def initialState (config : Config) (garbage : Nat → Node) (cachePos : Nat → Int)
    (cacheBuffer : Nat → Nat) : State :=
  let clear (node : Node) : Node := { node with
    memory := fun address => if address < config.clearedBytes then 0 else node.memory address }
  let nodes := update (update garbage 0 (clear (garbage 0))) 1
    (resetStreamNode config (clear (garbage 1)))
  { chain :=
      { nodes
        owner := fun id => if id = 0 then .cacheNode else if id = 1 then .chain 0 else .heap
        place := fun _ => 1 }
    cacheNode := some 0
    cache := Ring.create config.cacheSize cachePos cacheBuffer
    producer := { tailPtr := 1, allocateNr := 2 }
    consumer := { headPtr := 1, head := config.prefixSize, headThreshold := config.prefixSize } }

end AdkAaf.Adk.UnboundedStreamBuffer
