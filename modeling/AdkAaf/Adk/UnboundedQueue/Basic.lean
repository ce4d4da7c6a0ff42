import AdkAaf.Adk.QueueVariant.Spsc
import AdkAaf.Lib.Transition

/-! `UnboundedQueueBase` of `adk/include/adk/lock_free_unbounded_queue_variant.h`: a chain
of nodes with `node_size_` entries each, of which the consumer drops the first and the
producers append the last. Emptied nodes go back through a cache, an `SPSCQueue` that runs
against the direction of the queue.

Here are the parts that the flavours share: the consumer, and `NewNode`. A node is named
by a natural in place of its address. Each action is one access to memory that both sides
use, a call of the cache being several; the last load of `next` in the loop of
`SC_FreeEntry` and the load that follows it are one. The cursors are `uint64_t` that only
grow and are modelled as naturals. -/

set_option autoImplicit false

namespace AdkAaf.Adk.UnboundedQueue

open Function QueueVariant

/-- `node_size_`, `entry_bits_`, and the cache: its number of slots and the number of nodes
that `Init` puts into it. -/
structure Config where
  nodeSize : Nat
  entryBits : Nat
  cacheSize : Nat
  cacheInit : Nat

def create (nodeSize cacheSize cacheInit : UInt32) (entryBits : Nat) : Config :=
  { nodeSize := (roundToPowerOf2 (max nodeSize 2)).toNat
    entryBits
    cacheSize := (roundToPowerOf2 (max cacheSize 2)).toNat
    cacheInit := (if cacheInit < cacheSize then cacheInit else cacheSize).toNat }

namespace Config

def slot (config : Config) (index : Nat) : Nat := index &&& sizeMask config.nodeSize

def IsLast (config : Config) (index : Nat) : Prop := config.slot index = sizeMask config.nodeSize

instance (config : Config) (index : Nat) : Decidable (config.IsLast index) :=
  inferInstanceAs (Decidable (_ = _))

/-- The entries that the block of a node has room for: `node_size_ << entry_bits_` is a
shift of 32 bits. -/
def nodeEntries (config : Config) : Nat :=
  uint32 (config.nodeSize * 2 ^ config.entryBits) / 2 ^ config.entryBits

end Config

structure Node (Value : Type) where
  next : Option Nat
  prev : Option Nat
  nodeHold : Nat
  pos : Nat → Nat
  buffer : Nat → Value

/-- Who has a node: nobody (the block is not allocated), the chain under a number, a
producer that is about to append it, the consumer that is about to recycle it, or the
cache. -/
inductive Owner where
  | heap
  | chain (number : Nat)
  | producer
  | consumer
  | cache
  deriving DecidableEq

/-- `deleting` and `releasing` are `DeleteNode`: the push to the cache, and the return of
the block when the cache is full. -/
inductive ConsumerPc where
  | idle
  | reading
  | freeing
  | following
  | deleting (node : Nat)
  | releasing (node : Nat)
  deriving DecidableEq

/-- As history variables the owner of each node, the nodes of the chain by number, which
of the numbers are in the chain, the elements posted under each index, and the elements
popped. -/
structure Queue (Value : Type) where
  nodes : Nat → Node Value
  cache : QueueVariant.Ring Nat
  tailPtr : Nat
  tail : Nat
  tailThreshold : Nat
  headPtr : Nat
  head : Nat
  consumer : ConsumerPc := .idle
  owner : Nat → Owner
  place : Nat → Nat
  first : Nat := 0
  last : Nat := 0
  posted : Nat → Option Value := fun _ => none
  popped : List Value := []

/-- `NewNode`: the pop from the cache and the reset of `next`, or a new block. -/
inductive NewNodePc where
  | popping
  | clearing (node : Nat)
  | allocating
  | ready (node : Nat)

inductive ReturnCode where
  | kSuccess
  | kQueueEmpty

section Steps

variable {Value : Type} (config : Config) (queue : Queue Value)

def setNode (id : Nat) (node : Node Value) : Queue Value :=
  { queue with nodes := update queue.nodes id node }

def setOwner (id : Nat) (owner : Owner) : Queue Value :=
  { queue with owner := update queue.owner id owner }

def setNext (id : Nat) (next : Option Nat) : Queue Value :=
  setNode queue id { queue.nodes id with next }

def setHold (id hold : Nat) : Queue Value :=
  setNode queue id { queue.nodes id with nodeHold := hold }

def setPrev (id prev : Nat) : Queue Value :=
  setNode queue id { queue.nodes id with prev := some prev }

def setPos (id slot pos : Nat) : Queue Value :=
  let node := queue.nodes id
  setNode queue id { node with pos := update node.pos slot pos }

def writeEntry (id slot : Nat) (value : Value) : Queue Value :=
  let node := queue.nodes id
  setNode queue id { node with buffer := update node.buffer slot value }

def postEntry (id slot index : Nat) (value : Value) : Queue Value :=
  { setPos queue id slot index with
    posted := update queue.posted index (some value) }

/-- `AllocateNewNode`. What lies behind the allocated entries is not memory of the node. -/
def allocateNewNode (garbage : Node Value) : Node Value :=
  { garbage with
    next := none
    pos := fun slot => if slot < config.nodeEntries then 0 else garbage.pos slot }

/-- `aligned_malloc` returns any block that is not in use, with any content. -/
def allocate (id : Nat) (garbage : Node Value) : Option (Queue Value) :=
  if queue.owner id = .heap then
    some (setOwner (setNode queue id (allocateNewNode config garbage)) id .producer)
  else
    none

def startNewNode : Queue Value := { queue with cache := queue.cache.startPop }

def stepNewNode : NewNodePc → Option (Queue Value × NewNodePc)
  | .popping =>
    match Ring.stepPop config.cacheSize queue.cache with
    | some (cache, .running) => some ({ queue with cache }, .popping)
    | some (cache, .kQueueEmpty) => some ({ queue with cache }, .allocating)
    | some (cache, .kSuccess id) =>
      some (setOwner { queue with cache } id .producer, .clearing id)
    | none => none
  | .clearing id => some (setNext queue id none, .ready id)
  | .allocating | .ready _ => none

def appendNode (id : Nat) : Queue Value :=
  { queue with
    tailPtr := id
    owner := update queue.owner id (.chain (queue.last + 1))
    place := update queue.place (queue.last + 1) id
    last := queue.last + 1 }

def scWaitEntry : ReturnCode :=
  if (queue.nodes queue.headPtr).pos (config.slot queue.head) = 0 then .kQueueEmpty
  else .kSuccess

def waitEntry : Option (Queue Value) :=
  if queue.consumer = .idle then
    match scWaitEntry config queue with
    | .kQueueEmpty => some queue
    | .kSuccess => some { queue with consumer := .reading }
  else
    none

/-- The read of the element, `SC_FreeEntry` and `DeleteNode`. -/
def stepConsumer : Option (Queue Value) :=
  let slot := config.slot queue.head
  match queue.consumer with
  | .idle => none
  | .reading =>
    some { queue with
      consumer := .freeing
      popped := queue.popped ++ [(queue.nodes queue.headPtr).buffer slot] }
  | .freeing =>
    some { setPos queue queue.headPtr slot 0 with
      head := queue.head + 1
      consumer := if config.IsLast queue.head then .following else .idle }
  | .following =>
    match (queue.nodes queue.headPtr).next with
    | none => some queue
    | some next =>
      some { setOwner queue queue.headPtr .consumer with
        headPtr := next
        first := queue.first + 1
        consumer := .deleting queue.headPtr
        cache := queue.cache.startPush queue.headPtr }
  | .deleting id =>
    match Ring.stepPush config.cacheSize queue.cache with
    | some (cache, .running) => some { queue with cache }
    | some (cache, .kQueueFull) => some { queue with cache, consumer := .releasing id }
    | some (cache, .kSuccess) =>
      some { setOwner { queue with cache } id .cache with consumer := .idle }
    | none => none
  | .releasing id => some { setOwner queue id .heap with consumer := .idle }

end Steps

/-- The nodes between `head_ptr_` and `tail_ptr_`. -/
inductive Linked {Value : Type} (queue : Queue Value) : Nat → Prop where
  | head : Linked queue queue.headPtr
  | next {id after : Nat} : Linked queue id → id ≠ queue.tailPtr →
      (queue.nodes id).next = some after → Linked queue after

section Init

variable {Value : Type} (config : Config)

/-- The queue whose chain is the node `tail`, with the first `allocated` blocks in use. -/
def initialQueue (garbage : Nat → Node Value) (cache : QueueVariant.Ring Nat)
    (tail allocated : Nat) : Queue Value :=
  let nodes := fun id =>
    if id < allocated then allocateNewNode config (garbage id) else garbage id
  { nodes := update nodes tail
      { nodes tail with next := none, nodeHold := 0, prev := none }
    cache
    tailPtr := tail
    tail := 1
    tailThreshold := config.nodeSize
    headPtr := tail
    head := 1
    owner := fun id => if id = tail then .chain 0 else if id < allocated then .cache else .heap
    place := fun _ => tail }

/-- `Init`: new nodes go into the cache, and the first node of the chain comes out of it,
or is allocated. The blocks are named in the order of their allocation. -/
def init (garbage : Nat → Node Value) (cachePos : Nat → Int) (cacheBuffer : Nat → Nat) :
    Option (Queue Value) :=
  let cache : QueueVariant.Ring Nat := Ring.create config.cacheSize cachePos cacheBuffer
  ((List.range config.cacheInit).foldlM (Ring.pushAlone config.cacheSize) cache).bind fun filled =>
    (Ring.popAlone config.cacheSize filled).map fun result =>
      match result with
      | (cache, some id) => initialQueue config garbage cache id config.cacheInit
      | (cache, none) =>
        initialQueue config garbage cache config.cacheInit (config.cacheInit + 1)

end Init

def staleNode : Node Nat :=
  { next := none, prev := none, nodeHold := 0, pos := fun _ => 5, buffer := fun _ => 9 }

end AdkAaf.Adk.UnboundedQueue
