import AdkAaf.Adk.UnboundedStreamBuffer.Chain
import Mathlib.Data.List.Nodup

/-! What the two sides have in hand, and why neither disturbs the other: a node that is
not in the chain has one owner, the producer stores behind `tail` of the last node, and the
consumer in the prefix zone of the second. -/

set_option autoImplicit false

namespace AdkAaf.Adk.UnboundedStreamBuffer

open QueueVariant

open Lib (Memory)
open Node (streamBuffer)

variable {config : Config} {chain after : Chain} {state next : State}

def CallValid (config : Config) (granted : Option Nat) : Call → Prop
  | .allocateBuffer allocateLen => (allocateLen : Int) ≤ config.blockSize
  | .postBuffer => granted.getD 0 = 0
  | .push data done => granted = none ∧ done ≤ data.length

def room (config : Config) (chain : Chain) : Int :=
  config.prefixSize + config.blockSize - (chain.node chain.last).tail

def Reset (config : Config) (node : Node) : Prop :=
  node.next = none ∧ node.tail = config.prefixSize ∧
    node.tailThreshold = config.prefixSize + config.blockSize

/-- The first `copied` bytes of the data from `done` on are behind `tail`. -/
def Copied (node : Node) (data : List UInt8) (done copied : Nat) : Prop :=
  ∀ offset < copied, ∀ address : Nat, (address : Int) = node.tail + offset →
    data[done + offset]? = some (node.memory address)

def ProducerPcValid (config : Config) (chain : Chain) (cacheNode : Option Nat)
    (pop : PopPc Nat) (granted : Option Nat) : ProducerPc → Prop
  | .idle => pop = .idle ∧ (granted.getD 0 : Int) ≤ room config chain
  | .limiting call | .loading call | .allocating call =>
    pop = .idle ∧ CallValid config granted call
  | .taking call id => pop = .idle ∧ CallValid config granted call ∧ cacheNode = some id
  | .popping call => CallValid config granted call
  | .resetting call id =>
    pop = .idle ∧ CallValid config granted call ∧ chain.owner id = .producer
  | .linking call id =>
    pop = .idle ∧ CallValid config granted call ∧ chain.owner id = .producer ∧
      Reset config (chain.nodes id)
  | .copying data done count copied =>
    pop = .idle ∧ granted = none ∧ done + count ≤ data.length ∧
      (count : Int) ≤ room config chain ∧ copied ≤ count ∧
        Copied (chain.node chain.last) data done copied

structure ProducerValid (config : Config) (chain : Chain) (cacheNode : Option Nat)
    (pop : PopPc Nat) (producer : Producer) : Prop where
  tailPtr : producer.tailPtr = chain.place chain.last
  pc : ProducerPcValid config chain cacheNode pop producer.granted producer.pc

def Reading (chain : Chain) (consumer : Consumer) : Prop :=
  consumer.headPtr = chain.place chain.first ∧ consumer.head ≤ consumer.headThreshold ∧
    consumer.headThreshold ≤ (chain.node chain.first).tail

def Short (config : Config) (consumer : Consumer) : Prop :=
  consumer.headThreshold - consumer.head ≤ config.prefixSize

def Leaving (config : Config) (chain : Chain) (consumer : Consumer) : Prop :=
  Reading chain consumer ∧ Short config consumer ∧ chain.first < chain.last ∧
    consumer.headThreshold = (chain.node chain.first).tail

/-- The first `copied` of the bytes that are left are in the prefix zone of the next node. -/
def Carried (config : Config) (chain : Chain) (consumer : Consumer) (copied : Nat) : Prop :=
  ∀ offset < copied, ∀ address source : Nat,
    (address : Int) = config.prefixSize - (consumer.headThreshold - consumer.head) + offset →
      (source : Int) = consumer.head + offset →
        (chain.node (chain.first + 1)).memory address = (chain.node chain.first).memory source

def Left (chain : Chain) (consumer : Consumer) (next : Nat) : Prop :=
  next = chain.place chain.first ∧ chain.owner consumer.headPtr = .consumer

def Loaded (chain : Chain) (consumer : Consumer) : Prop :=
  consumer.head ≤ consumer.headThreshold ∧
    consumer.headThreshold ≤ (chain.node chain.first).tail

def ConsumerValid (config : Config) (chain : Chain) (cacheNode : Option Nat)
    (push : PushPc Nat) (consumer : Consumer) : Prop :=
  match consumer.pc with
  | .idle | .reloading => push = .idle ∧ Reading chain consumer
  | .checking => push = .idle ∧ Reading chain consumer ∧ Short config consumer
  | .comparing =>
    push = .idle ∧ Reading chain consumer ∧ Short config consumer ∧ chain.first < chain.last
  | .rechecking =>
    push = .idle ∧ Reading chain consumer ∧ consumer.head = consumer.headThreshold
  | .rereading =>
    push = .idle ∧ Reading chain consumer ∧ consumer.head = consumer.headThreshold ∧
      chain.first < chain.last
  | .following => push = .idle ∧ Leaving config chain consumer
  | .skipping =>
    push = .idle ∧ Leaving config chain consumer ∧ consumer.head = consumer.headThreshold
  | .copying next copied =>
    push = .idle ∧ Leaving config chain consumer ∧ next = chain.place (chain.first + 1) ∧
      copied ≤ consumer.headThreshold - consumer.head ∧ Carried config chain consumer copied
  | .advancing next =>
    push = .idle ∧ Left chain consumer next ∧ consumer.head ≤ config.prefixSize
  | .recycling next | .releasing next =>
    push = .idle ∧ Left chain consumer next ∧ Loaded chain consumer
  | .caching next =>
    push = .idle ∧ Left chain consumer next ∧ Loaded chain consumer ∧ cacheNode = none
  | .deleting next =>
    Ring.pushing push = some consumer.headPtr ∧ Left chain consumer next ∧
      Loaded chain consumer

structure CacheValid (config : Config) (owner : Nat → Owner) (cacheNode : Option Nat)
    (cache : QueueVariant.Ring Nat) : Prop where
  ring : Ring.Valid config.cacheSize cache
  unused : ∀ id ∈ cache.contents, owner id = .unusedCache
  distinct : cache.contents.Nodup
  cacheNode : ∀ id, cacheNode = some id → owner id = .cacheNode

structure Valid (config : Config) (state : State) : Prop where
  cache : CacheValid config state.chain.owner state.cacheNode state.cache
  chain : ChainValid config state.chain
  head : HeadValid config state.chain state.consumer.head state.freed
  producer : ProducerValid config state.chain state.cacheNode state.cache.pop state.producer
  consumer : ConsumerValid config state.chain state.cacheNode state.cache.push state.consumer

theorem getElem?_of_prefix {bytes longer : List UInt8} {i : Nat} {byte : UInt8}
    (shorter : bytes <+: longer) (found : bytes[i]? = some byte) :
    longer[i]? = some byte := by
  obtain ⟨rest, rfl⟩ := shorter
  obtain ⟨bound, _⟩ := List.getElem?_eq_some_iff.mp found
  rw [List.getElem?_append_left bound]
  exact found

variable {freed : List UInt8}

theorem HeadValid.frame {head : Int} (ok : HeadValid config chain head freed)
    (chainValid : ChainValid config chain) (frame : ProducerFrame chain after)
    (afterValid : ChainValid config after) : HeadValid config after head freed := by
  have ordered := chainValid.ordered
  have tails := chainValid.tails chain.first .refl ordered
  refine ⟨ok.nonneg, ?_, ?_, ok.freed.trans frame.accepted⟩
  · rw [frame.first, frame.base chain.first ordered]
    exact ok.position
  · rw [frame.first]
    intro i addr pos start inside
    rw [frame.base chain.first ordered] at pos
    by_cases held : (addr : Int) < (chain.node chain.first).tail
    · rw [frame.memory chain.first .refl ordered addr held]
      exact getElem?_of_prefix frame.accepted (ok.leftover i addr pos start held)
    · rw [← frame.base chain.first ordered] at pos
      exact afterValid.contents chain.first frame.first.le
        (ordered.trans frame.last) i addr pos (by omega) inside

variable {consumer : Consumer}

theorem Reading.frame (reading : Reading chain consumer) (ordered : chain.first ≤ chain.last)
    (frame : ProducerFrame chain after) : Reading after consumer := by
  obtain ⟨headPtr, lower, upper⟩ := reading
  refine ⟨?_, lower, ?_⟩
  · rw [frame.first, frame.place chain.first ordered]
    exact headPtr
  · rw [frame.first]
    exact Int.le_trans upper (frame.tails chain.first .refl ordered)

theorem Leaving.frame (leaving : Leaving config chain consumer)
    (frame : ProducerFrame chain after) : Leaving config after consumer := by
  obtain ⟨reading, short, more, complete⟩ := leaving
  refine ⟨reading.frame more.le frame, short, ?_, ?_⟩
  · rw [frame.first]
    exact more.trans_le frame.last
  · rw [frame.first, frame.sealed chain.first .refl more]
    exact complete

theorem Left.frame {next : Nat} (left : Left chain consumer next)
    (ordered : chain.first ≤ chain.last) (frame : ProducerFrame chain after) :
    Left after consumer next := by
  refine ⟨?_, frame.owner _ left.2⟩
  rw [frame.first, frame.place chain.first ordered]
  exact left.1

theorem Loaded.frame (loaded : Loaded chain consumer) (ordered : chain.first ≤ chain.last)
    (frame : ProducerFrame chain after) : Loaded after consumer := by
  refine ⟨loaded.1, ?_⟩
  rw [frame.first]
  exact Int.le_trans loaded.2 (frame.tails chain.first .refl ordered)

theorem Carried.frame {copied : Nat} (carried : Carried config chain consumer copied)
    (leaving : Leaving config chain consumer)
    (copies : copied ≤ consumer.headThreshold - consumer.head)
    (chainValid : ChainValid config chain) (frame : ProducerFrame chain after) :
    Carried config after consumer copied := by
  obtain ⟨_, _, more, complete⟩ := leaving
  have tails := chainValid.tails (chain.first + 1) (Nat.le_succ _) more
  intro off inside addr source at_ from_
  rw [frame.first, frame.memory chain.first .refl more.le source (by omega),
    frame.memory (chain.first + 1) (Nat.le_succ _) more addr (by omega)]
  exact carried off inside addr source at_ from_

variable {cacheNode cacheNode' : Option Nat}

theorem ConsumerValid.frame {push : PushPc Nat}
    (ok : ConsumerValid config chain cacheNode push consumer)
    (chainValid : ChainValid config chain) (frame : ProducerFrame chain after)
    (taken : cacheNode = none → cacheNode' = none) :
    ConsumerValid config after cacheNode' push consumer := by
  have ordered := chainValid.ordered
  have more : chain.first < chain.last → after.first < after.last := by
    intro more
    rw [frame.first]
    exact more.trans_le frame.last
  unfold ConsumerValid at ok ⊢
  split at ok
  next => exact ⟨ok.1, ok.2.frame ordered frame⟩
  next => exact ⟨ok.1, ok.2.frame ordered frame⟩
  next => exact ⟨ok.1, ok.2.1.frame ordered frame, ok.2.2⟩
  next =>
    obtain ⟨push, reading, short, before⟩ := ok
    exact ⟨push, reading.frame ordered frame, short, more before⟩
  next => exact ⟨ok.1, ok.2.1.frame ordered frame, ok.2.2⟩
  next =>
    obtain ⟨push, reading, empty, before⟩ := ok
    exact ⟨push, reading.frame ordered frame, empty, more before⟩
  next => exact ⟨ok.1, ok.2.frame frame⟩
  next => exact ⟨ok.1, ok.2.1.frame frame, ok.2.2⟩
  next =>
    obtain ⟨push, leaving, at_, copies, carried⟩ := ok
    refine ⟨push, leaving.frame frame, ?_, copies, carried.frame leaving copies chainValid frame⟩
    rw [frame.first, frame.place _ leaving.2.2.1]
    exact at_
  next => exact ⟨ok.1, ok.2.1.frame ordered frame, ok.2.2⟩
  next => exact ⟨ok.1, ok.2.1.frame ordered frame, ok.2.2.frame ordered frame⟩
  next => exact ⟨ok.1, ok.2.1.frame ordered frame, ok.2.2.frame ordered frame⟩
  next =>
    obtain ⟨push, left, loaded, empty⟩ := ok
    exact ⟨push, left.frame ordered frame, loaded.frame ordered frame, taken empty⟩
  next => exact ⟨ok.1, ok.2.1.frame ordered frame, ok.2.2.frame ordered frame⟩

structure ProducerStep (config : Config) (state next : State) : Prop where
  valid : Valid config next
  frame : ProducerFrame state.chain next.chain
  consumer : next.consumer = state.consumer
  freed : next.freed = state.freed
  waits : next.waits = state.waits

variable {cache : QueueVariant.Ring Nat}

variable {producer : Producer}

theorem Valid.byProducer (ok : Valid config state) (chainValid : ChainValid config chain)
    (frame : ProducerFrame state.chain chain)
    (cacheValid : CacheValid config chain.owner cacheNode cache)
    (push : cache.push = state.cache.push) (taken : state.cacheNode = none → cacheNode = none)
    (producerValid : ProducerValid config chain cacheNode cache.pop producer) :
    ProducerStep config state { state with chain, cacheNode, cache, producer } := by
  refine ⟨⟨cacheValid, chainValid, ok.head.frame ok.chain frame chainValid, producerValid,
    ?_⟩, frame, rfl, rfl, rfl⟩
  have consumer := ok.consumer.frame ok.chain frame taken
  rw [push]
  exact consumer

theorem ProducerValid.frame {pop : PopPc Nat}
    (ok : ProducerValid config chain cacheNode pop producer)
    (chainValid : ChainValid config chain) (frame : ConsumerFrame config chain after)
    (kept : ∀ id, cacheNode = some id → cacheNode' = some id) :
    ProducerValid config after cacheNode' pop producer := by
  obtain ⟨tailPtr, pcValid⟩ := ok
  have sameRoom : room config after = room config chain := by
    unfold room
    rw [frame.last, frame.tail]
  refine ⟨?_, ?_⟩
  · rw [frame.last, frame.place]
    exact tailPtr
  · unfold ProducerPcValid at pcValid ⊢
    rw [sameRoom]
    split at pcValid
    next => exact pcValid
    next => exact pcValid
    next => exact pcValid
    next => exact pcValid
    next call id _ => exact ⟨pcValid.1, pcValid.2.1, kept id pcValid.2.2⟩
    next => exact pcValid
    next call id _ => exact ⟨pcValid.1, pcValid.2.1, (frame.owner id pcValid.2.2).1⟩
    next call id _ =>
      obtain ⟨pop, call, owned, reset⟩ := pcValid
      refine ⟨pop, call, (frame.owner id owned).1, ?_⟩
      rw [(frame.owner id owned).2]
      exact reset
    next =>
      obtain ⟨pop, granted, length, fits, copies, bytes⟩ := pcValid
      refine ⟨pop, granted, length, fits, copies, ?_⟩
      intro off inside addr at_
      have tails := chainValid.tails chain.last chainValid.ordered .refl
      rw [frame.last, frame.tail] at at_
      rw [frame.last, frame.memory addr (by omega)]
      exact bytes off inside addr at_

theorem Valid.byConsumer (ok : Valid config state) {waits : Nat}
    (chainValid : ChainValid config chain) (frame : ConsumerFrame config state.chain chain)
    (cacheValid : CacheValid config chain.owner cacheNode cache) (pop : cache.pop = state.cache.pop)
    (kept : ∀ id, state.cacheNode = some id → cacheNode = some id)
    (headValid : HeadValid config chain consumer.head freed)
    (consumerValid : ConsumerValid config chain cacheNode cache.push consumer) :
    Valid config { state with chain, cacheNode, cache, consumer, freed, waits } := by
  refine ⟨cacheValid, chainValid, headValid, ?_, consumerValid⟩
  have producer := ok.producer.frame ok.chain frame kept
  rw [pop]
  exact producer

end AdkAaf.Adk.UnboundedStreamBuffer
