import AdkAaf.Adk.UnboundedStreamBuffer.Invariant

/-! The steps of `Push`, `AllocateBuffer` and `PostBuffer`. -/

set_option autoImplicit false

namespace AdkAaf.Adk.UnboundedStreamBuffer

open Function QueueVariant List

open Lib (Memory)
open Node (streamBuffer)

variable {config : Config} {chain : Chain} {state next : State}

theorem ProducerFrame.ofOutside {nodes : Nat → Node} {owner : Nat → Owner}
    (same : ∀ n, chain.first ≤ n → n ≤ chain.last →
      nodes (chain.place n) = chain.node n)
    (kept : ∀ id, chain.owner id = .consumer → owner id = .consumer) :
    ProducerFrame chain { chain with nodes, owner } := by
  refine ⟨rfl, .refl, fun _ _ => rfl, fun _ _ => rfl, ?_, ?_, ?_, prefix_rfl, kept⟩
  · intro n above below
    exact Int.le_of_eq (congrArg Node.tail (same n above below)).symm
  · intro n above below
    exact congrArg Node.tail (same n above below.le)
  · intro n above below addr _
    exact congrFun (congrArg Node.memory (same n above below)) addr

theorem ProducerFrame.refl (chain : Chain) : ProducerFrame chain chain :=
  .ofOutside (fun _ _ _ => rfl) fun _ => id

variable {id : Nat}

theorem ProducerFrame.setOwner {owner : Owner} (other : chain.owner id ≠ .consumer) :
    ProducerFrame chain (chain.setOwner id owner) := by
  refine .ofOutside (fun _ _ _ => rfl) ?_
  rintro held recycled
  rw [update_of_ne]
  · exact recycled
  · rintro rfl
    exact other recycled

theorem ProducerFrame.setNode (chainValid : ChainValid config chain) {node : Node}
    (outside : ∀ number, chain.owner id ≠ .chain number) :
    ProducerFrame chain (chain.setNode id node) :=
  .ofOutside (fun _ above below => update_of_ne
    (chainValid.place_ne above below outside) _ _) fun _ kept => kept

theorem tail_store (chain : Chain) (id addr : Nat) (byte : UInt8) (n : Nat) :
    ((chain.store id addr byte).node n).tail = (chain.node n).tail := by
  unfold Chain.store
  by_cases own : chain.place n = id
  · rw [← own, Chain.node_setNode_self]
    rfl
  · rw [Chain.node_setNode_of_ne _ own]

variable {number address : Nat} {byte : UInt8}

theorem memory_store {other : Nat} (apart : other ≠ address) :
    ((chain.store (chain.place number) address byte).node number).memory other =
      (chain.node number).memory other := by
  unfold Chain.store
  rw [Chain.node_setNode_self]
  exact if_neg apart

theorem memory_store_self :
    ((chain.store (chain.place number) address byte).node number).memory address = byte := by
  unfold Chain.store
  rw [Chain.node_setNode_self]
  exact if_pos rfl

theorem ProducerFrame.store (chainValid : ChainValid config chain)
    (free : (chain.node chain.last).tail ≤ address) :
    ProducerFrame chain (chain.store (chain.place chain.last) address byte) := by
  refine ⟨rfl, .refl, fun _ _ => rfl, fun _ _ => rfl, ?_, ?_, ?_, prefix_rfl,
    fun _ => id⟩
  · intro number _ _
    exact Int.le_of_eq (tail_store chain _ address byte number).symm
  · intro number _ _
    exact tail_store chain _ address byte number
  · intro number above below other inside
    by_cases own : number = chain.last
    · rw [own] at inside ⊢
      exact memory_store (by omega)
    · have apart : chain.place number ≠ chain.place chain.last := fun same =>
        own (chainValid.place_injective above below chainValid.ordered .refl same)
      rw [Chain.store, Chain.node_setNode_of_ne _ apart]

theorem ProducerFrame.post (chainValid : ChainValid config chain) {length : Nat}
    {data : List UInt8} :
    ProducerFrame chain (chain.post (chain.place chain.last) length data) := by
  have last := ChainValid.node_post_last chain length data
  have older := fun {number} (above : chain.first ≤ number) (below : number < chain.last) =>
    chainValid.node_post length data above below
  refine ⟨rfl, .refl, fun _ _ => rfl, fun _ _ => rfl, ?_, ?_, ?_,
    prefix_append _ _, fun _ => id⟩
  · intro number above below
    rcases Nat.lt_or_eq_of_le below with earlier | rfl
    · apply Int.le_of_eq
      rw [older above earlier]
    · rw [last]
      exact Int.le_add_of_nonneg_right (Int.natCast_nonneg length)
  · intro number above below
    rw [older above below]
  · intro number above below address _
    rcases Nat.lt_or_eq_of_le below with earlier | rfl
    · rw [older above earlier]
    · rw [last]

theorem ProducerFrame.append (chainValid : ChainValid config chain)
    (owned : chain.owner id = .producer) :
    ProducerFrame chain (chain.append (chain.place chain.last) id) := by
  have last := ChainValid.node_append_last chain id
  have older := fun {number} (above : chain.first ≤ number) (below : number < chain.last) =>
    chainValid.node_append id above below
  refine ⟨rfl, Nat.le_succ _, ?_, ?_, ?_, ?_, ?_, prefix_rfl, ?_⟩
  · intro number below
    exact update_of_ne (by omega) _ _
  · intro number below
    exact update_of_ne (by omega) _ _
  · intro number above below
    rcases Nat.lt_or_eq_of_le below with earlier | rfl
    · apply Int.le_of_eq
      rw [older above earlier]
    · apply Int.le_of_eq
      rw [last]
  · intro number above below
    rw [older above below]
  · intro number above below address _
    rcases Nat.lt_or_eq_of_le below with earlier | rfl
    · rw [older above earlier]
    · rw [last]
  · intro other recycled
    refine (update_of_ne ?_ _ _).trans recycled
    rintro rfl
    rw [owned] at recycled
    cases recycled

namespace CacheValid

variable {owner : Nat → Owner} {cacheNode : Option Nat} {cache after : QueueVariant.Ring Nat}
  (ok : CacheValid config owner cacheNode cache)

include ok

theorem setOwner {new : Owner} (unused : owner id ≠ .unusedCache) (other : owner id ≠ .cacheNode) :
    CacheValid config (update owner id new) cacheNode cache := by
  refine ⟨ok.ring, ?_, ok.distinct, ?_⟩
  · intro held mem
    have owned := ok.unused held mem
    rw [update_of_ne]
    · exact owned
    · rintro rfl
      exact unused owned
  · intro held cached
    have owned := ok.cacheNode held cached
    rw [update_of_ne]
    · exact owned
    · rintro rfl
      exact other owned

theorem setRing (ring : Ring.Valid config.cacheSize after)
    (contents : after.contents = cache.contents) : CacheValid config owner cacheNode after := by
  refine ⟨ring, ?_, ?_, ok.cacheNode⟩
  · rw [contents]
    exact ok.unused
  · rw [contents]
    exact ok.distinct

theorem take (taken : cacheNode = some id) :
    CacheValid config (update owner id .producer) none cache := by
  refine ⟨ok.ring, ?_, ok.distinct, ?_⟩
  · intro held mem
    have owned := ok.unused held mem
    rw [update_of_ne]
    · exact owned
    · rintro rfl
      rw [ok.cacheNode held taken] at owned
      cases owned
  · nofun

theorem pop (ring : Ring.Valid config.cacheSize after)
    (contents : cache.contents = id :: after.contents) :
    CacheValid config (update owner id .producer) cacheNode after := by
  have owned := ok.unused id (contents ▸ mem_cons_self)
  have distinct := ok.distinct
  rw [contents] at distinct
  obtain ⟨absent, rest⟩ := nodup_cons.mp distinct
  refine ⟨ring, ?_, rest, ?_⟩
  · intro held mem
    rw [update_of_ne]
    · exact ok.unused held (contents ▸ mem_cons_of_mem id mem)
    · rintro rfl
      exact absent mem
  · intro held cached
    rw [update_of_ne]
    · exact ok.cacheNode held cached
    · rintro rfl
      rw [ok.cacheNode held cached] at owned
      cases owned

end CacheValid

theorem room_nonneg (chainValid : ChainValid config chain) : 0 ≤ room config chain := by
  have tails := chainValid.tails chain.last chainValid.ordered .refl
  unfold room
  omega

theorem room_store (id addr : Nat) (byte : UInt8) :
    room config (chain.store id addr byte) = room config chain := by
  unfold room
  rw [tail_store]
  rfl

theorem room_post (length : Nat) (data : List UInt8) :
    room config (chain.post (chain.place chain.last) length data) = room config chain - length := by
  have last := ChainValid.node_post_last chain length data
  change _ - ((chain.post (chain.place chain.last) length data).node chain.last).tail = _
  unfold room
  rw [last]
  dsimp only
  omega

section

variable (configValid : config.Valid) (chainValid : ChainValid config chain)
include configValid chainValid

theorem freeSize_last : ((chain.node chain.last).freeSize : Int) = room config chain := by
  have tails := chainValid.tails chain.last chainValid.ordered .refl
  have threshold := chainValid.thresholds chain.last chainValid.ordered .refl
  have lower := configValid.prefixSize
  have upper := configValid.fits
  unfold room Node.freeSize
  rw [toUint32_eq (by omega) (by omega), threshold]

theorem streamBuffer_tail :
    (streamBuffer (chain.node chain.last).tail : Int) = (chain.node chain.last).tail := by
  have tails := chainValid.tails chain.last chainValid.ordered .refl
  have lower := configValid.prefixSize
  have upper := configValid.fits
  exact streamBuffer_eq (by omega) (by omega)

theorem startCopy_valid (cacheNode : Option Nat) {pop : PopPc Nat} (idle : pop = .idle)
    {data : List UInt8} {done : Nat} (length : done ≤ data.length) :
    ProducerPcValid config chain cacheNode pop none
      (startCopy (chain.node chain.last) data done) := by
  have free := freeSize_last configValid chainValid
  unfold startCopy
  dsimp only
  split
  all_goals
    refine ⟨idle, rfl, by omega, by omega, Nat.zero_le _, ?_⟩
    intro offset inside
    exact absurd inside (Nat.not_lt_zero _)

end

theorem reachLimit_valid (cacheNode : Option Nat) {pop : PopPc Nat} {granted : Option Nat}
    {call : Call} (idle : pop = .idle) (callValid : CallValid config granted call) :
    ProducerPcValid config chain cacheNode pop granted (reachLimit config state call) := by
  unfold reachLimit
  dsimp only
  split <;> exact ⟨idle, callValid⟩

namespace Valid

variable (ok : Valid config state)

include ok

theorem moveProducer {producer : Producer}
    (tailPtr : producer.tailPtr = state.chain.place state.chain.last)
    (pcValid : ProducerPcValid config state.chain state.cacheNode state.cache.pop
      producer.granted producer.pc) : ProducerStep config state { state with producer } :=
  ok.byProducer ok.chain (.refl _) ok.cache rfl id ⟨tailPtr, pcValid⟩

variable {data : List UInt8}

section

variable (configValid : config.Valid)
include configValid

theorem push (idle : state.producer.pc = .idle) :
    ProducerStep config state { state with
      producer := { state.producer with
        granted := none
        pc := startCopy (state.chain.nodes state.producer.tailPtr) data 0 } } := by
  have pcValid := ok.producer.pc
  rw [idle] at pcValid
  refine ok.moveProducer ok.producer.tailPtr ?_
  rw [ok.producer.tailPtr]
  exact startCopy_valid configValid ok.chain _ pcValid.1 (Nat.zero_le _)

theorem allocateBuffer {allocateLen : Nat} (idle : state.producer.pc = .idle) :
    ProducerStep config state (allocateBuffer config state allocateLen) := by
  have pcValid := ok.producer.pc
  rw [idle] at pcValid
  have positive := room_nonneg ok.chain
  have threshold := ok.chain.thresholds _ ok.chain.ordered .refl
  have lower := configValid.prefixSize
  have upper := configValid.fits
  have block := configValid.blockSize
  have size := toUint32_eq block (by omega)
  unfold UnboundedStreamBuffer.allocateBuffer
  dsimp only
  rw [ok.producer.tailPtr]
  split
  next full =>
    split
    next => exact ok.moveProducer rfl (by rw [idle]; exact ⟨pcValid.1, positive⟩)
    next fits =>
      exact ok.moveProducer rfl (reachLimit_valid _ pcValid.1
        (show (allocateLen : Int) ≤ config.blockSize by omega))
  next fits =>
    refine ok.moveProducer rfl ?_
    rw [idle]
    refine ⟨pcValid.1, ?_⟩
    unfold room Chain.node at *
    rw [Option.getD_some]
    omega

theorem write {offset : Nat} (idle : state.producer.pc = .idle) :
    ProducerStep config state { state with
      chain := state.chain.store state.producer.tailPtr
        (streamBuffer (state.chain.nodes state.producer.tailPtr).tail + offset) byte } := by
  obtain ⟨tailPtr, pcValid⟩ := ok.producer
  rw [idle] at pcValid
  have at_ := streamBuffer_tail configValid ok.chain
  rw [tailPtr]
  change ProducerStep config state { state with
    chain := state.chain.store (state.chain.place state.chain.last)
      (streamBuffer (state.chain.node state.chain.last).tail + offset) byte }
  refine ok.byProducer (ok.chain.store ok.chain.ordered .refl (.inr (by omega)))
    (.store ok.chain (by omega)) ok.cache rfl id ⟨tailPtr, ?_⟩
  rw [idle]
  refine ⟨pcValid.1, ?_⟩
  rw [room_store]
  exact pcValid.2

theorem postBuffer {dataLen : Nat} (idle : state.producer.pc = .idle)
    (inside : dataLen ≤ state.producer.granted.getD 0) :
    ProducerStep config state (postBuffer state dataLen) := by
  obtain ⟨tailPtr, pcValid⟩ := ok.producer
  rw [idle] at pcValid
  obtain ⟨pop, granted⟩ := pcValid
  have at_ := streamBuffer_tail configValid ok.chain
  have threshold := ok.chain.thresholds _ ok.chain.ordered .refl
  have left : (state.producer.granted.map (· - dataLen)).getD 0 =
      state.producer.granted.getD 0 - dataLen := by
    cases state.producer.granted with
    | none => exact (Nat.zero_sub dataLen).symm
    | some => rfl
  have chainValid : ChainValid config (state.chain.post (state.chain.place state.chain.last) dataLen
      ((state.chain.node state.chain.last).memory.slice
        (streamBuffer (state.chain.node state.chain.last).tail)
        (streamBuffer (state.chain.node state.chain.last).tail + dataLen))) := by
    apply ok.chain.post
    · rw [Lib.Memory.length_slice, Nat.add_sub_cancel_left]
    · unfold room at granted
      omega
    · intro offset below address pos
      have behind : address = streamBuffer (state.chain.node state.chain.last).tail + offset := by
        omega
      rw [behind]
      exact Lib.Memory.getElem?_slice _ (by omega)
  unfold UnboundedStreamBuffer.postBuffer
  dsimp only
  rw [tailPtr]
  split
  next full =>
    refine ok.byProducer chainValid (.post ok.chain) ok.cache rfl id ⟨rfl, pop, ?_⟩
    change (state.producer.granted.map (· - dataLen)).getD 0 = 0
    change (state.chain.node state.chain.last).tail + dataLen =
      (state.chain.node state.chain.last).tailThreshold at full
    unfold room at granted
    omega
  next =>
    refine ok.byProducer chainValid (.post ok.chain) ok.cache rfl id ⟨rfl, ?_⟩
    rw [idle]
    refine ⟨pop, ?_⟩
    rw [room_post, left]
    omega

end

variable {call : Call}

theorem refuse (pop : state.cache.pop = .idle)
    (callValid : CallValid config state.producer.granted call) :
    ProducerStep config state (refuse state call) := by
  have positive := room_nonneg ok.chain
  have tailPtr := ok.producer.tailPtr
  cases call with
  | allocateBuffer => exact ok.moveProducer tailPtr ⟨pop, positive⟩
  | postBuffer =>
    refine ok.moveProducer tailPtr ⟨pop, ?_⟩
    rw [show state.producer.granted.getD 0 = 0 from callValid]
    exact positive
  | push =>
    refine ok.moveProducer tailPtr ⟨pop, ?_⟩
    rw [callValid.1]
    exact positive

theorem take (at_ : state.producer.pc = .taking call id) :
    ProducerStep config state (UnboundedStreamBuffer.moveProducer
      { state with cacheNode := none, chain := state.chain.setOwner id .producer }
      (.resetting call id)) := by
  obtain ⟨tailPtr, pcValid⟩ := ok.producer
  rw [at_] at pcValid
  obtain ⟨pop, callValid, taken⟩ := pcValid
  have owned := ok.cache.cacheNode id taken
  exact ok.byProducer (ok.chain.setOwner (by simp [owned]))
    (.setOwner (by simp [owned])) (ok.cache.take taken) rfl (fun _ => rfl)
    ⟨tailPtr, pop, callValid, update_self _ _ _⟩

theorem popCache (configValid : config.Valid) (at_ : state.producer.pc = .popping call)
    {cache : QueueVariant.Ring Nat} {event : PopEvent Nat}
    (went : Ring.stepPop config.cacheSize state.cache = some (cache, event)) :
    ProducerStep config state (match event with
      | .running => { state with cache }
      | .kQueueEmpty => UnboundedStreamBuffer.moveProducer { state with cache } (.allocating call)
      | .kSuccess id => UnboundedStreamBuffer.moveProducer
          { state with cache, chain := state.chain.setOwner id .producer }
          (.resetting call id)) := by
  obtain ⟨tailPtr, pcValid⟩ := ok.producer
  rw [at_] at pcValid
  obtain ⟨ring, push, effect⟩ := Ring.stepPop_spec configValid.cache ok.cache.ring went
  cases event with
  | running =>
    refine ok.byProducer ok.chain (.refl _) (ok.cache.setRing ring effect.1) push id
      ⟨tailPtr, ?_⟩
    rw [at_]
    exact pcValid
  | kQueueEmpty =>
    exact ok.byProducer ok.chain (.refl _) (ok.cache.setRing ring effect.1) push id
      ⟨tailPtr, effect.2, pcValid⟩
  | kSuccess id =>
    have owned := ok.cache.unused id (effect.2 ▸ mem_cons_self)
    exact ok.byProducer (ok.chain.setOwner (by simp [owned]))
      (.setOwner (by simp [owned])) (ok.cache.pop ring effect.2) push (fun empty => empty)
      ⟨tailPtr, effect.1, pcValid, update_self _ _ _⟩

theorem malloc (garbage : Node) (at_ : state.producer.pc = .allocating call)
    (free : state.chain.owner id = .heap) :
    ProducerStep config state { state with
      chain := (state.chain.setNode id garbage).setOwner id .producer
      producer := { state.producer with
        allocateNr := state.producer.allocateNr + 1, pc := .resetting call id } } := by
  obtain ⟨tailPtr, pcValid⟩ := ok.producer
  rw [at_] at pcValid
  have outside : ∀ number, state.chain.owner id ≠ .chain number := by simp [free]
  have placed : ChainValid config (state.chain.setNode id garbage) := ok.chain.setNode outside
  refine ok.byProducer (placed.setOwner outside) ?_
    (ok.cache.setOwner (by simp [free]) (by simp [free])) rfl (fun empty => empty)
    ⟨tailPtr, pcValid.1, pcValid.2, update_self _ _ _⟩
  refine .ofOutside (fun number above below => ?_) (fun held recycled => ?_)
  · exact update_of_ne (ok.chain.place_ne above below outside) _ _
  · refine (update_of_ne ?_ _ _).trans recycled
    rintro rfl
    rw [free] at recycled
    cases recycled

theorem reset (configValid : config.Valid) (at_ : state.producer.pc = .resetting call id) :
    ProducerStep config state (UnboundedStreamBuffer.moveProducer { state with
        chain := state.chain.setNode id (resetStreamNode config (state.chain.nodes id)) }
      (.linking call id)) := by
  obtain ⟨tailPtr, pcValid⟩ := ok.producer
  rw [at_] at pcValid
  obtain ⟨pop, callValid, owned⟩ := pcValid
  have outside : ∀ number, state.chain.owner id ≠ .chain number := by simp [owned]
  refine ok.byProducer (ok.chain.setNode outside) (.setNode ok.chain outside) ok.cache
    rfl (fun empty => empty) ⟨tailPtr, pop, callValid, owned, ?_⟩
  dsimp only [Chain.setNode]
  rw [update_self]
  exact ⟨rfl, rfl, configValid.tailThreshold_eq⟩

theorem link (configValid : config.Valid) (at_ : state.producer.pc = .linking call id) :
    ProducerStep config state { state with
      chain := state.chain.append state.producer.tailPtr id
      producer := proceed { state.producer with tailPtr := id }
        ((state.chain.append state.producer.tailPtr id).nodes id) call } := by
  obtain ⟨tailPtr, pcValid⟩ := ok.producer
  rw [at_] at pcValid
  obtain ⟨pop, callValid, owned, reset⟩ := pcValid
  have outside : ∀ number, state.chain.owner id ≠ .chain number := by simp [owned]
  rw [tailPtr]
  have chainValid := ok.chain.append owned reset configValid.blockSize
  have newest := ok.chain.node_append_new outside
  have place : (state.chain.append (state.chain.place state.chain.last) id).place
      (state.chain.last + 1) = id := update_self _ _ _
  have free : room config (state.chain.append (state.chain.place state.chain.last) id) =
      config.blockSize := by
    change _ - ((state.chain.append (state.chain.place state.chain.last) id).node
      (state.chain.last + 1)).tail = _
    rw [newest, reset.2.1]
    omega
  have block := configValid.blockSize
  refine ok.byProducer chainValid (.append ok.chain owned) ?_ rfl (fun empty => empty) ?_
  · exact ok.cache.setOwner (by simp [owned]) (by simp [owned])
  · cases call with
    | allocateBuffer allocateLen =>
      refine ⟨place.symm, pop, ?_⟩
      rw [free]
      exact callValid
    | postBuffer =>
      refine ⟨place.symm, pop, ?_⟩
      rw [free]
      exact Int.le_trans (Int.le_of_eq (congrArg Int.ofNat callValid)) block
    | push data done =>
      refine ⟨place.symm, ?_⟩
      have started := startCopy_valid configValid chainValid state.cacheNode pop callValid.2
      have appended : (state.chain.append (state.chain.place state.chain.last) id).node
          (state.chain.append (state.chain.place state.chain.last) id).last =
            (state.chain.append (state.chain.place state.chain.last) id).nodes id :=
        congrArg (state.chain.append (state.chain.place state.chain.last) id).nodes place
      rw [← callValid.1, appended] at started
      exact started

variable {done count copied : Nat}

theorem copy (configValid : config.Valid)
    (at_ : state.producer.pc = .copying data done count copied) (more : copied < count)
    (found : data[done + copied]? = some byte) :
    ProducerStep config state (UnboundedStreamBuffer.moveProducer { state with
        chain := state.chain.store state.producer.tailPtr
          (streamBuffer (state.chain.nodes state.producer.tailPtr).tail + copied) byte }
      (.copying data done count (copied + 1))) := by
  obtain ⟨tailPtr, pcValid⟩ := ok.producer
  rw [at_] at pcValid
  obtain ⟨pop, granted, length, fits, _, bytes⟩ := pcValid
  have behind := streamBuffer_tail configValid ok.chain
  rw [tailPtr]
  change ProducerStep config state (UnboundedStreamBuffer.moveProducer { state with
      chain := state.chain.store (state.chain.place state.chain.last)
        (streamBuffer (state.chain.node state.chain.last).tail + copied) byte }
    (.copying data done count (copied + 1)))
  refine ok.byProducer (ok.chain.store ok.chain.ordered .refl (.inr (by omega)))
    (.store ok.chain (by omega)) ok.cache rfl id
    ⟨tailPtr, pop, granted, length, ?_, more, ?_⟩
  · rw [room_store]
    exact fits
  · intro offset inside address pos
    rw [tail_store] at pos
    change (address : Int) = (state.chain.node state.chain.last).tail + offset at pos
    change data[done + offset]? = some (((state.chain.store (state.chain.place state.chain.last)
      (streamBuffer (state.chain.node state.chain.last).tail + copied) byte).node
        state.chain.last).memory address)
    rcases Nat.lt_or_eq_of_le (Nat.le_of_lt_succ inside) with earlier | newest
    · rw [memory_store (by omega)]
      exact bytes offset earlier address pos
    · have same : address = streamBuffer (state.chain.node state.chain.last).tail + copied := by
        omega
      rw [same, memory_store_self, newest]
      exact found

theorem finishCopy (at_ : state.producer.pc = .copying data done count copied)
    (complete : ¬copied < count) : let posted := { state with
      chain := state.chain.post state.producer.tailPtr count ((data.drop done).take count) }
    ProducerStep config state (if done + count < data.length then
        UnboundedStreamBuffer.moveProducer posted
          (reachLimit config state (.push data (done + count)))
      else
        { posted with
          producer := { state.producer with returned := done + count, pc := .idle } }) := by
  obtain ⟨tailPtr, pcValid⟩ := ok.producer
  rw [at_] at pcValid
  obtain ⟨pop, granted, length, fits, copies, bytes⟩ := pcValid
  have all : copied = count := copies.antisymm (Nat.le_of_not_lt complete)
  rw [all] at bytes
  dsimp only
  rw [tailPtr]
  have chainValid : ChainValid config (state.chain.post (state.chain.place state.chain.last) count
      ((data.drop done).take count)) := by
    apply ok.chain.post
    · rw [length_take, length_drop]
      omega
    · unfold room at fits
      omega
    · intro offset inside address pos
      rw [getElem?_take_of_lt inside, getElem?_drop]
      exact bytes offset inside address pos
  split
  next more =>
    refine ok.byProducer chainValid (.post ok.chain) ok.cache rfl id ⟨tailPtr, ?_⟩
    exact reachLimit_valid _ pop ⟨granted, more.le⟩
  next =>
    refine ok.byProducer chainValid (.post ok.chain) ok.cache rfl id ⟨rfl, pop, ?_⟩
    rw [granted]
    exact room_nonneg chainValid

theorem stepProducer (configValid : config.Valid)
    (went : stepProducer config state = some next) : ProducerStep config state next := by
  obtain ⟨tailPtr, pcValid⟩ := id ok.producer
  unfold UnboundedStreamBuffer.stepProducer at went
  dsimp only at went
  split at went
  next => cases went
  next => cases went
  next call at_ =>
    rw [at_] at pcValid
    have reloaded : ProducerStep config state { state with
        producer := { state.producer with allocateNrThreshold := state.consumer.freeNr } } :=
      ok.moveProducer tailPtr (by rw [at_]; exact pcValid)
    split at went <;> cases went
    · have refused := reloaded.valid.refuse pcValid.1 pcValid.2
      exact { refused with }
    · exact ok.moveProducer tailPtr pcValid
  next call at_ =>
    rw [at_] at pcValid
    split at went <;> cases went
    next id found => exact ok.moveProducer tailPtr ⟨pcValid.1, pcValid.2, found⟩
    · exact ok.byProducer ok.chain (.refl _)
        (ok.cache.setRing ok.cache.ring.startPop rfl) rfl id ⟨tailPtr, pcValid.2⟩
  next call id at_ =>
    cases went
    exact ok.take at_
  next call at_ =>
    split at went <;> cases went
    next cache popped => exact ok.popCache configValid at_ popped
    next cache popped => exact ok.popCache configValid at_ popped
    next cache id popped => exact ok.popCache configValid at_ popped
  next call id at_ =>
    cases went
    exact ok.reset configValid at_
  next call id at_ =>
    cases went
    exact ok.link configValid at_
  next data done count copied at_ =>
    split at went
    next more =>
      obtain ⟨byte, found, rfl⟩ := Option.map_eq_some_iff.mp went
      exact ok.copy configValid at_ more found
    next complete =>
      have finished := ok.finishCopy at_ complete
      dsimp only at finished
      split at went <;> cases went
      next more =>
        rw [if_pos more] at finished
        exact finished
      next all =>
        rw [if_neg all] at finished
        exact finished

theorem producerStep (configValid : config.Valid) {action : Action}
    (waits : action ≠ .waitBuffer) (consumes : action ≠ .consumer)
    (frees : ∀ length, action ≠ .freeBuffer length)
    (went : step config state action = some next) : ProducerStep config state next := by
  cases action with
  | push data =>
    simp only [step] at went
    split at went <;> cases went
    next idle => exact ok.push configValid idle.1
  | allocateBuffer allocateLen =>
    simp only [step] at went
    split at went <;> cases went
    next idle => exact ok.allocateBuffer configValid idle.1
  | write offset byte =>
    simp only [step] at went
    split at went <;> cases went
    next idle => exact ok.write configValid idle.1
  | postBuffer dataLen =>
    simp only [step] at went
    split at went <;> cases went
    next idle => exact ok.postBuffer configValid idle.1 idle.2
  | producer => exact ok.stepProducer configValid went
  | malloc id garbage =>
    simp only [step] at went
    split at went
    next call at_ =>
      split at went <;> cases went
      next free => exact ok.malloc garbage at_ free
    next => cases went
  | waitBuffer => exact absurd rfl waits
  | consumer => exact absurd rfl consumes
  | freeBuffer length => exact absurd rfl (frees length)

end Valid

end AdkAaf.Adk.UnboundedStreamBuffer
