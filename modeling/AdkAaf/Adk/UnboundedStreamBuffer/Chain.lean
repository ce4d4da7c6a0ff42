import AdkAaf.Adk.UnboundedStreamBuffer.Basic

/-! The chain of nodes as one stream: the blocks of the nodes hold the accepted bytes one
after the other, and the node that the consumer reads may begin with bytes of the nodes
before it, in its prefix zone. -/

set_option autoImplicit false

namespace AdkAaf.Adk.UnboundedStreamBuffer

open Function

open Lib (Memory)
open Node (streamBuffer)

theorem int32_eq {value : Int} (lower : -2 ^ 31 ≤ value) (upper : value < 2 ^ 31) :
    int32 value = value := by
  exact Int.bmod_eq_of_le (by omega) (by omega)

theorem toUint32_eq {value : Int} (lower : 0 ≤ value) (upper : value < 2 ^ 32) :
    (toUint32 value : Int) = value := by
  unfold toUint32
  omega

theorem streamBuffer_eq {offset : Int} (lower : 0 ≤ offset) (upper : offset < 2 ^ 31) :
    (streamBuffer offset : Int) = offset := toUint32_eq lower (by omega)

/-- The positions in a node are those that an `int32_t` holds. -/
structure Config.Valid (config : Config) : Prop where
  prefixSize : 0 ≤ config.prefixSize
  blockSize : 0 ≤ config.blockSize
  fits : config.prefixSize + config.blockSize < 2 ^ 31
  cache : QueueVariant.Ring.SizeValid config.cacheSize

theorem Config.Valid.tailThreshold_eq {config : Config} (configValid : config.Valid) :
    config.tailThreshold = config.prefixSize + config.blockSize := by
  obtain ⟨lower, block, fits, _⟩ := configValid
  exact int32_eq (by omega) fits

theorem Config.Valid.nodeBytes_eq {config : Config} (configValid : config.Valid) :
    (config.nodeBytes : Int) = config.prefixSize + config.blockSize := by
  obtain ⟨lower, block, fits, _⟩ := configValid
  have size : (toUint32 (24 + config.prefixSize + config.blockSize) : Int) =
      24 + config.prefixSize + config.blockSize := toUint32_eq (by omega) (by omega)
  unfold Config.nodeBytes
  omega

def Chain.node (chain : Chain) (number : Nat) : Node := chain.nodes (chain.place number)

theorem Chain.node_setNode_self (chain : Chain) (n : Nat) (node : Node) :
    (chain.setNode (chain.place n) node).node n = node := update_self _ _ _

theorem Chain.node_setNode_of_ne {chain : Chain} {number id : Nat} (node : Node)
    (apart : chain.place number ≠ id) : (chain.setNode id node).node number = chain.node number :=
  update_of_ne apart _ _

variable {config : Config} {chain after : Chain}

def Holds (config : Config) (chain : Chain) (number : Nat) (start : Int) : Prop :=
  ∀ index address : Nat, (index : Int) + config.prefixSize = chain.base number + address →
    start ≤ address → (address : Int) < (chain.node number).tail →
      chain.accepted[index]? = some ((chain.node number).memory address)

structure ChainValid (config : Config) (chain : Chain) : Prop where
  ordered : chain.first ≤ chain.last
  owner : ∀ number, chain.first ≤ number → number ≤ chain.last →
    chain.owner (chain.place number) = .chain number
  links : ∀ number, chain.first ≤ number → number < chain.last →
    (chain.node number).next = some (chain.place (number + 1))
  open_ : (chain.node chain.last).next = none
  thresholds : ∀ number, chain.first ≤ number → number ≤ chain.last →
    (chain.node number).tailThreshold = config.prefixSize + config.blockSize
  tails : ∀ number, chain.first ≤ number → number ≤ chain.last →
    config.prefixSize ≤ (chain.node number).tail ∧
      (chain.node number).tail ≤ config.prefixSize + config.blockSize
  bases : ∀ number, chain.first ≤ number → number < chain.last →
    (chain.base (number + 1) : Int) + config.prefixSize =
      chain.base number + (chain.node number).tail
  total : (chain.accepted.length : Int) + config.prefixSize =
    chain.base chain.last + (chain.node chain.last).tail
  contents : ∀ number, chain.first ≤ number → number ≤ chain.last →
    Holds config chain number config.prefixSize

/-- The consumer has freed the stream up to `head` in the first node, which goes on
there. -/
structure HeadValid (config : Config) (chain : Chain) (head : Int) (freed : List UInt8) :
    Prop where
  nonneg : 0 ≤ head
  position : (freed.length : Int) + config.prefixSize = chain.base chain.first + head
  leftover : Holds config chain chain.first head
  freed : freed <+: chain.accepted

structure ProducerFrame (chain after : Chain) : Prop where
  first : after.first = chain.first
  last : chain.last ≤ after.last
  place : ∀ number ≤ chain.last, after.place number = chain.place number
  base : ∀ number ≤ chain.last, after.base number = chain.base number
  tails : ∀ number, chain.first ≤ number → number ≤ chain.last →
    (chain.node number).tail ≤ (after.node number).tail
  sealed : ∀ number, chain.first ≤ number → number < chain.last →
    (after.node number).tail = (chain.node number).tail
  memory : ∀ number, chain.first ≤ number → number ≤ chain.last →
    ∀ address : Nat, (address : Int) < (chain.node number).tail →
      (after.node number).memory address = (chain.node number).memory address
  accepted : chain.accepted <+: after.accepted
  owner : ∀ id, chain.owner id = .consumer → after.owner id = .consumer

structure ConsumerFrame (config : Config) (chain after : Chain) : Prop where
  last : after.last = chain.last
  place : after.place = chain.place
  tail : (after.node chain.last).tail = (chain.node chain.last).tail
  memory : ∀ address : Nat, config.prefixSize ≤ address →
    (after.node chain.last).memory address = (chain.node chain.last).memory address
  owner : ∀ id, chain.owner id = .producer →
    after.owner id = .producer ∧ after.nodes id = chain.nodes id

namespace ChainValid

variable (valid : ChainValid config chain)

include valid

theorem place_ne {id n : Nat} (above : chain.first ≤ n) (below : n ≤ chain.last)
    (outside : ∀ other, chain.owner id ≠ .chain other) : chain.place n ≠ id := by
  rintro rfl
  exact outside n (valid.owner n above below)

theorem place_injective {n other : Nat} (above : chain.first ≤ n)
    (below : n ≤ chain.last) (otherAbove : chain.first ≤ other)
    (otherBelow : other ≤ chain.last) (same : chain.place n = chain.place other) :
    n = other := by
  have owned := valid.owner n above below
  rw [same, valid.owner other otherAbove otherBelow] at owned
  cases owned
  rfl

theorem withNodes {nodes : Nat → Node}
    (fields : ∀ number, chain.first ≤ number → number ≤ chain.last →
      let node := nodes (chain.place number)
      node.next = (chain.node number).next ∧ node.tail = (chain.node number).tail ∧
        node.tailThreshold = (chain.node number).tailThreshold)
    (memory : ∀ number, chain.first ≤ number → number ≤ chain.last → ∀ address : Nat,
      config.prefixSize ≤ address → (address : Int) < (chain.node number).tail →
        (nodes (chain.place number)).memory address = (chain.node number).memory address) :
    ChainValid config { chain with nodes } := by
  have last := fields chain.last valid.ordered .refl
  refine ⟨valid.ordered, valid.owner, ?_, last.1.trans valid.open_, ?_, ?_, ?_, ?_, ?_⟩
  · intro number above below
    exact (fields number above below.le).1.trans (valid.links number above below)
  · intro number above below
    exact (fields number above below).2.2.trans (valid.thresholds number above below)
  · intro number above below
    change config.prefixSize ≤ (nodes (chain.place number)).tail ∧
      (nodes (chain.place number)).tail ≤ _
    rw [(fields number above below).2.1]
    exact valid.tails number above below
  · intro number above below
    change _ = (chain.base number : Int) + (nodes (chain.place number)).tail
    rw [(fields number above below.le).2.1]
    exact valid.bases number above below
  · change _ = (chain.base chain.last : Int) + (nodes (chain.place chain.last)).tail
    rw [last.2.1]
    exact valid.total
  · intro number above below index address pos start inside
    change (address : Int) < (nodes (chain.place number)).tail at inside
    change chain.accepted[index]? = some ((nodes (chain.place number)).memory address)
    rw [(fields number above below).2.1] at inside
    rw [memory number above below address start inside]
    exact valid.contents number above below index address pos start inside

theorem setNode {id : Nat} {node : Node} (outside : ∀ number, chain.owner id ≠ .chain number) :
    ChainValid config (chain.setNode id node) := by
  have same : ∀ number, chain.first ≤ number → number ≤ chain.last →
      update chain.nodes id node (chain.place number) = chain.node number :=
    fun number above below => update_of_ne (valid.place_ne above below outside) _ _
  apply valid.withNodes
  · intro number above below
    rw [same number above below]
    exact ⟨rfl, rfl, rfl⟩
  · intro number above below address _ _
    rw [same number above below]

theorem setOwner {id : Nat} {owner : Owner} (outside : ∀ number, chain.owner id ≠ .chain number) :
    ChainValid config (chain.setOwner id owner) := by
  refine { valid with owner := ?_ }
  intro number above below
  simp only [Chain.setOwner]
  rw [update_of_ne (valid.place_ne above below outside)]
  exact valid.owner number above below

theorem store {number address : Nat} {byte : UInt8} (above : chain.first ≤ number)
    (below : number ≤ chain.last)
    (free : (address : Int) < config.prefixSize ∨ (chain.node number).tail ≤ address) :
    ChainValid config (chain.store (chain.place number) address byte) := by
  apply valid.withNodes
  · intro other _ _
    dsimp only [Chain.node]
    by_cases own : chain.place other = chain.place number
    · rw [own, update_self]
      exact ⟨rfl, rfl, rfl⟩
    · rw [update_of_ne own]
      exact ⟨rfl, rfl, rfl⟩
  · intro other otherAbove otherBelow index start inside
    dsimp only [Chain.node]
    by_cases own : chain.place other = chain.place number
    · obtain rfl := valid.place_injective otherAbove otherBelow above below own
      rw [update_self]
      exact if_neg (by omega)
    · rw [update_of_ne own]

theorem node_post (length : Nat) (data : List UInt8) {number : Nat} (above : chain.first ≤ number)
    (below : number < chain.last) :
    (chain.post (chain.place chain.last) length data).node number = chain.node number := by
  apply update_of_ne
  intro same
  have last := valid.place_injective above below.le valid.ordered .refl same
  omega

omit valid in
theorem node_post_last (chain : Chain) (length : Nat) (data : List UInt8) :
    (chain.post (chain.place chain.last) length data).node chain.last =
      { chain.node chain.last with tail := (chain.node chain.last).tail + length } :=
  update_self _ _ _

theorem post {length : Nat} {data : List UInt8} (count : data.length = length)
    (room : (chain.node chain.last).tail + length ≤ config.prefixSize + config.blockSize)
    (holds : ∀ offset < length, ∀ address : Nat,
      (address : Int) = (chain.node chain.last).tail + offset →
        data[offset]? = some ((chain.node chain.last).memory address)) :
    ChainValid config (chain.post (chain.place chain.last) length data) := by
  have total := valid.total
  have older := fun {number} (above : chain.first ≤ number) (below : number < chain.last) =>
    valid.node_post length data above below
  have newest := node_post_last chain length data
  have accepted : (chain.post (chain.place chain.last) length data).accepted =
      chain.accepted ++ data := rfl
  have split : ∀ {number}, number ≤ chain.last → number < chain.last ∨ number = chain.last :=
    Nat.lt_or_eq_of_le
  refine ⟨valid.ordered, valid.owner, ?_, ?_, ?_, ?_, ?_, ?_, ?_⟩
  · intro number above below
    rw [older above below]
    exact valid.links number above below
  · change ((chain.post (chain.place chain.last) length data).node chain.last).next = none
    rw [newest]
    exact valid.open_
  · intro number above below
    rcases split below with earlier | rfl
    · rw [older above earlier]
      exact valid.thresholds number above below
    · rw [newest]
      exact valid.thresholds chain.last above below
  · intro number above below
    have tails := valid.tails number above below
    rcases split below with earlier | rfl
    · rw [older above earlier]
      exact tails
    · rw [newest]
      dsimp only
      omega
  · intro number above below
    rw [older above below]
    exact valid.bases number above below
  · change _ = (chain.base chain.last : Int) +
      ((chain.post (chain.place chain.last) length data).node chain.last).tail
    rw [newest, accepted, List.length_append, count]
    dsimp only
    omega
  · intro number above below index address pos start inside
    have before : (address : Int) < (chain.node number).tail →
        (chain.accepted ++ data)[index]? = some ((chain.node number).memory address) := by
      intro held
      have found := valid.contents number above below index address pos start held
      obtain ⟨bound, _⟩ := List.getElem?_eq_some_iff.mp found
      rw [List.getElem?_append_left bound]
      exact found
    rw [accepted]
    rcases split below with earlier | rfl
    · rw [older above earlier] at inside ⊢
      exact before inside
    · rw [newest] at inside ⊢
      dsimp only at inside ⊢
      by_cases held : (address : Int) < (chain.node chain.last).tail
      · exact before held
      · change (index : Int) + config.prefixSize = chain.base chain.last + address at pos
        rw [List.getElem?_append_right (by omega)]
        exact holds _ (by omega) address (by omega)

theorem node_append (id : Nat) {number : Nat} (above : chain.first ≤ number)
    (below : number < chain.last) :
    (chain.append (chain.place chain.last) id).node number = chain.node number := by
  have place : (chain.append (chain.place chain.last) id).place number = chain.place number :=
    update_of_ne (by omega) _ _
  rw [Chain.node, place]
  apply update_of_ne
  intro same
  have last := valid.place_injective above below.le valid.ordered .refl same
  omega

omit valid in
theorem node_append_last (chain : Chain) (id : Nat) :
    (chain.append (chain.place chain.last) id).node chain.last =
      { chain.node chain.last with next := some id } := by
  have place : (chain.append (chain.place chain.last) id).place chain.last =
      chain.place chain.last := update_of_ne (by omega) _ _
  rw [Chain.node, place]
  exact update_self _ _ _

theorem node_append_new {id : Nat} (outside : ∀ other, chain.owner id ≠ .chain other) :
    (chain.append (chain.place chain.last) id).node (chain.last + 1) = chain.nodes id := by
  have place : (chain.append (chain.place chain.last) id).place (chain.last + 1) = id :=
    update_self _ _ _
  rw [Chain.node, place]
  exact update_of_ne (Ne.symm (valid.place_ne valid.ordered .refl outside)) _ _

theorem append {id : Nat} (owned : chain.owner id = .producer)
    (reset : (chain.nodes id).next = none ∧ (chain.nodes id).tail = config.prefixSize ∧
      (chain.nodes id).tailThreshold = config.prefixSize + config.blockSize)
    (block : 0 ≤ config.blockSize) :
    ChainValid config (chain.append (chain.place chain.last) id) := by
  have outside : ∀ other, chain.owner id ≠ .chain other := by simp [owned]
  have place : ∀ {number}, number ≤ chain.last →
      (chain.append (chain.place chain.last) id).place number = chain.place number :=
    fun below => update_of_ne (by omega) _ _
  have placeNew : (chain.append (chain.place chain.last) id).place (chain.last + 1) = id :=
    update_self _ _ _
  have base : ∀ {number}, number ≤ chain.last →
      (chain.append (chain.place chain.last) id).base number = chain.base number :=
    fun below => update_of_ne (by omega) _ _
  have baseNew : (chain.append (chain.place chain.last) id).base (chain.last + 1) =
      chain.accepted.length := update_self _ _ _
  have older := fun {number} (above : chain.first ≤ number) (below : number < chain.last) =>
    valid.node_append id above below
  have last := node_append_last chain id
  have newest := valid.node_append_new outside
  have split : ∀ {number}, number ≤ chain.last + 1 →
      number < chain.last ∨ number = chain.last ∨ number = chain.last + 1 := by omega
  refine ⟨Nat.le_succ_of_le valid.ordered, ?_, ?_, ?_, ?_, ?_, ?_, ?_, ?_⟩
  · intro number above below
    rcases Nat.lt_or_eq_of_le (show number ≤ chain.last + 1 from below) with older | rfl
    · have inside := Nat.le_of_lt_succ older
      rw [place inside]
      exact (update_of_ne (valid.place_ne above inside outside) _ _).trans
        (valid.owner number above inside)
    · rw [placeNew]
      exact update_self _ _ _
  · intro number above below
    rcases Nat.lt_or_eq_of_le (Nat.le_of_lt_succ below) with earlier | rfl
    · rw [older above earlier, place earlier]
      exact valid.links number above earlier
    · rw [last, placeNew]
  · change ((chain.append (chain.place chain.last) id).node (chain.last + 1)).next = none
    rw [newest]
    exact reset.1
  · intro number above below
    rcases split below with earlier | rfl | rfl
    · rw [older above earlier]
      exact valid.thresholds number above earlier.le
    · rw [last]
      exact valid.thresholds chain.last above .refl
    · rw [newest]
      exact reset.2.2
  · intro number above below
    rcases split below with earlier | rfl | rfl
    · rw [older above earlier]
      exact valid.tails number above earlier.le
    · rw [last]
      exact valid.tails chain.last above .refl
    · rw [newest, reset.2.1]
      omega
  · intro number above below
    rcases Nat.lt_or_eq_of_le (Nat.le_of_lt_succ below) with earlier | rfl
    · rw [older above earlier, base earlier, base earlier.le]
      exact valid.bases number above earlier
    · rw [last, baseNew, base .refl]
      exact valid.total
  · change (chain.accepted.length : Int) + _ =
      (chain.append (chain.place chain.last) id).base (chain.last + 1) +
        ((chain.append (chain.place chain.last) id).node (chain.last + 1)).tail
    rw [newest, baseNew, reset.2.1]
  · intro number above below index address pos start inside
    rcases split below with earlier | rfl | rfl
    · rw [older above earlier] at inside ⊢
      rw [base earlier.le] at pos
      exact valid.contents number above earlier.le index address pos start inside
    · rw [last] at inside ⊢
      rw [base .refl] at pos
      exact valid.contents chain.last above .refl index address pos start inside
    · rw [newest, reset.2.1] at inside
      omega

theorem leave {headPtr : Nat} (first : headPtr = chain.place chain.first)
    (more : chain.first < chain.last) : ChainValid config (chain.leave headPtr) := by
  refine ⟨more, ?_, ?_, valid.open_, ?_, ?_, ?_, valid.total, ?_⟩
  · intro number above below
    have apart : chain.place number ≠ headPtr := by
      intro same
      have equal := valid.place_injective (Nat.le_of_succ_le above) below .refl
        valid.ordered (same.trans first)
      have later : chain.first + 1 ≤ number := above
      omega
    exact (update_of_ne apart _ _).trans (valid.owner number (Nat.le_of_succ_le above) below)
  · exact fun number above => valid.links number (Nat.le_of_succ_le above)
  · exact fun number above => valid.thresholds number (Nat.le_of_succ_le above)
  · exact fun number above => valid.tails number (Nat.le_of_succ_le above)
  · exact fun number above => valid.bases number (Nat.le_of_succ_le above)
  · exact fun number above => valid.contents number (Nat.le_of_succ_le above)

end ChainValid

end AdkAaf.Adk.UnboundedStreamBuffer
