import AdkAaf.Adk.UnboundedQueue.Chain

/-! What the producers do to the chain: take a node, append it, fill an entry and post it;
and what neither side changes of what the other relies on. -/

set_option autoImplicit false

namespace AdkAaf.Adk.UnboundedQueue

open Function QueueVariant List

variable {Value : Type} {config : Config} {queue next : Queue Value}

def NewNodeValid (queue : Queue Value) : NewNodePc → Prop
  | .popping => True
  | .clearing id => queue.cache.pop = .idle ∧ queue.owner id = .producer
  | .allocating => queue.cache.pop = .idle
  | .ready id => queue.cache.pop = .idle ∧ queue.owner id = .producer

structure ConsumerFrame (queue next : Queue Value) : Prop where
  tail : next.tail = queue.tail
  tailPtr : next.tailPtr = queue.tailPtr
  tailThreshold : next.tailThreshold = queue.tailThreshold
  last : next.last = queue.last
  place : next.place = queue.place
  posted : next.posted = queue.posted
  pop : next.cache.pop = queue.cache.pop
  fields : ∀ id, (next.nodes id).next = (queue.nodes id).next ∧
    (next.nodes id).prev = (queue.nodes id).prev ∧
      (next.nodes id).nodeHold = (queue.nodes id).nodeHold ∧
        (next.nodes id).buffer = (queue.nodes id).buffer
  held : ∀ id, queue.owner id = .producer → next.owner id = .producer
  first : queue.first ≤ next.first

variable {cache : QueueVariant.Ring Nat}

variable {consumer : ConsumerPc}

theorem ConsumerFrame.ofCache {popped : List Value} (pop : cache.pop = queue.cache.pop) :
    ConsumerFrame queue { queue with cache, consumer, popped } :=
  ⟨rfl, rfl, rfl, rfl, rfl, rfl, pop, fun _ => ⟨rfl, rfl, rfl, rfl⟩, fun _ => id,
    .refl⟩

variable {id : Nat}

theorem ConsumerFrame.ofOwner {headPtr first : Nat} {owner : Owner}
    (pop : cache.pop = queue.cache.pop) (other : queue.owner id ≠ .producer)
    (later : queue.first ≤ first) :
    ConsumerFrame queue { setOwner queue id owner with cache, consumer, headPtr, first } := by
  refine ⟨rfl, rfl, rfl, rfl, rfl, rfl, pop, fun _ => ⟨rfl, rfl, rfl, rfl⟩, ?_, later⟩
  intro held produced
  simp only [setOwner]
  rw [update_of_ne]
  · exact produced
  · rintro rfl
    exact other produced

/-- The steps of `NewNode` as the chain sees them. -/
structure NewNodeFrame (queue next : Queue Value) : Prop where
  tail : next.tail = queue.tail
  tailPtr : next.tailPtr = queue.tailPtr
  tailThreshold : next.tailThreshold = queue.tailThreshold
  first : next.first = queue.first
  last : next.last = queue.last
  place : next.place = queue.place
  posted : next.posted = queue.posted
  head : next.head = queue.head
  chain : ∀ id number, queue.owner id = .chain number →
    next.nodes id = queue.nodes id ∧ next.owner id = .chain number

theorem NewNodeValid.frame {pc : NewNodePc} (valid : NewNodeValid queue pc)
    (pop : next.cache.pop = queue.cache.pop)
    (held : ∀ id, queue.owner id = .producer → next.owner id = .producer) :
    NewNodeValid next pc := by
  cases pc with
  | popping => trivial
  | allocating => exact pop.trans valid
  | clearing id | ready id => exact ⟨pop.trans valid.1, held id valid.2⟩

namespace Valid

variable (valid : Valid config queue)

include valid

theorem consumerFrame (fits : config.Valid)
    (went : UnboundedQueue.stepConsumer config queue = some next) :
    ConsumerFrame queue next := by
  have consumer := valid.consumer
  unfold ConsumerValid at consumer
  unfold UnboundedQueue.stepConsumer at went
  split at went
  next => cases went
  next =>
    cases went
    exact .ofCache rfl
  next =>
    cases went
    refine ⟨rfl, rfl, rfl, rfl, rfl, rfl, rfl, ?_, fun _ => id, .refl⟩
    intro id
    simp only [setPos, UnboundedQueue.setNode]
    by_cases own : id = queue.headPtr
    · rw [own, update_self]
      exact ⟨rfl, rfl, rfl, rfl⟩
    · rw [update_of_ne own]
      exact ⟨rfl, rfl, rfl, rfl⟩
  next =>
    split at went <;> cases went
    · exact .ofCache rfl
    · have owned := valid.chain queue.first .refl valid.ordered
      exact .ofOwner rfl (by simp [valid.headPtr, owned]) (Nat.le_succ _)
  next id deleting =>
    rw [deleting] at consumer
    split at went <;> cases went
    next cache pushed =>
      exact .ofCache (Ring.stepPush_spec fits.cache valid.cache pushed).2.1
    next cache pushed =>
      exact .ofCache (Ring.stepPush_spec fits.cache valid.cache pushed).2.1
    next cache pushed =>
      exact .ofOwner (Ring.stepPush_spec fits.cache valid.cache pushed).2.1
        (by simp [consumer.2.2.2]) .refl
  next id releasing =>
    rw [releasing] at consumer
    cases went
    exact .ofOwner rfl (by simp [consumer.2.2.2]) .refl

theorem consumer_setOwner {owner : Owner}
    (apart : ∀ other, queue.owner other = .consumer → other ≠ id)
    (push : cache.push = queue.cache.push) :
    ConsumerValid config (setOwner { queue with cache } id owner) := by
  have consumer := valid.consumer
  unfold ConsumerValid at consumer ⊢
  simp only [setOwner]
  split at consumer
  next => exact ⟨consumer.1, consumer.2.1, push.trans consumer.2.2⟩
  next => exact ⟨consumer.1, consumer.2.1, push.trans consumer.2.2.1, consumer.2.2.2⟩
  next => exact ⟨consumer.1, consumer.2.1, push.trans consumer.2.2.1, consumer.2.2.2⟩
  next => exact ⟨consumer.1, consumer.2.1, consumer.2.2.1, push.trans consumer.2.2.2⟩
  next other _ =>
    rw [push, update_of_ne (apart other consumer.2.2.2)]
    exact consumer
  next other _ =>
    rw [push, update_of_ne (apart other consumer.2.2.2)]
    exact consumer

theorem consumer_setCache (push : cache.push = queue.cache.push) :
    ConsumerValid config { queue with cache } := by
  have consumer := valid.consumer
  unfold ConsumerValid at consumer ⊢
  rw [push]
  exact consumer

theorem startNewNode : Valid config (startNewNode queue) :=
  valid.setCache valid.cache.startPop rfl (valid.consumer_setCache rfl)

variable {pc after : NewNodePc}

theorem stepNewNode (fits : config.Valid) (newNode : NewNodeValid queue pc)
    (went : stepNewNode config queue pc = some (next, after)) :
    Valid config next ∧ NewNodeValid next after := by
  cases pc with
  | allocating | ready => cases went
  | clearing id =>
    cases went
    obtain ⟨idle, owned⟩ := newNode
    exact ⟨valid.setNext_outside (by simp [owned]) none, idle, owned⟩
  | popping =>
    unfold UnboundedQueue.stepNewNode at went
    dsimp only at went
    split at went <;> cases went
    next cache popped =>
      obtain ⟨cacheValid, push, contents, _⟩ :=
        Ring.stepPop_spec fits.cache valid.cache popped
      exact ⟨valid.setCache cacheValid contents (valid.consumer_setCache push), trivial⟩
    next cache popped =>
      obtain ⟨cacheValid, push, contents, idle⟩ :=
        Ring.stepPop_spec fits.cache valid.cache popped
      exact ⟨valid.setCache cacheValid contents (valid.consumer_setCache push), idle⟩
    next cache id popped =>
      obtain ⟨cacheValid, push, idle, contents⟩ :=
        Ring.stepPop_spec fits.cache valid.cache popped
      have owned : queue.owner id = .cache := valid.cached id (contents ▸ mem_cons_self)
      have distinct := valid.distinct
      rw [contents] at distinct
      obtain ⟨absent, rest⟩ := nodup_cons.mp distinct
      refine ⟨valid.setOwner_outside (by simp [owned]) cacheValid ?_ rest ?_ ?_, idle, ?_⟩
      · intro other mem
        rw [update_of_ne]
        · exact valid.cached other (contents ▸ mem_cons_of_mem id mem)
        · rintro rfl
          exact absent mem
      · intro _ slot inside
        exact valid.unused id (owned ▸ .inl rfl) slot inside
      · refine valid.consumer_setOwner ?_ push
        rintro other recycled rfl
        rw [owned] at recycled
        cases recycled
      · exact update_self _ _ _

variable {garbage : Node Value}

theorem allocate (fits : config.Valid) (newNode : NewNodeValid queue .allocating)
    (allocated : allocate config queue id garbage = some next) :
    Valid config next ∧ NewNodeValid next (.ready id) := by
  unfold UnboundedQueue.allocate at allocated
  split at allocated <;> cases allocated
  next free =>
    have apart : ∀ other, queue.owner other ≠ .heap → other ≠ id := by
      rintro other used rfl
      exact used free
    have placed : Valid config (UnboundedQueue.setNode queue id
        (allocateNewNode config garbage)) := by
      have outside : ∀ number, queue.first ≤ number → number ≤ queue.last →
          queue.place number ≠ id :=
        fun number above below => valid.place_ne above below (by simp [free])
      apply valid.withNodes
      · intro number above below
        rw [update_of_ne (outside number above below)]
        exact ⟨rfl, rfl⟩
      · intro number above below
        rw [update_of_ne (outside number above below.le)]
      · intro other used slot inside
        rw [update_of_ne]
        · exact valid.unused other used slot inside
        · apply apart
          intro heap
          rw [heap] at used
          rcases used with impossible | impossible | impossible
          all_goals cases impossible
    refine ⟨placed.setOwner_outside (by simp [UnboundedQueue.setNode, free]) valid.cache ?_
      valid.distinct ?_ ?_, newNode, update_self _ _ _⟩
    · intro other mem
      have cached := valid.cached other mem
      rw [update_of_ne (apart other (by simp [cached]))]
      exact cached
    · intro _ slot inside
      simp only [UnboundedQueue.setNode]
      rw [update_self, allocateNewNode, fits.nodeEntries_eq]
      exact if_pos inside
    · refine placed.consumer_setOwner ?_ rfl
      intro other recycled
      apply apart other
      rw [show queue.owner other = .consumer from recycled]
      simp

theorem stepNewNode_frame (fits : config.Valid) (newNode : NewNodeValid queue pc)
    (went : UnboundedQueue.stepNewNode config queue pc = some (next, after)) :
    NewNodeFrame queue next := by
  cases pc with
  | allocating | ready => cases went
  | clearing id =>
    cases went
    refine ⟨rfl, rfl, rfl, rfl, rfl, rfl, rfl, rfl, ?_⟩
    intro other number owned
    refine ⟨?_, owned⟩
    simp only [setNext, UnboundedQueue.setNode]
    rw [update_of_ne]
    rintro rfl
    rw [newNode.2] at owned
    cases owned
  | popping =>
    unfold UnboundedQueue.stepNewNode at went
    dsimp only at went
    split at went <;> cases went
    · exact ⟨rfl, rfl, rfl, rfl, rfl, rfl, rfl, rfl, fun _ _ owned => ⟨rfl, owned⟩⟩
    · exact ⟨rfl, rfl, rfl, rfl, rfl, rfl, rfl, rfl, fun _ _ owned => ⟨rfl, owned⟩⟩
    next cache id popped =>
      have contents := (Ring.stepPop_spec fits.cache valid.cache popped).2.2.2
      have cached := valid.cached id (contents ▸ mem_cons_self)
      refine ⟨rfl, rfl, rfl, rfl, rfl, rfl, rfl, rfl, ?_⟩
      intro other number owned
      refine ⟨rfl, ?_⟩
      simp only [setOwner]
      rw [update_of_ne]
      · exact owned
      · rintro rfl
        rw [cached] at owned
        cases owned

omit valid in
theorem allocate_frame (allocated : UnboundedQueue.allocate config queue id garbage = some next) :
    NewNodeFrame queue next := by
  unfold UnboundedQueue.allocate at allocated
  split at allocated <;> cases allocated
  next free =>
    refine ⟨rfl, rfl, rfl, rfl, rfl, rfl, rfl, rfl, ?_⟩
    intro other number owned
    have apart : other ≠ id := by
      rintro rfl
      rw [free] at owned
      cases owned
    simp only [setOwner, UnboundedQueue.setNode]
    rw [update_of_ne apart, update_of_ne apart]
    exact ⟨rfl, owned⟩

theorem appendNode (owned : queue.owner id = .producer)
    (linked : (queue.nodes queue.tailPtr).next = some id) : Valid config (appendNode queue id) := by
  have fresh : ∀ number, queue.first ≤ number → number ≤ queue.last → queue.place number ≠ id :=
    fun number above below => valid.place_ne above below (by simp [owned])
  have older : ∀ {number}, number ≤ queue.last →
      update queue.place (queue.last + 1) id number = queue.place number := by
    intro number below
    exact update_of_ne (by omega) _ _
  refine ⟨valid.cache, ?_, valid.distinct, Nat.le_succ_of_le valid.ordered, ?_, ?_, ?_, ?_, ?_,
    ?_, ?_, ?_, valid.popped, ?_⟩
  · intro other mem
    have cached := valid.cached other mem
    simp only [UnboundedQueue.appendNode]
    rw [update_of_ne]
    · exact cached
    · rintro rfl
      rw [owned] at cached
      cases cached
  · exact valid.headPtr.trans (older valid.ordered).symm
  · simp only [UnboundedQueue.appendNode]
    rw [update_self]
  · intro number above below
    simp only [UnboundedQueue.appendNode] at above below ⊢
    rcases Nat.lt_succ_iff_lt_or_eq.mp (Nat.lt_succ_of_le below) with earlier | rfl
    · have inside := Nat.le_of_lt_succ earlier
      rw [older inside, update_of_ne (fresh number above inside)]
      exact valid.chain number above inside
    · rw [update_self, update_self]
  · intro number above below
    simp only [UnboundedQueue.appendNode] at above below ⊢
    have inside := Nat.le_of_lt_succ below
    rw [older inside]
    rcases Nat.lt_or_eq_of_le inside with earlier | rfl
    · rw [older earlier]
      exact valid.links number above earlier
    · rw [update_self, ← valid.tailPtr]
      exact linked
  · intro number slot above below inside
    simp only [UnboundedQueue.appendNode, EntryValid] at above below ⊢
    rcases Nat.lt_succ_iff_lt_or_eq.mp (Nat.lt_succ_of_le below) with earlier | rfl
    · rw [older (Nat.le_of_lt_succ earlier)]
      exact valid.entries number slot above (Nat.le_of_lt_succ earlier) inside
    · -- nothing has been posted under the indices of the new node
      have unposted :
          queue.posted ((queue.last + 1) * config.nodeSize + slot) = none := by
        cases posted : queue.posted ((queue.last + 1) * config.nodeSize + slot) with
        | none => rfl
        | some =>
          have bound := (valid.reach _ (by rw [posted]; rfl)).2
          rw [Nat.succ_mul] at bound
          omega
      rw [update_self, unposted]
      refine ⟨?_, fun _ => ?_⟩
      · rintro value _ impossible
        cases impossible
      · exact valid.unused id (owned ▸ .inr (.inl rfl)) slot inside
  · intro other outside slot inside
    simp only [UnboundedQueue.appendNode] at outside ⊢
    by_cases own : other = id
    · rw [own, update_self] at outside
      exact absurd rfl (outside.ne_chain (queue.last + 1))
    · rw [update_of_ne own] at outside
      exact valid.unused other outside slot inside
  · intro index posted
    have bounds := valid.reach index posted
    refine ⟨bounds.1, bounds.2.trans_le ?_⟩
    simp only [UnboundedQueue.appendNode, Nat.succ_mul]
    omega
  · intro number posted
    exact Nat.lt_succ_of_lt (valid.closed number posted)
  · have consumer := valid.consumer
    unfold ConsumerValid at consumer ⊢
    simp only [UnboundedQueue.appendNode]
    have kept : ∀ other, queue.owner other = .consumer →
        update queue.owner id (.chain (queue.last + 1)) other = .consumer := by
      intro other recycled
      rw [update_of_ne]
      · exact recycled
      · rintro rfl
        rw [owned] at recycled
        cases recycled
    split at consumer
    next => exact consumer
    next => exact consumer
    next => exact consumer
    next => exact ⟨consumer.1, Nat.lt_succ_of_lt consumer.2.1, consumer.2.2⟩
    all_goals exact ⟨consumer.1, consumer.2.1, consumer.2.2.1, kept _ consumer.2.2.2⟩

variable {number slot : Nat}

theorem writeEntry (value : Value) (above : queue.first ≤ number) (below : number ≤ queue.last)
    (inside : slot < config.nodeSize)
    (unposted : queue.posted (number * config.nodeSize + slot) = none) :
    Valid config (writeEntry queue (queue.place number) slot value) := by
  refine { valid with links := ?_, entries := ?_, unused := ?_ }
  · intro other otherAbove otherBelow
    simp only [UnboundedQueue.writeEntry, UnboundedQueue.setNode]
    by_cases own : queue.place other = queue.place number
    · rw [own, update_self, ← own]
      exact valid.links other otherAbove otherBelow
    · rw [update_of_ne own]
      exact valid.links other otherAbove otherBelow
  · intro other otherSlot otherAbove otherBelow otherInside
    have entry := valid.entries other otherSlot otherAbove otherBelow otherInside
    simp only [UnboundedQueue.writeEntry, UnboundedQueue.setNode, EntryValid] at entry ⊢
    by_cases own : queue.place other = queue.place number
    · obtain rfl := valid.place_injective otherAbove otherBelow above below own
      rw [update_self]
      refine ⟨fun element reached posted => ⟨(entry.1 element reached posted).1, ?_⟩, entry.2⟩
      dsimp only
      rw [update_of_ne]
      · exact (entry.1 element reached posted).2
      · rintro rfl
        rw [unposted] at posted
        cases posted
    · rw [update_of_ne own]
      exact entry
  · intro id outside otherSlot otherInside
    have apart := valid.place_ne above below outside.ne_chain
    simp only [UnboundedQueue.writeEntry, UnboundedQueue.setNode]
    rw [update_of_ne (Ne.symm apart)]
    exact valid.unused id outside otherSlot otherInside

theorem postEntry (value : Value) (above : queue.first ≤ number) (below : number ≤ queue.last)
    (inside : slot < config.nodeSize) (pos : 1 ≤ number * config.nodeSize + slot)
    (ahead : queue.head ≤ number * config.nodeSize + slot)
    (unposted : queue.posted (number * config.nodeSize + slot) = none)
    (written : (queue.nodes (queue.place number)).buffer slot = value)
    (sealed : slot = config.nodeSize - 1 → number < queue.last) :
    Valid config (postEntry queue (queue.place number) slot (number * config.nodeSize + slot)
      value) := by
  refine { valid with
    links := ?_
    entries := ?_
    unused := ?_
    reach := ?_
    closed := ?_
    popped := ?_
    consumer := ?_ }
  · intro other otherAbove otherBelow
    simp only [UnboundedQueue.postEntry, setPos, UnboundedQueue.setNode]
    by_cases own : queue.place other = queue.place number
    · rw [own, update_self, ← own]
      exact valid.links other otherAbove otherBelow
    · rw [update_of_ne own]
      exact valid.links other otherAbove otherBelow
  · intro other otherSlot otherAbove otherBelow otherInside
    have entry := valid.entries other otherSlot otherAbove otherBelow otherInside
    simp only [UnboundedQueue.postEntry, setPos, UnboundedQueue.setNode, EntryValid] at entry ⊢
    by_cases own : queue.place other = queue.place number
    · obtain rfl := valid.place_injective otherAbove otherBelow above below own
      rw [update_self]
      dsimp only
      by_cases same : otherSlot = slot
      · subst same
        rw [update_self, update_self]
        refine ⟨?_, ?_⟩
        · rintro element _ posted
          cases posted
          exact ⟨rfl, written⟩
        · rintro (passed | impossible)
          · omega
          · cases impossible
      · rw [update_of_ne same, update_of_ne (by omega)]
        exact entry
    · have apart : other * config.nodeSize + otherSlot ≠ number * config.nodeSize + slot :=
        fun same => own (congrArg queue.place (Lib.block_unique otherInside inside same).1)
      rw [update_of_ne own, update_of_ne apart]
      exact entry
  · intro id outside otherSlot otherInside
    have apart := valid.place_ne above below outside.ne_chain
    simp only [UnboundedQueue.postEntry, setPos, UnboundedQueue.setNode]
    rw [update_of_ne (Ne.symm apart)]
    exact valid.unused id outside otherSlot otherInside
  · intro index posted
    simp only [UnboundedQueue.postEntry, setPos, UnboundedQueue.setNode] at posted ⊢
    by_cases own : index = number * config.nodeSize + slot
    · rw [own]
      have bound : number * config.nodeSize ≤ queue.last * config.nodeSize :=
        Nat.mul_le_mul_right _ below
      exact ⟨pos, by omega⟩
    · rw [update_of_ne own] at posted
      exact valid.reach index posted
  · intro other posted
    simp only [UnboundedQueue.postEntry, setPos, UnboundedQueue.setNode] at posted ⊢
    by_cases own : other * config.nodeSize + (config.nodeSize - 1) = number * config.nodeSize + slot
    · obtain ⟨rfl, last⟩ := Lib.block_unique (by omega) inside own
      exact sealed last.symm
    · rw [update_of_ne own] at posted
      exact valid.closed other posted
  · intro offset taken
    have popped := valid.popped offset taken
    simp only [UnboundedQueue.postEntry, setPos, UnboundedQueue.setNode] at taken ⊢
    rw [update_of_ne]
    · exact popped
    · intro same
      rw [same, unposted, getElem?_eq_getElem taken] at popped
      cases popped
  · have consumer := valid.consumer
    unfold ConsumerValid at consumer ⊢
    simp only [UnboundedQueue.postEntry, setPos, UnboundedQueue.setNode]
    have kept : (queue.posted queue.head).isSome →
        (update queue.posted (number * config.nodeSize + slot) (some value) queue.head).isSome := by
      intro posted
      by_cases own : queue.head = number * config.nodeSize + slot
      · rw [own, update_self]
        rfl
      · rw [update_of_ne own]
        exact posted
    split at consumer
    next => exact consumer
    next => exact ⟨consumer.1, consumer.2.1, consumer.2.2.1, kept consumer.2.2.2⟩
    next => exact ⟨consumer.1, consumer.2.1, consumer.2.2.1, kept consumer.2.2.2⟩
    all_goals exact consumer

end Valid

structure Initial (config : Config) (queue : Queue Value) : Prop where
  pop : queue.cache.pop = .idle
  tail : queue.tail = 1
  head : queue.head = 1
  tailThreshold : queue.tailThreshold = config.nodeSize
  nodeHold : (queue.nodes queue.tailPtr).nodeHold = 0
  next : (queue.nodes queue.tailPtr).next = none
  last : queue.last = 0
  posted : ∀ index, queue.posted index = none

/-- The cursors start again at the node `id`, alone in the chain. -/
def restart (config : Config) (queue : Queue Value) (cache : QueueVariant.Ring Nat) (id : Nat)
    (node : Node Value) : Queue Value :=
  { nodes := update queue.nodes id { node with next := none, nodeHold := 0, prev := none }
    cache
    tailPtr := id
    tail := 1
    tailThreshold := config.nodeSize
    headPtr := id
    head := 1
    owner := update queue.owner id (.chain 0)
    place := fun _ => id }

theorem valid_restart (fits : config.Valid) (cacheValid : Ring.Valid config.cacheSize cache)
    (push : cache.push = .idle) (pop : cache.pop = .idle) (distinct : cache.contents.Nodup)
    {node : Node Value} (cached : ∀ other ∈ cache.contents, other ≠ id ∧ queue.owner other = .cache)
    (unused : ∀ other, (queue.owner other).Outside → ∀ slot < config.nodeSize,
      (queue.nodes other).pos slot = 0) (unmarked : ∀ slot < config.nodeSize, node.pos slot = 0) :
    Valid config (restart config queue cache id node) ∧
      Initial config (restart config queue cache id node) := by
  have marks : ∀ slot < config.nodeSize,
      ((restart config queue cache id node).nodes id).pos slot = 0 := by
    intro slot inside
    simp only [restart, update_self]
    exact unmarked slot inside
  constructor
  · refine ⟨cacheValid, ?_, distinct, Nat.le_refl 0, rfl, rfl, ?_, ?_, ?_, ?_, ?_, ?_, ?_, ?_⟩
    · intro other mem
      exact (update_of_ne (cached other mem).1 ..).trans (cached other mem).2
    · intro number _ below
      obtain rfl := Nat.eq_zero_of_le_zero below
      exact update_self ..
    · intro number _ below
      exact absurd below (Nat.not_lt_zero _)
    · intro number slot _ _ inside
      refine ⟨?_, fun _ => marks slot inside⟩
      nofun
    · intro other outside slot inside
      by_cases own : other = id
      · exact own ▸ marks slot inside
      · simp only [restart] at outside ⊢
        rw [update_of_ne own] at outside ⊢
        exact unused other outside slot inside
    · nofun
    · nofun
    · intro offset inside
      exact absurd inside (Nat.not_lt_zero _)
    · have positive := fits.two_le
      refine ⟨⟨?_, ?_⟩, rfl, push⟩
      · simp [restart]
      · change 1 < 0 * config.nodeSize + config.nodeSize
        omega
  · refine ⟨pop, rfl, rfl, rfl, ?_, ?_, rfl, fun _ => rfl⟩ <;>
      simp [restart, update_self]

theorem valid_initialQueue (fits : config.Valid) (garbage : Nat → Node Value)
    {tail allocated : Nat} (cacheValid : Ring.Valid config.cacheSize cache)
    (push : cache.push = .idle) (pop : cache.pop = .idle) (distinct : cache.contents.Nodup)
    (inUse : tail < allocated) (cached : ∀ id ∈ cache.contents, id ≠ tail ∧ id < allocated) :
    Valid config (initialQueue config garbage cache tail allocated) ∧
      Initial config (initialQueue config garbage cache tail allocated) := by
  let blocks : Queue Value := { initialQueue config garbage cache tail allocated with
    nodes := fun id => if id < allocated then allocateNewNode config (garbage id) else garbage id
    owner := fun id => if id < allocated then .cache else .heap }
  have restarted : initialQueue config garbage cache tail allocated =
      restart config blocks cache tail (blocks.nodes tail) := by
    simp only [initialQueue, restart, blocks]
    congr 1
    funext id
    by_cases own : id = tail
    · rw [own, update_self, if_pos rfl]
    · rw [update_of_ne own, if_neg own]
  have cleared : ∀ id < allocated, ∀ slot < config.nodeSize, (blocks.nodes id).pos slot = 0 := by
    intro id small slot inside
    simp only [blocks, if_pos small, allocateNewNode, fits.nodeEntries_eq]
    exact if_pos inside
  rw [restarted]
  refine valid_restart fits cacheValid push pop distinct ?_ ?_ (cleared tail inUse)
  · intro id mem
    exact ⟨(cached id mem).1, if_pos (cached id mem).2⟩
  · intro id outside
    by_cases small : id < allocated
    · exact cleared id small
    · simp only [blocks, if_neg small] at outside
      rcases outside with impossible | impossible | impossible <;> cases impossible

theorem valid_init (fits : config.Valid) {garbage : Nat → Node Value}
    {cachePos : Nat → Int} {cacheBuffer : Nat → Nat}
    (ran : init config garbage cachePos cacheBuffer = some queue) :
    Valid config queue ∧ Initial config queue := by
  obtain ⟨filled, pushed, ran⟩ := Option.bind_eq_some_iff.mp ran
  obtain ⟨⟨cache, popped⟩, taken, rfl⟩ := Option.map_eq_some_iff.mp ran
  obtain ⟨filledValid, _, idle, contents⟩ := Ring.foldlM_pushAlone_spec fits.cache
    (Ring.valid_create fits.cache cachePos cacheBuffer) rfl pushed
  obtain ⟨cacheValid, push, pop, left⟩ := Ring.popAlone_spec fits.cache filledValid taken
  have members : popped.toList ++ cache.contents = range config.cacheInit := by
    rw [← left, contents]
    rfl
  have distinct : (popped.toList ++ cache.contents).Nodup := members ▸ nodup_range
  have bounded : ∀ id ∈ popped.toList ++ cache.contents, id < config.cacheInit := by
    intro id mem
    rw [members] at mem
    exact mem_range.mp mem
  cases popped with
  | none =>
    refine valid_initialQueue fits garbage cacheValid (push.trans idle) pop distinct
      (Nat.lt_succ_self _) ?_
    intro id mem
    have small := bounded id mem
    exact ⟨small.ne, Nat.lt_succ_of_lt small⟩
  | some tail =>
    obtain ⟨absent, rest⟩ := nodup_cons.mp distinct
    refine valid_initialQueue fits garbage cacheValid (push.trans idle) pop rest
      (bounded tail mem_cons_self) ?_
    intro id mem
    refine ⟨?_, bounded id (mem_cons_of_mem tail mem)⟩
    rintro rfl
    exact absent mem

theorem create_valid {nodeSize cacheSize : UInt32} (cacheInit : UInt32) {entryBits : Nat}
    (nodes : max nodeSize.toNat 2 ≤ 2 ^ (31 - entryBits))
    (cache : cacheSize.toNat ≤ 2 ^ 27) : (create nodeSize cacheSize cacheInit entryBits).Valid := by
  have nodeMax : (max nodeSize 2).toNat = max nodeSize.toNat 2 := toNat_max nodeSize 2
  have cacheMax : (max cacheSize 2).toNat = max cacheSize.toNat 2 := toNat_max cacheSize 2
  constructor
  · have bounded : (max nodeSize 2).toNat ≤ 2 ^ (31 - entryBits) := nodeMax ▸ nodes
    obtain ⟨exponent, small, size, above⟩ :=
      roundToPowerOf2_le (by omega) bounded (Nat.sub_le 31 entryBits)
    have lower : 1 ≤ exponent := by
      apply Nat.one_le_iff_ne_zero.mpr
      rintro rfl
      omega
    have sum : exponent + entryBits ≤ 31 := by omega
    exact ⟨exponent, lower, sum, size⟩
  · have bounded : (max cacheSize 2).toNat ≤ 2 ^ 27 := by omega
    obtain ⟨exponent, small, size, _⟩ := roundToPowerOf2_le (by omega) bounded (by decide)
    exact ⟨exponent, small, size⟩

end AdkAaf.Adk.UnboundedQueue
