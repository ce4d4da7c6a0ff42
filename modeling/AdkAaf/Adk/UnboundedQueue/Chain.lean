import AdkAaf.Adk.UnboundedQueue.Basic
import Mathlib.Data.List.Nodup

/-! The chain of nodes, the cache, and the marks of the entries. Every node has one owner,
and a node outside the chain has no mark; the steps below are those of the consumer, of
`NewNode`, and the stores of the producers. -/

set_option autoImplicit false

namespace AdkAaf.Adk.UnboundedQueue

open Function QueueVariant List

/-- The block of a node holds all its entries, and that of the cache all its slots. -/
structure Config.Valid (config : Config) : Prop where
  node : ∃ exponent, 1 ≤ exponent ∧ exponent + config.entryBits ≤ 31 ∧
    config.nodeSize = 2 ^ exponent
  cache : Ring.SizeValid config.cacheSize

namespace Config.Valid

variable {config : Config} (configValid : config.Valid)

include configValid

theorem two_le : 2 ≤ config.nodeSize := by
  obtain ⟨exponent, lower, _, size⟩ := configValid.node
  rw [size]
  exact Nat.pow_le_pow_right Nat.two_pos lower

theorem slot_eq (index : Nat) : config.slot index = index % config.nodeSize := by
  obtain ⟨exponent, _, upper, size⟩ := configValid.node
  exact and_sizeMask size (Nat.le_trans (Nat.le_add_right _ _) upper) index

theorem slot_lt (index : Nat) : config.slot index < config.nodeSize := by
  have positive := configValid.two_le
  rw [configValid.slot_eq]
  exact Nat.mod_lt index (by omega)

theorem isLast_iff (index : Nat) :
    config.IsLast index ↔ index % config.nodeSize = config.nodeSize - 1 := by
  obtain ⟨exponent, _, upper, size⟩ := configValid.node
  have positive := configValid.two_le
  have bound : config.nodeSize ≤ 2 ^ 31 :=
    size ▸ Nat.pow_le_pow_right (by decide) (Nat.le_trans (Nat.le_add_right _ _) upper)
  have mask : sizeMask config.nodeSize = config.nodeSize - 1 := by
    rw [sizeMask, uint32]
    omega
  rw [Config.IsLast, configValid.slot_eq, mask]

theorem nodeEntries_eq : config.nodeEntries = config.nodeSize := by
  obtain ⟨exponent, _, upper, size⟩ := configValid.node
  have fits : config.nodeSize * 2 ^ config.entryBits < 2 ^ 32 := by
    rw [size, ← Nat.pow_add]
    exact Nat.pow_lt_pow_right (by decide) (by omega)
  rw [Config.nodeEntries, uint32_eq fits]
  exact Nat.mul_div_cancel _ (Nat.two_pow_pos _)

end Config.Valid

variable {Value : Type} {config : Config} {queue next : Queue Value}

/-- The mark and the element of the entry with the given index. -/
def EntryValid (queue : Queue Value) (id slot index : Nat) : Prop :=
  (∀ value, queue.head ≤ index → queue.posted index = some value →
    (queue.nodes id).pos slot = index ∧ (queue.nodes id).buffer slot = value) ∧
  (index < queue.head ∨ queue.posted index = none → (queue.nodes id).pos slot = 0)

def InFirst (config : Config) (queue : Queue Value) : Prop :=
  queue.first * config.nodeSize ≤ queue.head ∧
    queue.head < queue.first * config.nodeSize + config.nodeSize

def ConsumerValid (config : Config) (queue : Queue Value) : Prop :=
  match queue.consumer with
  | .idle =>
    InFirst config queue ∧ queue.popped.length + 1 = queue.head ∧ queue.cache.push = .idle
  | .reading =>
    InFirst config queue ∧ queue.popped.length + 1 = queue.head ∧ queue.cache.push = .idle ∧
      (queue.posted queue.head).isSome
  | .freeing =>
    InFirst config queue ∧ queue.popped.length = queue.head ∧ queue.cache.push = .idle ∧
      (queue.posted queue.head).isSome
  | .following =>
    queue.head = queue.first * config.nodeSize + config.nodeSize ∧ queue.first < queue.last ∧
      queue.popped.length + 1 = queue.head ∧ queue.cache.push = .idle
  | .deleting id =>
    InFirst config queue ∧ queue.popped.length + 1 = queue.head ∧
      Ring.pushing queue.cache.push = some id ∧ queue.owner id = .consumer
  | .releasing id =>
    InFirst config queue ∧ queue.popped.length + 1 = queue.head ∧ queue.cache.push = .idle ∧
      queue.owner id = .consumer

def Owner.Outside (owner : Owner) : Prop := owner = .cache ∨ owner = .producer ∨ owner = .consumer

theorem Owner.Outside.ne_chain {owner : Owner} (outside : owner.Outside) (number : Nat) :
    owner ≠ .chain number := by
  rintro rfl
  rcases outside with cached | held | recycled
  · cases cached
  · cases held
  · cases recycled

structure Valid (config : Config) (queue : Queue Value) : Prop where
  cache : Ring.Valid config.cacheSize queue.cache
  cached : ∀ id ∈ queue.cache.contents, queue.owner id = .cache
  distinct : queue.cache.contents.Nodup
  ordered : queue.first ≤ queue.last
  headPtr : queue.headPtr = queue.place queue.first
  tailPtr : queue.tailPtr = queue.place queue.last
  chain : ∀ number, queue.first ≤ number → number ≤ queue.last →
    queue.owner (queue.place number) = .chain number
  links : ∀ number, queue.first ≤ number → number < queue.last →
    (queue.nodes (queue.place number)).next = some (queue.place (number + 1))
  entries : ∀ number slot, queue.first ≤ number → number ≤ queue.last →
    slot < config.nodeSize →
      EntryValid queue (queue.place number) slot (number * config.nodeSize + slot)
  unused : ∀ id, (queue.owner id).Outside → ∀ slot < config.nodeSize,
    (queue.nodes id).pos slot = 0
  reach : ∀ index, (queue.posted index).isSome →
    1 ≤ index ∧ index < queue.last * config.nodeSize + config.nodeSize
  closed : ∀ number, (queue.posted (number * config.nodeSize + (config.nodeSize - 1))).isSome →
    number < queue.last
  popped : ∀ offset < queue.popped.length, queue.popped[offset]? = queue.posted (offset + 1)
  consumer : ConsumerValid config queue

namespace Valid

variable (valid : Valid config queue)

include valid

variable {number other : Nat}

theorem place_injective (above : queue.first ≤ number) (below : number ≤ queue.last)
    (otherAbove : queue.first ≤ other) (otherBelow : other ≤ queue.last)
    (same : queue.place number = queue.place other) : number = other := by
  have owned := valid.chain number above below
  rw [same, valid.chain other otherAbove otherBelow] at owned
  cases owned
  rfl

variable {id : Nat}

theorem place_ne (above : queue.first ≤ number) (below : number ≤ queue.last)
    (outside : ∀ other, queue.owner id ≠ .chain other) : queue.place number ≠ id := by
  rintro rfl
  exact outside number (valid.chain number above below)

theorem first_mul_le : queue.first * config.nodeSize ≤ queue.head := by
  have consumer := valid.consumer
  unfold ConsumerValid at consumer
  split at consumer
  next => exact consumer.1.1
  next => exact consumer.1.1
  next => exact consumer.1.1
  next => rw [consumer.1]; exact Nat.le_add_right _ _
  next => exact consumer.1.1
  next => exact consumer.1.1

theorem first_le {slot : Nat} (inside : slot < config.nodeSize)
    (ahead : queue.head ≤ number * config.nodeSize + slot) : queue.first ≤ number := by
  apply Nat.le_of_not_lt
  intro passed
  have below := Nat.mul_le_mul_right config.nodeSize (Nat.succ_le_of_lt passed)
  rw [Nat.succ_mul] at below
  have reached := valid.first_mul_le
  omega

theorem head_le_of_unposted {index : Nat} (pos : 1 ≤ index)
    (unposted : queue.posted index = none) : queue.head ≤ index := by
  have taken : ¬index ≤ queue.popped.length := by
    intro inside
    have popped := valid.popped (index - 1) (by omega)
    rw [Nat.sub_add_cancel pos, unposted, getElem?_eq_getElem (by omega)] at popped
    cases popped
  have count : queue.head ≤ queue.popped.length + 1 := by
    have consumer := valid.consumer
    unfold ConsumerValid at consumer
    split at consumer <;> omega
  omega

theorem linked_place (linked : Linked queue id) :
    ∃ n, queue.first ≤ n ∧ n ≤ queue.last ∧ queue.place n = id := by
  induction linked with
  | head => exact ⟨queue.first, .refl, valid.ordered, valid.headPtr.symm⟩
  | next _ apart found ih =>
    obtain ⟨n, above, below, rfl⟩ := ih
    have earlier : n < queue.last := by
      apply Nat.lt_of_le_of_ne below
      rintro rfl
      exact apart valid.tailPtr.symm
    rw [valid.links n above earlier] at found
    exact ⟨n + 1, Nat.le_succ_of_le above, earlier, Option.some.inj found⟩

theorem place_linked (above : queue.first ≤ number) (below : number ≤ queue.last) :
    Linked queue (queue.place number) := by
  induction number with
  | zero =>
    obtain first := Nat.eq_zero_of_le_zero above
    have start := @Linked.head Value queue
    rw [valid.headPtr, first] at start
    exact start
  | succ number ih =>
    rcases Nat.lt_or_eq_of_le above with earlier | first
    · have inside := Nat.le_of_lt_succ earlier
      refine .next (ih inside (Nat.le_of_succ_le below)) ?_ (valid.links number inside below)
      intro same
      rw [valid.tailPtr] at same
      have last := valid.place_injective inside (Nat.le_of_succ_le below) valid.ordered
        .refl same
      omega
    · have start := @Linked.head Value queue
      rw [valid.headPtr, first] at start
      exact start

theorem head_entry (configValid : config.Valid) (inFirst : InFirst config queue) :
    EntryValid queue queue.headPtr (config.slot queue.head) queue.head := by
  have entry := valid.entries queue.first (config.slot queue.head) .refl valid.ordered
    (configValid.slot_lt _)
  rw [configValid.slot_eq, Lib.block_add_mod inFirst.1 inFirst.2, ← configValid.slot_eq] at entry
  rw [valid.headPtr]
  exact entry

theorem scWaitEntry_iff (configValid : config.Valid) (inFirst : InFirst config queue) :
    scWaitEntry config queue = .kQueueEmpty ↔ queue.posted queue.head = none := by
  have entry := valid.head_entry configValid inFirst
  unfold scWaitEntry
  cases found : queue.posted queue.head with
  | none => simp [entry.2 (.inr found)]
  | some value =>
    have positive := (valid.reach queue.head (by rw [found]; rfl)).1
    have mark := (entry.1 value .refl found).1
    rw [mark, if_neg (by omega)]
    simp

theorem withNodes {nodes : Nat → Node Value}
    (entries : ∀ number, queue.first ≤ number → number ≤ queue.last →
      (nodes (queue.place number)).pos = (queue.nodes (queue.place number)).pos ∧
        (nodes (queue.place number)).buffer = (queue.nodes (queue.place number)).buffer)
    (links : ∀ number, queue.first ≤ number → number < queue.last →
      (nodes (queue.place number)).next = (queue.nodes (queue.place number)).next)
    (unused : ∀ id, (queue.owner id).Outside → ∀ slot < config.nodeSize, (nodes id).pos slot = 0) :
    Valid config { queue with nodes } := by
  refine { valid with links := ?_, entries := ?_, unused := unused }
  · intro number above below
    exact (links number above below).trans (valid.links number above below)
  · intro number slot above below inside
    have entry := valid.entries number slot above below inside
    unfold EntryValid at entry ⊢
    rw [(entries number above below).1, (entries number above below).2]
    exact entry

theorem withCounters (tail tailThreshold : Nat) :
    Valid config { queue with tail, tailThreshold } :=
  { valid with }

theorem setNode {node : Node Value} (pos : node.pos = (queue.nodes id).pos)
    (buffer : node.buffer = (queue.nodes id).buffer) (linked : node.next = (queue.nodes id).next ∨
      ∀ number, queue.first ≤ number → number < queue.last → queue.place number ≠ id) :
    Valid config (setNode queue id node) := by
  have same : ∀ other, (update queue.nodes id node other).pos = (queue.nodes other).pos ∧
        (update queue.nodes id node other).buffer = (queue.nodes other).buffer := by
    intro other
    by_cases own : other = id
    · subst own
      rw [update_self]
      exact ⟨pos, buffer⟩
    · rw [update_of_ne own]
      exact ⟨rfl, rfl⟩
  apply valid.withNodes
  · intro number _ _
    exact same _
  · intro number above below
    by_cases own : queue.place number = id
    · rcases linked with kept | other
      · rw [own, update_self]
        exact kept
      · exact absurd own (other number above below)
    · rw [update_of_ne own]
  · intro other outside slot inside
    rw [(same other).1]
    exact valid.unused other outside slot inside

theorem setHold (id hold : Nat) : Valid config (setHold queue id hold) :=
  valid.setNode rfl rfl (.inl rfl)

theorem setPrev (id prev : Nat) : Valid config (setPrev queue id prev) :=
  valid.setNode rfl rfl (.inl rfl)

theorem setNext_tailPtr (id : Option Nat) : Valid config (setNext queue queue.tailPtr id) := by
  refine valid.setNode rfl rfl (.inr ?_)
  intro number above below same
  rw [valid.tailPtr] at same
  have last := valid.place_injective above below.le valid.ordered .refl same
  omega

theorem setNext_outside (outside : ∀ number, queue.owner id ≠ .chain number) (after : Option Nat) :
    Valid config (setNext queue id after) := by
  refine valid.setNode rfl rfl (.inr ?_)
  intro number above below
  exact valid.place_ne above below.le outside

theorem forall_place_ne (owned : queue.owner id = .chain number) (above : queue.first ≤ other)
    (below : other ≤ queue.last) (apart : other ≠ number) : queue.place other ≠ id := by
  rintro rfl
  rw [valid.chain other above below] at owned
  cases owned
  exact apart rfl

section

variable (configValid : config.Valid)
include configValid

theorem startReading (idle : queue.consumer = .idle)
    (found : scWaitEntry config queue = .kSuccess) :
    Valid config { queue with consumer := .reading } := by
  have consumer := valid.consumer
  unfold ConsumerValid at consumer
  rw [idle] at consumer
  obtain ⟨inFirst, count, push⟩ := consumer
  have present : (queue.posted queue.head).isSome := by
    cases posted : queue.posted queue.head with
    | none =>
      have empty := (valid.scWaitEntry_iff configValid inFirst).mpr posted
      rw [found] at empty
      cases empty
    | some => rfl
  exact ⟨valid.cache, valid.cached, valid.distinct, valid.ordered, valid.headPtr, valid.tailPtr,
    valid.chain, valid.links, valid.entries, valid.unused, valid.reach, valid.closed,
    valid.popped, inFirst, count, push, present⟩

theorem read (reading : queue.consumer = .reading) :
    Valid config { queue with
      consumer := .freeing
      popped := queue.popped ++
        [(queue.nodes queue.headPtr).buffer (config.slot queue.head)] } := by
  have consumer := valid.consumer
  unfold ConsumerValid at consumer
  rw [reading] at consumer
  obtain ⟨inFirst, count, push, present⟩ := consumer
  refine ⟨valid.cache, valid.cached, valid.distinct, valid.ordered, valid.headPtr, valid.tailPtr,
    valid.chain, valid.links, valid.entries, valid.unused, valid.reach, valid.closed, ?_,
    inFirst, ?_, push, present⟩
  · intro offset inside
    rcases Nat.lt_or_ge offset queue.popped.length with earlier | later
    · rw [getElem?_append_left earlier]
      exact valid.popped offset earlier
    · have last : offset = queue.popped.length := by
        rw [length_append, length_singleton] at inside
        omega
      rw [last, getElem?_append_right .refl, Nat.sub_self, count]
      obtain ⟨value, posted⟩ := Option.isSome_iff_exists.mp present
      have entry := (valid.head_entry configValid inFirst).1 value .refl posted
      rw [posted, entry.2]
      rfl
  · rw [length_append]
    exact count

theorem free (freeing : queue.consumer = .freeing) :
    Valid config { setPos queue queue.headPtr (config.slot queue.head) 0 with
      head := queue.head + 1
      consumer := if config.IsLast queue.head then .following else .idle } := by
  have consumer := valid.consumer
  unfold ConsumerValid at consumer
  rw [freeing] at consumer
  obtain ⟨inFirst, count, push, present⟩ := consumer
  have whole := Lib.block_add_mod inFirst.1 inFirst.2
  have owned : queue.owner queue.headPtr = .chain queue.first := by
    rw [valid.headPtr]
    exact valid.chain queue.first .refl valid.ordered
  refine { valid with links := ?_, entries := ?_, unused := ?_, consumer := ?_ }
  · intro number above below
    simp only [setPos, UnboundedQueue.setNode]
    by_cases own : queue.place number = queue.headPtr
    · rw [own, update_self, ← own]
      exact valid.links number above below
    · rw [update_of_ne own]
      exact valid.links number above below
  · intro number slot above below inside
    have entry := valid.entries number slot above below inside
    simp only [setPos, UnboundedQueue.setNode, EntryValid] at entry ⊢
    by_cases own : number = queue.first
    · subst own
      rw [← valid.headPtr] at entry ⊢
      rw [update_self]
      dsimp only
      by_cases freed : slot = config.slot queue.head
      · have index : queue.first * config.nodeSize + slot = queue.head := by
          rw [freed, configValid.slot_eq]
          exact whole
        rw [freed, update_self, ← freed, index]
        exact ⟨fun _ above => absurd above (Nat.not_succ_le_self _), fun _ => rfl⟩
      · have index : queue.first * config.nodeSize + slot ≠ queue.head := by
          rw [configValid.slot_eq] at freed
          omega
        rw [update_of_ne freed]
        refine ⟨fun value above => entry.1 value (Nat.le_of_succ_le above), ?_⟩
        rintro (passed | unposted)
        · exact entry.2 (.inl (by omega))
        · exact entry.2 (.inr unposted)
    · have different := valid.forall_place_ne owned above below own
      rw [update_of_ne different]
      have later : queue.first * config.nodeSize + config.nodeSize ≤ number * config.nodeSize := by
        rw [← Nat.succ_mul]
        exact Nat.mul_le_mul_right _ (Nat.lt_of_le_of_ne above (Ne.symm own))
      have upper := inFirst.2
      refine ⟨fun value above => entry.1 value (Nat.le_of_succ_le above), ?_⟩
      rintro (passed | unposted)
      · exact absurd passed (by omega)
      · exact entry.2 (.inr unposted)
  · intro id outside slot inside
    have apart : id ≠ queue.headPtr := by
      rintro rfl
      exact outside.ne_chain queue.first owned
    simp only [setPos, UnboundedQueue.setNode]
    rw [update_of_ne apart]
    exact valid.unused id outside slot inside
  · unfold ConsumerValid
    by_cases isLast : config.IsLast queue.head
    · simp only [if_pos isLast]
      have remainder := (configValid.isLast_iff queue.head).mp isLast
      have positive := configValid.two_le
      refine ⟨?_, ?_, ?_, push⟩
      · change queue.head + 1 = queue.first * config.nodeSize + config.nodeSize
        omega
      · refine valid.closed queue.first ?_
        rw [← remainder, whole]
        exact present
      · change queue.popped.length + 1 = queue.head + 1
        omega
    · simp only [if_neg isLast]
      have remainder : queue.head % config.nodeSize ≠ config.nodeSize - 1 :=
        fun same => isLast ((configValid.isLast_iff queue.head).mpr same)
      have inside := Nat.mod_lt queue.head (Nat.two_pos.trans_le configValid.two_le)
      refine ⟨⟨?_, ?_⟩, ?_, push⟩
      · exact Nat.le_succ_of_le inFirst.1
      · change queue.head + 1 < queue.first * config.nodeSize + config.nodeSize
        omega
      · change queue.popped.length + 1 = queue.head + 1
        omega

theorem follow (following : queue.consumer = .following) {after : Nat}
    (linked : (queue.nodes queue.headPtr).next = some after) :
    Valid config { setOwner queue queue.headPtr .consumer with
      headPtr := after
      first := queue.first + 1
      consumer := .deleting queue.headPtr
      cache := queue.cache.startPush queue.headPtr } := by
  have consumer := valid.consumer
  unfold ConsumerValid at consumer
  rw [following] at consumer
  obtain ⟨head, more, count, push⟩ := consumer
  have positive := configValid.two_le
  have owned : queue.owner queue.headPtr = .chain queue.first := by
    rw [valid.headPtr]
    exact valid.chain queue.first .refl valid.ordered
  have kept : ∀ number, queue.first + 1 ≤ number → number ≤ queue.last →
      queue.place number ≠ queue.headPtr :=
    fun number above below => valid.forall_place_ne owned (Nat.le_of_succ_le above) below
      (Nat.ne_of_gt above)
  have next : (queue.first + 1) * config.nodeSize = queue.head := by
    rw [Nat.succ_mul]
    exact head.symm
  refine ⟨valid.cache.startPush _, ?_, valid.distinct, more, ?_, valid.tailPtr, ?_, ?_, ?_, ?_,
    valid.reach, valid.closed, valid.popped, ?_⟩
  · intro id mem
    have cached := valid.cached id mem
    have apart : id ≠ queue.headPtr := by
      rintro rfl
      rw [owned] at cached
      cases cached
    simp only [setOwner]
    rw [update_of_ne apart]
    exact cached
  · have after_eq := valid.links queue.first .refl more
    rw [← valid.headPtr, linked] at after_eq
    exact Option.some.inj after_eq
  · intro number above below
    simp only [setOwner]
    rw [update_of_ne (kept number above below)]
    exact valid.chain number (Nat.le_of_succ_le above) below
  · intro number above below
    exact valid.links number (Nat.le_of_succ_le above) below
  · intro number slot above below inside
    exact valid.entries number slot (Nat.le_of_succ_le above) below inside
  · intro id outside slot inside
    simp only [setOwner] at outside ⊢
    by_cases own : id = queue.headPtr
    · -- all entries of the node have been freed
      rw [own, valid.headPtr]
      apply (valid.entries queue.first slot .refl valid.ordered inside).2
      exact .inl (by omega)
    · rw [update_of_ne own] at outside
      exact valid.unused id outside slot inside
  · refine ⟨⟨Nat.le_of_eq next, ?_⟩, count, rfl, ?_⟩
    · change queue.head < (queue.first + 1) * config.nodeSize + config.nodeSize
      omega
    · simp only [setOwner]
      exact update_self _ _ _

end

variable {cache : QueueVariant.Ring Nat}

variable {consumer : ConsumerPc}

theorem setOwner_outside {owner : Owner} (outside : ∀ number, queue.owner id ≠ .chain number)
    (cacheValid : Ring.Valid config.cacheSize cache)
    (cached : ∀ other ∈ cache.contents, update queue.owner id owner other = .cache)
    (distinct : cache.contents.Nodup)
    (unused : owner.Outside → ∀ slot < config.nodeSize, (queue.nodes id).pos slot = 0)
    (consumerValid : ConsumerValid config
      { setOwner { queue with cache } id owner with consumer }) :
    Valid config { setOwner { queue with cache } id owner with consumer } := by
  refine { valid with
    cache := cacheValid
    cached := cached
    distinct := distinct
    chain := ?_
    unused := ?_
    consumer := consumerValid }
  · intro number above below
    simp only [setOwner]
    rw [update_of_ne (valid.place_ne above below outside)]
    exact valid.chain number above below
  · intro other otherOutside slot inside
    simp only [setOwner] at otherOutside ⊢
    by_cases own : other = id
    · subst own
      rw [update_self] at otherOutside
      exact unused otherOutside slot inside
    · rw [update_of_ne own] at otherOutside
      exact valid.unused other otherOutside slot inside

theorem setCache (cacheValid : Ring.Valid config.cacheSize cache)
    (contents : cache.contents = queue.cache.contents)
    (consumerValid : ConsumerValid config { queue with cache, consumer }) :
    Valid config { queue with cache, consumer } := by
  refine { valid with cache := cacheValid, cached := ?_, distinct := ?_, consumer := consumerValid }
  · dsimp only
    rw [contents]
    exact valid.cached
  · dsimp only
    rw [contents]
    exact valid.distinct

theorem delete (configValid : config.Valid) (deleting : queue.consumer = .deleting id)
    {event : PushEvent}
    (went : Ring.stepPush config.cacheSize queue.cache = some (cache, event)) :
    Valid config (match event with
      | .running => { queue with cache }
      | .kQueueFull => { queue with cache, consumer := .releasing id }
      | .kSuccess => { setOwner { queue with cache } id .cache with consumer := .idle }) := by
  have consumer := valid.consumer
  unfold ConsumerValid at consumer
  rw [deleting] at consumer
  obtain ⟨inFirst, count, pushing, owned⟩ := consumer
  obtain ⟨cacheValid, _, effect⟩ := Ring.stepPush_spec configValid.cache valid.cache went
  cases event with
  | running =>
    refine valid.setCache cacheValid effect.1 ?_
    rw [deleting]
    exact ⟨inFirst, count, effect.2.trans pushing, owned⟩
  | kQueueFull =>
    exact valid.setCache cacheValid effect.1 ⟨inFirst, count, effect.2, owned⟩
  | kSuccess =>
    obtain ⟨idle, pushed, same, contents⟩ := effect
    rw [pushing] at same
    cases same
    have absent : id ∉ queue.cache.contents := by
      intro mem
      rw [valid.cached id mem] at owned
      cases owned
    apply valid.setOwner_outside
    · intro number
      simp [owned]
    · exact cacheValid
    · intro other mem
      rw [contents] at mem
      rcases mem_append.mp mem with earlier | added
      · rw [update_of_ne]
        · exact valid.cached other earlier
        · rintro rfl
          exact absent earlier
      · rw [mem_singleton.mp added, update_self]
    · rw [contents]
      apply nodup_append.mpr
      refine ⟨valid.distinct, nodup_singleton id, ?_⟩
      rintro other mem _ added rfl
      rw [mem_singleton.mp added] at mem
      exact absent mem
    · intro _ slot inside
      exact valid.unused id (owned ▸ .inr (.inr rfl)) slot inside
    · exact ⟨inFirst, count, idle⟩

theorem release (releasing : queue.consumer = .releasing id) :
    Valid config { setOwner queue id .heap with consumer := .idle } := by
  have consumer := valid.consumer
  unfold ConsumerValid at consumer
  rw [releasing] at consumer
  obtain ⟨inFirst, count, push, owned⟩ := consumer
  refine valid.setOwner_outside ?_ valid.cache ?_ valid.distinct ?_ ⟨inFirst, count, push⟩
  · intro number
    simp [owned]
  · intro other mem
    have cached := valid.cached other mem
    rw [update_of_ne]
    · exact cached
    · rintro rfl
      rw [owned] at cached
      cases cached
  · rintro (impossible | impossible | impossible)
    · cases impossible
    · cases impossible
    · cases impossible

theorem stepConsumer (configValid : config.Valid)
    (went : stepConsumer config queue = some next) : Valid config next := by
  unfold UnboundedQueue.stepConsumer at went
  split at went
  next => cases went
  next reading =>
    cases went
    exact valid.read configValid reading
  next freeing =>
    cases went
    exact valid.free configValid freeing
  next following =>
    split at went <;> cases went
    · exact valid
    next after linked => exact valid.follow configValid following linked
  next id deleting =>
    split at went <;> cases went
    next cache pushed => exact valid.delete configValid deleting pushed
    next cache pushed => exact valid.delete configValid deleting pushed
    next cache pushed => exact valid.delete configValid deleting pushed
  next id releasing =>
    cases went
    exact valid.release releasing

end Valid

end AdkAaf.Adk.UnboundedQueue
