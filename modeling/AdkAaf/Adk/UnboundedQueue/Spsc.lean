import AdkAaf.Adk.UnboundedQueue.Nodes

/-! `SPSCUnboundedQueue`: the one producer links the next node before it posts the last
entry of a node. -/

set_option autoImplicit false

namespace AdkAaf.Adk.UnboundedQueue.Spsc

open Function Lib Option List

structure Entry (Value : Type) where
  node : Nat
  slot : Nat
  value : Value

/-- `holding` and `moving` are the stores of `next->node_hold` and `tail_ptr_` that follow
the store of `tail_ptr_->next`. -/
inductive ProducerPc (Value : Type) where
  | idle
  | newNode (entry : Entry Value) (pc : NewNodePc)
  | holding (entry : Entry Value) (id : Nat)
  | moving (entry : Entry Value) (id : Nat)
  | writing (entry : Entry Value)
  | posting (entry : Entry Value)

instance {Value : Type} : (pc : ProducerPc Value) → Decidable (pc = .idle)
  | .idle => isTrue rfl
  | .newNode _ _ | .holding _ _ | .moving _ _ | .writing _ | .posting _ => isFalse nofun

/-- The queue with its producer and, as a history variable, the elements pushed. -/
structure State (Value : Type) where
  queue : Queue Value
  producer : ProducerPc Value := .idle
  pushed : List Value := []

inductive Action (Value : Type) where
  | push (value : Value)
  | producer
  | malloc (id : Nat) (garbage : Node Value)
  | waitEntry
  | consumer

section Steps

variable {Value : Type} (config : Config) (state : State Value)

def push (value : Value) : Option (State Value) :=
  let queue := state.queue
  let entry := { node := queue.tailPtr, slot := config.slot queue.tail, value }
  match state.producer with
  | .idle =>
    if config.IsLast queue.tail then
      some { state with queue := startNewNode queue, producer := .newNode entry .popping }
    else
      some { state with producer := .writing entry }
  | _ => none

def stepProducer : Option (State Value) :=
  let queue := state.queue
  match state.producer with
  | .idle => none
  | .newNode entry (.ready id) =>
    some { state with
      queue := setNext queue queue.tailPtr (some id), producer := .holding entry id }
  | .newNode entry pc =>
    (stepNewNode config queue pc).map fun (next, after) =>
      { state with queue := next, producer := .newNode entry after }
  | .holding entry id =>
    let hold := (queue.nodes queue.tailPtr).nodeHold + config.nodeSize
    some { state with queue := setHold queue id hold, producer := .moving entry id }
  | .moving entry id =>
    some { state with queue := appendNode queue id, producer := .writing entry }
  | .writing entry =>
    some { state with
      queue := writeEntry queue entry.node entry.slot entry.value
      producer := .posting entry }
  | .posting entry =>
    let posted := postEntry queue entry.node entry.slot queue.tail entry.value
    some
      { queue := { posted with tail := queue.tail + 1 }
        producer := .idle
        pushed := state.pushed ++ [entry.value] }

def step : Action Value → Option (State Value)
  | .push value => push config state value
  | .producer => stepProducer config state
  | .malloc id garbage =>
    match state.producer with
    | .newNode entry .allocating =>
      (allocate config state.queue id garbage).map fun next =>
        { state with queue := next, producer := .newNode entry (.ready id) }
    | _ => none
  | .waitEntry =>
    (waitEntry config state.queue).map fun next => { state with queue := next }
  | .consumer =>
    (stepConsumer config state.queue).map fun next => { state with queue := next }

end Steps

def handedOut {Value : Type} : ProducerPc Value → Option Nat
  | .newNode _ (.clearing id) | .newNode _ (.ready id) | .holding _ id | .moving _ id => some id
  | _ => none

variable {Value : Type} {config : Config} {state next : State Value}

/-- The producer is about to put its element under the index `tail`, the last one of the
chain. -/
def AtEnd (config : Config) (queue : Queue Value) (entry : Entry Value) : Prop :=
  entry.node = queue.place queue.last ∧ entry.slot = config.nodeSize - 1 ∧
    queue.tail = queue.last * config.nodeSize + entry.slot

/-- The entry of the producer has the index `tail`; if it is the last of its node, the next
node has been appended. -/
def AtEntry (config : Config) (queue : Queue Value) (entry : Entry Value) : Prop :=
  ∃ number ≤ queue.last, entry.node = queue.place number ∧ entry.slot < config.nodeSize ∧
    queue.tail = number * config.nodeSize + entry.slot ∧
      queue.tail + 1 < queue.last * config.nodeSize + config.nodeSize ∧
        queue.last * config.nodeSize ≤ queue.tail + 1

def ProducerValid (config : Config) (queue : Queue Value) : ProducerPc Value → Prop
  | .idle =>
    queue.cache.pop = .idle ∧ queue.last * config.nodeSize ≤ queue.tail ∧
      queue.tail < queue.last * config.nodeSize + config.nodeSize
  | .newNode entry pc => NewNodeValid queue pc ∧ AtEnd config queue entry
  | .holding entry id | .moving entry id =>
    (queue.cache.pop = .idle ∧ queue.owner id = .producer) ∧ AtEnd config queue entry ∧
      (queue.nodes queue.tailPtr).next = some id
  | .writing entry => queue.cache.pop = .idle ∧ AtEntry config queue entry
  | .posting entry =>
    queue.cache.pop = .idle ∧ AtEntry config queue entry ∧
      (queue.nodes entry.node).buffer entry.slot = entry.value

structure StateValid (config : Config) (state : State Value) : Prop where
  queue : Valid config state.queue
  posted : ∀ index, (state.queue.posted index).isSome ↔ 1 ≤ index ∧ index < state.queue.tail
  pushed : ∀ offset, offset < state.pushed.length →
    state.pushed[offset]? = state.queue.posted (offset + 1)
  length : state.pushed.length + 1 = state.queue.tail
  producer : ProducerValid config state.queue state.producer

variable {queue : Queue Value}

theorem Valid.stateValid (fits : config.Valid) (valid : Valid config queue)
    (initial : Initial config queue) : StateValid config { queue } := by
  have positive := fits.two_le
  refine ⟨valid, ?_, ?_, ?_, initial.pop, ?_, ?_⟩
  · intro index
    rw [initial.posted, initial.tail]
    simp
    omega
  · intro offset inside
    exact absurd inside (Nat.not_lt_zero _)
  · exact initial.tail.symm
  · rw [initial.last, Nat.zero_mul]
    exact Nat.zero_le _
  · rw [initial.last, initial.tail]
    omega

theorem valid_initial (fits : config.Valid) {garbage : Nat → Node Value}
    {cachePos : Nat → Int} {cacheBuffer : Nat → Nat}
    (ran : init config garbage cachePos cacheBuffer = some queue) : StateValid config { queue } :=
  Valid.stateValid fits (valid_init fits ran).1 (valid_init fits ran).2

variable {after : Queue Value}

theorem ProducerValid.frame {pc : ProducerPc Value} (valid : ProducerValid config queue pc)
    (frame : ConsumerFrame queue after) : ProducerValid config after pc := by
  have atEnd : ∀ entry, AtEnd config queue entry → AtEnd config after entry := by
    intro entry atEnd
    unfold AtEnd
    rw [frame.place, frame.last, frame.tail]
    exact atEnd
  have atEntry : ∀ entry, AtEntry config queue entry → AtEntry config after entry := by
    intro entry atEntry
    unfold AtEntry
    rw [frame.place, frame.last, frame.tail]
    exact atEntry
  cases pc with
  | idle =>
    unfold ProducerValid
    rw [frame.pop, frame.last, frame.tail]
    exact valid
  | newNode entry pc => exact ⟨valid.1.frame frame.pop frame.held, atEnd entry valid.2⟩
  | holding entry id | moving entry id =>
    obtain ⟨⟨pop, owned⟩, end_, linked⟩ := valid
    refine ⟨⟨frame.pop.trans pop, frame.held id owned⟩, atEnd entry end_, ?_⟩
    rw [frame.tailPtr]
    exact (frame.fields _).1.trans linked
  | writing entry => exact ⟨frame.pop.trans valid.1, atEntry entry valid.2⟩
  | posting entry =>
    obtain ⟨pop, at_, written⟩ := valid
    refine ⟨frame.pop.trans pop, atEntry entry at_, ?_⟩
    rw [(frame.fields entry.node).2.2.2]
    exact written

theorem AtEnd.frame {entry : Entry Value} (atEnd : AtEnd config queue entry)
    (frame : NewNodeFrame queue after) : AtEnd config after entry := by
  unfold AtEnd
  rw [frame.place, frame.last, frame.tail]
  exact atEnd

namespace StateValid

variable (valid : StateValid config state)

include valid

theorem unposted_tail : state.queue.posted state.queue.tail = none := by
  cases posted : state.queue.posted state.queue.tail with
  | none => rfl
  | some =>
    have bounds := (valid.posted state.queue.tail).mp (by rw [posted]; rfl)
    exact absurd bounds.2 (Nat.lt_irrefl _)

theorem head_le_tail : state.queue.head ≤ state.queue.tail :=
  valid.queue.head_le_of_unposted (by have length := valid.length; omega) valid.unposted_tail

variable {entry : Entry Value} {number : Nat}

theorem entry_above (inside : entry.slot < config.nodeSize)
    (index : state.queue.tail = number * config.nodeSize + entry.slot) :
    state.queue.first ≤ number :=
  valid.queue.first_le inside (index ▸ valid.head_le_tail)

theorem withQueue {producer : ProducerPc Value} (queueValid : Valid config queue)
    (posted : queue.posted = state.queue.posted) (tail : queue.tail = state.queue.tail)
    (producerValid : ProducerValid config queue producer) :
    StateValid config { state with queue, producer } := by
  refine ⟨queueValid, ?_, ?_, valid.length.trans tail.symm, producerValid⟩
  · dsimp only
    rw [posted, tail]
    exact valid.posted
  · dsimp only
    rw [posted]
    exact valid.pushed

theorem consumer (fits : config.Valid)
    (went : stepConsumer config state.queue = some queue) :
    StateValid config { state with queue } := by
  have frame := valid.queue.consumerFrame fits went
  exact valid.withQueue (valid.queue.stepConsumer fits went) frame.posted frame.tail
    (valid.producer.frame frame)

theorem push (fits : config.Valid) {value : Value}
    (went : push config state value = some next) : StateValid config next := by
  have producer := valid.producer
  unfold Spsc.push at went
  dsimp only at went
  split at went
  next idle =>
    rw [idle] at producer
    obtain ⟨pop, lower, upper⟩ := producer
    have whole := block_add_mod lower upper
    split at went <;> cases went
    next isLast =>
      have remainder := (fits.isLast_iff _).mp isLast
      apply valid.withQueue valid.queue.startNewNode rfl rfl
      refine ⟨trivial, valid.queue.tailPtr, ?_, ?_⟩
      · exact (fits.slot_eq _).trans remainder
      · change state.queue.tail = state.queue.last * config.nodeSize + config.slot _
        rw [fits.slot_eq]
        exact whole.symm
    next inner =>
      have remainder : state.queue.tail % config.nodeSize ≠ config.nodeSize - 1 :=
        fun same => inner ((fits.isLast_iff _).mpr same)
      apply valid.withQueue valid.queue rfl rfl
      refine ⟨pop, state.queue.last, .refl, valid.queue.tailPtr, ?_, ?_, ?_, ?_⟩
      · exact fits.slot_lt _
      · dsimp only
        rw [fits.slot_eq]
        exact whole.symm
      all_goals omega
  next => cases went

theorem post (pop : state.queue.cache.pop = .idle) (below : number ≤ state.queue.last)
    (node : entry.node = state.queue.place number) (inside : entry.slot < config.nodeSize)
    (index : state.queue.tail = number * config.nodeSize + entry.slot)
    (upper : state.queue.tail + 1 < state.queue.last * config.nodeSize + config.nodeSize)
    (lower : state.queue.last * config.nodeSize ≤ state.queue.tail + 1)
    (written : (state.queue.nodes entry.node).buffer entry.slot = entry.value) :
    StateValid config
      { queue := { postEntry state.queue entry.node entry.slot state.queue.tail entry.value with
          tail := state.queue.tail + 1 }
        producer := .idle
        pushed := state.pushed ++ [entry.value] } := by
  have length := valid.length
  have unposted := valid.unposted_tail
  have ahead := valid.head_le_tail
  have sealed : entry.slot = config.nodeSize - 1 → number < state.queue.last := by
    intro last
    apply Nat.lt_of_mul_lt_mul_right (a := config.nodeSize)
    omega
  have posted := valid.queue.postEntry entry.value (valid.entry_above inside index) below
    inside (by omega) (index ▸ ahead) (index ▸ unposted) (node ▸ written) sealed
  rw [← node, ← index] at posted
  refine ⟨posted.withCounters _ _, ?_, ?_, ?_, pop, lower, upper⟩
  · intro other
    simp only [postEntry, setPos, setNode]
    by_cases own : other = state.queue.tail
    · rw [own, update_self]
      simp
      omega
    · rw [update_of_ne own, valid.posted other]
      omega
  · intro offset inList
    rw [length_append, length_singleton] at inList
    simp only [postEntry, setPos, setNode]
    rcases Nat.lt_succ_iff_lt_or_eq.mp inList with earlier | rfl
    · rw [getElem?_append_left earlier, update_of_ne (by omega)]
      exact valid.pushed offset earlier
    · rw [getElem?_append_right .refl, Nat.sub_self, length, update_self]
      rfl
  · rw [length_append, length_singleton, length]

theorem stepProducer (fits : config.Valid)
    (went : stepProducer config state = some next) : StateValid config next := by
  have producer := valid.producer
  have positive := fits.two_le
  unfold Spsc.stepProducer at went
  split at went
  next => cases went
  next entry id ready =>
    rw [ready] at producer
    cases went
    obtain ⟨newNode, atEnd⟩ := producer
    apply valid.withQueue (valid.queue.setNext_tailPtr (some id)) rfl rfl
    refine ⟨newNode, atEnd, ?_⟩
    simp only [setNext, setNode]
    rw [update_self]
  next entry pc _ running =>
    rw [running] at producer
    obtain ⟨⟨queue, after⟩, moved, rfl⟩ := map_eq_some_iff.mp went
    obtain ⟨newNode, atEnd⟩ := producer
    obtain ⟨queueValid, nextNode⟩ := valid.queue.stepNewNode fits newNode moved
    have frame := valid.queue.stepNewNode_frame fits newNode moved
    exact valid.withQueue queueValid frame.posted frame.tail ⟨nextNode, atEnd.frame frame⟩
  next entry id holding =>
    rw [holding] at producer
    cases went
    obtain ⟨owned, atEnd, linked⟩ := producer
    apply valid.withQueue (valid.queue.setHold _ _) rfl rfl
    refine ⟨owned, atEnd, ?_⟩
    rw [← linked]
    simp only [setHold, setNode]
    by_cases own : state.queue.tailPtr = id
    · rw [own, update_self]
    · rw [update_of_ne own]
  next entry id moving =>
    rw [moving] at producer
    cases went
    obtain ⟨⟨pop, owned⟩, ⟨node, slot, index⟩, linked⟩ := producer
    apply valid.withQueue (valid.queue.appendNode owned linked) rfl rfl
    refine ⟨pop, state.queue.last, Nat.le_succ _, ?_, ?_, index, ?_, ?_⟩
    · rw [node]
      exact (update_of_ne (Nat.ne_of_lt (Nat.lt_succ_self _)) _ _).symm
    · omega
    · simp only [appendNode, Nat.succ_mul]
      omega
    · simp only [appendNode, Nat.succ_mul]
      omega
  next entry writing =>
    rw [writing] at producer
    cases went
    obtain ⟨pop, number, below, node, inside, index, upper, lower⟩ := producer
    have unposted := valid.unposted_tail
    rw [index] at unposted
    have written := valid.queue.writeEntry entry.value (valid.entry_above inside index) below inside
      unposted
    rw [← node] at written
    apply valid.withQueue written rfl rfl
    refine ⟨pop, ⟨number, below, node, inside, index, upper, lower⟩, ?_⟩
    simp only [writeEntry, setNode]
    rw [update_self]
    exact update_self _ _ _
  next entry posting =>
    rw [posting] at producer
    cases went
    obtain ⟨pop, ⟨number, below, node, inside, index, upper, lower⟩, written⟩ := producer
    exact valid.post pop below node inside index upper lower written

theorem step_valid (fits : config.Valid) {action : Action Value}
    (went : step config state action = some next) : StateValid config next := by
  cases action with
  | push value => exact valid.push fits went
  | producer => exact valid.stepProducer fits went
  | malloc id garbage =>
    simp only [step] at went
    split at went
    next entry allocating =>
      have producer := valid.producer
      rw [allocating] at producer
      obtain ⟨queue, allocated, rfl⟩ := map_eq_some_iff.mp went
      obtain ⟨queueValid, nextNode⟩ := valid.queue.allocate fits producer.1 allocated
      have frame := Valid.allocate_frame allocated
      exact valid.withQueue queueValid frame.posted frame.tail ⟨nextNode, producer.2.frame frame⟩
    next => cases went
  | waitEntry =>
    obtain ⟨queue, waited, rfl⟩ := map_eq_some_iff.mp went
    unfold waitEntry at waited
    split at waited
    next idle =>
      split at waited <;> cases waited
      · exact valid
      next found =>
        exact valid.withQueue (valid.queue.startReading fits idle found) rfl rfl
          (valid.producer.frame (.ofCache rfl))
    next => cases waited
  | consumer =>
    obtain ⟨queue, consumed, rfl⟩ := map_eq_some_iff.mp went
    exact valid.consumer fits consumed

theorem popped_prefix : state.queue.popped <+: state.pushed := by
  apply prefix_iff_getElem?.mpr
  intro off inside
  have popped := valid.queue.popped off inside
  have some : (state.queue.posted (off + 1)).isSome := by
    rw [← popped, getElem?_eq_getElem inside]
    rfl
  have bound := ((valid.posted (off + 1)).mp some).2
  have length := valid.length
  rw [valid.pushed off (by omega), ← popped]
  exact getElem?_eq_getElem inside

theorem popped_all (fits : config.Valid) (idle : state.queue.consumer = .idle)
    (empty : scWaitEntry config state.queue = .kQueueEmpty) :
    state.queue.popped = state.pushed := by
  have consumer := valid.queue.consumer
  unfold ConsumerValid at consumer
  rw [idle] at consumer
  obtain ⟨inFirst, count, _⟩ := consumer
  have unposted := (valid.queue.scWaitEntry_iff fits inFirst).mp empty
  have length := valid.length
  have reached : ¬state.queue.head < state.queue.tail := by
    intro more
    have posted := (valid.posted state.queue.head).mpr ⟨by omega, more⟩
    rw [unposted] at posted
    cases posted
  exact valid.popped_prefix.eq_of_length_le (by omega)

variable {id : Nat}

theorem handedOut_owner (handed : handedOut state.producer = some id) :
    state.queue.owner id = .producer := by
  have producer := valid.producer
  cases pc : state.producer with
  | idle | writing | posting =>
    rw [pc] at handed
    cases handed
  | newNode entry newNode =>
    rw [pc] at producer handed
    cases newNode with cases handed
    | clearing | ready => exact producer.1.2
  | holding entry other | moving entry other =>
    rw [pc] at producer handed
    cases handed
    exact producer.1.2

theorem handedOut_unlinked (handed : handedOut state.producer = some id) :
    ¬Linked state.queue id := by
  intro linked
  obtain ⟨n, above, below, rfl⟩ := valid.queue.linked_place linked
  have owned := valid.handedOut_owner handed
  rw [valid.queue.chain n above below] at owned
  cases owned

end StateValid

/-- In every run of one producer and one consumer on a queue whose blocks have been sized
without wrapping: what is popped is a prefix of what is pushed, the queue reports that it is
empty only when all of it has been popped, `NewNode` hands out no node of the chain, and the
entries of the nodes in the cache are unmarked. -/
theorem popped_follows_pushed {nodeSize cacheSize : UInt32} (cacheInit : UInt32)
    {entryBits : Nat} (wide : 2 ≤ nodeSize.toNat)
    (nodes : nodeSize.toNat ≤ 2 ^ (31 - entryBits)) (cache : cacheSize.toNat ≤ 2 ^ 27)
    {garbage : Nat → Node Value} {cachePos : Nat → Int} {cacheBuffer : Nat → Nat}
    {queue : Queue Value} {actions : List (Action Value)} {state : State Value}
    (made : init (create nodeSize cacheSize cacheInit entryBits) garbage cachePos cacheBuffer =
      some queue)
    (ran : execute (step (create nodeSize cacheSize cacheInit entryBits)) { queue } actions =
      some state) : state.queue.popped <+: state.pushed ∧ (state.queue.consumer = .idle →
      scWaitEntry (create nodeSize cacheSize cacheInit entryBits) state.queue = .kQueueEmpty →
        state.queue.popped = state.pushed) ∧
    (∀ id, handedOut state.producer = some id → ¬Linked state.queue id) ∧
    ∀ id ∈ state.queue.cache.contents,
      ∀ slot < (create nodeSize cacheSize cacheInit entryBits).nodeSize,
        (state.queue.nodes id).pos slot = 0 := by
  have configValid := create_valid cacheInit (Nat.max_eq_left wide ▸ nodes) cache
  have valid : StateValid (create nodeSize cacheSize cacheInit entryBits) state :=
    invariant_of_execute (fun valid stepped => valid.step_valid configValid stepped)
      (valid_initial configValid made) ran
  refine ⟨valid.popped_prefix, valid.popped_all configValid, ?_, ?_⟩
  · intro id handed
    exact valid.handedOut_unlinked handed
  · intro id member slot inside
    exact valid.queue.unused id (.inl (valid.queue.cached id member)) slot inside

theorem exists_of_check {actions : List (Action Nat)} {property : State Nat → Prop}
    [DecidablePred property]
    (checked : (init config (fun _ => staleNode) (fun _ => 0) (fun _ => 0)).any (fun queue =>
      (execute (step config) { queue } actions).any fun state => property state) = true) :
    ∃ queue state, init config (fun _ => staleNode) (fun _ => 0) (fun _ => 0) = some queue ∧
      execute (step config) { queue } actions = some state ∧ property state := by
  obtain ⟨queue, made, checked⟩ := (any_eq_true _ _).mp checked
  obtain ⟨state, ran, checked⟩ := (any_eq_true _ _).mp checked
  exact ⟨queue, state, made, ran, of_decide_eq_true checked⟩

/-- With two entries a node: the first node is popped empty, recycled, and taken from the
cache for the third element. -/
def recycledRun : List (Action Nat) := flatten
  [[.push 7], replicate 1 .producer, [.malloc 1 staleNode], replicate 5 .producer,
    [.waitEntry], replicate 7 .consumer, [.push 8], replicate 2 .producer, [.push 9],
    replicate 10 .producer]

theorem recycled_popped_follows_pushed :
    ∃ queue state, init (create 2 2 1 4) (fun _ => staleNode) (fun _ => 0) (fun _ => 0) =
        some queue ∧ execute (step (create 2 2 1 4)) { queue } recycledRun = some state ∧
      state.queue.popped = [7] ∧ state.pushed = [7, 8, 9] ∧
      state.queue.popped <+: state.pushed := by
  obtain ⟨queue, state, made, ran, popped, pushed⟩ := @exists_of_check (create 2 2 1 4)
    recycledRun (fun state => state.queue.popped = [7] ∧ state.pushed = [7, 8, 9]) _
    (by decide +kernel)
  exact ⟨queue, state, made, ran, popped, pushed,
    (popped_follows_pushed 1 (by decide) (by decide) (by decide) made ran).1⟩

/-- `node_size` `2 ^ 31 + 1` is rounded to zero: no entry is cleared, and the consumer of a
queue into which nothing was pushed pops what the memory held. -/
theorem pops_stale_element :
    ∃ queue state, init (create 2147483649 2 0 4) (fun _ => staleNode) (fun _ => 0)
        (fun _ => 0) = some queue ∧
      execute (step (create 2147483649 2 0 4)) { queue } [.waitEntry, .consumer] = some state ∧
      state.queue.popped = [9] ∧ state.pushed = [] ∧ ¬state.queue.popped <+: state.pushed := by
  obtain ⟨queue, state, made, ran, popped, pushed⟩ := @exists_of_check
    (create 2147483649 2 0 4) [.waitEntry, .consumer]
    (fun state => state.queue.popped = [9] ∧ state.pushed = []) _ (by decide +kernel)
  refine ⟨queue, state, made, ran, popped, pushed, ?_⟩
  rw [popped, pushed]
  simp

end AdkAaf.Adk.UnboundedQueue.Spsc
