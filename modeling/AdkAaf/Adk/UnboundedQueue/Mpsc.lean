import AdkAaf.Adk.UnboundedQueue.Nodes

/-! `MPSCUnboundedQueue`: a producer takes its index with a fetch-and-add, waits until the
chain has a node for it, and walks back to that node. The producer of the last index of a
node appends the next one, which no lock guards.

Each action is one access to memory that several threads use. In the appending block each
load of `tail_ptr_` and `tail_threshold_` is one action with the store it serves: only this
block stores to them, and one thread at a time is in it. -/

set_option autoImplicit false

namespace AdkAaf.Adk.UnboundedQueue.Mpsc

open Function

/-- The entry that `MP_AllocEntry` returns, its index, and the element to be stored in
it. -/
structure Entry (Value : Type) where
  node : Nat
  slot : Nat
  index : Nat
  value : Value

/-- `testing` and `walking` are the loads of `node_hold` and `prev` in the search for the
node. A new node in hand, `newNode` makes the store of `node_hold`, and the further
states those of `prev`, `tail_ptr_->next`, `tail_ptr_` and `tail_threshold_`. -/
inductive ProducerPc (Value : Type) where
  | idle
  | waiting (value : Value) (index : Nat)
  | loading (value : Value) (index : Nat)
  | testing (value : Value) (index node : Nat)
  | walking (value : Value) (index node : Nat)
  | newNode (entry : Entry Value) (pc : NewNodePc)
  | backing (entry : Entry Value) (id : Nat)
  | linking (entry : Entry Value) (id : Nat)
  | moving (entry : Entry Value) (id : Nat)
  | raising (entry : Entry Value)
  | writing (entry : Entry Value)
  | posting (entry : Entry Value)

/-- The queue with its producers and, as a history variable, the elements in the order of
their indices. -/
structure State (Value : Type) where
  queue : Queue Value
  producers : Nat → ProducerPc Value := fun _ => .idle
  pushed : List Value := []

inductive Action (Value : Type) where
  | push (thread : Nat) (value : Value)
  | producer (thread : Nat)
  | malloc (thread id : Nat) (garbage : Node Value)
  | waitEntry
  | consumer

section Steps

variable {Value : Type} (config : Config) (state : State Value)

def move (thread : Nat) (queue : Queue Value) (pc : ProducerPc Value) : State Value :=
  { state with queue, producers := update state.producers thread pc }

def foundNode (thread : Nat) (entry : Entry Value) : State Value :=
  if config.IsLast entry.index then
    move state thread (startNewNode state.queue) (.newNode entry .popping)
  else
    move state thread state.queue (.writing entry)

def stepProducer (thread : Nat) : Option (State Value) :=
  let queue := state.queue
  match state.producers thread with
  | .idle => none
  | .waiting value index =>
    if index ≥ queue.tailThreshold then
      some state
    else
      some (move state thread queue (.loading value index))
  | .loading value index => some (move state thread queue (.testing value index queue.tailPtr))
  | .testing value index node =>
    if index < (queue.nodes node).nodeHold then
      some (move state thread queue (.walking value index node))
    else
      some (foundNode config state thread { node, slot := config.slot index, index, value })
  | .walking value index node =>
    (queue.nodes node).prev.map fun prev => move state thread queue (.testing value index prev)
  | .newNode entry (.ready id) =>
    let hold := (queue.nodes queue.tailPtr).nodeHold + config.nodeSize
    some (move state thread (setHold queue id hold) (.backing entry id))
  | .newNode entry pc =>
    (stepNewNode config queue pc).map fun (next, after) =>
      move state thread next (.newNode entry after)
  | .backing entry id =>
    some (move state thread (setPrev queue id queue.tailPtr) (.linking entry id))
  | .linking entry id =>
    some (move state thread (setNext queue queue.tailPtr (some id)) (.moving entry id))
  | .moving entry id => some (move state thread (appendNode queue id) (.raising entry))
  | .raising entry =>
    let raised := { queue with tailThreshold := queue.tailThreshold + config.nodeSize }
    some (move state thread raised (.writing entry))
  | .writing entry =>
    some (move state thread (writeEntry queue entry.node entry.slot entry.value)
      (.posting entry))
  | .posting entry =>
    some (move state thread
      (postEntry queue entry.node entry.slot entry.index entry.value) .idle)

def step : Action Value → Option (State Value)
  | .push thread value =>
    match state.producers thread with
    | .idle =>
      some
        { queue := { state.queue with tail := state.queue.tail + 1 }
          producers := update state.producers thread
            (.waiting value state.queue.tail)
          pushed := state.pushed ++ [value] }
    | _ => none
  | .producer thread => stepProducer config state thread
  | .malloc thread id garbage =>
    match state.producers thread with
    | .newNode entry .allocating =>
      (allocate config state.queue id garbage).map fun next =>
        move state thread next (.newNode entry (.ready id))
    | _ => none
  | .waitEntry =>
    (waitEntry config state.queue).map fun next => { state with queue := next }
  | .consumer =>
    (stepConsumer config state.queue).map fun next => { state with queue := next }

end Steps

variable {Value : Type}

/-- The index that a producer has been given and has not posted, with its element. -/
def assigned : ProducerPc Value → Option (Nat × Value)
  | .idle => none
  | .waiting value index | .loading value index | .testing value index _
  | .walking value index _ => some (index, value)
  | .newNode entry _ | .backing entry _ | .linking entry _ | .moving entry _ | .raising entry
  | .writing entry | .posting entry => some (entry.index, entry.value)

def pending : ProducerPc Value → Option Nat
  | .idle | .raising _ | .writing _ | .posting _ => none
  | .waiting _ index | .loading _ index | .testing _ index _ | .walking _ index _ => some index
  | .newNode entry _ | .backing entry _ | .linking entry _ | .moving entry _ => some entry.index

/-- The block of `MP_AllocEntry` that appends a node. -/
def Appending : ProducerPc Value → Prop
  | .newNode _ _ | .backing _ _ | .linking _ _ | .moving _ _ | .raising _ => True
  | _ => False

variable {config : Config} {state next : State Value} {queue after : Queue Value}
  {pc : ProducerPc Value} {entry : Entry Value}

def InChain (config : Config) (queue : Queue Value) (entry : Entry Value) (number : Nat) : Prop :=
  number ≤ queue.last ∧ entry.node = queue.place number ∧ entry.slot < config.nodeSize ∧
    entry.index = number * config.nodeSize + entry.slot

/-- The entry is the last one of the chain, and of those whose producers have passed the
threshold. -/
def AtEnd (config : Config) (queue : Queue Value) (entry : Entry Value) : Prop :=
  InChain config queue entry queue.last ∧ entry.slot = config.nodeSize - 1 ∧
    entry.index + 1 = queue.tailThreshold

def AtEntry (config : Config) (queue : Queue Value) (entry : Entry Value) : Prop :=
  ∃ number, InChain config queue entry number ∧
    (entry.slot = config.nodeSize - 1 → number < queue.last)

def Numbered (config : Config) (queue : Queue Value) (id : Nat) : Prop :=
  queue.owner id = .producer ∧ (queue.nodes id).nodeHold = (queue.last + 1) * config.nodeSize

def PcValid (config : Config) (queue : Queue Value) : ProducerPc Value → Prop
  | .idle | .waiting _ _ => True
  | .loading _ index => index < queue.tailThreshold
  | .testing _ index node =>
    index < queue.tailThreshold ∧
      ∃ number ≤ queue.last, node = queue.place number ∧
        index < number * config.nodeSize + config.nodeSize
  | .walking _ index node =>
    index < queue.tailThreshold ∧
      ∃ number ≤ queue.last, node = queue.place number ∧ index < number * config.nodeSize
  | .newNode entry pc => AtEnd config queue entry ∧ NewNodeValid queue pc
  | .backing entry id => AtEnd config queue entry ∧ Numbered config queue id
  | .linking entry id =>
    AtEnd config queue entry ∧ Numbered config queue id ∧
      (queue.nodes id).prev = some queue.tailPtr
  | .moving entry id =>
    AtEnd config queue entry ∧ Numbered config queue id ∧
      (queue.nodes id).prev = some queue.tailPtr ∧
        (queue.nodes queue.tailPtr).next = some id
  | .raising entry =>
    entry.index + 1 = queue.tailThreshold ∧ entry.slot = config.nodeSize - 1 ∧
      ∃ number, InChain config queue entry number ∧ number + 1 = queue.last
  | .writing entry => AtEntry config queue entry
  | .posting entry =>
    AtEntry config queue entry ∧ (queue.nodes entry.node).buffer entry.slot = entry.value

/-- `node_hold` and `prev` along the chain. The consumer does not care for them. -/
structure ChainValid (config : Config) (queue : Queue Value) : Prop where
  holds : ∀ number, queue.first ≤ number → number ≤ queue.last →
    (queue.nodes (queue.place number)).nodeHold = number * config.nodeSize
  prevs : ∀ number, queue.first ≤ number → number < queue.last →
    (queue.nodes (queue.place (number + 1))).prev = some (queue.place number)

/-- The indices that have been given to producers, and those that have been posted. -/
structure IndexValid (state : State Value) : Prop where
  length : state.pushed.length + 1 = state.queue.tail
  given : ∀ {thread index value}, assigned (state.producers thread) = some (index, value) →
    1 ≤ index ∧ state.pushed[index - 1]? = some value ∧ state.queue.posted index = none
  posted : ∀ {index value}, state.queue.posted index = some value →
    1 ≤ index ∧ state.pushed[index - 1]? = some value
  complete : ∀ index, 1 ≤ index → index < state.queue.tail →
    (state.queue.posted index).isSome ∨
      ∃ thread value, assigned (state.producers thread) = some (index, value)
  unique : ∀ {thread other index value element},
    assigned (state.producers thread) = some (index, value) →
      assigned (state.producers other) = some (index, element) → thread = other

structure StateValid (config : Config) (state : State Value) : Prop where
  queue : Valid config state.queue
  chain : ChainValid config state.queue
  indices : IndexValid state
  reached : state.queue.last * config.nodeSize ≤ state.queue.tail
  threshold : state.queue.tailThreshold ≤
    state.queue.last * config.nodeSize + config.nodeSize
  pending : ∀ {thread index}, pending (state.producers thread) = some index →
    index % config.nodeSize = config.nodeSize - 1 → state.queue.last * config.nodeSize ≤ index
  threads : ∀ thread, PcValid config state.queue (state.producers thread)

theorem Valid.stateValid (ok : Valid config queue) (initial : Initial config queue) :
    StateValid config { queue } := by
  refine ⟨ok, ⟨?_, ?_⟩, ⟨initial.tail.symm, ?_, ?_, ?_, ?_⟩, ?_, ?_, ?_, fun _ => trivial⟩
  · intro number _ below
    rw [initial.last] at below
    obtain rfl := Nat.eq_zero_of_le_zero below
    have hold := initial.nodeHold
    rw [ok.tailPtr, initial.last] at hold
    rw [Nat.zero_mul]
    exact hold
  · intro number _ below
    rw [initial.last] at below
    exact absurd below (Nat.not_lt_zero _)
  · nofun
  · intro index value posted
    rw [initial.posted] at posted
    cases posted
  · intro index pos below
    rw [initial.tail] at below
    omega
  · nofun
  · rw [initial.last, Nat.zero_mul]
    exact Nat.zero_le _
  · rw [initial.last, initial.tailThreshold]
    omega
  · nofun

theorem valid_initial (fits : config.Valid) {garbage : Nat → Node Value}
    {cachePos : Nat → Int} {cacheBuffer : Nat → Nat}
    (ran : init config garbage cachePos cacheBuffer = some queue) : StateValid config { queue } :=
  Valid.stateValid (valid_init fits ran).1 (valid_init fits ran).2

/-- What the threads outside the appending block rely on. -/
structure OutsideFrame (queue after : Queue Value) : Prop where
  tailThreshold : queue.tailThreshold ≤ after.tailThreshold
  last : queue.last ≤ after.last
  place : ∀ number ≤ queue.last, after.place number = queue.place number

structure BlockFrame (queue after : Queue Value) : Prop where
  tailPtr : after.tailPtr = queue.tailPtr
  tailThreshold : after.tailThreshold = queue.tailThreshold
  last : after.last = queue.last
  place : after.place = queue.place
  pop : after.cache.pop = queue.cache.pop
  fields : ∀ id, (after.nodes id).next = (queue.nodes id).next ∧
    (after.nodes id).prev = (queue.nodes id).prev ∧
      (after.nodes id).nodeHold = (queue.nodes id).nodeHold
  held : ∀ id, queue.owner id = .producer → after.owner id = .producer

theorem BlockFrame.outside (frame : BlockFrame queue after) : OutsideFrame queue after :=
  ⟨frame.tailThreshold.symm.le, frame.last.symm.le,
    fun n _ => congrFun frame.place n⟩

theorem BlockFrame.ofConsumer (frame : ConsumerFrame queue after) : BlockFrame queue after :=
  { frame with
    fields := fun id => ⟨(frame.fields id).1, (frame.fields id).2.1, (frame.fields id).2.2.1⟩ }

theorem InChain.frame {number : Nat} (inChain : InChain config queue entry number)
    (frame : OutsideFrame queue after) : InChain config after entry number := by
  obtain ⟨below, node, inside, i⟩ := inChain
  exact ⟨below.trans frame.last, node.trans (frame.place number below).symm, inside, i⟩

theorem AtEntry.frame (atEntry : AtEntry config queue entry)
    (frame : OutsideFrame queue after) : AtEntry config after entry := by
  obtain ⟨n, inChain, sealed⟩ := atEntry
  exact ⟨n, inChain.frame frame, fun last => (sealed last).trans_le frame.last⟩

theorem AtEnd.frame (atEnd : AtEnd config queue entry) (frame : OutsideFrame queue after)
    (last : after.last = queue.last) (tailThreshold : after.tailThreshold = queue.tailThreshold) :
    AtEnd config after entry := by
  unfold AtEnd
  rw [last, tailThreshold]
  exact ⟨atEnd.1.frame frame, atEnd.2⟩

def BufferKept (queue after : Queue Value) (pc : ProducerPc Value) : Prop :=
  ∀ entry, pc = .posting entry →
    (after.nodes entry.node).buffer entry.slot = (queue.nodes entry.node).buffer entry.slot

theorem PcValid.outside (ok : PcValid config queue pc) (outside : ¬Appending pc)
    (frame : OutsideFrame queue after) (kept : BufferKept queue after pc) :
    PcValid config after pc := by
  cases pc with
  | idle | waiting => trivial
  | loading val i => exact ok.trans_le frame.tailThreshold
  | testing val i node | walking val i node =>
    obtain ⟨passed, number, below, at_, bound⟩ := ok
    exact ⟨passed.trans_le frame.tailThreshold, number,
      below.trans frame.last, at_.trans (frame.place number below).symm, bound⟩
  | writing entry => exact AtEntry.frame ok frame
  | posting entry => exact ⟨ok.1.frame frame, (kept entry rfl).trans ok.2⟩
  | _ => exact absurd trivial outside

theorem Numbered.frame {id : Nat} (numbered : Numbered config queue id)
    (frame : BlockFrame queue after) : Numbered config after id := by
  refine ⟨frame.held id numbered.1, ?_⟩
  rw [frame.last]
  exact (frame.fields id).2.2.trans numbered.2

theorem PcValid.frame (ok : PcValid config queue pc) (frame : BlockFrame queue after)
    (kept : BufferKept queue after pc) : PcValid config after pc := by
  have atEnd : ∀ {entry}, AtEnd config queue entry → AtEnd config after entry :=
    fun atEnd => atEnd.frame frame.outside frame.last frame.tailThreshold
  cases pc with
  | newNode entry pc => exact ⟨atEnd ok.1, ok.2.frame frame.pop frame.held⟩
  | backing entry id => exact ⟨atEnd ok.1, ok.2.frame frame⟩
  | linking entry id =>
    obtain ⟨end_, numbered, back⟩ := ok
    refine ⟨atEnd end_, numbered.frame frame, ?_⟩
    rw [frame.tailPtr]
    exact (frame.fields id).2.1.trans back
  | moving entry id =>
    obtain ⟨end_, numbered, back, linked⟩ := ok
    refine ⟨atEnd end_, numbered.frame frame, ?_, ?_⟩
    · rw [frame.tailPtr]
      exact (frame.fields id).2.1.trans back
    · rw [frame.tailPtr]
      exact (frame.fields _).1.trans linked
  | raising entry =>
    obtain ⟨threshold, slot, number, inChain, last⟩ := ok
    exact ⟨threshold.trans frame.tailThreshold.symm, slot, number, inChain.frame frame.outside,
      last.trans frame.last.symm⟩
  | _ =>
    exact PcValid.outside ok id frame.outside kept

theorem ChainValid.kept (ok : ChainValid config queue) (first : queue.first ≤ after.first)
    (last : after.last = queue.last) (place : after.place = queue.place)
    (fields : ∀ n, queue.first ≤ n → n ≤ queue.last →
      (after.nodes (queue.place n)).nodeHold = (queue.nodes (queue.place n)).nodeHold ∧
        (after.nodes (queue.place n)).prev = (queue.nodes (queue.place n)).prev) :
    ChainValid config after := by
  constructor
  · intro n above below
    rw [last] at below
    rw [place, (fields n (first.trans above) below).1]
    exact ok.holds n (first.trans above) below
  · intro n above below
    have from_ := first.trans above
    rw [last] at below
    rw [place, (fields (n + 1) (Nat.le_succ_of_le from_) below).2]
    exact ok.prevs n from_ below

theorem assigned_of_pending {i : Nat} (waits : pending pc = some i) :
    ∃ val, assigned pc = some (i, val) := by
  cases pc with cases waits
  | waiting val | loading val | testing val | walking val => exact ⟨val, rfl⟩
  | newNode entry | backing entry | linking entry | moving entry => exact ⟨entry.value, rfl⟩

variable {thread : Nat}

theorem assigned_move (same : assigned pc = assigned (state.producers thread)) (other : Nat) :
    assigned ((move state thread queue pc).producers other) = assigned (state.producers other) := by
  simp only [move]
  by_cases own : other = thread
  · rw [own, update_self, same]
  · rw [update_of_ne own]

theorem IndexValid.move (ok : IndexValid state) (tail : queue.tail = state.queue.tail)
    (posted : queue.posted = state.queue.posted)
    (same : assigned pc = assigned (state.producers thread)) :
    IndexValid (move state thread queue pc) := by
  have kept : ∀ other, assigned ((Mpsc.move state thread queue pc).producers other) =
      assigned (state.producers other) := assigned_move same
  refine ⟨ok.length.trans tail.symm, ?_, ?_, ?_, ?_⟩
  · intro other index value held
    rw [kept] at held
    obtain ⟨pos, found, unposted⟩ := ok.given held
    exact ⟨pos, found, (congrFun posted index).trans unposted⟩
  · intro index value found
    exact ok.posted ((congrFun posted index).symm.trans found)
  · intro index pos below
    rcases ok.complete index pos (Nat.lt_of_lt_of_eq below tail) with done | ⟨other, held⟩
    · exact .inl ((congrArg Option.isSome (congrFun posted index)).trans done)
    · refine .inr ⟨other, ?_⟩
      rw [kept]
      exact held
  · intro first second index value element held other
    rw [kept] at held other
    exact ok.unique held other

namespace StateValid

variable (ok : StateValid config state)

include ok

variable {index : Nat} {value : Value}

theorem index_lt_tail (held : assigned (state.producers thread) = some (index, value)) :
    index < state.queue.tail := by
  obtain ⟨pos, found, _⟩ := ok.indices.given held
  obtain ⟨inside, _⟩ := List.getElem?_eq_some_iff.mp found
  have length := ok.indices.length
  omega

variable {number : Nat}

theorem first_le (pos : 0 < config.nodeSize)
    (held : assigned (state.producers thread) = some (index, value))
    (bound : index < number * config.nodeSize + config.nodeSize) : state.queue.first ≤ number := by
  obtain ⟨started, _, unposted⟩ := ok.indices.given held
  have ahead := ok.queue.head_le_of_unposted started unposted
  exact ok.queue.first_le (Nat.sub_one_lt_of_lt pos) (by omega)

theorem entry_above (held : assigned (state.producers thread) = some (entry.index, entry.value))
    (inChain : InChain config state.queue entry number) : state.queue.first ≤ number := by
  obtain ⟨_, _, inside, index⟩ := inChain
  exact ok.first_le (Nat.zero_lt_of_lt inside) held (by omega)

theorem threshold_of_appending (appending : Appending (state.producers thread)) :
    ∃ index value, assigned (state.producers thread) = some (index, value) ∧
      index + 1 = state.queue.tailThreshold := by
  have threadValid := ok.threads thread
  cases pc : state.producers thread with
  | newNode entry | backing entry | linking entry | moving entry =>
    rw [pc] at threadValid
    exact ⟨entry.index, entry.value, rfl, threadValid.1.2.2⟩
  | raising entry =>
    rw [pc] at threadValid
    exact ⟨entry.index, entry.value, rfl, threadValid.1⟩
  | _ =>
    rw [pc] at appending
    exact appending.elim

section

variable (held : assigned (state.producers thread) = some (index, value))
  (last : index + 1 = state.queue.tailThreshold)
include held last

theorem not_appending {other : Nat} (apart : other ≠ thread) :
    ¬Appending (state.producers other) := by
  intro appending
  obtain ⟨otherIndex, element, otherHeld, otherLast⟩ := ok.threshold_of_appending appending
  obtain rfl : index = otherIndex := Nat.succ.inj (last.trans otherLast.symm)
  exact apart (ok.indices.unique otherHeld held)

theorem others (frame : OutsideFrame state.queue queue)
    (kept : ∀ other, BufferKept state.queue queue (state.producers other)) :
    ∀ other, other ≠ thread → PcValid config queue (state.producers other) := fun other apart =>
  (ok.threads other).outside (ok.not_appending held last apart) frame (kept other)

end

theorem kept_newNode (frame : NewNodeFrame state.queue queue) (other : Nat) :
    BufferKept state.queue queue (state.producers other) := by
  intro entry posting
  have threadValid := ok.threads other
  rw [posting] at threadValid
  obtain ⟨⟨number, inChain, _⟩, _⟩ := threadValid
  have above := ok.entry_above (by rw [posting]; rfl) inChain
  have owned := ok.queue.chain number above inChain.1
  rw [inChain.2.1, (frame.chain _ number owned).1]

theorem moveTo (queueValid : Valid config queue) (chain : ChainValid config queue)
    (tail : queue.tail = state.queue.tail) (posted : queue.posted = state.queue.posted)
    (last : queue.last = state.queue.last)
    (threshold : queue.tailThreshold ≤ queue.last * config.nodeSize + config.nodeSize)
    (same : assigned pc = assigned (state.producers thread))
    (fewer : ∀ index, Mpsc.pending pc = some index →
      Mpsc.pending (state.producers thread) = some index) (pcValid : PcValid config queue pc)
    (others : ∀ other, other ≠ thread → PcValid config queue (state.producers other)) :
    StateValid config (move state thread queue pc) := by
  refine ⟨queueValid, chain, ok.indices.move tail posted same, ?_, threshold, ?_, ?_⟩
  · change queue.last * config.nodeSize ≤ queue.tail
    rw [last, tail]
    exact ok.reached
  · intro other index waits isLast
    change queue.last * config.nodeSize ≤ index
    rw [last]
    simp only [move] at waits
    by_cases own : other = thread
    · rw [own, update_self] at waits
      exact ok.pending (fewer index waits) isLast
    · rw [update_of_ne own] at waits
      exact ok.pending waits isLast
  · intro other
    simp only [move]
    by_cases own : other = thread
    · rw [own, update_self]
      exact pcValid
    · rw [update_of_ne own]
      exact others other own

theorem moveThread (same : assigned pc = assigned (state.producers thread))
    (fewer : ∀ index, Mpsc.pending pc = some index →
      Mpsc.pending (state.producers thread) = some index)
    (pcValid : PcValid config state.queue pc) :
    StateValid config (move state thread state.queue pc) :=
  ok.moveTo ok.queue ok.chain rfl rfl rfl ok.threshold same fewer pcValid
    fun other _ => ok.threads other

theorem test {thread value index node} (at_ : state.producers thread = .testing value index node)
    (fits : config.Valid) :
    StateValid config (if index < (state.queue.nodes node).nodeHold then
        move state thread state.queue (.walking value index node)
      else
        foundNode config state thread { node, slot := config.slot index, index, value }) := by
  have positive := fits.two_le
  have threadValid := ok.threads thread
  rw [at_] at threadValid
  obtain ⟨passed, number, below, node_, bound⟩ := threadValid
  have held : assigned (state.producers thread) = some (index, value) := by rw [at_]; rfl
  have above := ok.first_le (by omega) held bound
  rw [node_, ok.chain.holds number above below, ← node_]
  split
  next behind =>
    refine ok.moveThread (by rw [at_]; rfl) (fun _ waits => by rw [at_]; exact waits) ?_
    exact ⟨passed, number, below, node_, behind⟩
  next behind =>
    have whole := Lib.block_add_mod (Nat.le_of_not_lt behind) bound
    have inChain : InChain config state.queue
        { node, slot := config.slot index, index, value } number := by
      refine ⟨below, node_, fits.slot_lt index, ?_⟩
      rw [fits.slot_eq]
      exact whole.symm
    unfold foundNode
    by_cases isLast : config.IsLast index
    · rw [if_pos isLast]
      have remainder := (fits.isLast_iff index).mp isLast
      -- no node has been appended behind that of a last index that is still pending
      have atLast : number = state.queue.last := by
        have reached := ok.pending (by rw [at_]; rfl) remainder
        have order : state.queue.last * config.nodeSize < (number + 1) * config.nodeSize := by
          rw [Nat.succ_mul]
          omega
        exact below.antisymm (Nat.le_of_lt_succ (Nat.lt_of_mul_lt_mul_right order))
      have threshold := ok.threshold
      have last : index + 1 = state.queue.tailThreshold := by
        rw [atLast] at whole
        omega
      refine ok.moveTo ok.queue.startNewNode ?_ rfl rfl rfl threshold (by rw [at_]; rfl)
        (fun _ waits => by rw [at_]; exact waits) ?_ ?_
      · exact ⟨ok.chain.holds, ok.chain.prevs⟩
      · exact ⟨⟨atLast ▸ inChain, (fits.slot_eq index).trans remainder, last⟩, trivial⟩
      · exact ok.others held last ⟨.refl, .refl, fun _ _ => rfl⟩ fun _ _ _ => rfl
    · rw [if_neg isLast]
      refine ok.moveThread (by rw [at_]; rfl) (fun _ waits => by cases waits) ?_
      refine ⟨number, inChain, ?_⟩
      intro slot
      exact absurd ((fits.isLast_iff index).mpr
        ((fits.slot_eq index).symm.trans slot)) isLast

theorem walk {thread value index node prev}
    (at_ : state.producers thread = .walking value index node) (fits : config.Valid)
    (found : (state.queue.nodes node).prev = some prev) :
    StateValid config (move state thread state.queue (.testing value index prev)) := by
  have positive := fits.two_le
  have threadValid := ok.threads thread
  rw [at_] at threadValid
  obtain ⟨passed, number, below, node_, bound⟩ := threadValid
  have held : assigned (state.producers thread) = some (index, value) := by rw [at_]; rfl
  cases number with
  | zero =>
    rw [Nat.zero_mul] at bound
    exact absurd bound (Nat.not_lt_zero _)
  | succ number =>
    rw [Nat.succ_mul] at bound
    have above := ok.first_le (by omega) held bound
    rw [node_, ok.chain.prevs number above below] at found
    refine ok.moveThread (by rw [at_]; rfl) (fun _ waits => by rw [at_]; exact waits) ?_
    exact ⟨passed, number, Nat.le_of_succ_le below, (Option.some.inj found).symm, bound⟩

end StateValid

end AdkAaf.Adk.UnboundedQueue.Mpsc
