import AdkAaf.Adk.UnboundedQueue.Spsc
import Mathlib.Algebra.GroupWithZero.Nat

/-! Random access to an `SPSCUnboundedQueue` and `UnboundedQueueIterator`, used while no call
of the producer or of the consumer is running. `tail_threshold_` is raised by
`MP_AllocEntry` only, and it alone sets `prev`. -/

set_option autoImplicit false

namespace AdkAaf.Adk.UnboundedQueue

open Function Lib Option

section Access

variable {Value : Type} (config : Config) (queue : Queue Value)

def nodeNumber (index : Nat) : Nat :=
  (index - config.slot index) >>> getBits (.ofNat config.nodeSize)

/-- What the accessors return: the address `-1`, null, or that of an entry's buffer. -/
inductive Element where
  | invalid
  | null
  | entry (node slot : Nat)
  deriving DecidableEq

/-- `count` times `next`; `none` is the use of a null pointer. -/
def walk : Nat → Nat → Option Nat
  | 0, id => some id
  | count + 1, id => (queue.nodes id).next.bind (walk count)

def unsafeAbsAt (index : Nat) : Option Element :=
  (walk queue (nodeNumber config index - nodeNumber config queue.head) queue.headPtr).map
    fun id => .entry id (config.slot index)

def elementAbsAt (index : Nat) : Option Element :=
  if index < queue.head then
    some .invalid
  else if index ≥ queue.tailThreshold then
    some .null
  else
    unsafeAbsAt config queue index

def elementAt (index : Nat) : Option Element :=
  if queue.head + index ≥ queue.tail then
    some .null
  else
    unsafeAbsAt config queue (queue.head + index)

/-- `UnboundedQueueIterator`; its other members are those of the queue. -/
structure Iterator where
  index : Nat
  node : Option Nat
  deriving DecidableEq

def begin : Iterator := { index := queue.head, node := some queue.headPtr }

def «end» : Iterator := { index := queue.tail, node := some queue.tailPtr }

variable (iterator : Iterator)

/-- `operator++` -/
def increment : Option Iterator :=
  iterator.node.map fun id =>
    if iterator.index + 1 ≥ (queue.nodes id).nodeHold + config.nodeSize then
      { index := iterator.index + 1, node := (queue.nodes id).next }
    else
      { index := iterator.index + 1, node := some id }

/-- `operator--` -/
def decrement : Option Iterator :=
  iterator.node.map fun id =>
    if iterator.index - 1 < (queue.nodes id).nodeHold then
      { index := iterator.index - 1, node := (queue.nodes id).prev }
    else
      { index := iterator.index - 1, node := some id }

/-- The loop of `operator+=`, cut off after `fuel` nodes. -/
def skipNodes : Nat → Iterator → Option Iterator
  | 0, _ => none
  | fuel + 1, iterator =>
    iterator.node.bind fun id =>
      if iterator.index ≥ (queue.nodes id).nodeHold + config.nodeSize then
        skipNodes fuel { iterator with node := (queue.nodes id).next }
      else
        some iterator

/-- `operator+=` with a count that is not negative. -/
def add (adden : Nat) : Option Iterator :=
  skipNodes config queue (iterator.index + adden + 1)
    { iterator with index := iterator.index + adden }

/-- `operator element_type*` -/
def dereference : Option Element :=
  iterator.node.map fun id =>
    if iterator.index ≥ (queue.nodes id).nodeHold + config.nodeSize then
      .null
    else if (queue.nodes id).pos (config.slot iterator.index) = 0 then
      .null
    else
      .entry id (config.slot iterator.index)

inductive Advance where
  | increment
  | add (adden : Nat)

def Advance.count : Advance → Nat
  | .increment => 1
  | .add adden => adden

def advance : Advance → Option Iterator
  | .increment => increment config queue iterator
  | .add adden => add config queue iterator adden

def moveBack (count : Nat) : Option Iterator :=
  execute (fun iterator () => decrement queue iterator) iterator
    (List.replicate count ())

end Access

theorem Config.Valid.nodeNumber_eq {config : Config} (configValid : config.Valid) (i : Nat) :
    nodeNumber config i = i / config.nodeSize := by
  obtain ⟨exponent, _, upper, size⟩ := configValid.node
  have fits : (UInt32.ofNat config.nodeSize).toNat = 2 ^ exponent := by
    rw [UInt32.toNat_ofNat', size]
    exact Nat.mod_eq_of_lt (Nat.pow_lt_pow_right (by decide) (by omega))
  rw [nodeNumber, getBits_of_pow fits, Nat.shiftRight_eq_div_pow, ← size, configValid.slot_eq]
  have positive := configValid.two_le
  have whole := Nat.div_add_mod i config.nodeSize
  have rest : i - i % config.nodeSize = config.nodeSize * (i / config.nodeSize) := by
    omega
  rw [rest, Nat.mul_div_cancel_left _ (by omega)]

namespace Spsc

variable {Value : Type} {config : Config} {state next : State Value}

/-- `node_hold` along the chain, and `tail_threshold_`. -/
structure NumberValid (config : Config) (state : State Value) : Prop where
  holds : ∀ number, state.queue.first ≤ number → number ≤ state.queue.last →
    (state.queue.nodes (state.queue.place number)).nodeHold = number * config.nodeSize
  moving : ∀ entry id, state.producer = .moving entry id →
    (state.queue.nodes id).nodeHold = (state.queue.last + 1) * config.nodeSize
  threshold : state.queue.tailThreshold = config.nodeSize

namespace NumberValid

theorem initial {queue : Queue Value} (ok : Valid config queue)
    (initial : Initial config queue) : NumberValid config { queue } := by
  refine ⟨?_, ?_, initial.tailThreshold⟩
  · intro number _ below
    rw [initial.last] at below
    obtain rfl := Nat.eq_zero_of_le_zero below
    have hold := initial.nodeHold
    rw [ok.tailPtr, initial.last] at hold
    rw [Nat.zero_mul]
    exact hold
  · nofun

theorem setNode_hold {queue : Queue Value} {id : Nat} {node : Node Value}
    (hold : node.nodeHold = (queue.nodes id).nodeHold) (other : Nat) :
    ((setNode queue id node).nodes other).nodeHold = (queue.nodes other).nodeHold := by
  simp only [setNode]
  by_cases own : other = id
  · rw [own, update_self]
    exact hold
  · rw [update_of_ne own]

variable (ok : NumberValid config state) {queue : Queue Value} {producer : ProducerPc Value}

include ok

variable {pushed : List Value}

theorem kept (first : state.queue.first ≤ queue.first) (last : queue.last = state.queue.last)
    (place : queue.place = state.queue.place)
    (threshold : queue.tailThreshold = state.queue.tailThreshold)
    (holds : ∀ number, state.queue.first ≤ number → number ≤ state.queue.last →
      (queue.nodes (state.queue.place number)).nodeHold =
        (state.queue.nodes (state.queue.place number)).nodeHold)
    (moving : ∀ entry id, producer = .moving entry id →
      (queue.nodes id).nodeHold = (state.queue.last + 1) * config.nodeSize) :
    NumberValid config { queue, producer, pushed } := by
  refine ⟨?_, ?_, threshold.trans ok.threshold⟩
  · intro number above below
    rw [last] at below
    rw [place, holds number (first.trans above) below]
    exact ok.holds number (first.trans above) below
  · intro entry id at_
    rw [last]
    exact moving entry id at_

theorem same (first : queue.first = state.queue.first) (last : queue.last = state.queue.last)
    (place : queue.place = state.queue.place)
    (threshold : queue.tailThreshold = state.queue.tailThreshold)
    (holds : ∀ id, (queue.nodes id).nodeHold = (state.queue.nodes id).nodeHold)
    (outside : ∀ entry id, producer ≠ .moving entry id) :
    NumberValid config { queue, producer, pushed } :=
  ok.kept first.symm.le last place threshold (fun _ _ _ => holds _)
    fun entry id at_ => absurd at_ (outside entry id)

theorem newNode (stateValid : StateValid config state) (frame : NewNodeFrame state.queue queue)
    (outside : ∀ entry id, producer ≠ .moving entry id) :
    NumberValid config { queue, producer, pushed } := by
  refine ok.kept frame.first.symm.le frame.last frame.place frame.tailThreshold ?_
    fun entry id at_ => absurd at_ (outside entry id)
  intro number above below
  rw [(frame.chain _ number (stateValid.queue.chain number above below)).1]

theorem consumer (frame : ConsumerFrame state.queue queue) :
    NumberValid config { state with queue } := by
  refine ok.kept frame.first frame.last frame.place frame.tailThreshold
    (fun number _ _ => (frame.fields _).2.2.1) ?_
  intro entry id at_
  rw [(frame.fields id).2.2.1]
  exact ok.moving entry id at_

theorem stepProducer (fits : config.Valid) (stateValid : StateValid config state)
    (went : stepProducer config state = some next) : NumberValid config next := by
  have producerValid := stateValid.producer
  unfold Spsc.stepProducer at went
  split at went
  next => cases went
  next entry id ready =>
    cases went
    exact ok.same rfl rfl rfl rfl (setNode_hold rfl) (by simp)
  next entry pc _ running =>
    rw [running] at producerValid
    obtain ⟨⟨queue, after⟩, moved, rfl⟩ := map_eq_some_iff.mp went
    exact ok.newNode stateValid
      (stateValid.queue.stepNewNode_frame fits producerValid.1 moved) (by simp)
  next entry id holding =>
    rw [holding] at producerValid
    cases went
    have apart : ∀ number, state.queue.first ≤ number → number ≤ state.queue.last →
        state.queue.place number ≠ id :=
      fun number above below =>
        stateValid.queue.place_ne above below (by simp [producerValid.1.2])
    refine ok.kept .refl rfl rfl rfl ?_ ?_
    · intro number above below
      simp only [setHold, setNode]
      rw [update_of_ne (apart number above below)]
    · intro _ _ at_
      cases at_
      simp only [setHold, setNode, update_self]
      rw [stateValid.queue.tailPtr,
        ok.holds _ stateValid.queue.ordered .refl, Nat.succ_mul]
  next entry id moving =>
    cases went
    have hold := ok.moving entry id moving
    refine ⟨?_, by simp, ok.threshold⟩
    intro number above below
    simp only [appendNode] at above below ⊢
    by_cases new : number = state.queue.last + 1
    · rw [new, update_self]
      exact hold
    · rw [update_of_ne new]
      exact ok.holds number above (by omega)
  next entry writing =>
    cases went
    exact ok.same rfl rfl rfl rfl (setNode_hold rfl) (by simp)
  next entry posting =>
    cases went
    exact ok.same rfl rfl rfl rfl (setNode_hold rfl) (by simp)

theorem step_valid (fits : config.Valid) {action : Action Value}
    (stateValid : StateValid config state) (went : step config state action = some next) :
    NumberValid config next := by
  cases action with
  | push value =>
    simp only [step, push] at went
    split at went
    next =>
      split at went <;> cases went <;>
        exact ok.same rfl rfl rfl rfl (fun _ => rfl) (by simp)
    next => cases went
  | producer => exact ok.stepProducer fits stateValid went
  | malloc id garbage =>
    simp only [step] at went
    split at went
    next entry allocating =>
      obtain ⟨queue, allocated, rfl⟩ := map_eq_some_iff.mp went
      exact ok.newNode stateValid (Valid.allocate_frame allocated) (by simp)
    next => cases went
  | waitEntry =>
    obtain ⟨queue, waited, rfl⟩ := map_eq_some_iff.mp went
    unfold waitEntry at waited
    split at waited
    next => split at waited <;> cases waited <;> exact { ok with }
    next => cases waited
  | consumer =>
    obtain ⟨queue, consumed, rfl⟩ := map_eq_some_iff.mp went
    exact ok.consumer (stateValid.queue.consumerFrame fits consumed)

end NumberValid

structure Quiescent (config : Config) (state : State Value) : Prop where
  configValid : config.Valid
  stateValid : StateValid config state
  numbers : NumberValid config state
  producer : state.producer = .idle
  consumer : state.queue.consumer = .idle

def at_ (config : Config) (state : State Value) (index : Nat) : Iterator :=
  { index, node := some (state.queue.place (index / config.nodeSize)) }

namespace Quiescent

variable (quiescent : Quiescent config state)

include quiescent

theorem counts : state.queue.popped.length + 1 = state.queue.head ∧ InFirst config state.queue := by
  have consumer := quiescent.stateValid.queue.consumer
  rw [ConsumerValid, quiescent.consumer] at consumer
  exact ⟨consumer.2.1, consumer.1⟩

theorem number_head : state.queue.head / config.nodeSize = state.queue.first := by
  obtain ⟨lower, upper⟩ := quiescent.counts.2
  rw [Nat.div_eq_iff (Nat.two_pos.trans_le quiescent.configValid.two_le)]
  omega

theorem number_tail : state.queue.tail / config.nodeSize = state.queue.last := by
  have producer := quiescent.stateValid.producer
  rw [quiescent.producer] at producer
  rw [Nat.div_eq_iff (Nat.two_pos.trans_le quiescent.configValid.two_le)]
  have bounds := producer.2
  omega

variable {index : Nat}

theorem number_mem (above : state.queue.head ≤ index) (below : index ≤ state.queue.tail) :
    state.queue.first ≤ index / config.nodeSize ∧ index / config.nodeSize ≤ state.queue.last := by
  constructor
  · rw [← quiescent.number_head]
    exact Nat.div_le_div_right above
  · rw [← quiescent.number_tail]
    exact Nat.div_le_div_right below

theorem hold (above : state.queue.head ≤ index) (below : index ≤ state.queue.tail) :
    (state.queue.nodes (state.queue.place (index / config.nodeSize))).nodeHold =
      index / config.nodeSize * config.nodeSize :=
  have inside := quiescent.number_mem above below
  quiescent.numbers.holds _ inside.1 inside.2

theorem begin_eq : begin state.queue = at_ config state state.queue.head := by
  rw [begin, at_, quiescent.number_head, quiescent.stateValid.queue.headPtr]

theorem end_eq : «end» state.queue = at_ config state state.queue.tail := by
  rw [«end», at_, quiescent.number_tail, quiescent.stateValid.queue.tailPtr]

theorem entry (above : state.queue.head ≤ index) (below : index < state.queue.tail) :
    let node := state.queue.nodes (state.queue.place (index / config.nodeSize))
    node.pos (config.slot index) = index ∧
      state.pushed[index - 1]? = some (node.buffer (config.slot index)) := by
  have inside := quiescent.number_mem above below.le
  have positive : 1 ≤ index := by
    have count := quiescent.counts.1
    omega
  have length := quiescent.stateValid.length
  obtain ⟨value, posted⟩ := isSome_iff_exists.mp
    ((quiescent.stateValid.posted index).mpr ⟨positive, below⟩)
  have entry := (quiescent.stateValid.queue.entries _ (config.slot index) inside.1 inside.2
    (quiescent.configValid.slot_lt index)).1 value
  rw [quiescent.configValid.slot_eq, Nat.mul_comm, Nat.div_add_mod] at entry
  obtain ⟨pos, buffer⟩ := entry above posted
  rw [← quiescent.configValid.slot_eq] at pos buffer
  refine ⟨pos, ?_⟩
  rw [quiescent.stateValid.pushed _ (by omega), Nat.sub_add_cancel positive, posted, buffer]

omit quiescent in
theorem of_execute {nodeSize cacheSize cacheInit : UInt32} {entryBits : Nat}
    (nodes : max nodeSize.toNat 2 ≤ 2 ^ (31 - entryBits)) (cache : cacheSize.toNat ≤ 2 ^ 27)
    {garbage : Nat → Node Value} {cachePos : Nat → Int} {cacheBuffer : Nat → Nat}
    {queue : Queue Value} {actions : List (Action Value)}
    (made : init (create nodeSize cacheSize cacheInit entryBits) garbage cachePos cacheBuffer =
      some queue)
    (ran : execute (step (create nodeSize cacheSize cacheInit entryBits)) { queue } actions =
      some state) (producer : state.producer = .idle) (consumer : state.queue.consumer = .idle) :
    Quiescent (create nodeSize cacheSize cacheInit entryBits) state := by
  have configValid := create_valid cacheInit nodes cache
  obtain ⟨ok, initial⟩ := valid_init configValid made
  obtain ⟨stateValid, numbers⟩ := @Lib.invariant_of_execute _ _ _
    (fun state => StateValid (create nodeSize cacheSize cacheInit entryBits) state ∧
      NumberValid (create nodeSize cacheSize cacheInit entryBits) state)
    (fun both went => ⟨both.1.step_valid configValid went,
      both.2.step_valid configValid both.1 went⟩)
    _ _ _ (And.intro (Valid.stateValid configValid ok initial)
      (NumberValid.initial ok initial)) ran
  exact ⟨configValid, stateValid, numbers, producer, consumer⟩

theorem walk_eq (count : Nat) {n : Nat} (above : state.queue.first ≤ n)
    (below : n + count ≤ state.queue.last) :
    walk state.queue count (state.queue.place n) =
      some (state.queue.place (n + count)) := by
  induction count generalizing n with
  | zero => rfl
  | succ count ih =>
    rw [walk, quiescent.stateValid.queue.links n above (by omega), bind_some,
      ih (Nat.le_succ_of_le above) (by omega), Nat.succ_add_eq_add_succ]

theorem unsafeAbsAt_eq (above : state.queue.head ≤ index)
    (below : index / config.nodeSize ≤ state.queue.last) : unsafeAbsAt config state.queue index =
      some (.entry (state.queue.place (index / config.nodeSize)) (config.slot index)) := by
  have after : state.queue.first ≤ index / config.nodeSize := by
    rw [← quiescent.number_head]
    exact Nat.div_le_div_right above
  rw [unsafeAbsAt, quiescent.configValid.nodeNumber_eq, quiescent.configValid.nodeNumber_eq,
    quiescent.number_head, quiescent.stateValid.queue.headPtr,
    quiescent.walk_eq _ .refl (by omega), Nat.add_sub_cancel' after]
  rfl

end Quiescent

/-- Both accessors return the element pushed under the index, or, where there is none,
`ElementAbsAt` returns null. -/
def Agrees (config : Config) (state : State Value) (index : Nat) : Prop :=
  if index < state.queue.tail then
    ∃ node slot, elementAbsAt config state.queue index = some (.entry node slot) ∧
      elementAt config state.queue (index - state.queue.head) = some (.entry node slot) ∧
      state.pushed[index - 1]? = some ((state.queue.nodes node).buffer slot)
  else
    elementAbsAt config state.queue index = some .null

/-- In every state between calls that a run reaches, `ElementAbsAt` agrees with the elements
pushed exactly at the indices for which `tail_` and `node_size_` are the same bound. -/
theorem elementAbsAt_agrees_iff {nodeSize cacheSize cacheInit : UInt32} {entryBits : Nat}
    (nodes : max nodeSize.toNat 2 ≤ 2 ^ (31 - entryBits)) (cache : cacheSize.toNat ≤ 2 ^ 27)
    {garbage : Nat → Node Value} {cachePos : Nat → Int} {cacheBuffer : Nat → Nat}
    {queue : Queue Value} {actions : List (Action Value)} {state : State Value}
    (made : init (create nodeSize cacheSize cacheInit entryBits) garbage cachePos cacheBuffer =
      some queue)
    (ran : execute (step (create nodeSize cacheSize cacheInit entryBits)) { queue } actions =
      some state)
    (producer : state.producer = .idle) (consumer : state.queue.consumer = .idle) {index : Nat}
    (above : state.queue.head ≤ index) :
    Agrees (create nodeSize cacheSize cacheInit entryBits) state index ↔ (index < state.queue.tail ↔
        index < (create nodeSize cacheSize cacheInit entryBits).nodeSize) := by
  have quiescent := Quiescent.of_execute nodes cache made ran producer consumer
  have ahead := quiescent.stateValid.head_le_tail
  unfold Agrees elementAbsAt
  rw [if_neg (Nat.not_lt_of_le above), quiescent.numbers.threshold]
  split
  next pushed =>
    simp only [pushed, true_iff]
    constructor
    · rintro ⟨node, slot, found, _⟩
      refine Nat.lt_of_not_le fun beyond => ?_
      rw [if_pos beyond] at found
      cases found
    · intro inside
      have inChain := (quiescent.number_mem above pushed.le).2
      have found := quiescent.unsafeAbsAt_eq above inChain
      refine ⟨_, _, ?_, ?_, (quiescent.entry above pushed).2⟩
      · rw [if_neg (Nat.not_le_of_lt inside)]
        exact found
      · rw [elementAt, Nat.add_sub_cancel' above, if_neg (Nat.not_le_of_lt pushed)]
        exact found
  next pushed =>
    simp only [pushed, false_iff]
    by_cases beyond : index ≥ (create nodeSize cacheSize cacheInit entryBits).nodeSize
    · rw [if_pos beyond]
      exact ⟨fun _ => Nat.not_lt_of_le beyond, fun _ => rfl⟩
    · rw [if_neg beyond, quiescent.unsafeAbsAt_eq above]
      · simp [Nat.lt_of_not_le beyond]
      · rw [Nat.div_eq_of_lt (Nat.lt_of_not_le beyond)]
        exact Nat.zero_le _

theorem oneElement_agrees : ∃ queue state,
      init (create 4 2 0 4) (fun _ => staleNode) (fun _ => 0) (fun _ => 0) = some queue ∧
      execute (step (create 4 2 0 4)) { queue } [.push 7, .producer, .producer] =
        some state ∧ Agrees (create 4 2 0 4) state 1 := by
  obtain ⟨queue, state, made, ran, producer, consumer, above, below⟩ := @exists_of_check
    (create 4 2 0 4) [.push 7, .producer, .producer]
    (fun state => state.producer = .idle ∧ state.queue.consumer = .idle ∧
      state.queue.head ≤ 1 ∧ 1 < state.queue.tail) _ (by decide +kernel)
  exact ⟨queue, state, made, ran,
    (elementAbsAt_agrees_iff (by decide) (by decide) made ran producer consumer above).mpr
      ⟨fun _ => by decide, fun _ => below⟩⟩

def pushTwo : List (Action Nat) := List.flatten
  [[.push 7, .producer, .malloc 1 staleNode], List.replicate 5 .producer,
    [.push 8, .producer, .producer]]

theorem elementAbsAt_misses_second : ∃ queue state,
      init (create 2 2 0 4) (fun _ => staleNode) (fun _ => 0) (fun _ => 0) = some queue ∧
      execute (step (create 2 2 0 4)) { queue } pushTwo = some state ∧
      state.producer = .idle ∧ state.queue.consumer = .idle ∧ state.queue.head = 1 ∧
      state.queue.tail = 3 ∧ state.pushed = [7, 8] ∧
      elementAbsAt (create 2 2 0 4) state.queue 2 = some .null :=
  exists_of_check (by decide +kernel)

namespace Quiescent

variable (quiescent : Quiescent config state)

include quiescent

variable {index : Nat}

theorem increment_eq (above : state.queue.head ≤ index) (below : index < state.queue.tail) :
    increment config state.queue (at_ config state index) =
      some (at_ config state (index + 1)) := by
  have positive := quiescent.configValid.two_le
  have inside := quiescent.number_mem above below.le
  have further := quiescent.number_mem (Nat.le_succ_of_le above) below
  have whole := Nat.div_add_mod' index config.nodeSize
  have remainder := Nat.mod_lt index (Nat.two_pos.trans_le positive)
  rw [increment, at_, map_some, quiescent.hold above below.le]
  dsimp only
  split
  next reached =>
    have number : (index + 1) / config.nodeSize = index / config.nodeSize + 1 := by
      rw [Nat.div_eq_iff (Nat.two_pos.trans_le positive), Nat.succ_mul]
      omega
    rw [number] at further
    rw [quiescent.stateValid.queue.links _ inside.1 further.2, at_, number]
  next inner =>
    have number : (index + 1) / config.nodeSize = index / config.nodeSize := by
      rw [Nat.div_eq_iff (Nat.two_pos.trans_le positive)]
      omega
    rw [at_, number]

theorem skipNodes_eq (fuel : Nat) {number : Nat} (above : state.queue.first ≤ number)
    (reach : number ≤ index / config.nodeSize)
    (inChain : index / config.nodeSize ≤ state.queue.last)
    (enough : index / config.nodeSize < number + fuel) :
    skipNodes config state.queue fuel { index, node := some (state.queue.place number) } =
      some (at_ config state index) := by
  have positive := quiescent.configValid.two_le
  induction fuel generalizing number with
  | zero => omega
  | succ fuel ih =>
    rw [skipNodes, bind_some, quiescent.numbers.holds number above (by omega),
      ← Nat.succ_mul]
    split
    next further =>
      have later : number + 1 ≤ index / config.nodeSize :=
        (Nat.le_div_iff_mul_le (by omega)).mpr further
      rw [quiescent.stateValid.queue.links number above (by omega)]
      exact ih (Nat.le_succ_of_le above) later (by omega)
    next stays =>
      have same : number = index / config.nodeSize := by
        have bound : index / config.nodeSize < number + 1 :=
          (Nat.div_lt_iff_lt_mul (by omega)).mpr (Nat.lt_of_not_le stays)
        omega
      rw [same, at_]

theorem add_eq {adden : Nat} (above : state.queue.head ≤ index)
    (below : index + adden ≤ state.queue.tail) :
    add config state.queue (at_ config state index) adden =
      some (at_ config state (index + adden)) := by
  have inside := quiescent.number_mem above (by omega)
  have further := quiescent.number_mem (Nat.le_add_right_of_le above) below
  have bound := Nat.div_le_self (index + adden) config.nodeSize
  exact quiescent.skipNodes_eq _ inside.1 (Nat.div_le_div_right (Nat.le_add_right _ _)) further.2
    (by dsimp only [at_]; omega)

theorem advance_eq (moves : List Advance) (above : state.queue.head ≤ index)
    (below : index + (moves.map Advance.count).sum ≤ state.queue.tail) :
    execute (advance config state.queue) (at_ config state index) moves =
      some (at_ config state (index + (moves.map Advance.count).sum)) := by
  induction moves generalizing index with
  | nil => rfl
  | cons move moves ih =>
    rw [List.map_cons, List.sum_cons, ← Nat.add_assoc] at below ⊢
    have moved : advance config state.queue (at_ config state index) move =
        some (at_ config state (index + move.count)) := by
      cases move with
      | increment =>
        exact quiescent.increment_eq above (by simp only [Advance.count] at below; omega)
      | add adden => exact quiescent.add_eq above (by simp only [Advance.count] at below ⊢; omega)
    exact execute_cons.mpr ⟨_, moved, ih (Nat.le_add_right_of_le above) below⟩

theorem dereference_eq (above : state.queue.head ≤ index) (below : index < state.queue.tail) :
    dereference config state.queue (at_ config state index) =
      some (.entry (state.queue.place (index / config.nodeSize)) (config.slot index)) := by
  have positive := quiescent.configValid.two_le
  have whole := Nat.div_add_mod' index config.nodeSize
  have remainder := Nat.mod_lt index (Nat.two_pos.trans_le positive)
  have count := quiescent.counts.1
  rw [dereference, at_, map_some, quiescent.hold above below.le]
  dsimp only
  rw [if_neg (by omega), (quiescent.entry above below).1, if_neg (by omega)]

theorem decrement_eq (above : state.queue.head ≤ index) (below : index < state.queue.tail)
    (linked : ∀ number, (number + 1) * config.nodeSize = index + 1 →
      (state.queue.nodes (state.queue.place (number + 1))).prev = some (state.queue.place number)) :
    decrement state.queue (at_ config state (index + 1)) = some (at_ config state index) := by
  have positive := quiescent.configValid.two_le
  have whole := Nat.div_add_mod' (index + 1) config.nodeSize
  have remainder := Nat.mod_lt (index + 1) (Nat.two_pos.trans_le positive)
  have further : state.queue.head ≤ index + 1 := Nat.le_succ_of_le above
  rw [decrement, at_, map_some, quiescent.hold further below]
  rw [Nat.add_sub_cancel]
  split
  next crossed =>
    obtain ⟨number, same⟩ : ∃ number, (index + 1) / config.nodeSize = number + 1 := by
      refine Nat.exists_eq_succ_of_ne_zero fun zero => ?_
      rw [zero, Nat.zero_mul] at crossed
      exact absurd crossed (Nat.not_lt_zero _)
    rw [same] at crossed whole ⊢
    have boundary : (number + 1) * config.nodeSize = index + 1 := by omega
    rw [linked number boundary, at_]
    rw [Nat.succ_mul] at boundary
    have before : index / config.nodeSize = number := by
      rw [Nat.div_eq_iff (Nat.two_pos.trans_le positive)]
      omega
    rw [before]
  next inner =>
    have before : index / config.nodeSize = (index + 1) / config.nodeSize := by
      rw [Nat.div_eq_iff (Nat.two_pos.trans_le positive)]
      omega
    rw [at_, before]

theorem moveBack_eq (count : Nat) (above : state.queue.head ≤ index)
    (below : index + count ≤ state.queue.tail)
    (linked : ∀ number, index < (number + 1) * config.nodeSize →
      (number + 1) * config.nodeSize ≤ index + count →
        (state.queue.nodes (state.queue.place (number + 1))).prev =
          some (state.queue.place number)) :
    moveBack state.queue (at_ config state (index + count)) count =
      some (at_ config state index) := by
  induction count with
  | zero => rfl
  | succ count ih =>
    have went : decrement state.queue (at_ config state (index + count + 1)) =
        some (at_ config state (index + count)) := by
      apply quiescent.decrement_eq (by omega) (by omega)
      intro number boundary
      exact linked number (by omega) (by omega)
    exact execute_cons.mpr ⟨_, went,
      ih (by omega) fun number lower upper => linked number lower (by omega)⟩

end Quiescent

/-- Moving `Begin` forward by any `++` and `+=` visits the elements that are queued and
reaches `End`; as many `--` lead back to `Begin`, if the nodes that they leave hold the
address of the node before them in `prev`. -/
theorem iterator_walks {nodeSize cacheSize cacheInit : UInt32} {entryBits : Nat}
    (nodes : max nodeSize.toNat 2 ≤ 2 ^ (31 - entryBits)) (cache : cacheSize.toNat ≤ 2 ^ 27)
    {garbage : Nat → Node Value} {cachePos : Nat → Int} {cacheBuffer : Nat → Nat}
    {queue : Queue Value} {actions : List (Action Value)} {state : State Value}
    (made : init (create nodeSize cacheSize cacheInit entryBits) garbage cachePos cacheBuffer =
      some queue)
    (ran : execute (step (create nodeSize cacheSize cacheInit entryBits)) { queue } actions =
      some state) (producer : state.producer = .idle) (consumer : state.queue.consumer = .idle)
    {moves : List Advance} (inside : (moves.map Advance.count).sum ≤
      (state.pushed.drop state.queue.popped.length).length) :
    ∃ iterator, execute (advance (create nodeSize cacheSize cacheInit entryBits) state.queue)
        (begin state.queue) moves = some iterator ∧
      (∀ value, (state.pushed.drop state.queue.popped.length)[(moves.map Advance.count).sum]? =
        some value → ∃ node slot,
          dereference (create nodeSize cacheSize cacheInit entryBits) state.queue iterator =
            some (.entry node slot) ∧ (state.queue.nodes node).buffer slot = value) ∧
      ((moves.map Advance.count).sum = (state.pushed.drop state.queue.popped.length).length →
        iterator = «end» state.queue) ∧ ((∀ number, state.queue.head <
            (number + 1) * (create nodeSize cacheSize cacheInit entryBits).nodeSize →
        (number + 1) * (create nodeSize cacheSize cacheInit entryBits).nodeSize ≤
            state.queue.head + (moves.map Advance.count).sum →
          (state.queue.nodes (state.queue.place (number + 1))).prev =
            some (state.queue.place number)) →
        moveBack state.queue iterator (moves.map Advance.count).sum =
          some (begin state.queue)) := by
  have quiescent := Quiescent.of_execute nodes cache made ran producer consumer
  have count := quiescent.counts.1
  have length := quiescent.stateValid.length
  rw [List.length_drop] at inside ⊢
  have reach : state.queue.head + (moves.map Advance.count).sum ≤ state.queue.tail := by
    have ahead := quiescent.stateValid.head_le_tail
    omega
  rw [quiescent.begin_eq, quiescent.end_eq]
  refine ⟨_, quiescent.advance_eq moves .refl reach, ?_, ?_, ?_⟩
  · intro value found
    rw [List.getElem?_drop] at found
    have pushed := (List.getElem?_eq_some_iff.mp found).1
    have below : state.queue.head + (moves.map Advance.count).sum < state.queue.tail := by omega
    refine ⟨_, _, quiescent.dereference_eq (Nat.le_add_right _ _) below, ?_⟩
    have entry := (quiescent.entry (Nat.le_add_right _ _) below).2
    rw [← count, Nat.add_right_comm, Nat.add_sub_cancel, found] at entry
    rw [← count, Nat.add_right_comm]
    exact (some.inj entry).symm
  · intro all
    rw [all]
    congr 1
    omega
  · intro linked
    exact quiescent.moveBack_eq _ .refl reach linked

/-- As `pushTwo`, where the block of the second node holds the address of the first. -/
def pushTwoLinked : List (Action Nat) := List.flatten
  [[.push 7, .producer, .malloc 1 { staleNode with prev := some 0 }],
    List.replicate 5 .producer, [.push 8, .producer, .producer]]

theorem twoNodes_walks : ∃ queue state iterator,
      init (create 2 2 0 4) (fun _ => staleNode) (fun _ => 0) (fun _ => 0) = some queue ∧
      execute (step (create 2 2 0 4)) { queue } pushTwoLinked = some state ∧
      execute (advance (create 2 2 0 4) state.queue) (begin state.queue) [.increment, .add 1] =
        some iterator ∧ iterator = «end» state.queue ∧
      moveBack state.queue iterator 2 = some (begin state.queue) := by
  obtain ⟨queue, state, made, ran, producer, consumer, length, head, linked⟩ := @exists_of_check
    (create 2 2 0 4) pushTwoLinked
    (fun state => state.producer = .idle ∧ state.queue.consumer = .idle ∧
      (state.pushed.drop state.queue.popped.length).length = 2 ∧ state.queue.head = 1 ∧
      (state.queue.nodes (state.queue.place 1)).prev = some (state.queue.place 0)) _
    (by decide +kernel)
  obtain ⟨iterator, moved, _, ends, back⟩ := @iterator_walks _ _ _ _ _ (by decide) (by decide) _ _
    _ _ _ _ made ran producer consumer [.increment, .add 1] length.ge
  refine ⟨queue, state, iterator, made, ran, moved, ends length.symm, back ?_⟩
  intro number _ upper
  rw [head] at upper
  have small : (number + 1) * 2 ≤ 3 := upper
  obtain rfl : number = 0 := by omega
  exact linked

theorem decrement_leaves_chain :
    ∃ queue state,
      init (create 2 2 0 4) (fun _ => staleNode) (fun _ => 0) (fun _ => 0) = some queue ∧
      execute (step (create 2 2 0 4)) { queue } pushTwo = some state ∧
      state.producer = .idle ∧ state.queue.consumer = .idle ∧ state.pushed = [7, 8] ∧
      state.queue.popped = [] ∧
      ∃ iterator, execute (advance (create 2 2 0 4) state.queue) (begin state.queue)
          [.increment] = some iterator ∧
        moveBack state.queue iterator 1 = some { index := 1, node := none } ∧
        begin state.queue = { index := 1, node := some 0 } := by
  obtain ⟨queue, state, made, ran, producer, consumer, pushed, popped, start, checked⟩ :=
    @exists_of_check (create 2 2 0 4) pushTwo
      (fun state => state.producer = .idle ∧ state.queue.consumer = .idle ∧
        state.pushed = [7, 8] ∧ state.queue.popped = [] ∧
        begin state.queue = { index := 1, node := some 0 } ∧
        (execute (advance (create 2 2 0 4) state.queue) (begin state.queue)
          [.increment]).any fun iterator => moveBack state.queue iterator 1 =
            some { index := 1, node := none }) _ (by decide +kernel)
  obtain ⟨iterator, moved, back⟩ := (any_eq_true _ _).mp checked
  exact ⟨queue, state, made, ran, producer, consumer, pushed, popped, iterator, moved,
    of_decide_eq_true back, start⟩

end Spsc

end AdkAaf.Adk.UnboundedQueue
