import AdkAaf.Adk.UnboundedStreamBuffer.Contract

/-! The limit of `UnboundedStreamBuffer` on its nodes. `ReachLimit` counts a node as in use
until `DeleteStreamNode`, also while it waits in `cache_node_` or in `unused_cache_nodes_`,
so the limit must have room for the nodes that these hold. -/

set_option autoImplicit false

namespace AdkAaf.Adk.UnboundedStreamBuffer

open Lib QueueVariant Option List

variable {config : Config} {state next : State}

/-- Runs of `Push`, `WaitBuffer` and `FreeBuffer`. -/
def Streaming (config : Config) (state : State) (action : Action) : Prop :=
  Allowed config state action ∧
    match action with
    | .allocateBuffer _ | .write _ _ | .postBuffer _ => False
    | .push _ | .producer | .malloc _ _ | .waitBuffer | .consumer | .freeBuffer _ => True

instance : ∀ action, Decidable (Streaming config state action)
  | .allocateBuffer _ | .write _ _ | .postBuffer _ => isFalse And.right
  | .push _ | .producer | .malloc _ _ | .waitBuffer | .consumer | .freeBuffer _ =>
    inferInstanceAs (Decidable (_ ∧ True))

def pendingCall : ProducerPc → Option Call
  | .limiting call | .loading call | .taking call _ | .popping call | .allocating call
  | .resetting call _ | .linking call _ => some call
  | .idle | .copying _ _ _ _ => none

def heldByProducer : ProducerPc → Nat
  | .resetting _ _ | .linking _ _ => 1
  | _ => 0

def heldByConsumer : ConsumerPc → Nat
  | .advancing _ | .recycling _ | .caching _ | .deleting _ | .releasing _ => 1
  | _ => 0

def outside (state : State) : Nat :=
  state.consumer.freeNr + state.cacheNode.toList.length + state.cache.contents.length +
    heldByProducer state.producer.pc + heldByConsumer state.consumer.pc

def Filling (pc : ProducerPc) : Prop :=
  ∃ data done count copied, pc = .copying data done count copied ∧ 0 < count

structure Streams (state : State) : Prop where
  counted : state.producer.allocateNr + state.chain.first =
    state.chain.last + 1 + outside state
  filled : 0 < state.chain.last →
    state.chain.base state.chain.last < state.chain.accepted.length ∨ Filling state.producer.pc
  calls : ∀ call, pendingCall state.producer.pc = some call →
    ∃ data done, call = .push data done ∧ done < data.length
  popping : ∀ call, state.producer.pc = .popping call → state.cache.pop ≠ .idle

/-- What the consumer leaves of what the producer and the count rely on. -/
structure ConsumerKept (state next : State) : Prop where
  producer : next.producer = state.producer
  last : next.chain.last = state.chain.last
  base : next.chain.base = state.chain.base
  accepted : next.chain.accepted = state.chain.accepted
  pop : next.cache.pop = state.cache.pop
  freeNr : state.consumer.freeNr ≤ next.consumer.freeNr
  count : outside next + state.chain.first = outside state + next.chain.first

theorem ConsumerKept.ofConsumer {consumer : Consumer} {freed : List UInt8} {waits : Nat}
    (freeNr : consumer.freeNr = state.consumer.freeNr)
    (held : heldByConsumer consumer.pc = heldByConsumer state.consumer.pc) :
    ConsumerKept state { state with consumer, freed, waits } := by
  refine ⟨rfl, rfl, rfl, rfl, rfl, freeNr.symm.le, ?_⟩
  simp [outside, freeNr, held]

theorem waitBuffer_kept (idle : state.consumer.pc = .idle) :
    ConsumerKept state (waitBuffer state) := by
  unfold waitBuffer
  dsimp only
  split
  · exact .ofConsumer rfl (congrArg heldByConsumer idle).symm
  · split <;> exact .ofConsumer rfl (congrArg heldByConsumer idle).symm

theorem consumer_kept (valid : Valid config state) (fits : config.Valid)
    (went : stepConsumer config state = some next) : ConsumerKept state next := by
  have consumer := valid.consumer
  unfold ConsumerValid at consumer
  unfold stepConsumer at went
  dsimp only at went
  split at went
  next => cases went
  next at_ =>
    split at went <;> cases went <;> exact .ofConsumer rfl (by rw [at_]; rfl)
  next at_ =>
    split at went <;> cases went <;> exact .ofConsumer rfl (by rw [at_]; rfl)
  next at_ =>
    split at went <;> cases went <;> exact .ofConsumer rfl (by rw [at_]; rfl)
  next at_ =>
    split at went <;> cases went <;> exact .ofConsumer rfl (by rw [at_]; rfl)
  next at_ =>
    cases went
    exact .ofConsumer rfl (by rw [at_]; rfl)
  next at_ =>
    obtain ⟨id, found, rfl⟩ := map_eq_some_iff.mp went
    rw [if_neg (valid.follow at_ found).1]
    exact .ofConsumer rfl (by rw [at_]; rfl)
  next at_ =>
    obtain ⟨id, found, rfl⟩ := map_eq_some_iff.mp went
    refine ⟨rfl, rfl, rfl, rfl, rfl, .refl, ?_⟩
    simp only [outside, at_, heldByConsumer, Chain.leave]
    omega
  next id copied at_ =>
    split at went <;> cases went
    · refine ⟨rfl, rfl, rfl, rfl, rfl, .refl, ?_⟩
      simp [outside, at_, heldByConsumer, moveConsumer, Chain.store, Chain.setNode]
    · refine ⟨rfl, rfl, rfl, rfl, rfl, .refl, ?_⟩
      simp only [outside, at_, heldByConsumer, Chain.leave]
      omega
  next id at_ =>
    cases went
    exact .ofConsumer rfl (by rw [at_]; rfl)
  next id at_ =>
    split at went <;> cases went
    · exact .ofConsumer rfl (by rw [at_]; rfl)
    · refine ⟨rfl, rfl, rfl, rfl, rfl, .refl, ?_⟩
      simp [outside, at_, heldByConsumer, moveConsumer, Ring.startPush]
  next id at_ =>
    cases went
    rw [at_] at consumer
    obtain ⟨_, _, _, empty⟩ := consumer
    refine ⟨rfl, rfl, rfl, rfl, rfl, .refl, ?_⟩
    simp only [outside, at_, heldByConsumer, returnBuffer, empty, Chain.setOwner,
      toList_none, toList_some, length_nil, length_singleton]
    omega
  next id at_ =>
    split at went <;> cases went
    next cache pushed =>
      obtain ⟨_, pop, contents, _⟩ := Ring.stepPush_spec fits.cache valid.cache.ring pushed
      refine ⟨rfl, rfl, rfl, rfl, pop, .refl, ?_⟩
      simp [outside, contents]
    next cache pushed =>
      obtain ⟨_, pop, contents, _⟩ := Ring.stepPush_spec fits.cache valid.cache.ring pushed
      refine ⟨rfl, rfl, rfl, rfl, pop, .refl, ?_⟩
      simp [outside, contents, moveConsumer, at_, heldByConsumer]
    next cache pushed =>
      obtain ⟨_, pop, _, pushedId, _, contents⟩ :=
        Ring.stepPush_spec fits.cache valid.cache.ring pushed
      refine ⟨rfl, rfl, rfl, rfl, pop, .refl, ?_⟩
      simp only [outside, contents, returnBuffer, at_, heldByConsumer, Chain.setOwner,
        length_append, length_singleton]
      omega
  next id at_ =>
    cases went
    refine ⟨rfl, rfl, rfl, rfl, rfl, Nat.le_succ _, ?_⟩
    simp only [outside, at_, heldByConsumer, returnBuffer, Chain.setOwner]
    omega

theorem startCopy_new (configValid : config.Valid) (pos : 0 < config.blockSize)
    (valid : Valid config state) {data : List UInt8} {done id : Nat}
    (at_ : state.producer.pc = .linking (.push data done) id) (more : done < data.length) :
    ∃ count, startCopy ((state.chain.append state.producer.tailPtr id).nodes id) data done =
        .copying data done count 0 ∧ 0 < count ∧ count ≤ data.length - done := by
  have producer := valid.producer.pc
  rw [at_] at producer
  obtain ⟨_, _, owned, _, tail, threshold⟩ := producer
  have apart : id ≠ state.producer.tailPtr := by
    rintro rfl
    rw [valid.producer.tailPtr, valid.chain.owner _ valid.chain.ordered .refl] at owned
    cases owned
  have same : (state.chain.append state.producer.tailPtr id).nodes id = state.chain.nodes id := by
    exact Function.update_of_ne apart ..
  have fits := configValid.fits
  have zone := configValid.prefixSize
  have free : (state.chain.nodes id).freeSize = config.blockSize := by
    have difference : config.prefixSize + config.blockSize - config.prefixSize =
        config.blockSize := by omega
    rw [Node.freeSize, tail, threshold, difference]
    exact toUint32_eq (Int.le_of_lt pos) (by omega)
  rw [same]
  refine ⟨_, rfl, ?_⟩
  split <;> omega

namespace Streams

variable (streams : Streams state)

include streams

theorem consumer (kept : ConsumerKept state next) : Streams next := by
  have count := kept.count
  have counted := streams.counted
  constructor
  · rw [kept.producer, kept.last]
    omega
  · rw [kept.last, kept.base, kept.accepted, kept.producer]
    exact streams.filled
  · rw [kept.producer]
    exact streams.calls
  · rw [kept.producer, kept.pop]
    exact streams.popping

theorem goOn {producer : Producer} {call : Call} (calls : pendingCall state.producer.pc = some call)
    (same : pendingCall producer.pc = some call)
    (allocateNr : producer.allocateNr = state.producer.allocateNr)
    (held : heldByProducer producer.pc = heldByProducer state.producer.pc)
    (outside_ : ∀ call, producer.pc ≠ .popping call) : Streams { state with producer } := by
  refine ⟨?_, ?_, ?_, fun call at_ => absurd at_ (outside_ call)⟩
  · have counted := streams.counted
    simp only [outside, held, allocateNr] at counted ⊢
    exact counted
  · intro some
    refine .inl ((streams.filled some).resolve_right ?_)
    rintro ⟨data, done, count, copied, at_, _⟩
    rw [at_] at calls
    cases calls
  · intro other found
    cases same.symm.trans found
    exact streams.calls call calls

theorem base_lt (calls : ∃ call, pendingCall state.producer.pc = some call)
    (some : 0 < state.chain.last) :
    state.chain.base state.chain.last < state.chain.accepted.length := by
  refine (streams.filled some).resolve_right ?_
  rintro ⟨data, done, count, copied, at_, _⟩
  obtain ⟨call, calls⟩ := calls
  rw [at_] at calls
  cases calls

section

variable (valid : Valid config state)
include valid

theorem stepProducer (fits : config.Valid) (pos : 0 < config.blockSize)
    (went : stepProducer config state = some next) : Streams next := by
  have producer := valid.producer.pc
  have counted := streams.counted
  unfold UnboundedStreamBuffer.stepProducer at went
  dsimp only at went
  split at went
  next => cases went
  next => cases went
  next call at_ =>
    have calls : pendingCall state.producer.pc = some call := by rw [at_]; rfl
    obtain ⟨data, done, rfl, more⟩ := streams.calls call calls
    split at went <;> cases went
    · refine ⟨?_, fun some => .inl (streams.base_lt ⟨_, calls⟩ some), ?_, ?_⟩
      · simp only [outside, at_, heldByProducer, refuse] at counted ⊢
        exact counted
      all_goals intros; contradiction
    · exact streams.goOn calls rfl rfl (by rw [at_]; rfl) (by simp)
  next call at_ =>
    have calls : pendingCall state.producer.pc = some call := by rw [at_]; rfl
    split at went <;> cases went
    · exact streams.goOn calls rfl rfl (by rw [at_]; rfl) (by simp)
    · refine ⟨?_, fun some => .inl (streams.base_lt ⟨_, calls⟩ some), ?_, ?_⟩
      · simp only [outside, at_, heldByProducer, moveProducer, Ring.startPop] at counted ⊢
        exact counted
      · intro other same
        cases same
        exact streams.calls call calls
      · intro other _
        simp [moveProducer, Ring.startPop]
  next call id at_ =>
    have calls : pendingCall state.producer.pc = some call := by rw [at_]; rfl
    rw [at_] at producer
    cases went
    refine ⟨?_, fun some => .inl (streams.base_lt ⟨_, calls⟩ some), ?_, by simp [moveProducer]⟩
    · simp only [outside, at_, producer.2.2, heldByProducer, moveProducer, Chain.setOwner,
        toList_some, toList_none, length_singleton, length_nil]
        at counted ⊢
      omega
    · intro other same
      cases same
      exact streams.calls call calls
  next call at_ =>
    have calls : pendingCall state.producer.pc = some call := by rw [at_]; rfl
    have filled := fun some => streams.base_lt ⟨_, calls⟩ some
    split at went <;> cases went
    next cache popped =>
      obtain ⟨_, _, contents, running⟩ :=
        Ring.stepPop_spec fits.cache valid.cache.ring popped
      refine ⟨?_, fun some => .inl (filled some), streams.calls, fun _ _ => running⟩
      simp only [outside, contents] at counted ⊢
      exact counted
    next cache popped =>
      obtain ⟨_, _, contents, _⟩ := Ring.stepPop_spec fits.cache valid.cache.ring popped
      refine ⟨?_, fun some => .inl (filled some), ?_, by simp [moveProducer]⟩
      · simp only [outside, contents, at_, heldByProducer, moveProducer] at counted ⊢
        exact counted
      · intro other same
        cases same
        exact streams.calls call calls
    next cache id popped =>
      obtain ⟨_, _, _, contents⟩ := Ring.stepPop_spec fits.cache valid.cache.ring popped
      refine ⟨?_, fun some => .inl (filled some), ?_, by simp [moveProducer]⟩
      · simp only [outside, contents, at_, heldByProducer, moveProducer, Chain.setOwner,
          length_cons] at counted ⊢
        omega
      · intro other same
        cases same
        exact streams.calls call calls
  next call id at_ =>
    have calls : pendingCall state.producer.pc = some call := by rw [at_]; rfl
    cases went
    refine ⟨?_, fun some => .inl (streams.base_lt ⟨_, calls⟩ some), ?_, by simp [moveProducer]⟩
    · simp only [outside, at_, heldByProducer, moveProducer, Chain.setNode] at counted ⊢
      exact counted
    · intro other same
      cases same
      exact streams.calls call calls
  next call id at_ =>
    have calls : pendingCall state.producer.pc = some call := by rw [at_]; rfl
    obtain ⟨data, done, rfl, more⟩ := streams.calls call calls
    cases went
    refine ⟨?_, fun _ => .inr ?_, ?_, ?_⟩
    · simp only [outside, at_, heldByProducer, proceed, startCopy, Chain.append, Chain.setNode]
        at counted ⊢
      omega
    · obtain ⟨count, started, some, _⟩ := startCopy_new fits pos valid at_ more
      exact ⟨_, _, _, _, started, some⟩
    all_goals intros; contradiction
  next data done count copied at_ =>
    rw [at_] at producer
    split at went
    next more =>
      obtain ⟨byte, found, rfl⟩ := map_eq_some_iff.mp went
      refine ⟨?_, fun some => ?_, ?_, ?_⟩
      · simp only [outside, at_, heldByProducer, moveProducer, Chain.store, Chain.setNode]
          at counted ⊢
        exact counted
      · refine (streams.filled some).imp id ?_
        rintro ⟨_, _, _, _, same, pos⟩
        rw [at_] at same
        cases same
        exact ⟨_, _, _, _, rfl, pos⟩
      all_goals intros; contradiction
    next complete =>
      obtain ⟨_, _, length, _, _, _⟩ := producer
      have total := valid.chain.total
      have tail := (valid.chain.tails _ valid.chain.ordered .refl).1
      have accepts : (state.chain.accepted ++ (data.drop done).take count).length =
          state.chain.accepted.length + count := by
        rw [length_append, length_take, length_drop]
        omega
      have filled : 0 < state.chain.last → state.chain.base state.chain.last <
          (state.chain.accepted ++ (data.drop done).take count).length := by
        intro some
        rcases streams.filled some with before | ⟨_, _, _, _, same, pos⟩
        · omega
        · rw [at_] at same
          cases same
          omega
      split at went <;> cases went
      next more =>
        have calls : pendingCall (reachLimit config state (.push data (done + count))) =
            some (.push data (done + count)) := by
          unfold reachLimit
          dsimp only
          split <;> rfl
        refine ⟨?_, fun some => .inl (filled some), ?_, ?_⟩
        · have held : heldByProducer (reachLimit config state (.push data (done + count))) = 0 := by
            unfold reachLimit
            dsimp only
            split <;> rfl
          rw [outside, at_] at counted
          simp only [outside, moveProducer, Chain.post, Chain.setNode]
          rw [held]
          exact counted
        · intro call same
          cases calls.symm.trans same
          exact ⟨data, done + count, rfl, more⟩
        · intro call same
          simp only [moveProducer, reachLimit] at same
          split at same <;> cases same
      · refine ⟨?_, fun some => .inl (filled some), ?_, ?_⟩
        · simp only [outside, at_, heldByProducer, Chain.post, Chain.setNode] at counted ⊢
          exact counted
        all_goals intros; contradiction

theorem step_valid (fits : config.Valid) (pos : 0 < config.blockSize) {action : Action}
    (may : Streaming config state action) (went : step config state action = some next) :
    Streams next := by
  have counted := streams.counted
  cases action with
  | allocateBuffer | write | postBuffer => exact may.2.elim
  | producer => exact streams.stepProducer valid fits pos went
  | consumer => exact streams.consumer (consumer_kept valid fits went)
  | push data =>
    simp only [step] at went
    split at went <;> cases went
    next idle =>
      refine ⟨?_, fun some => .inl ?_, ?_, ?_⟩
      · simp only [outside, idle.1, heldByProducer, startCopy] at counted ⊢
        exact counted
      · refine (streams.filled some).resolve_right ?_
        rintro ⟨_, _, _, _, at_, _⟩
        rw [idle.1] at at_
        cases at_
      all_goals intros; contradiction
  | malloc id garbage =>
    simp only [step] at went
    split at went
    next call at_ =>
      have calls : pendingCall state.producer.pc = some call := by rw [at_]; rfl
      split at went <;> cases went
      refine ⟨?_, fun some => .inl (streams.base_lt ⟨_, calls⟩ some), ?_, by simp⟩
      · simp only [outside, at_, heldByProducer, Chain.setNode, Chain.setOwner] at counted ⊢
        omega
      · intro other same
        cases same
        exact streams.calls call calls
    next => cases went
  | waitBuffer =>
    simp only [step] at went
    split at went <;> cases went
    next idle => exact streams.consumer (waitBuffer_kept idle)
  | freeBuffer length =>
    simp only [step] at went
    split at went <;> cases went
    exact streams.consumer (.ofConsumer rfl rfl)

theorem first_eq_last (idle : state.producer.pc = .idle) (consumer : state.consumer.pc = .idle)
    (drained : state.freed.length = state.chain.accepted.length) :
    state.chain.first = state.chain.last := by
  have reading := valid.consumer
  rw [ConsumerValid, consumer] at reading
  obtain ⟨_, _, lower, upper⟩ := reading
  have position := valid.head.position
  refine Nat.le_antisymm valid.chain.ordered (Nat.le_of_not_lt fun more => ?_)
  have filled : state.chain.base state.chain.last < state.chain.accepted.length := by
    refine (streams.filled (Nat.zero_lt_of_lt more)).resolve_right ?_
    rintro ⟨_, _, _, _, at_, _⟩
    rw [idle] at at_
    cases at_
  -- what has been freed is in the first node, and the last begins behind it
  have later : ∀ number, state.chain.first < number → number ≤ state.chain.last →
      state.freed.length ≤ state.chain.base number := by
    intro number above below
    induction number with
    | zero => exact absurd above (Nat.not_lt_zero _)
    | succ number ih =>
      have bases := valid.chain.bases number (Nat.le_of_lt_succ above) below
      rcases Nat.lt_or_eq_of_le (Nat.le_of_lt_succ above) with earlier | first
      · have tails := valid.chain.tails number (Nat.le_of_lt earlier) (Nat.le_of_lt below)
        omega
      · subst first
        omega
  have held := later _ more .refl
  omega

theorem within_limit (idle : state.producer.pc = .idle) (consumer : state.consumer.pc = .idle)
    (drained : state.freed.length = state.chain.accepted.length)
    (enough : config.cacheSize + 2 ≤ config.nodeLimitNr) :
    state.producer.allocateNr ≤ state.consumer.freeNr + config.nodeLimitNr := by
  have counted := streams.counted
  have fits := valid.cache.ring.fits
  have one : state.cacheNode.toList.length ≤ 1 := by
    cases state.cacheNode with
    | none => exact Nat.zero_le _
    | some => exact .refl
  rw [streams.first_eq_last valid idle consumer drained, outside, idle, consumer] at counted
  simp only [heldByProducer, heldByConsumer] at counted
  omega

end

end Streams

def Accepting (config : Config) (state : State) : Prop :=
  let free := state.producer.allocateNr ≤ state.consumer.freeNr + config.nodeLimitNr
  match state.producer.pc with
  | .idle => 1 ≤ state.producer.returned
  | .copying data done count _ => 0 < data.length ∧ (0 < done + count ∨ free)
  | .limiting (.push _ done) => 0 < done ∨ free
  | .limiting _ | .loading _ | .taking _ _ | .popping _ | .allocating _ | .resetting _ _
  | .linking _ _ => True

/-- The steps of the producer until `Push` returns, at most. -/
def producerSteps (state : State) : Nat :=
  let rest : Call → Nat
    | .push data done => (data.length - done) * 20
    | .allocateBuffer _ | .postBuffer => 0
  match state.producer.pc with
  | .idle => 0
  | .limiting call => rest call + 9
  | .loading call => rest call + 8
  | .popping call => rest call + 3 + Ring.popSteps state.cache.pop
  | .taking call _ | .allocating call => rest call + 3
  | .resetting call _ => rest call + 2
  | .linking call _ => rest call + 1
  | .copying data done count copied => (data.length - done - count) * 20 + (count - copied) + 10

structure InPush (config : Config) (state : State) : Prop where
  valid : Valid config state
  streams : Streams state
  accepting : Accepting config state

theorem Accepting.kept (accepting : Accepting config state) (kept : ConsumerKept state next) :
    Accepting config next := by
  have freeNr := kept.freeNr
  unfold Accepting at accepting ⊢
  rw [kept.producer]
  split at accepting
  next => exact accepting
  next => exact ⟨accepting.1, accepting.2.imp id fun free => by omega⟩
  next => exact accepting.imp id fun free => by omega
  all_goals trivial

theorem InPush.stepProducer (pushing : InPush config state) (fits : config.Valid)
    (pos : 0 < config.blockSize) (went : stepProducer config state = some next) :
    Accepting config next ∧ producerSteps next < producerSteps state := by
  obtain ⟨valid, streams, accepting⟩ := pushing
  have producer := valid.producer.pc
  unfold UnboundedStreamBuffer.stepProducer at went
  unfold Accepting at accepting
  dsimp only at went accepting
  split at went
  next => cases went
  next => cases went
  next call at_ =>
    obtain ⟨data, done, rfl, more⟩ := streams.calls call (by rw [at_]; rfl)
    rw [at_] at accepting
    split at went <;> cases went
    · have accepted : 0 < done := accepting.resolve_right (by omega)
      exact ⟨accepted, by simp [producerSteps, at_, refuse]⟩
    · exact ⟨trivial, by simp [producerSteps, at_, moveProducer]⟩
  next call at_ =>
    split at went <;> cases went
    · exact ⟨trivial, by simp [producerSteps, at_, moveProducer]⟩
    · exact ⟨trivial, by
        simp [producerSteps, at_, moveProducer, Ring.startPop, Ring.popSteps]⟩
  next call id at_ =>
    cases went
    exact ⟨trivial, by simp [producerSteps, at_, moveProducer]⟩
  next call at_ =>
    obtain ⟨_, _, made, fewer⟩ := Ring.stepPop_progress config.cacheSize (streams.popping call at_)
    split at went <;> cases went
    next cache popped =>
      rw [popped] at made
      cases made
      refine ⟨by simp [Accepting, at_], ?_⟩
      simpa [producerSteps, at_] using fewer.2 rfl
    · exact ⟨trivial, by simpa [producerSteps, at_, moveProducer] using fewer.1⟩
    · refine ⟨trivial, ?_⟩
      simp only [producerSteps, at_, moveProducer]
      omega
  next call id at_ =>
    cases went
    exact ⟨trivial, by simp [producerSteps, at_, moveProducer]⟩
  next call id at_ =>
    obtain ⟨data, done, rfl, more⟩ := streams.calls call (by rw [at_]; rfl)
    cases went
    obtain ⟨count, started, some, bound⟩ := startCopy_new fits pos valid at_ more
    simp only [Accepting, producerSteps, proceed, at_, started]
    omega
  next data done count copied at_ =>
    rw [at_] at producer accepting
    split at went
    next more =>
      obtain ⟨byte, found, rfl⟩ := map_eq_some_iff.mp went
      refine ⟨accepting, ?_⟩
      simp only [producerSteps, at_, moveProducer]
      omega
    next complete =>
      split at went <;> cases went
      · simp only [Accepting, producerSteps, at_, moveProducer, reachLimit]
        by_cases limited : state.producer.allocateNr >
            state.producer.allocateNrThreshold + config.nodeLimitNr
        · simp only [if_pos limited]
          exact ⟨accepting.2, by omega⟩
        · simp only [if_neg limited]
          exact ⟨trivial, by omega⟩
      · simp only [Accepting, producerSteps, at_]
        omega

theorem InPush.enabled (pushing : InPush config state) (running : state.producer.pc ≠ .idle) :
    (∃ call, state.producer.pc = .allocating call) ∨
      (UnboundedStreamBuffer.stepProducer config state).isSome := by
  have producer := pushing.valid.producer.pc
  unfold UnboundedStreamBuffer.stepProducer
  dsimp only
  split
  next at_ => exact absurd at_ running
  next call at_ => exact .inl ⟨call, at_⟩
  next => split <;> exact .inr rfl
  next => split <;> exact .inr rfl
  next => exact .inr rfl
  next call at_ =>
    obtain ⟨cache, event, made, _⟩ :=
      Ring.stepPop_progress config.cacheSize (pushing.streams.popping call at_)
    rw [made]
    cases event <;> exact .inr rfl
  next => exact .inr rfl
  next => exact .inr rfl
  next data done count copied at_ =>
    rw [at_] at producer
    obtain ⟨_, _, length, _⟩ := producer
    split
    next more =>
      rw [getElem?_eq_getElem (by omega)]
      exact .inr rfl
    next => split <;> exact .inr rfl

def byProducer : Action → Bool
  | .producer | .malloc _ _ => true
  | _ => false

theorem InPush.step (pushing : InPush config state) (fits : config.Valid)
    (pos : 0 < config.blockSize) {action : Action} (other : ∀ data, action ≠ .push data)
    (may : Streaming config state action) (went : step config state action = some next) :
    InPush config next ∧
      producerSteps next + (if byProducer action then 1 else 0) ≤ producerSteps state := by
  have valid := pushing.valid.step_valid fits may.1 went
  have streams := pushing.streams.step_valid pushing.valid fits pos may went
  have byConsumer : ConsumerKept state next →
      InPush config next ∧ producerSteps next ≤ producerSteps state := by
    intro kept
    refine ⟨⟨valid, streams, pushing.accepting.kept kept⟩, ?_⟩
    refine Nat.le_of_eq ?_
    rw [producerSteps, producerSteps, kept.producer, kept.pop]
  cases action with
  | push data => exact absurd rfl (other data)
  | allocateBuffer | write | postBuffer => exact may.2.elim
  | producer =>
    obtain ⟨accepting, less⟩ := pushing.stepProducer fits pos went
    exact ⟨⟨valid, streams, accepting⟩, less⟩
  | consumer => exact byConsumer (consumer_kept pushing.valid fits went)
  | malloc id garbage =>
    simp only [UnboundedStreamBuffer.step] at went
    split at went
    next call at_ =>
      split at went <;> cases went
      refine ⟨⟨valid, streams, trivial⟩, ?_⟩
      simp [producerSteps, at_, byProducer]
    next => cases went
  | waitBuffer =>
    simp only [UnboundedStreamBuffer.step] at went
    split at went <;> cases went
    next idle => exact byConsumer (waitBuffer_kept idle)
  | freeBuffer length =>
    simp only [UnboundedStreamBuffer.step] at went
    split at went <;> cases went
    exact byConsumer (.ofConsumer rfl rfl)

theorem InPush.run {final : State} {actions : List Action} (pushing : InPush config state)
    (fits : config.Valid) (pos : 0 < config.blockSize)
    (others : ∀ data, .push data ∉ actions)
    (guarded : Guarded (UnboundedStreamBuffer.step config) (Streaming config) state actions)
    (ran : execute (UnboundedStreamBuffer.step config) state actions = some final) :
    InPush config final ∧ producerSteps final + actions.countP byProducer ≤
      producerSteps state := by
  induction actions generalizing state with
  | nil =>
    cases ran
    exact ⟨pushing, .refl⟩
  | cons action actions ih =>
    obtain ⟨next, went, rest⟩ := execute_cons.mp ran
    obtain ⟨may, later⟩ := guarded.cons went
    obtain ⟨nextPushing, less⟩ := pushing.step fits pos
      (fun data same => others data (same ▸ mem_cons_self)) may went
    obtain ⟨finalPushing, count⟩ := ih nextPushing
      (fun data mem => others data (mem_cons_of_mem _ mem)) later rest
    refine ⟨finalPushing, ?_⟩
    rw [countP_cons]
    omega

theorem streams_initial (garbage : Nat → Node) (cachePos : Nat → Int)
    (cacheBuffer : Nat → Nat) : Streams (initialState config garbage cachePos cacheBuffer) := by
  refine ⟨rfl, fun impossible => absurd impossible (Nat.lt_irrefl 0), ?_, ?_⟩
  all_goals nofun

/-- With room in the limit for the slots of `unused_cache_nodes_` and two nodes more, a
`Push` after everything has been freed returns, and accepts a byte, whatever the consumer
does meanwhile. -/
theorem drained_push_accepts {blockSize prefixSize unusedCacheSize nodeLimitNr : UInt32}
    (created : create blockSize prefixSize unusedCacheSize nodeLimitNr = some config)
    (sizes : (roundUp blockSize).toNat + (roundUp prefixSize).toNat < 2 ^ 31)
    (cache : unusedCacheSize.toNat ≤ 2 ^ 27) (positive : 0 < config.blockSize)
    (enough : config.cacheSize + 2 ≤ config.nodeLimitNr)
    {garbage : Nat → Node} {cachePos : Nat → Int} {cacheBuffer : Nat → Nat} {actions : List Action}
    (guarded : Guarded (step config) (Streaming config)
      (initialState config garbage cachePos cacheBuffer) actions)
    (ran : execute (step config) (initialState config garbage cachePos cacheBuffer) actions =
      some state) (idle : state.producer.pc = .idle) (consumer : state.consumer.pc = .idle)
    (drained : state.freed.length = state.chain.accepted.length)
    {data : List UInt8} (nonempty : 1 ≤ data.length) (small : data.length < 2 ^ 32) :
    ∃ started bound, step config state (.push data) = some started ∧
      ∀ later final, (∀ other, .push other ∉ later) →
        Guarded (step config) (Streaming config) started later →
        execute (step config) started later = some final →
          (final.producer.pc = .idle → 1 ≤ final.producer.returned) ∧
          (final.producer.pc ≠ .idle → (∃ call, final.producer.pc = .allocating call) ∨
            (step config final .producer).isSome) ∧ later.countP byProducer ≤ bound := by
  have configValid := create_valid created sizes cache
  obtain ⟨valid, streams⟩ := @Lib.invariant_of_guarded _ _ _ _
    (fun state => Valid config state ∧ Streams state)
    (fun both allowed stepped => ⟨both.1.step_valid configValid allowed.1 stepped,
      both.2.step_valid both.1 configValid positive allowed stepped⟩)
    _ _ _ ⟨valid_initial configValid garbage cachePos cacheBuffer,
      streams_initial garbage cachePos cacheBuffer⟩ guarded ran
  have free := streams.within_limit valid idle consumer drained enough
  let started := { state with producer := { state.producer with
    granted := none
    pc := startCopy (state.chain.nodes state.producer.tailPtr) data 0 } }
  have stepped : step config state (.push data) = some started := if_pos ⟨idle, small⟩
  have allowed : Streaming config state (.push data) := ⟨trivial, trivial⟩
  have pushing : InPush config started := ⟨valid.step_valid configValid allowed.1 stepped,
      streams.step_valid valid configValid positive allowed stepped, nonempty, .inr free⟩
  refine ⟨started, producerSteps started, stepped, ?_⟩
  intro later final others guarded ran
  obtain ⟨reached, count⟩ := pushing.run configValid positive others guarded ran
  refine ⟨?_, reached.enabled, by omega⟩
  intro returned
  have accepting := reached.accepting
  rw [Accepting, returned] at accepting
  exact accepting

def drainedRun : List Action :=
  [.push [7], .producer, .producer, .waitBuffer, .consumer, .consumer, .freeBuffer 1]

theorem oneByte_push_accepts : ∃ config state started bound, create 64 64 2 4 = some config ∧
      execute (step config) (blankState config) drainedRun = some state ∧
      step config state (.push [8]) = some started ∧ ∀ later final, (∀ other, .push other ∉ later) →
        Guarded (step config) (Streaming config) started later →
        execute (step config) started later = some final →
          (final.producer.pc = .idle → 1 ≤ final.producer.returned) ∧
          (final.producer.pc ≠ .idle → (∃ call, final.producer.pc = .allocating call) ∨
            (step config final .producer).isSome) ∧ later.countP byProducer ≤ bound := by
  have checked : (create 64 64 2 4).any (fun config =>
      decide (Guarded (step config) (Streaming config) (blankState config) drainedRun ∧
        0 < config.blockSize ∧ config.cacheSize + 2 ≤ config.nodeLimitNr) &&
        (execute (step config) (blankState config) drainedRun).any fun state =>
          decide (state.producer.pc = .idle ∧ state.consumer.pc = .idle ∧
            state.freed.length = state.chain.accepted.length)) = true := by decide +kernel
  obtain ⟨config, created, checked⟩ := (any_eq_true _ _).mp checked
  obtain ⟨sizes, checked⟩ := (Bool.and_eq_true _ _).mp checked
  obtain ⟨guarded, positive, enough⟩ := of_decide_eq_true sizes
  obtain ⟨state, ran, checked⟩ := (any_eq_true _ _).mp checked
  obtain ⟨idle, consumer, drained⟩ := of_decide_eq_true checked
  obtain ⟨started, bound, pushed, accepts⟩ := drained_push_accepts created (by decide)
    (by decide) positive enough guarded ran idle consumer drained
    (show 1 ≤ [(8 : UInt8)].length from .refl) (by decide)
  exact ⟨config, state, started, bound, created, ran, pushed, accepts⟩

/-- Four nodes are filled and then read: one of them goes to `cache_node_`, two fill
`unused_cache_nodes_`, and the last is full. -/
def filledRun : List Action := flatten
  [[.push (replicate 257 7)], replicate 136 .producer, [.malloc 2 blankNode],
    replicate 69 .producer, [.malloc 3 blankNode], replicate 68 .producer,
    [.waitBuffer], replicate 2 .consumer, [.freeBuffer 64, .waitBuffer],
    replicate 6 .consumer, [.freeBuffer 64, .waitBuffer], replicate 9 .consumer,
    [.freeBuffer 64, .waitBuffer], replicate 9 .consumer,
    [.freeBuffer 64, .waitBuffer], replicate 2 .consumer]

/-- The limit of three nodes, with a cache of one that becomes one of two, is reached for
ever. -/
theorem drained_push_refused : ∃ config state final, create 64 0 1 3 = some config ∧
      Guarded (step config) (Streaming config) (blankState config) filledRun ∧
      execute (step config) (blankState config) filledRun = some state ∧
      state.producer.pc = .idle ∧ state.consumer.pc = .idle ∧ exposedLength state = 0 ∧
      state.freed.length = state.chain.accepted.length ∧
      execute (step config) state [.push [8], .producer, .producer] = some final ∧
      final.producer.pc = .idle ∧ final.producer.returned = 0 := by
  have checked : (create 64 0 1 3).any (fun config =>
      decide (Guarded (step config) (Streaming config) (blankState config) filledRun) &&
        (execute (step config) (blankState config) filledRun).any fun state =>
          decide (state.producer.pc = .idle ∧ state.consumer.pc = .idle ∧
            exposedLength state = 0 ∧ state.freed.length = state.chain.accepted.length) &&
          (execute (step config) state [.push [8], .producer, .producer]).any fun final =>
            decide (final.producer.pc = .idle ∧ final.producer.returned = 0)) = true := by
    decide +kernel
  obtain ⟨config, created, checked⟩ := (any_eq_true _ _).mp checked
  obtain ⟨guarded, checked⟩ := (Bool.and_eq_true _ _).mp checked
  obtain ⟨state, ran, checked⟩ := (any_eq_true _ _).mp checked
  obtain ⟨drained, checked⟩ := (Bool.and_eq_true _ _).mp checked
  obtain ⟨final, pushed, refused⟩ := (any_eq_true _ _).mp checked
  obtain ⟨producer, consumer, empty, freed⟩ := of_decide_eq_true drained
  exact ⟨config, state, final, created, of_decide_eq_true guarded, ran, producer, consumer,
    empty, freed, pushed, of_decide_eq_true refused⟩

end AdkAaf.Adk.UnboundedStreamBuffer
