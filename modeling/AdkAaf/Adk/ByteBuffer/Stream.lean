import AdkAaf.Adk.ByteBuffer.Basic

/-! The validated bytes are those consumed followed by those still ahead of the
consumer: the rest of its buffer and, once the producer has moved on, the visible part
of the other one. -/

set_option autoImplicit false

namespace AdkAaf.Adk.ByteBuffer

open Function Lib List

open Lib (Memory)

variable {state : State}

def current (state : State) : List UInt8 :=
  (state.buffers state.consumer.buffer).slice state.consumer.position
    (state.used state.consumer.buffer)

def Entered (state : State) : Prop :=
  state.producerIndex = state.consumerIndex ∨ state.consumer.pc = .switching

instance (state : State) : Decidable (Entered state) := inferInstanceAs (Decidable (_ ∨ _))

/-- The visible part of the producer's buffer when the consumer has not entered it. -/
def upcoming (state : State) : List UInt8 :=
  if Entered state then
    []
  else
    (state.buffers (half state.producerIndex)).slice 0 (state.used (half state.producerIndex))

def ProducerValid (state : State) : Prop :=
  let producer := state.producer
  let unvalidated := (state.buffers producer.buffer).slice producer.visibleBytes producer.position
  producer.visibleBytes ≤ producer.position ∧
    producer.visibleBytes = state.used producer.buffer ∧ unvalidated = state.appended ∧
    match producer.pc with
    | .idle | .renewing _ => producer.buffer = half state.producerIndex
    | .copying copied =>
      producer.buffer = half state.producerIndex ∧
        state.producerIndex = state.consumerIndex ∧
        copied ≤ producer.position - producer.visibleBytes ∧
        (state.buffers (half (state.producerIndex + 1))).slice 0 copied =
          state.appended.take copied
    | .publishing =>
      producer.buffer = half (state.producerIndex + 1) ∧
        state.producerIndex = state.consumerIndex ∧ producer.visibleBytes = 0

def ConsumerValid (state : State) : Prop :=
  let consumer := state.consumer
  consumer.position ≤ state.used consumer.buffer ∧
    match consumer.pc with
    | .idle =>
      consumer.buffer = half state.consumerIndex ∧ consumer.position ≤ consumer.total ∧
        consumer.total ≤ state.used consumer.buffer
    | .loadingUsed producerIndex =>
      consumer.buffer = half state.consumerIndex ∧
        state.consumerIndex ≤ producerIndex ∧ producerIndex ≤ state.producerIndex
    | .switching =>
      consumer.buffer = half (state.consumerIndex + 1) ∧
        state.producerIndex = state.consumerIndex + 1
    | .reloading => consumer.buffer = half state.consumerIndex

structure Valid (state : State) : Prop where
  behind : state.consumerIndex ≤ state.producerIndex
  close : state.producerIndex ≤ state.consumerIndex + 1
  producer : ProducerValid state
  consumer : ConsumerValid state
  stream : state.validated = state.consumed ++ (current state ++ upcoming state)

theorem valid_initial (buffers : Nat → Memory) : Valid (initialState buffers) where
  behind := Nat.le_refl 0
  close := Nat.zero_le 1
  producer := ⟨Nat.le_refl 0, rfl, rfl, (half_eq 0).symm⟩
  consumer := ⟨Nat.le_refl 0, (half_eq 0).symm, Nat.le_refl 0, Nat.le_refl 0⟩
  stream := rfl

namespace Valid

section

variable (valid : Valid state)
include valid

theorem entered_iff (here : state.producer.buffer = half state.producerIndex) :
    Entered state ↔ state.producer.buffer = state.consumer.buffer := by
  have behind := valid.behind
  have close := valid.close
  obtain ⟨_, place⟩ := valid.consumer
  rw [here]
  unfold Entered
  by_cases together : state.producerIndex = state.consumerIndex
  · simp only [together, true_or, true_iff]
    cases pc : state.consumer.pc with rw [pc] at place
    | idle | loadingUsed => exact place.1.symm
    | reloading => exact place.symm
    | switching => exact absurd place.2 (by omega)
  · have next : state.producerIndex = state.consumerIndex + 1 := by omega
    simp only [next]
    cases pc : state.consumer.pc with rw [pc] at place
    | switching => simp [place.1]
    | idle | loadingUsed => simp [place.1, half_succ_ne]
    | reloading => simp [place, half_succ_ne]

section

variable (idle : state.producer.pc = .idle)
include idle

theorem store {addr : Nat} {byte : UInt8} (behind : state.producer.visibleBytes ≤ addr) :
    Valid { setByte state state.producer.buffer addr byte with
      appended := ((setByte state state.producer.buffer addr byte).buffers
        state.producer.buffer).slice state.producer.visibleBytes state.producer.position } := by
  obtain ⟨ordered, visible, _, here⟩ := valid.producer
  rw [idle] at here
  have kept : ∀ buffer low,
      ((setByte state state.producer.buffer addr byte).buffers buffer).slice low
        (state.used buffer) = (state.buffers buffer).slice low (state.used buffer) := by
    intro buffer low
    simp only [setByte]
    by_cases own : buffer = state.producer.buffer
    · rw [own, update_self]
      exact Memory.slice_storeByte _ _ (.inr (visible ▸ behind))
    · rw [update_of_ne own]
  refine { valid with producer := ⟨ordered, visible, rfl, ?_⟩, stream := ?_ }
  · dsimp only [setByte]
    rw [idle]
    exact here
  · refine valid.stream.trans (congrArg (state.consumed ++ ·) (congrArg₂ (· ++ ·) ?_ ?_))
    · exact (kept _ _).symm
    · unfold upcoming
      split
      next => exact (if_pos ‹_›).symm
      next => exact ((if_neg ‹_›).trans (kept _ _)).symm

theorem setPosition {position : Nat} {appended : List UInt8}
    (ordered : state.producer.visibleBytes ≤ position)
    (unvalidated : (state.buffers state.producer.buffer).slice state.producer.visibleBytes
      position = appended) :
    Valid { state with
      producer := { state.producer with position := position }, appended := appended } := by
  obtain ⟨_, visible, _, here⟩ := valid.producer
  rw [idle] at here
  refine { valid with producer := ⟨ordered, visible, unvalidated, ?_⟩ }
  rw [idle]
  exact here

theorem incPosition (delta : Nat) :
    Valid { state with
      producer := { state.producer with position := state.producer.position + delta }
      appended := state.appended ++ (state.buffers state.producer.buffer).slice
        state.producer.position (state.producer.position + delta) } := by
  obtain ⟨ordered, _, unvalidated, _⟩ := valid.producer
  apply valid.setPosition idle
  · exact Nat.le_add_right_of_le ordered
  · rw [← unvalidated]
    exact (Memory.slice_append _ ordered (Nat.le_add_right _ _)).symm

theorem incValidData {delta : Nat}
    (within : delta ≤ state.producer.position - state.producer.visibleBytes) :
    Valid { state with
      used := update state.used state.producer.buffer
        (state.producer.visibleBytes + delta)
      producer := { state.producer with visibleBytes := state.producer.visibleBytes + delta }
      appended := state.appended.drop delta
      validated := state.validated ++ state.appended.take delta } := by
  obtain ⟨ordered, visible, unvalidated, here⟩ := valid.producer
  rw [idle] at here
  have entered_iff := valid.entered_iff here
  have grown : state.producer.visibleBytes ≤ state.producer.visibleBytes + delta :=
    Nat.le_add_right _ _
  have inside : state.producer.visibleBytes + delta ≤ state.producer.position := by omega
  have taken : state.appended.take delta = (state.buffers state.producer.buffer).slice
      (state.used state.producer.buffer) (state.producer.visibleBytes + delta) := by
    rw [← unvalidated, ← visible, ← Memory.take_slice _ grown inside, Nat.add_sub_cancel_left]
  have dropped : state.appended.drop delta = (state.buffers state.producer.buffer).slice
      (state.producer.visibleBytes + delta) state.producer.position := by
    rw [← unvalidated, ← Memory.drop_slice _ grown inside, Nat.add_sub_cancel_left]
  have uses : ∀ buffer, state.used buffer ≤
      update state.used state.producer.buffer (state.producer.visibleBytes + delta) buffer := by
    intro buffer
    by_cases own : buffer = state.producer.buffer
    · rw [own, update_self, ← visible]
      exact grown
    · exact Nat.le_of_eq (update_of_ne own _ _).symm
  refine ⟨valid.behind, valid.close, ⟨inside, ?_, dropped.symm, ?_⟩, ?_, ?_⟩
  · dsimp only
    rw [update_self]
  · dsimp only
    rw [idle]
    exact here
  · obtain ⟨position, place⟩ := valid.consumer
    refine ⟨position.trans (uses _), ?_⟩
    cases pc : state.consumer.pc with rw [pc] at place
    | idle => exact ⟨place.1, place.2.1, place.2.2.trans (uses _)⟩
    | loadingUsed | switching | reloading => exact place
  · -- the new bytes extend the buffer the consumer is in, or the one ahead of it
    have position := valid.consumer.1
    refine (congrArg (· ++ _) valid.stream).trans ?_
    rw [append_assoc, append_assoc]
    refine congrArg (state.consumed ++ ·) ?_
    change current state ++ (upcoming state ++ _) =
      (state.buffers state.consumer.buffer).slice state.consumer.position
        (update state.used state.producer.buffer (state.producer.visibleBytes + delta)
          state.consumer.buffer) ++
      if Entered state then [] else (state.buffers (half state.producerIndex)).slice 0
        (update state.used state.producer.buffer (state.producer.visibleBytes + delta)
          (half state.producerIndex))
    unfold current upcoming
    by_cases entered : Entered state
    · have same := entered_iff.mp entered
      rw [if_pos entered, if_pos entered, nil_append, append_nil, taken, ← same,
        update_self]
      apply Memory.slice_append _ (same ▸ position)
      rw [← visible]
      exact grown
    · have apart := fun same => entered (entered_iff.mpr same)
      rw [if_neg entered, if_neg entered, update_of_ne fun same => apart same.symm, ← here,
        update_self, taken]
      congr 1
      apply Memory.slice_append _ (Nat.zero_le _)
      rw [← visible]
      exact grown

end

theorem setProducerPc {pc : ProducerPc}
    (producerValid : ProducerValid { state with producer := { state.producer with pc := pc } }) :
    Valid { state with producer := { state.producer with pc := pc } } :=
  { valid with producer := producerValid }

theorem startCopy {nonBlock : Bool} (renewing : state.producer.pc = .renewing nonBlock)
    (free : ¬state.producerIndex + 1 > state.consumerIndex + 1) :
    Valid { state with producer := { state.producer with pc := .copying 0 } } := by
  obtain ⟨ordered, visible, unvalidated, here⟩ := valid.producer
  rw [renewing] at here
  have behind := valid.behind
  apply valid.setProducerPc
  refine ⟨ordered, visible, unvalidated, here, by dsimp only; omega, Nat.zero_le _, ?_⟩
  exact Memory.slice_self _ _

theorem together (same : state.producerIndex = state.consumerIndex) :
    state.consumer.buffer = half state.producerIndex ∧ Entered state ∧
      state.consumer.pc ≠ .switching := by
  obtain ⟨_, place⟩ := valid.consumer
  refine ⟨?_, .inl same, ?_⟩
  · rw [same]
    cases pc : state.consumer.pc with rw [pc] at place
    | idle | loadingUsed => exact place.1
    | reloading => exact place
    | switching => exact absurd place.2 (by omega)
  · intro pc
    rw [pc] at place
    exact absurd place.2 (by omega)

theorem copyByte {copied : Nat} (copying : state.producer.pc = .copying copied)
    (more : copied < state.producer.position - state.producer.visibleBytes) :
    Valid { setByte state (half (state.producerIndex + 1)) copied
      (state.buffers state.producer.buffer (state.producer.visibleBytes + copied)) with
        producer := { state.producer with pc := .copying (copied + 1) } } := by
  obtain ⟨ordered, visible, unvalidated, renew⟩ := valid.producer
  rw [copying] at renew
  obtain ⟨here, same, _, partly⟩ := renew
  obtain ⟨inside, entered, _⟩ := valid.together same
  have kept : ∀ memory : Memory, update state.buffers (half (state.producerIndex + 1)) memory
      (half state.producerIndex) = state.buffers (half state.producerIndex) := by
    intro memory
    rw [update_of_ne (half_succ_ne state.producerIndex).symm]
  refine { valid with producer := ⟨ordered, visible, ?_, here, same, more, ?_⟩, stream := ?_ }
  · dsimp only [setByte]
    rw [here, kept, ← here]
    exact unvalidated
  · dsimp only [setByte]
    rw [update_self, Memory.slice_succ _ (Nat.zero_le copied),
      Memory.slice_storeByte _ _ (.inr (Nat.le_refl copied)), partly, take_add_one]
    congr 1
    have byte : state.appended[copied]? =
        some (state.buffers state.producer.buffer (state.producer.visibleBytes + copied)) := by
      rw [← unvalidated]
      exact Memory.getElem?_slice _ (by omega)
    rw [byte]
    simp [Memory.storeByte]
  · refine valid.stream.trans (congrArg (state.consumed ++ ·) (congrArg₂ (· ++ ·) ?_ ?_))
    · unfold current
      dsimp only [setByte]
      rw [inside, kept]
    · exact (if_pos entered).trans (if_pos entered).symm

theorem resetUsed {copied : Nat} (copying : state.producer.pc = .copying copied)
    (all : ¬copied < state.producer.position - state.producer.visibleBytes) :
    Valid { state with
      used := update state.used (half (state.producerIndex + 1)) 0
      producer :=
        { buffer := half (state.producerIndex + 1)
          position := state.producer.position - state.producer.visibleBytes
          visibleBytes := 0
          pc := .publishing } } := by
  obtain ⟨ordered, visible, unvalidated, renew⟩ := valid.producer
  rw [copying] at renew
  obtain ⟨here, same, bound, partly⟩ := renew
  obtain ⟨inside, entered, _⟩ := valid.together same
  have kept : update state.used (half (state.producerIndex + 1)) 0
      (half state.producerIndex) = state.used (half state.producerIndex) :=
    update_of_ne (half_succ_ne _).symm _ _
  have full : copied = state.producer.position - state.producer.visibleBytes := by omega
  refine ⟨valid.behind, valid.close, ⟨Nat.zero_le _, ?_, ?_, rfl, same, rfl⟩, ?_, ?_⟩
  · dsimp only
    rw [update_self]
  · dsimp only
    rw [← full, partly, full, ← Memory.length_slice (state.buffers state.producer.buffer),
      unvalidated]
    exact take_length
  · unfold ConsumerValid
    dsimp only
    rw [inside, kept, ← inside]
    exact valid.consumer
  · refine valid.stream.trans (congrArg (state.consumed ++ ·) (congrArg₂ (· ++ ·) ?_ ?_))
    · unfold current
      dsimp only
      rw [inside, kept]
    · exact (if_pos entered).trans (if_pos entered).symm

theorem publish (publishing : state.producer.pc = .publishing) :
    Valid { state with
      producerIndex := state.producerIndex + 1
      producer := { state.producer with pc := .idle } } := by
  obtain ⟨ordered, visible, unvalidated, renew⟩ := valid.producer
  rw [publishing] at renew
  obtain ⟨here, same, fresh⟩ := renew
  obtain ⟨_, entered, unswitched⟩ := valid.together same
  refine ⟨Nat.le_succ_of_le valid.behind, by dsimp only; omega,
    ⟨ordered, visible, unvalidated, here⟩, ?_, ?_⟩
  · obtain ⟨pos, place⟩ := valid.consumer
    refine ⟨pos, ?_⟩
    cases pc : state.consumer.pc with
    | idle | reloading =>
      rw [pc] at place
      exact place
    | loadingUsed producerIndex =>
      rw [pc] at place
      exact ⟨place.1, place.2.1, Nat.le_succ_of_le place.2.2⟩
    | switching => exact absurd pc unswitched
  · refine valid.stream.trans (congrArg (state.consumed ++ ·) (congrArg (_ ++ ·) ?_))
    unfold upcoming
    rw [if_pos entered, if_neg (by simp only [Entered]; simp [same, unswitched])]
    rw [← here, ← visible, fresh]
    exact (Memory.slice_self _ _).symm

end

section

variable (valid : Valid state)
include valid

theorem stepProducer {next : State} (went : stepProducer state = some next) : Valid next := by
  unfold ByteBuffer.stepProducer at went
  dsimp only at went
  split at went
  next => cases went
  next nonBlock renewing =>
    split at went
    next =>
      split at went <;> cases went
      · obtain ⟨ordered, visible, unvalidated, here⟩ := valid.producer
        rw [renewing] at here
        exact valid.setProducerPc ⟨ordered, visible, unvalidated, here⟩
      · exact valid
    next free =>
      cases went
      exact valid.startCopy renewing free
  next copied copying =>
    split at went <;> cases went
    next more => exact valid.copyByte copying more
    next all => exact valid.resetUsed copying all
  next publishing =>
    cases went
    exact valid.publish publishing

theorem consumeBytes (idle : state.consumer.pc = .idle) {bytes : Nat}
    (within : bytes ≤ state.consumer.total - state.consumer.position) :
    Valid { state with
      consumer := { state.consumer with position := state.consumer.position + bytes }
      consumed := state.consumed ++ (state.buffers state.consumer.buffer).slice
        state.consumer.position (state.consumer.position + bytes) } := by
  obtain ⟨_, place⟩ := valid.consumer
  rw [idle] at place
  obtain ⟨here, ordered, visible⟩ := place
  have inside : state.consumer.position + bytes ≤ state.consumer.total := by omega
  have bound := inside.trans visible
  refine { valid with consumer := ⟨bound, ?_⟩, stream := ?_ }
  · dsimp only
    rw [idle]
    exact ⟨here, inside, visible⟩
  · refine valid.stream.trans ?_
    rw [append_assoc]
    refine congrArg (state.consumed ++ ·) ?_
    rw [← append_assoc]
    refine congrArg₂ (· ++ ·) ?_ rfl
    exact (Memory.slice_append _ (Nat.le_add_right _ _) bound).symm

theorem setTotal (staying : state.consumer.pc ≠ .switching) :
    Valid { state with
      consumer := { state.consumer with
        total := state.used state.consumer.buffer, pc := .idle } } := by
  obtain ⟨pos, place⟩ := valid.consumer
  have here : state.consumer.buffer = half state.consumerIndex := by
    cases pc : state.consumer.pc with
    | idle | loadingUsed =>
      rw [pc] at place
      exact place.1
    | reloading =>
      rw [pc] at place
      exact place
    | switching => exact absurd pc staying
  have entered : Entered { state with
      consumer := { state.consumer with
        total := state.used state.consumer.buffer, pc := .idle } } ↔ Entered state := by
    simp [Entered, staying]
  refine { valid with consumer := ⟨pos, here, pos, .refl⟩, stream := ?_ }
  refine valid.stream.trans (congrArg (state.consumed ++ ·) (congrArg (_ ++ ·) ?_))
  unfold upcoming
  simp [entered]

theorem switch {producerIndex : Nat} (loading : state.consumer.pc = .loadingUsed producerIndex)
    (moved : producerIndex ≠ state.consumerIndex)
    (emptied : state.used state.consumer.buffer = state.consumer.position) :
    Valid { state with
      consumer :=
        { buffer := half (state.consumerIndex + 1), position := 0
          total := state.used state.consumer.buffer, pc := .switching } } := by
  obtain ⟨_, place⟩ := valid.consumer
  rw [loading] at place
  have close := valid.close
  have ahead : state.producerIndex = state.consumerIndex + 1 := by omega
  refine { valid with consumer := ⟨Nat.zero_le _, rfl, ahead⟩, stream := ?_ }
  refine valid.stream.trans (congrArg (state.consumed ++ ·) ?_)
  have outside : ¬Entered state := by
    simp only [Entered, loading]
    simp [ahead]
  unfold current upcoming
  rw [if_neg outside, if_pos (.inr rfl), emptied, Memory.slice_self, nil_append,
    append_nil, ahead]

theorem enter (switching : state.consumer.pc = .switching) :
    Valid { state with
      consumerIndex := state.consumerIndex + 1
      consumer := { state.consumer with pc := .reloading } } := by
  obtain ⟨pos, place⟩ := valid.consumer
  rw [switching] at place
  obtain ⟨here, ahead⟩ := place
  refine ⟨ahead.symm.le, by dsimp only; omega, ?_, ⟨pos, here⟩, ?_⟩
  · -- the producer does not renew while the consumer is one buffer behind
    obtain ⟨ordered, visible, unvalidated, renew⟩ := valid.producer
    refine ⟨ordered, visible, unvalidated, ?_⟩
    cases pc : state.producer.pc with rw [pc] at renew
    | idle | renewing => exact renew
    | copying copied | publishing => exact absurd renew.2.1 (by omega)
  · refine valid.stream.trans (congrArg (state.consumed ++ ·) (congrArg (_ ++ ·) ?_))
    unfold upcoming
    rw [if_pos (.inr switching), if_pos (.inl ahead)]

theorem stepConsumer {next : State} (went : stepConsumer state = some next) : Valid next := by
  unfold ByteBuffer.stepConsumer at went
  dsimp only at went
  split at went
  next => cases went
  next producerIndex loading =>
    have staying : state.consumer.pc ≠ .switching := by simp [loading]
    split at went
    next =>
      cases went
      exact valid.setTotal staying
    next moved =>
      split at went <;> cases went
      next emptied => exact valid.switch loading moved emptied
      · exact valid.setTotal staying
  next switching =>
    cases went
    exact valid.enter switching
  next reloading =>
    cases went
    exact valid.setTotal (by simp [reloading])

theorem startUpdate (idle : state.consumer.pc = .idle) :
    Valid { state with
      consumer := { state.consumer with pc := .loadingUsed state.producerIndex } } := by
  obtain ⟨pos, place⟩ := valid.consumer
  rw [idle] at place
  have entered : Entered { state with
      consumer := { state.consumer with pc := .loadingUsed state.producerIndex } } ↔
        Entered state := by
    simp [Entered, idle]
  refine { valid with consumer := ⟨pos, place.1, valid.behind, .refl⟩, stream := ?_ }
  refine valid.stream.trans (congrArg (state.consumed ++ ·) (congrArg (_ ++ ·) ?_))
  unfold upcoming
  simp [entered]

theorem step_valid {size : Nat} {action : Action} {next : State}
    (went : step size state action = some next) : Valid next := by
  cases action with
  | producer => exact valid.stepProducer went
  | consumer => exact valid.stepConsumer went
  | store address byte =>
    simp only [step] at went
    split at went <;> cases went
    next may => exact valid.store may.1 may.2.1
  | incPosition delta =>
    simp only [step] at went
    split at went <;> cases went
    next may => exact valid.incPosition may.1 delta
  | incValidData delta =>
    simp only [step] at went
    split at went <;> cases went
    next may => exact valid.incValidData may.1 may.2
  | clear =>
    simp only [step] at went
    split at went <;> cases went
    next idle => exact valid.setPosition idle .refl (Memory.slice_self _ _)
  | renewBuffer nonBlock =>
    simp only [step] at went
    split at went <;> cases went
    next idle =>
      obtain ⟨ordered, visible, unvalidated, here⟩ := valid.producer
      rw [idle] at here
      exact valid.setProducerPc ⟨ordered, visible, unvalidated, here⟩
  | remaining =>
    simp only [step] at went
    split at went
    next idle =>
      split at went <;> cases went
      · exact valid.startUpdate idle
      · exact valid
    next => cases went
  | consumeBytes bytes =>
    simp only [step] at went
    split at went <;> cases went
    next may => exact valid.consumeBytes may.1 may.2

theorem view_prefix (idle : state.consumer.pc = .idle) :
    state.consumed ++ view state <+: state.validated := by
  obtain ⟨_, place⟩ := valid.consumer
  rw [idle] at place
  obtain ⟨_, ordered, visible⟩ := place
  rw [valid.stream]
  apply (prefix_append_right_inj _).mpr
  refine IsPrefix.trans ?_ (prefix_append _ _)
  unfold view current
  rw [← Memory.slice_append _ ordered visible]
  exact prefix_append _ _

theorem store_clear (reading : state.consumer.pc = .idle) {size : Nat} {action : Action}
    {next : State} (went : step size state action = some next) {buffer address : Nat}
    (target : storeTarget state action = some (buffer, address))
    (same : buffer = state.consumer.buffer) : state.consumer.total ≤ address := by
  obtain ⟨_, place⟩ := valid.consumer
  rw [reading] at place
  obtain ⟨_, _, limit⟩ := place
  obtain ⟨ordered, visible, _, renew⟩ := valid.producer
  cases action with
  | store address byte =>
    obtain ⟨rfl, rfl⟩ := target
    simp only [step] at went
    split at went
    next may =>
      rw [← same, ← visible] at limit
      exact limit.trans may.2.1
    next => cases went
  | producer =>
    simp only [storeTarget] at target
    cases pc : state.producer.pc with
    | copying copied =>
      simp only [pc] at target
      rw [pc] at renew
      split at target <;> cases target
      rw [(valid.together renew.2.1).1] at same
      exact absurd same (half_succ_ne _)
    | idle | renewing | publishing => simp [pc] at target
  | _ =>
    simp [storeTarget] at target

end

end Valid

/-- In every run what the consumer has consumed, and what it may read next, is a prefix
of the validated bytes, and no store of the producer hits a byte the consumer may still
read. -/
theorem consumer_follows_validated_stream {size : Nat} (buffers : Nat → Memory)
    {actions : List Action} {state : State}
    (ran : execute (step size) (initialState buffers) actions = some state) :
    state.consumed <+: state.validated ∧ (state.consumer.pc = .idle →
        state.consumed ++ view state <+: state.validated ∧
        ∀ action next buffer address, step size state action = some next →
          storeTarget state action = some (buffer, address) →
            buffer = state.consumer.buffer → state.consumer.total ≤ address) := by
  have valid : Valid state := invariant_of_execute (fun valid stepped => valid.step_valid stepped)
      (valid_initial buffers) ran
  constructor
  · rw [valid.stream]
    exact prefix_append _ _
  · intro reading
    refine ⟨valid.view_prefix reading, ?_⟩
    intro action next buffer address stepped target same
    exact valid.store_clear reading stepped target same

/-- Two bytes are appended and one of them is validated; the other moves to the second
buffer, where it is validated while the consumer is still in the first one. -/
def renewedRun : List Action :=
  [.store 0 7, .store 1 8, .incPosition 2, .incValidData 1, .remaining, .consumer,
    .renewBuffer false, .producer, .producer, .producer, .producer, .incValidData 1,
    .consumeBytes 1, .remaining, .consumer, .consumer, .consumer]

theorem renewed_consumer_follows_validated_stream :
    ∃ state, execute (step 4) (initialState fun _ _ => 0) renewedRun = some state ∧
      state.consumed = [7] ∧ view state = [8] ∧ state.consumer.pc = .idle ∧
      state.consumed ++ view state <+: state.validated := by
  have checked : ∃ state, execute (step 4) (initialState fun _ _ => 0) renewedRun = some state ∧
        state.consumed = [7] ∧ view state = [8] ∧ state.consumer.pc = .idle :=
    execute_check (by decide +kernel)
  obtain ⟨state, ran, consumed, exposed, idle⟩ := checked
  exact ⟨state, ran, consumed, exposed, idle, ((consumer_follows_validated_stream _ ran).2 idle).1⟩

end AdkAaf.Adk.ByteBuffer
