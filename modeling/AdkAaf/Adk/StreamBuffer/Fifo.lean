import AdkAaf.Adk.StreamBuffer.Basic

/-! The ring holds the bytes between the cursors, and each byte of the returned view is
its byte of the ring or a copy of it in the prefix zone. -/

set_option autoImplicit false

namespace AdkAaf.Adk.StreamBuffer

open Lib

open Lib (Memory)

variable {config : Config} {state : State}

def Config.ringAddress (config : Config) (position : Nat) : Nat :=
  config.prefixSize + position % config.bufferSize

def Config.leftLen (config : Config) (head : Nat) : Nat :=
  config.bufferSize - head % config.bufferSize

def ProducerValid (config : Config) (state : State) : Prop :=
  match state.producer.pc with
  | .idle => True
  | .reloading _ => state.producer.returned = none
  | .copying data copied =>
    state.producer.returned = none ∧
      state.tail + data.length ≤ state.head + config.bufferSize ∧
      ∀ index < copied, ∀ byte, data[index]? = some byte →
        state.memory (config.ringAddress (state.tail + index)) = byte

def Shows (config : Config) (state : State) (address position : Nat) : Prop :=
  address = config.ringAddress position ∨
    address < config.prefixSize ∧ state.pushed[position]? = some (state.memory address)

def ConsumerValid (config : Config) (state : State) : Prop :=
  let view := state.consumer.view
  match state.consumer.pc with
  | .idle =>
    state.head + view.length ≤ state.tail ∧
      ∀ index < view.length, Shows config state (view.address + index) (state.head + index)
  | .copying dataLen copied =>
    let leftLen := config.leftLen state.head
    state.consumer.waitingMore = true ∧ state.head + dataLen ≤ state.tail ∧
      leftLen ≤ dataLen ∧ leftLen ≤ config.prefixSize ∧ copied ≤ leftLen ∧
      ∀ index < copied, state.pushed[state.head + index]? =
        some (state.memory (config.prefixSize - leftLen + index))

structure Valid (config : Config) (state : State) : Prop where
  behind : state.head ≤ state.tail
  fits : state.tail ≤ state.head + config.bufferSize
  threshold : state.producer.tailThreshold ≤ state.head + config.bufferSize
  started : config.bufferSize = 0 → state.tail = 0
  length : state.pushed.length = state.tail
  ring : ∀ position, state.head ≤ position → position < state.tail →
    state.pushed[position]? = some (state.memory (config.ringAddress position))
  producer : ProducerValid config state
  consumer : ConsumerValid config state

theorem valid_initial (config : Config) (memory : Memory) :
    Valid config (initialState config memory) where
  behind := Nat.le_refl 0
  fits := Nat.zero_le _
  threshold := Nat.le_of_eq (Nat.zero_add _).symm
  started := fun _ => rfl
  length := rfl
  ring := fun _ _ below => absurd below (Nat.not_lt_zero _)
  producer := trivial
  consumer := ⟨Nat.le_refl 0, fun _ below => absurd below (Nat.not_lt_zero _)⟩

theorem ringAddress_ne {place other : Nat} (before : place < other)
    (window : other < place + config.bufferSize) :
    config.ringAddress place ≠ config.ringAddress other := by
  intro same
  exact mod_ne_of_window before window (Nat.add_left_cancel same)

theorem prefixSize_le_ringAddress (position : Nat) :
    config.prefixSize ≤ config.ringAddress position := Nat.le_add_right _ _

theorem pushAddress_eq (rounded : config.Rounded) {tail length copied : Nat}
    (started : config.bufferSize = 0 → tail = 0) (fits : length ≤ config.bufferSize)
    (within : copied < length) :
    config.pushAddress tail length copied = config.ringAddress (tail + copied) := by
  have bound := rounded.bufferSize_le
  have inside : tail % config.bufferSize < config.bufferSize := Nat.mod_lt _ (by omega)
  unfold Config.pushAddress Config.ringAddress
  rw [rounded.offset_eq started]
  dsimp only
  rw [uint32_eq (by omega)]
  split
  next contiguous => rw [add_mod_of_lt (by omega), Nat.add_assoc]
  next wraps =>
    split
    next => rw [add_mod_of_lt (by omega), Nat.add_assoc]
    next => rw [add_mod_of_ge (by omega) (by omega)]

theorem ringAddress_of_contiguous {head index : Nat} (within : index < config.leftLen head) :
    config.prefixSize + head % config.bufferSize + index = config.ringAddress (head + index) := by
  unfold Config.leftLen at within
  rw [Config.ringAddress, add_mod_of_lt (by omega), Nat.add_assoc]

theorem ringAddress_of_wrapped {head index : Nat} (behind : config.leftLen head ≤ index)
    (short : index < config.bufferSize) (zone : config.leftLen head ≤ config.prefixSize) :
    config.prefixSize - config.leftLen head + index = config.ringAddress (head + index) := by
  unfold Config.leftLen at *
  rw [Config.ringAddress, add_mod_of_ge (by omega) short]
  omega

namespace Valid

variable (valid : Valid config state)

include valid

theorem offset_head (rounded : config.Rounded) :
    config.offset state.head = state.head % config.bufferSize := by
  apply rounded.offset_eq
  intro zero
  exact Nat.eq_zero_of_le_zero (valid.started zero ▸ valid.behind)

theorem startPush (data : List UInt8) :
    Valid config { state with
      producer := { state.producer with
        pc := if state.tail + data.length > state.producer.tailThreshold then
            .reloading data
          else
            .copying data 0
        returned := none } } := by
  refine { valid with producer := ?_ }
  unfold ProducerValid
  dsimp only
  by_cases full : state.tail + data.length > state.producer.tailThreshold
  · rw [if_pos full]
  · rw [if_neg full]
    have threshold := valid.threshold
    exact ⟨rfl, by omega, fun _ below => absurd below (Nat.not_lt_zero _)⟩

theorem reload {pc : ProducerPc} {returned : Option ErrorCode}
    (producerValid : ProducerValid config { state with
      producer := { tailThreshold := state.head + config.bufferSize, pc, returned } }) :
    Valid config { state with
      producer := { tailThreshold := state.head + config.bufferSize, pc, returned } } :=
  { valid with threshold := .refl, producer := producerValid }

theorem copyByte (rounded : config.Rounded) {data : List UInt8} {copied : Nat} {byte : UInt8}
    (copying : state.producer.pc = .copying data copied) (found : data[copied]? = some byte) :
    Valid config { state with
      memory := state.memory.storeByte (config.pushAddress state.tail data.length copied) byte
      producer := { state.producer with pc := .copying data (copied + 1) } } := by
  have within : copied < data.length := (List.getElem?_eq_some_iff.mp found).1
  have producer := valid.producer
  unfold ProducerValid at producer
  rw [copying] at producer
  obtain ⟨pending, room, written⟩ := producer
  have behind := valid.behind
  have target : config.pushAddress state.tail data.length copied =
      config.ringAddress (state.tail + copied) :=
    pushAddress_eq rounded valid.started (by omega) within
  rw [target]
  -- the place written lies behind all that either side still uses
  have kept : ∀ address, address < config.prefixSize ∨
      (∃ place, state.head ≤ place ∧ place < state.tail + copied ∧
        address = config.ringAddress place) →
      state.memory.storeByte (config.ringAddress (state.tail + copied)) byte address =
        state.memory address := by
    rintro address (zone | ⟨place, above, below, rfl⟩)
    · exact if_neg (Nat.ne_of_lt (zone.trans_le (prefixSize_le_ringAddress _)))
    · exact if_neg (ringAddress_ne below (by omega))
  refine { valid with ring := ?_, producer := ⟨pending, room, ?_⟩, consumer := ?_ }
  · intro place above below
    dsimp only at above below ⊢
    rw [kept _ (.inr ⟨place, above, by omega, rfl⟩)]
    exact valid.ring place above below
  · intro index below other foundOther
    dsimp only
    rcases Nat.lt_succ_iff_lt_or_eq.mp below with earlier | rfl
    · rw [kept _ (.inr ⟨_, by omega, by omega, rfl⟩)]
      exact written index earlier other foundOther
    · rw [found] at foundOther
      cases foundOther
      exact if_pos rfl
  · have consumer := valid.consumer
    unfold ConsumerValid at consumer ⊢
    dsimp only at consumer ⊢
    split at consumer
    next =>
      refine ⟨consumer.1, ?_⟩
      intro index below
      rcases consumer.2 index below with ring | ⟨zone, holds⟩
      · exact .inl ring
      · refine .inr ⟨zone, ?_⟩
        dsimp only
        rw [kept _ (.inl zone)]
        exact holds
    next =>
      obtain ⟨waiting, visible, crossing, zone, bounded, holds⟩ := consumer
      refine ⟨waiting, visible, crossing, zone, bounded, ?_⟩
      intro index below
      rw [kept _ (.inl (by omega))]
      exact holds index below

theorem publish {data : List UInt8} {copied : Nat}
    (copying : state.producer.pc = .copying data copied) (done : data[copied]? = none) :
    Valid config { state with
      tail := state.tail + data.length
      producer := { state.producer with pc := .idle, returned := some .kSuccess }
      pushed := state.pushed ++ data } := by
  have all : data.length ≤ copied := List.getElem?_eq_none_iff.mp done
  have producer := valid.producer
  unfold ProducerValid at producer
  rw [copying] at producer
  obtain ⟨_, room, written⟩ := producer
  have behind := valid.behind
  have length := valid.length
  have old : ∀ {place : Nat} {byte : UInt8}, state.pushed[place]? = some byte →
      (state.pushed ++ data)[place]? = some byte := by
    intro place byte holds
    rw [List.getElem?_append_left (List.getElem?_eq_some_iff.mp holds).1]
    exact holds
  refine ⟨by dsimp only; omega, room, valid.threshold, ?_, ?_, ?_, trivial, ?_⟩
  · intro zero
    have start := valid.started zero
    dsimp only
    omega
  · simp [length]
  · intro place above below
    dsimp only at above below ⊢
    by_cases earlier : place < state.tail
    · exact old (valid.ring place above earlier)
    · rw [List.getElem?_append_right (by omega), length]
      have bound : place - state.tail < data.length := by omega
      rw [List.getElem?_eq_getElem bound]
      have holds := written (place - state.tail) (by omega) _ (List.getElem?_eq_getElem bound)
      rw [show state.tail + (place - state.tail) = place by omega] at holds
      rw [holds]
  · have consumer := valid.consumer
    unfold ConsumerValid at consumer ⊢
    dsimp only at consumer ⊢
    split at consumer
    next =>
      refine ⟨Nat.le_add_right_of_le consumer.1, ?_⟩
      intro index below
      rcases consumer.2 index below with ring | ⟨zone, holds⟩
      · exact .inl ring
      · exact .inr ⟨zone, old holds⟩
    next =>
      obtain ⟨waiting, visible, crossing, zone, bounded, holds⟩ := consumer
      exact ⟨waiting, Nat.le_add_right_of_le visible, crossing, zone, bounded,
        fun index below => old (holds index below)⟩

theorem stepProducer (rounded : config.Rounded) {next : State}
    (went : stepProducer config state = some next) : Valid config next := by
  unfold StreamBuffer.stepProducer at went
  split at went
  next => cases went
  next data reloading =>
    dsimp only at went
    split at went <;> cases went
    · exact valid.reload trivial
    · have producer := valid.producer
      unfold ProducerValid at producer
      rw [reloading] at producer
      apply valid.reload
      exact ⟨producer, by dsimp only; omega, fun _ below => absurd below (Nat.not_lt_zero _)⟩
  next data copied copying =>
    split at went <;> cases went
    next byte found => exact valid.copyByte rounded copying found
    next done => exact valid.publish copying done

theorem setConsumer {consumer : Consumer} {waits : Nat}
    (consumerValid : ConsumerValid config { state with consumer, waits }) :
    Valid config { state with consumer, waits } :=
  { valid with consumer := consumerValid }

theorem waitBuffer_cases (rounded : config.Rounded) :
    (state.tail - state.head ≤ config.leftLen state.head ∧
      waitBuffer config state = returnView state
        { address := config.prefixSize + state.head % config.bufferSize
          length := state.tail - state.head }) ∨
    (config.leftLen state.head < state.tail - state.head ∧
      state.consumer.waitingMore = true ∧ config.leftLen state.head ≤ config.prefixSize ∧
      waitBuffer config state = { state with
        consumer := { state.consumer with pc := .copying (state.tail - state.head) 0 } }) ∨
    (config.leftLen state.head < state.tail - state.head ∧
      (state.consumer.waitingMore = true → config.prefixSize < config.leftLen state.head) ∧
      waitBuffer config state = returnView
        { state with consumer := { state.consumer with waitingMore := true } }
        { address := config.prefixSize + state.head % config.bufferSize
          length := config.leftLen state.head }) := by
  have behind := valid.behind
  have fits := valid.fits
  have bound := rounded.bufferSize_le
  have inside : state.head % config.bufferSize ≤ config.bufferSize := by
    by_cases empty : config.bufferSize = 0
    · have start := valid.started empty
      rw [empty, Nat.mod_zero]
      omega
    · exact Nat.le_of_lt (Nat.mod_lt _ (Nat.pos_of_ne_zero empty))
  have dataLen : uint32 (state.tail - state.head) = state.tail - state.head := uint32_eq (by omega)
  have sum : uint32 (state.head % config.bufferSize + (state.tail - state.head)) =
      state.head % config.bufferSize + (state.tail - state.head) := by
    apply uint32_eq
    by_cases empty : config.bufferSize = 0
    · omega
    · have strict := Nat.mod_lt state.head (Nat.pos_of_ne_zero empty)
      omega
  unfold StreamBuffer.waitBuffer Config.leftLen
  simp only [valid.offset_head rounded, dataLen, sum]
  split
  next contiguous => exact .inl ⟨by omega, rfl⟩
  next crossing =>
    split
    next waiting => exact .inr (.inl ⟨by omega, waiting.1, waiting.2, rfl⟩)
    next impatient =>
      refine .inr (.inr ⟨by omega, ?_, rfl⟩)
      intro waiting
      exact Nat.lt_of_not_le fun zone => impatient ⟨waiting, zone⟩

theorem waitBuffer (rounded : config.Rounded) : Valid config (waitBuffer config state) := by
  have behind := valid.behind
  obtain ⟨contiguous, result⟩ | ⟨crossing, waiting, zone, result⟩ | ⟨crossing, _, result⟩ :=
    valid.waitBuffer_cases rounded
  · rw [result]
    apply valid.setConsumer
    refine ⟨by dsimp only; omega, ?_⟩
    intro index below
    exact .inl (ringAddress_of_contiguous (below.trans_le contiguous))
  · rw [result]
    apply valid.setConsumer
    exact ⟨waiting, by dsimp only; omega, crossing.le, zone, Nat.zero_le _,
      fun _ below => absurd below (Nat.not_lt_zero _)⟩
  · rw [result]
    apply valid.setConsumer
    refine ⟨by dsimp only; omega, ?_⟩
    intro index below
    exact .inl (ringAddress_of_contiguous below)

theorem stepConsumer (rounded : config.Rounded) {next : State}
    (went : stepConsumer config state = some next) : Valid config next := by
  unfold StreamBuffer.stepConsumer at went
  rw [valid.offset_head rounded] at went
  dsimp only at went
  split at went
  next => cases went
  next dataLen copied copying =>
    have consumer := valid.consumer
    unfold ConsumerValid at consumer
    rw [copying] at consumer
    obtain ⟨waiting, visible, crossing, zone, bounded, holds⟩ := consumer
    split at went <;> cases went
    next more =>
      have more : copied < config.leftLen state.head := more
      have kept : ∀ address byte, address ≠ config.prefixSize - config.leftLen state.head + copied →
          state.memory.storeByte (config.prefixSize - config.leftLen state.head + copied) byte
            address = state.memory address := fun _ _ apart => if_neg apart
      have ringKept : ∀ place byte,
          state.memory.storeByte (config.prefixSize - config.leftLen state.head + copied) byte
            (config.ringAddress place) = state.memory (config.ringAddress place) := by
        intro place byte
        apply kept
        have lower := @prefixSize_le_ringAddress config place
        omega
      refine { valid with
        ring := ?_
        producer := ?_
        consumer := ⟨waiting, visible, crossing, zone, more, ?_⟩ }
      · intro place above below
        exact (valid.ring place above below).trans (congrArg some (ringKept _ _).symm)
      · have producer := valid.producer
        unfold ProducerValid at producer ⊢
        dsimp only
        split at producer
        next => trivial
        next => exact producer
        next =>
          refine ⟨producer.1, producer.2.1, ?_⟩
          intro index below byte found
          exact (ringKept _ _).trans (producer.2.2 index below byte found)
      · intro index below
        rcases Nat.lt_succ_iff_lt_or_eq.mp below with earlier | rfl
        · exact (holds index earlier).trans (congrArg some (kept _ _ (by omega)).symm)
        · have source := valid.ring (state.head + index) (by omega) (by omega)
          rw [← ringAddress_of_contiguous more] at source
          exact source.trans (congrArg some (if_pos rfl).symm)
    next all =>
      have full : copied = config.leftLen state.head :=
        bounded.antisymm (Nat.le_of_not_lt all)
      have fits := valid.fits
      apply valid.setConsumer
      refine ⟨visible, ?_⟩
      intro index below
      dsimp only at below
      by_cases front : index < config.leftLen state.head
      · refine .inr ⟨?_, holds index (full ▸ front)⟩
        change config.prefixSize - config.leftLen state.head + index < config.prefixSize
        omega
      · exact .inl (ringAddress_of_wrapped (Nat.le_of_not_lt front) (by omega) zone)

theorem freeBuffer (idle : state.consumer.pc = .idle) {length : Nat}
    (within : length ≤ state.consumer.view.length) :
    Valid config { state with
      head := state.head + length
      consumer := { state.consumer with
        waitingMore := false
        view :=
          { address := state.consumer.view.address + length
            length := state.consumer.view.length - length } } } := by
  have consumer := valid.consumer
  unfold ConsumerValid at consumer
  rw [idle] at consumer
  obtain ⟨visible, shows⟩ := consumer
  have fits := valid.fits
  have threshold := valid.threshold
  refine ⟨by dsimp only; omega, by dsimp only; omega, by dsimp only; omega, valid.started,
    valid.length, ?_, ?_, ?_⟩
  · intro place above below
    dsimp only at above
    exact valid.ring place (by omega) below
  · have producer := valid.producer
    unfold ProducerValid at producer ⊢
    dsimp only
    split at producer
    next => trivial
    next => exact producer
    next => exact ⟨producer.1, by omega, producer.2.2⟩
  · unfold ConsumerValid
    dsimp only
    rw [idle]
    refine ⟨by omega, ?_⟩
    intro index below
    rw [Nat.add_assoc, Nat.add_assoc]
    exact shows (length + index) (by omega)

theorem step_valid (rounded : config.Rounded) {action : Action} {next : State}
    (went : step config state action = some next) : Valid config next := by
  cases action with
  | push data =>
    simp only [step] at went
    split at went <;> cases went
    exact valid.startPush data
  | producer => exact valid.stepProducer rounded went
  | waitBuffer =>
    simp only [step] at went
    split at went <;> cases went
    exact valid.waitBuffer rounded
  | consumer => exact valid.stepConsumer rounded went
  | freeBuffer length =>
    simp only [step] at went
    split at went <;> cases went
    next may => exact valid.freeBuffer may.1 may.2

end Valid

end AdkAaf.Adk.StreamBuffer
