import AdkAaf.Adk.StreamBuffer.Fifo

/-! What the two sides may rely on. `Init` adds the two sizes in 32 bits, so that the
block it allocates is empty when both are `2 ^ 31`; for all other sizes the contract
holds. -/

set_option autoImplicit false

namespace AdkAaf.Adk.StreamBuffer

open Lib

open Lib (Memory)

variable {config : Config} {state : State}

/-- The memory that `WaitBuffer` has returned is allocated and holds the next bytes of
the stream. -/
def Exposes (config : Config) (state : State) : Prop :=
  state.consumer.pc = .idle → ∀ index < state.consumer.view.length,
    state.consumer.view.address + index < config.blockSize ∧
      state.pushed[state.head + index]? =
        some (state.memory (state.consumer.view.address + index))

def Fits (config : Config) (state : State) (data : List UInt8) : Prop :=
  state.tail + data.length ≤ state.head + config.bufferSize

/-- `Push` without a reload has room. With a reload it fails exactly if it has none, and
then leaves alone all that the consumer sees. -/
def PushExact (config : Config) (state : State) : Prop :=
  (∀ data next, step config state (.push data) = some next →
    next.producer.pc = .reloading data ∨ Fits config state data) ∧
  ∀ next, step config state .producer = some next →
    (next.producer.returned = some .kFailure ↔
      ∃ data, state.producer.pc = .reloading data ∧ ¬Fits config state data) ∧
    (next.producer.returned = some .kFailure →
      next = { state with producer := next.producer })

/-- With `count` bytes unread, at most `prefixSize`, the second of two calls of
`WaitBuffer` with no `FreeBuffer` between them returns as many. -/
def Gathers (config : Config) (prefixSize : Nat) (state : State) : Prop :=
  ∀ count ≤ prefixSize, count ≤ state.tail - state.head → state.consumer.pc = .idle →
    ∀ actions final, execute (step config) state actions = some final →
      (∀ length, .freeBuffer length ∉ actions) → final.consumer.pc = .idle →
        state.waits + 2 ≤ final.waits → count ≤ final.consumer.view.length

def IsByteFifo (config : Config) (prefixSize : Nat) : Prop :=
  ∀ memory actions state,
    execute (step config) (initialState config memory) actions = some state →
      Exposes config state ∧ PushExact config state ∧ Gathers config prefixSize state

namespace Valid

variable (valid : Valid config state)

include valid

theorem exposes (allocated : config.blockSize = config.prefixSize + config.bufferSize) :
    Exposes config state := by
  intro idle i below
  have consumer := valid.consumer
  unfold ConsumerValid at consumer
  rw [idle] at consumer
  obtain ⟨visible, shows⟩ := consumer
  have fits := valid.fits
  rw [allocated]
  rcases shows i below with ring | ⟨zone, holds⟩
  · rw [ring]
    constructor
    · exact Nat.add_lt_add_left (Nat.mod_lt _ (by omega)) _
    · exact valid.ring _ (Nat.le_add_right _ _) (by omega)
  · exact ⟨zone.trans_le (Nat.le_add_right _ _), holds⟩

theorem pushExact : PushExact config state := by
  constructor
  · intro data next went
    simp only [step] at went
    split at went <;> cases went
    by_cases full : state.tail + data.length > state.producer.tailThreshold
    · exact .inl (if_pos full)
    · exact .inr ((Nat.le_of_not_lt full).trans valid.threshold)
  · intro next went
    have producer := valid.producer
    unfold ProducerValid at producer
    simp only [step, StreamBuffer.stepProducer] at went
    split at went
    next => cases went
    next data reloading =>
      rw [reloading] at producer ⊢
      split at went <;> cases went
      next full =>
        refine ⟨⟨fun _ => ⟨data, rfl, Nat.not_le_of_lt full⟩, fun _ => rfl⟩, fun _ => rfl⟩
      next room =>
        simp only [producer, reduceCtorEq, false_iff, false_implies, and_true, not_exists]
        rintro other ⟨same, full⟩
        cases same
        exact full (Nat.le_of_not_lt room)
    next data copied copying =>
      rw [copying] at producer ⊢
      split at went <;> cases went
      · simp [producer.1]
      · simp

end Valid

/-- What two calls without a `FreeBuffer` establish, step by step: the data up to the end
of the ring is enough, or the next call takes the copying branch. -/
structure Gathering (config : Config) (count head waits : Nat) (state : State) : Prop where
  valid : Valid config state
  stays : state.head = head
  unread : head + count ≤ state.tail
  copying : ∀ dataLen copied, state.consumer.pc = .copying dataLen copied → count ≤ dataLen
  once : waits + 1 ≤ state.waits →
    state.consumer.waitingMore = true ∨ count ≤ config.leftLen head
  twice : waits + 2 ≤ state.waits → state.consumer.pc = .idle →
    count ≤ state.consumer.view.length

theorem stepProducer_frame {next : State} (went : stepProducer config state = some next) :
    next.head = state.head ∧ next.consumer = state.consumer ∧ next.waits = state.waits ∧
      state.tail ≤ next.tail := by
  unfold stepProducer at went
  split at went
  next => cases went
  next =>
    dsimp only at went
    split at went
    all_goals
      cases went
      exact ⟨rfl, rfl, rfl, .refl⟩
  next =>
    split at went <;> cases went
    · exact ⟨rfl, rfl, rfl, .refl⟩
    · exact ⟨rfl, rfl, rfl, Nat.le_add_right _ _⟩

namespace Gathering

variable {count head waits : Nat} (gathering : Gathering config count head waits state)

include gathering

theorem producer {next : State} (valid : Valid config next)
    (frame : next.head = state.head ∧ next.consumer = state.consumer ∧
      next.waits = state.waits ∧ state.tail ≤ next.tail) :
    Gathering config count head waits next := by
  obtain ⟨stays, consumer, returned, grown⟩ := frame
  refine ⟨valid, stays.trans gathering.stays, gathering.unread.trans grown, ?_, ?_, ?_⟩
  · rw [consumer]
    exact gathering.copying
  · rw [consumer, returned]
    exact gathering.once
  · rw [consumer, returned]
    exact gathering.twice

theorem waitBuffer (rounded : config.Rounded) (zone : count ≤ config.prefixSize) :
    Gathering config count head waits (waitBuffer config state) := by
  obtain ⟨before, rfl, unread, _, once, _⟩ := gathering
  have valid := before.waitBuffer rounded
  obtain ⟨contiguous, result⟩ | ⟨crossing, waiting, _, result⟩ | ⟨crossing, short, result⟩ :=
    before.waitBuffer_cases rounded
  all_goals rw [result] at valid ⊢
  · have enough : count ≤ state.tail - state.head := by omega
    refine ⟨valid, rfl, unread, ?_, ?_, ?_⟩
    · nofun
    · intro _
      exact .inr (enough.trans contiguous)
    · intro _ _
      exact enough
  · refine ⟨valid, rfl, unread, ?_, ?_, ?_⟩
    · intro dataLen copied pc
      cases pc
      omega
    · intro _
      exact .inl waiting
    · nofun
  · refine ⟨valid, rfl, unread, ?_, ?_, ?_⟩
    · nofun
    · intro _
      exact .inl rfl
    · intro again _
      rcases once (Nat.le_of_succ_le_succ again) with waiting | enough
      · exact zone.trans ((short waiting).le)
      · exact enough

theorem stepConsumer (rounded : config.Rounded) {next : State}
    (went : stepConsumer config state = some next) : Gathering config count head waits next := by
  have valid := gathering.valid.stepConsumer rounded went
  have consumer := gathering.valid.consumer
  unfold StreamBuffer.stepConsumer at went
  dsimp only at went
  split at went
  next => cases went
  next dataLen copied copying =>
    unfold ConsumerValid at consumer
    rw [copying] at consumer
    have enough := gathering.copying dataLen copied copying
    split at went <;> cases went
    · refine { gathering with valid := valid, copying := ?_, twice := ?_ }
      · intro _ _ pc
        cases pc
        exact enough
      · nofun
    · refine ⟨valid, gathering.stays, gathering.unread, ?_, fun _ => .inl consumer.1,
        fun _ _ => enough⟩
      nofun

theorem step_gathering (rounded : config.Rounded) (zone : count ≤ config.prefixSize)
    {action : Action} {next : State} (kept : ∀ length, action ≠ .freeBuffer length)
    (went : step config state action = some next) : Gathering config count head waits next := by
  have valid := gathering.valid.step_valid rounded went
  cases action with
  | push data =>
    simp only [step] at went
    split at went <;> cases went
    exact gathering.producer valid ⟨rfl, rfl, rfl, .refl⟩
  | producer => exact gathering.producer valid (stepProducer_frame went)
  | waitBuffer =>
    simp only [step] at went
    split at went <;> cases went
    exact gathering.waitBuffer rounded zone
  | consumer => exact gathering.stepConsumer rounded went
  | freeBuffer length => exact absurd rfl (kept length)

end Gathering

theorem Valid.gathers (valid : Valid config state) (rounded : config.Rounded)
    {prefixSize : Nat} (covers : config.bufferSize = 0 ∨ prefixSize ≤ config.prefixSize) :
    Gathers config prefixSize state := by
  intro count small unread idle actions final ran kept finished again
  have fits := valid.fits
  have zone : count ≤ config.prefixSize := by
    rcases covers with empty | covers
    · omega
    · exact small.trans covers
  have start : Gathering config count state.head state.waits state := by
    refine ⟨valid, rfl, by have behind := valid.behind; omega, ?_, ?_, ?_⟩
    · intro _ _ copying
      rw [idle] at copying
      cases copying
    · intro early
      exact absurd early (Nat.not_succ_le_self _)
    · intro early
      exact absurd early (by omega)
  have guarded : Guarded (step config)
      (fun _ action => ∀ length, action ≠ .freeBuffer length) state actions := by
    apply guarded_of_forall
    rintro action mem _ length rfl
    exact kept length mem
  have reached : Gathering config count state.head state.waits final := invariant_of_guarded
      (fun gathering may went => gathering.step_gathering rounded zone may went)
      start guarded ran
  exact reached.twice again finished

theorem init_bufferSize_of_gt {bufferSize : UInt32} (prefixSize : UInt32)
    (large : 2 ^ 31 < bufferSize.toNat) : (init bufferSize prefixSize).bufferSize = 0 :=
  congrArg UInt32.toNat (roundToPowerOf2_of_gt large)

theorem init_prefixSize (bufferSize : UInt32) {prefixSize : UInt32}
    (bounded : prefixSize.toNat ≤ 2 ^ 31) :
    (init bufferSize prefixSize).prefixSize = (prefixSize.toNat + 63) / 64 * 64 :=
  roundUp_toNat bounded

theorem init_allocated {bufferSize prefixSize : UInt32}
    (holdable : prefixSize.toNat ≤ 2 ^ 31 - 64 ∨ 2 ^ 31 < bufferSize.toNat) :
    (init bufferSize prefixSize).prefixSize + (init bufferSize prefixSize).bufferSize < 2 ^ 32 := by
  rcases holdable with narrow | large
  · have bound := (init_rounded bufferSize prefixSize).bufferSize_le
    rw [init_prefixSize bufferSize (by omega)]
    omega
  · rw [init_bufferSize_of_gt prefixSize large]
    exact (roundUp prefixSize).toNat_lt

theorem init_of_full {bufferSize prefixSize : UInt32} (wide : 2 ^ 31 - 64 < prefixSize.toNat)
    (ordered : prefixSize.toNat ≤ bufferSize.toNat) (bounded : bufferSize.toNat ≤ 2 ^ 31) :
    init bufferSize prefixSize = { bufferSize := 2 ^ 31, prefixSize := 2 ^ 31 } := by
  have zone : (init bufferSize prefixSize).prefixSize = 2 ^ 31 := by
    rw [init_prefixSize bufferSize (by omega)]
    omega
  obtain ⟨exponent, small, size, above⟩ :=
    roundToPowerOf2_of_le (v := bufferSize) (by omega) bounded
  have top : exponent = 31 := by
    apply Nat.le_antisymm small
    apply Nat.le_of_not_lt
    intro below
    have half : 2 ^ exponent ≤ 2 ^ 30 := Nat.pow_le_pow_right (by decide) (by omega)
    omega
  rw [top] at size
  exact congrArg₂ Config.mk size zone

def pushedByte : List Action := [.push [7], .producer, .producer, .waitBuffer]

theorem not_isByteFifo_of_full (prefixSize : Nat) :
    ¬IsByteFifo { bufferSize := 2 ^ 31, prefixSize := 2 ^ 31 } prefixSize := by
  intro fifo
  have checked : ∃ state, execute (step { bufferSize := 2 ^ 31, prefixSize := 2 ^ 31 })
      (initialState { bufferSize := 2 ^ 31, prefixSize := 2 ^ 31 } fun _ => 0) pushedByte =
        some state ∧ state.consumer.pc = .idle ∧ state.consumer.view.length = 1 :=
    execute_check (by decide +kernel)
  obtain ⟨state, ran, idle, length⟩ := checked
  have inside := ((fifo _ _ _ ran).1 idle 0 (by omega)).1
  exact Nat.not_lt_zero _ inside

/-- `StreamBuffer` is a byte FIFO with a contiguous view exactly if `Init` does not wrap
the size of its block to zero. -/
theorem isByteFifo_iff (bufferSize prefixSize : UInt32) (created : prefixSize ≤ bufferSize) :
    IsByteFifo (init bufferSize prefixSize) prefixSize.toNat ↔
      prefixSize.toNat ≤ 2 ^ 31 - 64 ∨ 2 ^ 31 < bufferSize.toNat := by
  have rounded := init_rounded bufferSize prefixSize
  have ordered := UInt32.le_iff_toNat_le.mp created
  constructor
  · intro fifo
    by_contra full
    rw [init_of_full (by omega) ordered (by omega)] at fifo
    exact not_isByteFifo_of_full _ fifo
  · intro holdable memory actions state ran
    have valid : Valid (init bufferSize prefixSize) state :=
      invariant_of_execute (fun valid stepped => valid.step_valid rounded stepped)
        (valid_initial _ memory) ran
    refine ⟨valid.exposes (uint32_eq (init_allocated holdable)), valid.pushExact,
      valid.gathers rounded ?_⟩
    by_cases large : 2 ^ 31 < bufferSize.toNat
    · exact .inl (init_bufferSize_of_gt prefixSize large)
    · rw [init_prefixSize bufferSize (by omega)]
      exact .inr (by omega)

theorem small_isByteFifo : (64 : UInt32) ≤ 128 ∧ IsByteFifo (init 128 64) 64 :=
  ⟨by decide, (isByteFifo_iff 128 64 (by decide)).mpr (.inl (by decide))⟩

theorem largest_not_isByteFifo :
    (2147483648 : UInt32) ≤ 2147483648 ∧ ¬IsByteFifo (init 2147483648 2147483648) 2147483648 := by
  refine ⟨by decide, ?_⟩
  rw [init_of_full (by decide) (by decide) (by decide)]
  exact not_isByteFifo_of_full _

end AdkAaf.Adk.StreamBuffer
