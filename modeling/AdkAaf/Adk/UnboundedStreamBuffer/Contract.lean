import AdkAaf.Adk.UnboundedStreamBuffer.Calls

/-! What the users of an `UnboundedStreamBuffer` rely on: the bytes freed and the bytes
exposed are the stream, and as many bytes as the prefix zone has room for are gathered by
a few calls of `WaitBuffer`. -/

set_option autoImplicit false

namespace AdkAaf.Adk.UnboundedStreamBuffer

open Lib Option List

open Node (streamBuffer)

variable {config : Config} {state : State}

theorem create_valid {blockSize prefixSize unusedCacheSize nodeLimitNr : UInt32}
    (created : create blockSize prefixSize unusedCacheSize nodeLimitNr = some config)
    (sizes : (roundUp blockSize).toNat + (roundUp prefixSize).toNat < 2 ^ 31)
    (cache : unusedCacheSize.toNat ≤ 2 ^ 27) : config.Valid := by
  unfold create at created
  dsimp only at created
  split at created
  next => cases created
  next =>
    rw [← some.inj created]
    have least : (max unusedCacheSize 1).toNat = max unusedCacheSize.toNat 1 := toNat_max _ _
    have most : (max (max unusedCacheSize 1) 2).toNat = max (max unusedCacheSize 1).toNat 2 :=
      toNat_max _ _
    have block := int32_eq (show -2 ^ 31 ≤ ((roundUp blockSize).toNat : Int) by omega)
      (by omega)
    have zone := int32_eq (show -2 ^ 31 ≤ ((roundUp prefixSize).toNat : Int) by omega)
      (by omega)
    refine ⟨?_, ?_, ?_, ?_⟩
    · dsimp only
      omega
    · dsimp only
      omega
    · dsimp only
      omega
    · obtain ⟨exponent, small, size, _⟩ := roundToPowerOf2_le
        (show 0 < (max (max unusedCacheSize 1) 2).toNat by omega)
        (show (max (max unusedCacheSize 1) 2).toNat ≤ 2 ^ 27 by omega) (by decide)
      exact ⟨exponent, small, size⟩

theorem Config.Valid.clearedBytes_le (fits : config.Valid) :
    config.clearedBytes ≤ config.nodeBytes := by
  have bytes := fits.nodeBytes_eq
  unfold Config.clearedBytes
  rw [fits.tailThreshold_eq]
  omega

/-- The bytes freed and the bytes exposed are a beginning of the stream, and the exposed
ones are in the node. -/
def Exposes (config : Config) (state : State) : Prop :=
  state.freed ++ exposed state <+: state.chain.accepted ∧
    streamBuffer state.consumer.head + exposedLength state ≤ config.nodeBytes

def Returns (config : Config) (state : State) : Prop :=
  ∃ count final, execute (step config) state (replicate count .consumer) = some final ∧
    final.consumer.pc = .idle ∧ final.freed = state.freed ∧ final.waits = state.waits + 1

/-- So many bytes are exposed when some number of calls have returned, whatever the producer
does meanwhile, and without the producer some calls of the consumer get there. -/
def Gathers (config : Config) (state : State) (count : Nat) : Prop :=
  (∃ calls, ∀ actions final, Guarded (step config) (Holding config) state actions →
    execute (step config) state actions = some final → final.consumer.pc = .idle →
      state.waits + calls ≤ final.waits → count ≤ exposedLength final) ∧
  (Allowed config state .waitBuffer →
    ∃ actions final, (∀ action ∈ actions, action = .waitBuffer ∨ action = .consumer) ∧
      Guarded (step config) (Holding config) state actions ∧
        execute (step config) state actions = some final ∧ final.consumer.pc = .idle ∧
          state.waits < final.waits ∧ count ≤ exposedLength final)

theorem Valid.exposes (ok : Valid config state) (configValid : config.Valid)
    (idle : state.consumer.pc = .idle) : Exposes config state := by
  have consumer := ok.consumer
  unfold ConsumerValid at consumer
  rw [idle] at consumer
  obtain ⟨_, reading⟩ := consumer
  have stream := reading.freed_append_exposed configValid ok
  have length := reading.exposedLength_eq configValid ok
  have tails := ok.chain.tails _ .refl ok.chain.ordered
  have nonneg := ok.head.nonneg
  have fits := configValid.fits
  have bytes := configValid.nodeBytes_eq
  obtain ⟨_, lower, upper⟩ := reading
  have start := streamBuffer_eq nonneg (show state.consumer.head < 2 ^ 31 by omega)
  constructor
  · rw [stream]
    exact take_prefix _ _
  · omega

theorem Valid.gathers (ok : Valid config state) (configValid : config.Valid)
    (idle : state.consumer.pc = .idle) {count : Nat} (fits : (count : Int) ≤ config.prefixSize)
    (within : state.freed.length + count ≤ state.chain.accepted.length) :
    Gathers config state count := by
  have held := held_start ok idle within
  constructor
  · refine ⟨state.chain.last - state.chain.first + 2, ?_⟩
    intro actions final guarded ran finished returned
    have enough := (held.run configValid guarded ran).enough configValid finished
      (by rw [← Nat.add_assoc] at returned; exact returned)
    exact Nat.le_of_add_le_add_left enough
  · intro may
    obtain ⟨actions, final, only, guarded, ran, finished, returned, enough⟩ :=
      held.calls configValid .refl fits idle may
        (show (visible state count).bound ≤ state.waits + (visible state count).bound by omega)
    exact ⟨actions, final, only, guarded, ran, finished, returned, Nat.le_of_add_le_add_left enough⟩

/-- Rounded sizes whose sum an `int32_t` holds give a stream without loss. -/
theorem carries_stream {blockSize prefixSize unusedCacheSize nodeLimitNr : UInt32}
    (created : create blockSize prefixSize unusedCacheSize nodeLimitNr = some config)
    (sizes : (roundUp blockSize).toNat + (roundUp prefixSize).toNat < 2 ^ 31)
    (cache : unusedCacheSize.toNat ≤ 2 ^ 27) {garbage : Nat → Node} {cachePos : Nat → Int}
    {cacheBuffer : Nat → Nat} {actions : List Action}
    (guarded : Guarded (step config) (Allowed config)
      (initialState config garbage cachePos cacheBuffer) actions)
    (ran : execute (step config) (initialState config garbage cachePos cacheBuffer) actions =
      some state) :
    config.clearedBytes ≤ config.nodeBytes ∧ (state.consumer.pc ≠ .idle → Returns config state) ∧
    (state.consumer.pc = .idle → Exposes config state ∧
      ∀ count : Nat, (count : Int) ≤ config.prefixSize →
        state.freed.length + count ≤ state.chain.accepted.length → Gathers config state count) := by
  have configValid := create_valid created sizes cache
  have valid : Valid config state := invariant_of_guarded
      (fun valid allowed stepped => valid.step_valid configValid allowed stepped)
      (valid_initial configValid garbage cachePos cacheBuffer) guarded ran
  refine ⟨configValid.clearedBytes_le, call_returns valid configValid, ?_⟩
  intro idle
  exact ⟨valid.exposes configValid idle, fun count fits within =>
    valid.gathers configValid idle fits within⟩

def blankNode : Node := { next := none, tail := 0, tailThreshold := 0, memory := fun _ => 0 }

def blankState (config : Config) : State :=
  initialState config (fun _ => blankNode) (fun _ => 0) (fun _ => 0)

/-- Three bytes are left in the first node when the consumer goes on to the second. -/
def spanningRun : List Action := flatten
  [[.allocateBuffer 63, .write 60 1, .write 61 2, .write 62 3, .postBuffer 63, .allocateBuffer 2],
    replicate 4 .producer, [.write 0 4, .write 1 5, .postBuffer 2, .waitBuffer],
    replicate 2 .consumer, [.freeBuffer 60, .waitBuffer, .waitBuffer],
    replicate 10 .consumer]

theorem spanning_carries_stream : ∃ config state, create 64 64 1 3 = some config ∧
      execute (step config) (blankState config) spanningRun = some state ∧
      exposed state = [1, 2, 3, 4, 5] ∧ state.freed ++ exposed state <+: state.chain.accepted ∧
      Gathers config state 5 := by
  have checked : (create 64 64 1 3).any (fun config =>
      decide (Guarded (step config) (Allowed config) (blankState config) spanningRun) &&
        (execute (step config) (blankState config) spanningRun).any fun state =>
          decide (state.consumer.pc = .idle ∧ exposed state = [1, 2, 3, 4, 5] ∧
            5 ≤ config.prefixSize ∧
            state.freed.length + 5 ≤ state.chain.accepted.length)) = true := by decide +kernel
  obtain ⟨config, created, checked⟩ := (any_eq_true _ _).mp checked
  obtain ⟨guarded, checked⟩ := (Bool.and_eq_true _ _).mp checked
  obtain ⟨state, ran, checked⟩ := (any_eq_true _ _).mp checked
  obtain ⟨idle, bytes, fits, within⟩ := of_decide_eq_true checked
  obtain ⟨_, _, carried⟩ := carries_stream created (by decide) (by decide)
    (of_decide_eq_true guarded) ran
  obtain ⟨⟨stream, _⟩, gathers⟩ := carried idle
  exact ⟨config, state, created, ran, bytes, stream, gathers 5 fits within⟩

/-- The rounded sizes add up to `2 ^ 31`, a negative `int32_t`: every buffer of the producer
begins a node, and the consumer drops what is left of a node when it leaves it. -/
def wrappedRun : List Action := flatten
  [[.allocateBuffer 1], replicate 4 .producer, [.write 0 7, .postBuffer 1, .allocateBuffer 1],
    replicate 2 .producer, [.malloc 2 blankNode], replicate 2 .producer,
    [.write 0 8, .postBuffer 1, .waitBuffer], replicate 6 .consumer, [.waitBuffer],
    replicate 9 .consumer]

theorem wrapped_drops_byte : ∃ config state, create 2147483584 64 1 3 = some config ∧
      ¬config.clearedBytes ≤ config.nodeBytes ∧
      Guarded (step config) (Allowed config) (blankState config) wrappedRun ∧
      execute (step config) (blankState config) wrappedRun = some state ∧
      state.consumer.pc = .idle ∧ state.freed = [] ∧ exposed state = [8] ∧
      state.chain.accepted = [7, 8] ∧ ¬state.freed ++ exposed state <+: state.chain.accepted := by
  have checked : (create 2147483584 64 1 3).any (fun config =>
      decide (¬config.clearedBytes ≤ config.nodeBytes ∧
        Guarded (step config) (Allowed config) (blankState config) wrappedRun) &&
          (execute (step config) (blankState config) wrappedRun).any fun state =>
            decide (state.consumer.pc = .idle ∧ state.freed = [] ∧ exposed state = [8] ∧
              state.chain.accepted = [7, 8])) = true := by decide +kernel
  obtain ⟨config, created, checked⟩ := (any_eq_true _ _).mp checked
  obtain ⟨sizes, checked⟩ := (Bool.and_eq_true _ _).mp checked
  obtain ⟨outside, guarded⟩ := of_decide_eq_true sizes
  obtain ⟨state, ran, checked⟩ := (any_eq_true _ _).mp checked
  obtain ⟨idle, freed, bytes, accepted⟩ := of_decide_eq_true checked
  refine ⟨config, state, created, outside, guarded, ran, idle, freed, bytes, accepted, ?_⟩
  rw [freed, bytes, accepted]
  decide

end AdkAaf.Adk.UnboundedStreamBuffer
