import AdkAaf.Adk.UnboundedStreamBuffer.Producer

/-! The steps of `WaitBuffer` and `FreeBuffer`. -/

set_option autoImplicit false

namespace AdkAaf.Adk.UnboundedStreamBuffer

open Function Lib QueueVariant List

open Lib (Memory)
open Node (streamBuffer)

variable {config : Config} {chain : Chain} {state next : State}

theorem ConsumerFrame.refl (chain : Chain) : ConsumerFrame config chain chain :=
  ⟨rfl, rfl, rfl, fun _ _ => rfl, fun _ owned => ⟨owned, rfl⟩⟩

theorem ConsumerFrame.ofOwner {id first : Nat} {owner : Owner}
    (other : chain.owner id ≠ .producer) :
    ConsumerFrame config chain { chain.setOwner id owner with first } := by
  refine ⟨rfl, rfl, rfl, fun _ _ => rfl, ?_⟩
  intro held owned
  refine ⟨(update_of_ne ?_ _ _).trans owned, rfl⟩
  rintro rfl
  exact other owned

theorem ConsumerFrame.store (chainValid : ChainValid config chain) {number address : Nat}
    {byte : UInt8} (above : chain.first ≤ number) (below : number ≤ chain.last)
    (zone : (address : Int) < config.prefixSize) :
    ConsumerFrame config chain (chain.store (chain.place number) address byte) := by
  refine ⟨rfl, rfl, tail_store chain _ address byte _, ?_, ?_⟩
  · intro other inside
    by_cases own : chain.last = number
    · rw [own]
      exact memory_store (by omega)
    · have apart : chain.place chain.last ≠ chain.place number := fun same =>
        own (chainValid.place_injective chainValid.ordered .refl above below same)
      rw [Chain.store, Chain.node_setNode_of_ne _ apart]
  · intro id owned
    refine ⟨owned, update_of_ne ?_ _ _⟩
    rintro rfl
    rw [chainValid.owner number above below] at owned
    cases owned

namespace HeadValid

variable {head : Int} {freed : List UInt8} (valid : HeadValid config chain head freed)

include valid

theorem setOwner (id : Nat) (owner : Owner) :
    HeadValid config (chain.setOwner id owner) head freed :=
  { valid with }

theorem store {id address : Nat} {byte : UInt8} (apart : chain.place chain.first ≠ id) :
    HeadValid config (chain.store id address byte) head freed := by
  have same : (chain.store id address byte).node chain.first = chain.node chain.first := by
    rw [Chain.store, Chain.node_setNode_of_ne _ apart]
  refine { valid with leftover := ?_ }
  intro index other pos start inside
  change (other : Int) < ((chain.store id address byte).node chain.first).tail at inside
  change chain.accepted[index]? = some (((chain.store id address byte).node chain.first).memory _)
  rw [same] at inside ⊢
  exact valid.leftover index other pos start inside

theorem leave (chainValid : ChainValid config chain) {headPtr : Nat} {consumer : Consumer}
    (at_ : head = consumer.head) (leaving : Leaving config chain consumer)
    (carried : ∀ offset : Nat, (offset : Int) < consumer.headThreshold - consumer.head →
      ∀ address source : Nat, (address : Int) =
          config.prefixSize - (consumer.headThreshold - consumer.head) + offset →
            (source : Int) = consumer.head + offset →
              (chain.node (chain.first + 1)).memory address =
                (chain.node chain.first).memory source) : HeadValid config (chain.leave headPtr)
      (config.prefixSize - (consumer.headThreshold - consumer.head)) freed := by
  obtain ⟨_, short, more, complete⟩ := leaving
  unfold Short at short
  have base := chainValid.bases chain.first .refl more
  have position := valid.position
  have nonneg := valid.nonneg
  refine ⟨by omega, ?_, ?_, valid.freed⟩
  · change _ = (chain.base (chain.first + 1) : Int) + _
    omega
  · intro index address place start inside
    change (index : Int) + config.prefixSize = chain.base (chain.first + 1) + address at place
    change chain.accepted[index]? = some ((chain.node (chain.first + 1)).memory address)
    by_cases zone : (address : Int) < config.prefixSize
    · -- the byte has been copied from behind `head` in the old node
      obtain ⟨source, from_⟩ := Int.eq_ofNat_of_zero_le
        (show 0 ≤ address - config.prefixSize + consumer.headThreshold by omega)
      obtain ⟨offset, distance⟩ := Int.eq_ofNat_of_zero_le
        (show 0 ≤ (source : Int) - consumer.head by omega)
      rw [carried offset (by omega) address source (by omega) (by omega)]
      exact valid.leftover index source (by omega) (by omega) (by omega)
    · exact chainValid.contents (chain.first + 1) (Nat.le_succ _) more index address place
        (by omega) inside

end HeadValid

theorem Reading.exposedLength_eq (configValid : config.Valid) (valid : Valid config state)
    (reading : Reading state.chain state.consumer) :
    (exposedLength state : Int) = state.consumer.headThreshold - state.consumer.head := by
  have tails := valid.chain.tails _ .refl valid.chain.ordered
  have nonneg := valid.head.nonneg
  have fits := configValid.fits
  obtain ⟨_, lower, upper⟩ := reading
  exact toUint32_eq (by omega) (by omega)

theorem Reading.exposed_eq (configValid : config.Valid) (valid : Valid config state)
    (reading : Reading state.chain state.consumer) :
    exposed state = (state.chain.accepted.drop state.freed.length).take (exposedLength state) := by
  have tails := valid.chain.tails _ .refl valid.chain.ordered
  have nonneg := valid.head.nonneg
  have position := valid.head.position
  have fits := configValid.fits
  have length := reading.exposedLength_eq configValid valid
  obtain ⟨headPtr, lower, upper⟩ := reading
  have start := streamBuffer_eq nonneg (show state.consumer.head < 2 ^ 31 by omega)
  have byte : ∀ offset < exposedLength state, state.chain.accepted[state.freed.length + offset]? =
        some ((state.chain.node state.chain.first).memory
          (streamBuffer state.consumer.head + offset)) := by
    intro offset inside
    exact valid.head.leftover _ _ (by omega) (by omega) (by omega)
  apply ext_getElem?
  intro offset
  unfold exposed
  rw [headPtr]
  by_cases inside : offset < exposedLength state
  · rw [Memory.getElem?_slice _ (by omega), getElem?_take_of_lt inside,
      getElem?_drop, byte offset inside]
    rfl
  · rw [getElem?_eq_none (by rw [Memory.length_slice]; omega),
      getElem?_eq_none (by rw [length_take]; omega)]

theorem Reading.loadTail {consumer : Consumer} (reading : Reading chain consumer)
    (pc : ConsumerPc) :
    Reading chain { consumer with headThreshold := (chain.nodes consumer.headPtr).tail, pc } := by
  obtain ⟨headPtr, lower, upper⟩ := reading
  rw [headPtr]
  exact ⟨rfl, Int.le_trans lower upper, Int.le_refl _⟩

theorem Leaving.store {consumer : Consumer} (leaving : Leaving config chain consumer)
    (id address : Nat) (byte : UInt8) : Leaving config (chain.store id address byte) consumer := by
  obtain ⟨⟨headPtr, lower, upper⟩, short, more, complete⟩ := leaving
  have tail := tail_store chain id address byte chain.first
  exact ⟨⟨headPtr, lower, Int.le_trans upper (Int.le_of_eq tail.symm)⟩, short, more,
    complete.trans tail.symm⟩

theorem Reading.freed_append_exposed (fits : config.Valid) (valid : Valid config state)
    (reading : Reading state.chain state.consumer) : state.freed ++ exposed state =
      state.chain.accepted.take (state.freed.length + exposedLength state) := by
  rw [reading.exposed_eq fits valid, take_add]
  congr 1
  exact prefix_iff_eq_take.mp valid.head.freed

namespace Valid

variable (valid : Valid config state)

include valid

theorem moveConsumer {consumer : Consumer} {waits : Nat}
    (head : consumer.head = state.consumer.head)
    (consumerValid : ConsumerValid config state.chain state.cacheNode state.cache.push consumer) :
    Valid config { state with consumer, waits } :=
  valid.byConsumer valid.chain (.refl _) valid.cache rfl (fun _ => id)
    (head ▸ valid.head) consumerValid

theorem startWait (fits : config.Valid) (idle : state.consumer.pc = .idle)
    (may : Allowed config state .waitBuffer) : Valid config (waitBuffer state) := by
  have consumer := valid.consumer
  unfold ConsumerValid at consumer
  rw [idle] at consumer
  have length := consumer.2.exposedLength_eq fits valid
  unfold waitBuffer
  dsimp only
  split
  next waiting =>
    have short : Short config state.consumer := by
      unfold Short
      rw [← length]
      exact may waiting
    exact valid.moveConsumer rfl ⟨consumer.1, consumer.2, short⟩
  next =>
    split
    next empty => exact valid.moveConsumer rfl ⟨consumer.1, consumer.2, empty⟩
    next => exact valid.moveConsumer rfl consumer

theorem free (fits : config.Valid) {length : Nat} (idle : state.consumer.pc = .idle)
    (inside : length ≤ exposedLength state) :
    Valid config { state with
      consumer := { state.consumer with
        head := state.consumer.head + length, waitingMore := false }
      freed := state.freed ++ (exposed state).take length } := by
  have consumer := valid.consumer
  unfold ConsumerValid at consumer
  rw [idle] at consumer
  obtain ⟨push, headPtr, lower, upper⟩ := consumer
  have reading : Reading state.chain state.consumer := ⟨headPtr, lower, upper⟩
  have whole := reading.exposedLength_eq fits valid
  have position := valid.head.position
  have nonneg := valid.head.nonneg
  have count : ((exposed state).take length).length = length := by
    rw [length_take, exposed, Memory.length_slice]
    omega
  have bytes : state.freed ++ (exposed state).take length <+: state.freed ++ exposed state :=
    (prefix_append_right_inj _).mpr (List.take_prefix _ _)
  rw [reading.freed_append_exposed fits valid] at bytes
  refine valid.byConsumer valid.chain (.refl _) valid.cache rfl (fun _ => id) ?_ ?_
  · refine ⟨?_, ?_, ?_, bytes.trans (List.take_prefix _ _)⟩
    · change 0 ≤ state.consumer.head + length
      omega
    · rw [length_append, count]
      change _ = (_ : Int) + (state.consumer.head + length)
      omega
    · intro index address place start
      exact valid.head.leftover index address place
        (Int.le_trans (Int.le_add_of_nonneg_right (Int.natCast_nonneg length)) start)
  · unfold ConsumerValid
    rw [idle]
    refine ⟨push, headPtr, ?_, upper⟩
    change state.consumer.head + length ≤ state.consumer.headThreshold
    omega

theorem next_of_some {id : Nat}
    (headPtr : state.consumer.headPtr = state.chain.place state.chain.first)
    (found : (state.chain.nodes state.consumer.headPtr).next = some id) :
    state.chain.first < state.chain.last ∧ id = state.chain.place (state.chain.first + 1) := by
  rw [headPtr] at found
  rcases Nat.lt_or_eq_of_le valid.chain.ordered with more | last
  · refine ⟨more, ?_⟩
    have linked := valid.chain.links state.chain.first .refl more
    exact Option.some.inj (found.symm.trans linked)
  · have open_ := valid.chain.open_
    rw [← last] at open_
    exact absurd (found.symm.trans open_) (by simp)

theorem leave {next : Nat} (leaving : Leaving config state.chain state.consumer)
    (push : state.cache.push = .idle) (at_ : next = state.chain.place (state.chain.first + 1))
    (carried : ∀ offset : Nat, (offset : Int) < state.consumer.headThreshold - state.consumer.head →
        ∀ address source : Nat, (address : Int) = config.prefixSize -
            (state.consumer.headThreshold - state.consumer.head) + offset →
              (source : Int) = state.consumer.head + offset →
                (state.chain.node (state.chain.first + 1)).memory address =
                  (state.chain.node state.chain.first).memory source) :
    Valid config { state with
      chain := state.chain.leave state.consumer.headPtr
      consumer := { state.consumer with
        head := config.prefixSize - (state.consumer.headThreshold - state.consumer.head)
        pc := .advancing next } } := by
  obtain ⟨⟨headPtr, lower, upper⟩, _, more, _⟩ := id leaving
  have owned := valid.chain.owner state.chain.first .refl valid.chain.ordered
  rw [← headPtr] at owned
  refine valid.byConsumer (valid.chain.leave headPtr more) (.ofOwner (by simp [owned]))
    (valid.cache.setOwner (by simp [owned]) (by simp [owned])) rfl (fun _ => id)
    (valid.head.leave valid.chain rfl leaving carried) ?_
  refine ⟨push, ⟨at_, update_self _ _ _⟩, ?_⟩
  change config.prefixSize - _ ≤ config.prefixSize
  omega

theorem skip {next : Nat} (leaving : Leaving config state.chain state.consumer)
    (empty : state.consumer.head = state.consumer.headThreshold)
    (push : state.cache.push = .idle) (at_ : next = state.chain.place (state.chain.first + 1)) :
    Valid config { state with
      chain := state.chain.leave state.consumer.headPtr
      consumer := { state.consumer with head := config.prefixSize, pc := .advancing next } } := by
  have left := valid.leave leaving push at_ (fun offset inside => absurd inside (by omega))
  rw [← empty, Int.sub_self, Int.sub_zero] at left
  exact left

theorem follow {next : Nat} (at_ : state.consumer.pc = .following)
    (found : (state.chain.nodes state.consumer.headPtr).next = some next) :
    ¬state.consumer.headThreshold > (state.chain.nodes state.consumer.headPtr).tailThreshold ∧
      Valid config (UnboundedStreamBuffer.moveConsumer state (.copying next 0)) := by
  have consumer := valid.consumer
  unfold ConsumerValid at consumer
  rw [at_] at consumer
  obtain ⟨push, leaving⟩ := consumer
  obtain ⟨⟨headPtr, lower, upper⟩, _⟩ := id leaving
  have threshold := valid.chain.thresholds _ .refl valid.chain.ordered
  have tails := valid.chain.tails _ .refl valid.chain.ordered
  obtain ⟨more, next_⟩ := valid.next_of_some headPtr found
  constructor
  · rw [headPtr]
    unfold Chain.node at threshold tails upper
    omega
  · refine valid.moveConsumer rfl ⟨push, leaving, next_, ?_, ?_⟩
    · change ((0 : Nat) : Int) ≤ state.consumer.headThreshold - state.consumer.head
      omega
    · intro offset inside
      exact absurd inside (Nat.not_lt_zero _)

theorem carry (configValid : config.Valid) {next copied : Nat}
    (at_ : state.consumer.pc = .copying next copied)
    (more : (copied : Int) < state.consumer.headThreshold - state.consumer.head) :
    Valid config (UnboundedStreamBuffer.moveConsumer { state with
        chain := state.chain.store next
          (streamBuffer (config.prefixSize -
            (state.consumer.headThreshold - state.consumer.head)) + copied)
          ((state.chain.nodes state.consumer.headPtr).memory
            (streamBuffer state.consumer.head + copied)) }
      (.copying next (copied + 1))) := by
  have consumer := valid.consumer
  unfold ConsumerValid at consumer
  rw [at_] at consumer
  obtain ⟨push, leaving, rfl, copies, carried⟩ := consumer
  obtain ⟨⟨headPtr, lower, upper⟩, short, after, complete⟩ := id leaving
  unfold Short at short
  have nonneg := valid.head.nonneg
  have tails := valid.chain.tails _ .refl valid.chain.ordered
  have fits := configValid.fits
  have from_ := streamBuffer_eq nonneg (show state.consumer.head < 2 ^ 31 by omega)
  have zone : 0 ≤ config.prefixSize - (state.consumer.headThreshold - state.consumer.head) := by
    omega
  have target := streamBuffer_eq zone (by omega)
  have apart : state.chain.place state.chain.first ≠ state.chain.place (state.chain.first + 1) := by
    intro same
    have equal := valid.chain.place_injective .refl valid.chain.ordered
      (Nat.le_succ _) after same
    omega
  refine valid.byConsumer (valid.chain.store (Nat.le_succ _) after (.inl (by omega)))
    (.store valid.chain (Nat.le_succ _) after (by omega)) valid.cache rfl (fun _ => id)
    (valid.head.store apart) ⟨push, leaving.store _ _ _, rfl, ?_, ?_⟩
  · change ((copied + 1 : Nat) : Int) ≤ state.consumer.headThreshold - state.consumer.head
    omega
  · intro offset inside address source place from_'
    change (address : Int) =
      config.prefixSize - (state.consumer.headThreshold - state.consumer.head) + offset at place
    change (source : Int) = state.consumer.head + offset at from_'
    rw [headPtr]
    change ((state.chain.store (state.chain.place (state.chain.first + 1)) _ _).node
      (state.chain.first + 1)).memory address =
        ((state.chain.store (state.chain.place (state.chain.first + 1)) _ _).node
          state.chain.first).memory source
    have old : (state.chain.store (state.chain.place (state.chain.first + 1))
        (streamBuffer (config.prefixSize -
          (state.consumer.headThreshold - state.consumer.head)) + copied)
        ((state.chain.nodes (state.chain.place state.chain.first)).memory
          (streamBuffer state.consumer.head + copied))).node state.chain.first =
        state.chain.node state.chain.first := by
      rw [Chain.store, Chain.node_setNode_of_ne _ apart]
    rw [old]
    rcases Nat.lt_or_eq_of_le (Nat.le_of_lt_succ inside) with earlier | newest
    · rw [memory_store (by omega)]
      exact carried offset earlier address source place from_'
    · have at_ : address = streamBuffer (config.prefixSize -
          (state.consumer.headThreshold - state.consumer.head)) + copied := by omega
      have same : source = streamBuffer state.consumer.head + copied := by omega
      rw [at_, memory_store_self, same]
      rfl

theorem advance {next : Nat} (at_ : state.consumer.pc = .advancing next) :
    Valid config { state with
      consumer := { state.consumer with
        headThreshold := (state.chain.nodes next).tail, pc := .recycling next } } := by
  have consumer := valid.consumer
  unfold ConsumerValid at consumer
  rw [at_] at consumer
  obtain ⟨push, ⟨rfl, owned⟩, before⟩ := consumer
  have tails := valid.chain.tails _ .refl valid.chain.ordered
  exact valid.moveConsumer rfl ⟨push, ⟨rfl, owned⟩, Int.le_trans before tails.1, Int.le_refl _⟩

variable {cache : QueueVariant.Ring Nat}

theorem recycle {next : Nat} {owner : Owner} {cacheNode : Option Nat}
    {freeNr waits : Nat} (left : Left state.chain state.consumer next)
    (loaded : Loaded state.chain state.consumer) (push : cache.push = .idle)
    (pop : cache.pop = state.cache.pop)
    (kept : ∀ id, state.cacheNode = some id → cacheNode = some id) (cacheValid : CacheValid config
      (update state.chain.owner state.consumer.headPtr owner) cacheNode cache) :
    Valid config { state with
      chain := state.chain.setOwner state.consumer.headPtr owner
      cacheNode, cache
      consumer := { state.consumer with headPtr := next, freeNr, pc := .idle }
      waits } := by
  obtain ⟨at_, owned⟩ := left
  exact valid.byConsumer (valid.chain.setOwner (by simp [owned])) (.ofOwner (by simp [owned]))
    cacheValid pop kept (valid.head.setOwner _ _) ⟨push, at_, loaded⟩

theorem cacheHead {next : Nat} (at_ : state.consumer.pc = .caching next) :
    Valid config (returnBuffer { state with
        cacheNode := some state.consumer.headPtr
        chain := state.chain.setOwner state.consumer.headPtr .cacheNode }
      { state.consumer with headPtr := next }) := by
  have consumer := valid.consumer
  unfold ConsumerValid at consumer
  rw [at_] at consumer
  obtain ⟨push, left, loaded, empty⟩ := consumer
  refine valid.recycle left loaded push rfl (fun id held => ?_) ?_
  · rw [empty] at held
    cases held
  · have others : CacheValid config
        (update state.chain.owner state.consumer.headPtr .cacheNode) state.cacheNode
        state.cache := valid.cache.setOwner (by simp [left.2]) (by simp [left.2])
    refine { others with cacheNode := ?_ }
    rintro id held
    cases held
    exact update_self _ _ _

theorem delete (fits : config.Valid) {next : Nat} (at_ : state.consumer.pc = .deleting next)
    {event : PushEvent}
    (went : Ring.stepPush config.cacheSize state.cache = some (cache, event)) :
    Valid config (match event with
      | .running => { state with cache }
      | .kQueueFull =>
        UnboundedStreamBuffer.moveConsumer { state with cache } (.releasing next)
      | .kSuccess => returnBuffer { state with
            cache, chain := state.chain.setOwner state.consumer.headPtr .unusedCache }
          { state.consumer with headPtr := next }) := by
  have consumer := valid.consumer
  unfold ConsumerValid at consumer
  rw [at_] at consumer
  obtain ⟨pushing, left, loaded⟩ := consumer
  obtain ⟨ring, pop, effect⟩ := Ring.stepPush_spec fits.cache valid.cache.ring went
  cases event with
  | running =>
    refine valid.byConsumer valid.chain (.refl _) (valid.cache.setRing ring effect.1) pop
      (fun _ => id) valid.head ?_
    unfold ConsumerValid
    rw [at_]
    exact ⟨effect.2.trans pushing, left, loaded⟩
  | kQueueFull =>
    exact valid.byConsumer valid.chain (.refl _) (valid.cache.setRing ring effect.1) pop
      (fun _ => id) valid.head ⟨effect.2, left, loaded⟩
  | kSuccess =>
    obtain ⟨idle, pushed, same, contents⟩ := effect
    rw [pushing] at same
    cases same
    refine valid.recycle left loaded idle pop (fun _ => id) ?_
    have absent : state.consumer.headPtr ∉ state.cache.contents := by
      intro mem
      have owned := valid.cache.unused _ mem
      rw [left.2] at owned
      cases owned
    have others : CacheValid config
        (update state.chain.owner state.consumer.headPtr .unusedCache) state.cacheNode
        state.cache := valid.cache.setOwner (by simp [left.2]) (by simp [left.2])
    refine ⟨ring, ?_, ?_, others.cacheNode⟩
    · intro id mem
      rw [contents] at mem
      rcases mem_append.mp mem with earlier | added
      · exact others.unused id earlier
      · rw [mem_singleton.mp added]
        exact update_self _ _ _
    · rw [contents]
      apply nodup_append.mpr
      refine ⟨valid.cache.distinct, nodup_singleton _, ?_⟩
      rintro id mem _ added rfl
      rw [mem_singleton.mp added] at mem
      exact absent mem

theorem release {next : Nat} (at_ : state.consumer.pc = .releasing next) :
    Valid config (returnBuffer
      { state with chain := state.chain.setOwner state.consumer.headPtr .heap }
      { state.consumer with
        headPtr := next, freeNr := state.consumer.freeNr + 1 }) := by
  have consumer := valid.consumer
  unfold ConsumerValid at consumer
  rw [at_] at consumer
  obtain ⟨push, left, loaded⟩ := consumer
  exact valid.recycle left loaded push rfl (fun _ => id)
    (valid.cache.setOwner (by simp [left.2]) (by simp [left.2]))

theorem stepConsumer (fits : config.Valid)
    (went : stepConsumer config state = some next) : Valid config next := by
  have consumer := valid.consumer
  unfold ConsumerValid at consumer
  unfold UnboundedStreamBuffer.stepConsumer at went
  dsimp only at went
  split at went
  next => cases went
  next at_ =>
    rw [at_] at consumer
    split at went <;> cases went
    · exact valid.moveConsumer rfl ⟨consumer.1, consumer.2.1⟩
    next id found =>
      exact valid.moveConsumer rfl ⟨consumer.1, consumer.2.1, consumer.2.2,
        (valid.next_of_some consumer.2.1.1 found).1⟩
  next at_ =>
    rw [at_] at consumer
    obtain ⟨push, reading, short, more⟩ := consumer
    split at went <;> cases went
    · exact valid.moveConsumer rfl ⟨push, reading.loadTail _⟩
    next same =>
      refine valid.moveConsumer rfl ⟨push, reading, short, more, ?_⟩
      have loaded := Decidable.not_not.mp same
      rw [reading.1] at loaded
      exact loaded
  next at_ =>
    rw [at_] at consumer
    split at went <;> cases went
    · exact valid.moveConsumer rfl ⟨consumer.1, consumer.2.1⟩
    next id found =>
      exact valid.moveConsumer rfl ⟨consumer.1, consumer.2.1, consumer.2.2,
        (valid.next_of_some consumer.2.1.1 found).1⟩
  next at_ =>
    rw [at_] at consumer
    obtain ⟨push, reading, empty, more⟩ := consumer
    split at went <;> cases went
    next same =>
      refine valid.moveConsumer rfl ⟨push, ⟨reading.loadTail _, ?_, more, ?_⟩, same⟩
      · have zone := fits.prefixSize
        change (state.chain.nodes state.consumer.headPtr).tail - state.consumer.head ≤ _
        omega
      · exact congrArg (fun id => (state.chain.nodes id).tail) reading.1
    · exact valid.moveConsumer rfl ⟨push, reading.loadTail _⟩
  next at_ =>
    rw [at_] at consumer
    cases went
    exact valid.moveConsumer rfl ⟨consumer.1, consumer.2.loadTail _⟩
  next at_ =>
    obtain ⟨id, found, rfl⟩ := Option.map_eq_some_iff.mp went
    obtain ⟨whole, followed⟩ := valid.follow at_ found
    rw [if_neg whole]
    exact followed
  next at_ =>
    rw [at_] at consumer
    obtain ⟨push, leaving, empty⟩ := consumer
    obtain ⟨id, found, rfl⟩ := Option.map_eq_some_iff.mp went
    exact valid.skip leaving empty push (valid.next_of_some leaving.1.1 found).2
  next id copied at_ =>
    split at went <;> cases went
    next more => exact valid.carry fits at_ more
    · rw [at_] at consumer
      obtain ⟨push, leaving, next_, _, carried⟩ := consumer
      exact valid.leave leaving push next_ fun offset inside => carried offset (by omega)
  next id at_ =>
    cases went
    exact valid.advance at_
  next id at_ =>
    rw [at_] at consumer
    split at went <;> cases went
    next empty => exact valid.moveConsumer rfl ⟨consumer.1, consumer.2.1, consumer.2.2, empty⟩
    · exact valid.byConsumer valid.chain (.refl _)
        (valid.cache.setRing (valid.cache.ring.startPush _) rfl) rfl (fun _ held => held)
        valid.head ⟨rfl, consumer.2⟩
  next id at_ =>
    cases went
    exact valid.cacheHead at_
  next id at_ =>
    split at went <;> cases went
    next cache pushed => exact valid.delete fits at_ pushed
    next cache pushed => exact valid.delete fits at_ pushed
    next cache pushed => exact valid.delete fits at_ pushed
  next id at_ =>
    cases went
    exact valid.release at_

theorem step_valid (fits : config.Valid) {action : Action}
    (may : Allowed config state action) (went : step config state action = some next) :
    Valid config next := by
  cases action with
  | waitBuffer =>
    simp only [step] at went
    split at went <;> cases went
    next idle => exact valid.startWait fits idle may
  | consumer => exact valid.stepConsumer fits went
  | freeBuffer length =>
    simp only [step] at went
    split at went <;> cases went
    next inside => exact valid.free fits inside.1 inside.2
  | _ =>
    exact (valid.producerStep fits (by simp) (by simp) (by simp) went).valid

end Valid

theorem valid_initial (fits : config.Valid) (garbage : Nat → Node) (cachePos : Nat → Int)
    (cacheBuffer : Nat → Nat) :
    Valid config (initialState config garbage cachePos cacheBuffer) := by
  have zone := fits.prefixSize
  have block := fits.blockSize
  have reset : ∀ number,
      Reset config ((initialState config garbage cachePos cacheBuffer).chain.node number) := by
    intro number
    exact ⟨rfl, rfl, fits.tailThreshold_eq⟩
  have empty : ∀ number start, config.prefixSize ≤ start →
      Holds config (initialState config garbage cachePos cacheBuffer).chain number start := by
    intro number start behind index address _ above inside
    rw [(reset number).2.1] at inside
    omega
  refine ⟨⟨Ring.valid_create fits.cache _ _, ?_, nodup_nil, ?_⟩,
    ⟨Nat.le_refl 0, ?_, ?_, (reset _).1, fun number _ _ => (reset number).2.2, ?_, ?_, ?_, ?_⟩,
    ⟨zone, rfl, empty _ _ (Int.le_refl _), nil_prefix⟩, ⟨rfl, rfl, ?_⟩, rfl, rfl,
    Int.le_refl _, ?_⟩
  · nofun
  · rintro id held
    cases held
    rfl
  · intro number _ below
    obtain rfl := Nat.eq_zero_of_le_zero below
    rfl
  · intro number _ below
    exact absurd below (Nat.not_lt_zero _)
  · intro number _ _
    rw [(reset number).2.1]
    omega
  · intro number _ below
    exact absurd below (Nat.not_lt_zero _)
  · rw [(reset _).2.1]
    rfl
  · intro number _ _
    exact empty number _ (Int.le_refl _)
  · unfold room
    rw [(reset _).2.1]
    change (0 : Int) ≤ _
    omega
  · rw [(reset _).2.1]
    exact Int.le_refl _

end AdkAaf.Adk.UnboundedStreamBuffer
