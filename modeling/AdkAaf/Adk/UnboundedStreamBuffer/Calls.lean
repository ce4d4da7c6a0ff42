import AdkAaf.Adk.UnboundedStreamBuffer.Consumer

/-! `WaitBuffer` returns after finitely many steps of the consumer, whatever the producer
does, and a few calls of it gather what is in the nodes of the chain. -/

set_option autoImplicit false

namespace AdkAaf.Adk.UnboundedStreamBuffer

open Lib QueueVariant Option

variable {config : Config} {state next : State}

/-- The steps of the consumer until `WaitBuffer` returns, at most. -/
def stepsLeft (state : State) : Nat :=
  let leftLen := (state.consumer.headThreshold - state.consumer.head).toNat
  match state.consumer.pc with
  | .idle => 0
  | .checking => leftLen + 13
  | .comparing => leftLen + 12
  | .rechecking => 13
  | .rereading => 12
  | .reloading | .caching _ | .releasing _ => 1
  | .following => leftLen + 11
  | .skipping => 10
  | .copying _ copied => leftLen - copied + 10
  | .advancing _ => 9
  | .recycling _ => 8
  | .deleting _ => Ring.pushSteps state.cache.push + 2

/-- A step of a call, which stays in the call or returns from it. -/
structure CallStep (config : Config) (state next : State) : Prop where
  valid : Valid config next
  less : stepsLeft next < stepsLeft state
  freed : next.freed = state.freed
  waits : next.waits = if next.consumer.pc = .idle then state.waits + 1 else state.waits

theorem Leaving.next_eq {chain : Chain} {consumer : Consumer}
    (leaving : Leaving config chain consumer) (chainValid : ChainValid config chain) :
    (chain.nodes consumer.headPtr).next = some (chain.place (chain.first + 1)) := by
  obtain ⟨⟨headPtr, _⟩, _, more, _⟩ := leaving
  rw [headPtr]
  exact chainValid.links _ .refl more

theorem callStep (ok : Valid config state) (fits : config.Valid)
    (running : state.consumer.pc ≠ .idle) :
    ∃ next, stepConsumer config state = some next ∧ CallStep config state next := by
  have consumer := ok.consumer
  have finish : ∀ next, stepConsumer config state = some next →
      stepsLeft next < stepsLeft state → next.freed = state.freed →
        next.waits = (if next.consumer.pc = .idle then state.waits + 1 else state.waits) →
          ∃ next, stepConsumer config state = some next ∧ CallStep config state next :=
    fun next went less freed waits =>
      ⟨next, went, ok.stepConsumer fits went, less, freed, waits⟩
  unfold ConsumerValid at consumer
  cases at_ : state.consumer.pc with
  | idle => exact absurd at_ running
  | checking =>
    cases found : (state.chain.nodes state.consumer.headPtr).next with
    | none =>
      apply finish (moveConsumer state .reloading) _ _ rfl rfl
      · simp [stepConsumer, at_, found]
      · simp [stepsLeft, moveConsumer, at_]
    | some id =>
      apply finish (moveConsumer state .comparing) _ _ rfl rfl
      · simp [stepConsumer, at_, found]
      · simp [stepsLeft, moveConsumer, at_]
  | comparing =>
    by_cases same :
        state.consumer.headThreshold = (state.chain.nodes state.consumer.headPtr).tail
    · apply finish (moveConsumer state .following) _ _ rfl rfl
      · simp [stepConsumer, at_, same]
      · simp [stepsLeft, moveConsumer, at_]
    · apply finish (returnBuffer state { state.consumer with
        headThreshold := (state.chain.nodes state.consumer.headPtr).tail }) _ _ rfl rfl
      · simp [stepConsumer, at_, same]
      · simp [stepsLeft, returnBuffer, at_]
  | rechecking =>
    cases found : (state.chain.nodes state.consumer.headPtr).next with
    | none =>
      apply finish (moveConsumer state .reloading) _ _ rfl rfl
      · simp [stepConsumer, at_, found]
      · simp [stepsLeft, moveConsumer, at_]
    | some id =>
      apply finish (moveConsumer state .rereading) _ _ rfl rfl
      · simp [stepConsumer, at_, found]
      · simp [stepsLeft, moveConsumer, at_]
  | rereading =>
    by_cases same : state.consumer.head = (state.chain.nodes state.consumer.headPtr).tail
    · apply finish { state with consumer := { state.consumer with
        headThreshold := (state.chain.nodes state.consumer.headPtr).tail, pc := .skipping } }
        _ _ rfl rfl
      · simp [stepConsumer, at_, same]
      · simp [stepsLeft, at_]
    · apply finish (returnBuffer state { state.consumer with
        headThreshold := (state.chain.nodes state.consumer.headPtr).tail }) _ _ rfl rfl
      · simp [stepConsumer, at_, same]
      · simp [stepsLeft, returnBuffer, at_]
  | reloading =>
    apply finish (returnBuffer state { state.consumer with
      headThreshold := (state.chain.nodes state.consumer.headPtr).tail }) _ _ rfl rfl
    · simp [stepConsumer, at_]
    · simp [stepsLeft, returnBuffer, at_]
  | following =>
    rw [at_] at consumer
    have found := consumer.2.next_eq ok.chain
    have whole := (ok.follow at_ found).1
    apply finish (moveConsumer state (.copying (state.chain.place (state.chain.first + 1)) 0))
      _ _ rfl rfl
    · simp [stepConsumer, at_, found, map_some, if_neg whole]
    · simp [stepsLeft, moveConsumer, at_]
  | skipping =>
    rw [at_] at consumer
    have found := consumer.2.1.next_eq ok.chain
    apply finish { state with
      chain := state.chain.leave state.consumer.headPtr
      consumer := { state.consumer with
        head := config.prefixSize
        pc := .advancing (state.chain.place (state.chain.first + 1)) } } _ _ rfl rfl
    · simp [stepConsumer, at_, found, map_some]
    · simp [stepsLeft, at_]
  | copying id copied =>
    by_cases more : (copied : Int) < state.consumer.headThreshold - state.consumer.head
    · have less : stepsLeft (moveConsumer state (.copying id (copied + 1))) < stepsLeft state := by
        simp only [stepsLeft, moveConsumer, at_]
        omega
      refine ⟨_, by simp only [stepConsumer, at_, if_pos more], ok.carry fits at_ more,
        less, rfl, rfl⟩
    · apply finish { state with
        chain := state.chain.leave state.consumer.headPtr
        consumer := { state.consumer with
          head := config.prefixSize - (state.consumer.headThreshold - state.consumer.head)
          pc := .advancing id } } _ _ rfl rfl
      · simp [stepConsumer, at_, if_neg more]
      · simp [stepsLeft, at_]
  | advancing id =>
    apply finish { state with consumer := { state.consumer with
      headThreshold := (state.chain.nodes id).tail, pc := .recycling id } } _ _ rfl rfl
    · simp [stepConsumer, at_]
    · simp [stepsLeft, at_]
  | recycling id =>
    cases held : state.cacheNode with
    | none =>
      apply finish (moveConsumer state (.caching id)) _ _ rfl rfl
      · simp [stepConsumer, at_, held]
      · simp [stepsLeft, moveConsumer, at_]
    | some other =>
      apply finish (moveConsumer
        { state with cache := state.cache.startPush state.consumer.headPtr } (.deleting id))
        _ _ rfl rfl
      · simp [stepConsumer, at_, held]
      · simp [stepsLeft, moveConsumer, at_, Ring.startPush, Ring.pushSteps]
  | caching id =>
    apply finish (returnBuffer { state with
        cacheNode := some state.consumer.headPtr
        chain := state.chain.setOwner state.consumer.headPtr .cacheNode }
      { state.consumer with headPtr := id }) _ _ rfl rfl
    · simp [stepConsumer, at_]
    · simp [stepsLeft, returnBuffer, at_]
  | deleting id =>
    rw [at_] at consumer
    obtain ⟨cache, event, went, fewer⟩ := Ring.stepPush_progress config.cacheSize consumer.1
    have kept := ok.delete fits at_ went
    cases event with
    | running =>
      refine ⟨{ state with cache }, by simp [stepConsumer, at_, went], kept, ?_, rfl, ?_⟩
      · have := fewer rfl
        simpa [stepsLeft, at_] using this
      · simp [at_]
    | kQueueFull =>
      refine ⟨_, by simp only [stepConsumer, at_, went], kept, ?_, rfl, rfl⟩
      simp [stepsLeft, moveConsumer, at_]
    | kSuccess =>
      refine ⟨_, by simp only [stepConsumer, at_, went], kept, ?_, rfl, rfl⟩
      simp [stepsLeft, returnBuffer, at_]
  | releasing id =>
    refine ⟨_, by simp only [stepConsumer, at_], ok.release at_, ?_, rfl, rfl⟩
    simp [stepsLeft, returnBuffer, at_]

structure InCall (config : Config) (start state : State) : Prop where
  valid : Valid config state
  freed : state.freed = start.freed
  waits : state.waits = if state.consumer.pc = .idle then start.waits + 1 else start.waits

theorem call_returns (ok : Valid config state) (fits : config.Valid)
    (running : state.consumer.pc ≠ .idle) :
    ∃ count final, execute (step config) state (List.replicate count .consumer) = some final ∧
        final.consumer.pc = .idle ∧ final.freed = state.freed ∧ final.waits = state.waits + 1 := by
  have progress : ∀ {reached}, InCall config state reached → ¬reached.consumer.pc = .idle →
      ∃ next, step config reached .consumer = some next ∧ InCall config state next ∧
        stepsLeft next < stepsLeft reached := by
    intro reached called still
    obtain ⟨next, went, taken⟩ := callStep called.valid fits still
    refine ⟨next, went, ⟨taken.valid, taken.freed.trans called.freed, ?_⟩, taken.less⟩
    rw [taken.waits, called.waits, if_neg still]
  have start : InCall config state state := ⟨ok, rfl, (if_neg running).symm⟩
  obtain ⟨count, final, ran, called, idle⟩ := reaches_of_measure progress start
  have waits := called.waits
  rw [if_pos idle] at waits
  exact ⟨count, final, ran, idle, called.freed, waits⟩

/-! ## Gathering

The bytes up to `position` are in the nodes up to `node`. A call that does not return as
many either loads a `tail` that has moved or leaves a node, and until `bound` calls have
returned there are not so many of both. -/

structure Target where
  position : Nat
  node : Nat
  bound : Nat

def Enough (config : Config) (target : Target) (chain : Chain) (consumer : Consumer) : Prop :=
  (target.position : Int) + config.prefixSize ≤ chain.base chain.first + consumer.headThreshold

def stale (chain : Chain) (consumer : Consumer) : Nat :=
  if consumer.headThreshold = (chain.node chain.first).tail then 0 else 1

/-- The calls to come do not exceed `bound`, with so many more that do not count. -/
def Pending (config : Config) (target : Target) (state : State) (more : Nat) : Prop :=
  Enough config target state.chain state.consumer ∨
    state.chain.first ≤ target.node ∧
      state.waits + (target.node - state.chain.first) + stale state.chain state.consumer + more ≤
        target.bound

def Due (config : Config) (target : Target) (state : State) : Prop :=
  let chain := state.chain
  match state.consumer.pc with
  | .idle => Pending config target state (if state.consumer.waitingMore = true then 0 else 1)
  | .reloading => Enough config target chain state.consumer ∨ chain.first = target.node
  | .advancing _ =>
    target.position ≤ chain.base chain.first ∨
      chain.first ≤ target.node ∧
        state.waits + (target.node - chain.first) + 1 ≤ target.bound
  | .recycling _ | .caching _ | .deleting _ | .releasing _ => Pending config target state 1
  | .checking | .comparing | .rechecking | .rereading | .following | .skipping | .copying _ _ =>
    Pending config target state 0

structure Covers (config : Config) (target : Target) (chain : Chain) : Prop where
  within : target.node ≤ chain.last
  covers : chain.first ≤ target.node →
    (target.position : Int) + config.prefixSize ≤
      chain.base target.node + (chain.node target.node).tail

structure Gathering (config : Config) (target : Target) (state : State) : Prop where
  waiting : state.consumer.pc ≠ .idle → state.consumer.waitingMore = true
  covers : Covers config target state.chain
  due : Due config target state

section Producer

variable {target : Target} {chain after : Chain}

theorem Covers.frame (covers : Covers config target chain) (frame : ProducerFrame chain after) :
    Covers config target after := by
  refine ⟨covers.within.trans frame.last, fun before => ?_⟩
  rw [frame.first] at before
  have tails := frame.tails target.node before covers.within
  rw [frame.base _ covers.within]
  exact Int.le_trans (covers.covers before) (Int.add_le_add_left tails _)

theorem Enough.frame {consumer : Consumer} (ordered : chain.first ≤ chain.last)
    (frame : ProducerFrame chain after) :
    Enough config target after consumer ↔ Enough config target chain consumer := by
  unfold Enough
  rw [frame.first, frame.base _ ordered]

theorem stale_frame {consumer : Consumer} (covers : Covers config target chain)
    (frame : ProducerFrame chain after) (before : chain.first ≤ target.node)
    (missing : ¬Enough config target chain consumer) :
    stale after consumer ≤ stale chain consumer := by
  have within := covers.within
  unfold stale
  rw [frame.first]
  rcases Nat.lt_or_eq_of_le before with earlier | same
  · apply Nat.le_of_eq
    rw [frame.sealed _ .refl (by omega)]
  · have reached := covers.covers before
    unfold Enough at missing
    rw [← same] at reached
    rw [if_neg (show consumer.headThreshold ≠ (chain.node chain.first).tail by omega)]
    split
    next => exact Nat.zero_le _
    next => exact .refl

theorem Pending.frame {more : Nat} (pending : Pending config target state more)
    (covers : Covers config target state.chain) (ordered : state.chain.first ≤ state.chain.last)
    (went : ProducerStep config state next) : Pending config target next more := by
  obtain ⟨_, frame, consumer, _, waits⟩ := went
  unfold Pending at pending ⊢
  rw [consumer, waits, Enough.frame ordered frame]
  by_cases enough : Enough config target state.chain state.consumer
  · exact .inl enough
  · obtain ⟨before, within⟩ := pending.resolve_left enough
    have less := stale_frame covers frame before enough
    rw [frame.first]
    exact .inr ⟨before, by omega⟩

theorem Gathering.byProducer (gathering : Gathering config target state)
    (ordered : state.chain.first ≤ state.chain.last) (went : ProducerStep config state next) :
    Gathering config target next := by
  obtain ⟨waiting, covers, due⟩ := gathering
  obtain ⟨_, frame, consumer, _, waits⟩ := id went
  refine ⟨consumer ▸ waiting, covers.frame frame, ?_⟩
  unfold Due at due ⊢
  rw [consumer]
  split at due
  next => exact due.frame covers ordered went
  next =>
    dsimp only at due ⊢
    rw [Enough.frame ordered frame, frame.first]
    exact due
  next =>
    dsimp only at due ⊢
    rw [frame.first, frame.base _ ordered, waits]
    exact due
  all_goals exact due.frame covers ordered went

end Producer

section Consumer

variable {target : Target}

theorem Pending.keep {more more' : Nat} (pending : Pending config target state more)
    (first : next.chain.first = state.chain.first) (base : next.chain.base = state.chain.base)
    (tail : (next.chain.node state.chain.first).tail = (state.chain.node state.chain.first).tail)
    (threshold : next.consumer.headThreshold = state.consumer.headThreshold)
    (waits : next.waits + more' ≤ state.waits + more) : Pending config target next more' := by
  unfold Pending Enough stale at pending ⊢
  rw [first, base, tail, threshold]
  rcases pending with enough | ⟨before, within⟩
  · exact .inl enough
  · exact .inr ⟨before, by omega⟩

theorem Pending.ofLoaded {more : Nat}
    (loaded : state.consumer.headThreshold = (state.chain.node state.chain.first).tail)
    (due : Enough config target state.chain state.consumer ∨ state.chain.first ≤ target.node ∧
        state.waits + (target.node - state.chain.first) + more ≤ target.bound) :
    Pending config target state more := by
  unfold Pending stale
  rw [if_pos loaded]
  exact due

theorem Pending.load (pending : Pending config target state 0)
    (reading : Reading state.chain state.consumer)
    (moved : state.consumer.headThreshold ≠ (state.chain.nodes state.consumer.headPtr).tail) :
    Pending config target (returnBuffer state { state.consumer with
      headThreshold := (state.chain.nodes state.consumer.headPtr).tail }) 0 := by
  obtain ⟨headPtr, _, upper⟩ := reading
  rw [headPtr] at moved ⊢
  change state.consumer.headThreshold ≠ (state.chain.node state.chain.first).tail at moved
  apply Pending.ofLoaded rfl
  unfold Pending stale at pending
  rw [if_neg moved] at pending
  rcases pending with enough | ⟨before, within⟩
  · exact .inl (Int.le_trans enough (Int.add_le_add_left upper _))
  · refine .inr ⟨before, ?_⟩
    change state.waits + 1 + (target.node - state.chain.first) + 0 ≤ _
    omega

theorem Enough.reload (due : Enough config target state.chain state.consumer ∨
      state.chain.first = target.node)
    (covers : Covers config target state.chain) (reading : Reading state.chain state.consumer) :
    Pending config target (returnBuffer state { state.consumer with
      headThreshold := (state.chain.nodes state.consumer.headPtr).tail }) 0 := by
  obtain ⟨headPtr, _, upper⟩ := reading
  rw [headPtr]
  left
  rcases due with enough | same
  · exact Int.le_trans enough (Int.add_le_add_left upper _)
  · have reached := covers.covers same.le
    rw [← same] at reached
    exact reached

theorem Pending.last {more : Nat} (pending : Pending config target state more)
    (ok : Valid config state) (covers : Covers config target state.chain)
    (reading : Reading state.chain state.consumer)
    (open_ : (state.chain.nodes state.consumer.headPtr).next = none) :
    Enough config target state.chain state.consumer ∨ state.chain.first = target.node := by
  have within := covers.within
  rw [reading.1] at open_
  rcases Nat.lt_or_eq_of_le ok.chain.ordered with earlier | last
  · have linked := ok.chain.links _ .refl earlier
    exact absurd (open_.symm.trans linked) (by simp)
  · rcases pending with enough | ⟨before, _⟩
    · exact .inl enough
    · exact .inr (by omega)

theorem Pending.leave (pending : Pending config target state 0) (ok : Valid config state)
    (covers : Covers config target state.chain)
    (leaving : Leaving config state.chain state.consumer) :
    target.position ≤ state.chain.base (state.chain.first + 1) ∨
      state.chain.first + 1 ≤ target.node ∧
        state.waits + (target.node - (state.chain.first + 1)) + 1 ≤ target.bound := by
  obtain ⟨_, _, more, complete⟩ := leaving
  have base := ok.chain.bases _ .refl more
  unfold Pending Enough at pending
  rcases pending with enough | ⟨before, within⟩
  · exact .inl (by omega)
  · rcases Nat.lt_or_eq_of_le before with earlier | same
    · exact .inr ⟨earlier, by omega⟩
    · have reached := covers.covers before
      rw [← same] at reached
      exact .inl (by omega)

theorem Pending.advance {id : Nat} (at_ : id = state.chain.place state.chain.first)
    (due : target.position ≤ state.chain.base state.chain.first ∨ state.chain.first ≤ target.node ∧
        state.waits + (target.node - state.chain.first) + 1 ≤ target.bound)
    (ok : Valid config state) :
    Pending config target { state with consumer := { state.consumer with
      headThreshold := (state.chain.nodes id).tail, pc := .recycling id } } 1 := by
  have tails := ok.chain.tails _ .refl ok.chain.ordered
  subst at_
  apply Pending.ofLoaded rfl
  rcases due with behind | ahead
  · left
    change _ ≤ (_ : Int) + (state.chain.node state.chain.first).tail
    change (target.position : Int) + _ ≤ state.chain.base state.chain.first + _
    omega
  · exact .inr ahead

variable {chain : Chain}

theorem Covers.leave {headPtr : Nat} (covers : Covers config target chain) :
    Covers config target (chain.leave headPtr) :=
  ⟨covers.within, fun before => covers.covers (Nat.le_of_succ_le before)⟩

theorem Covers.setOwner (covers : Covers config target chain) (id : Nat)
    (owner : Owner) : Covers config target (chain.setOwner id owner) :=
  ⟨covers.within, covers.covers⟩

theorem Covers.store (covers : Covers config target chain) (id address : Nat)
    (byte : UInt8) : Covers config target (chain.store id address byte) := by
  refine ⟨covers.within, fun before => ?_⟩
  rw [tail_store]
  exact covers.covers before

theorem Gathering.returned {consumer : Consumer} (waiting : consumer.waitingMore = true)
    (covers : Covers config target state.chain)
    (pending : Pending config target (returnBuffer state consumer) 0) :
    Gathering config target (returnBuffer state consumer) := by
  refine ⟨fun _ => waiting, covers, ?_⟩
  change Pending config target _ (if consumer.waitingMore = true then 0 else 1)
  rw [if_pos waiting]
  exact pending

theorem Gathering.stepConsumer (gathering : Gathering config target state)
    (ok : Valid config state) (went : stepConsumer config state = some next) :
    Gathering config target next := by
  have consumer := ok.consumer
  unfold ConsumerValid at consumer
  obtain ⟨waiting, covers, due⟩ := gathering
  unfold Due at due
  unfold UnboundedStreamBuffer.stepConsumer at went
  dsimp only at went due
  split at went
  next => cases went
  next at_ =>
    have more := waiting (by simp [at_])
    rw [at_] at consumer due
    split at went <;> cases went
    next open_ => exact ⟨fun _ => more, covers, due.last ok covers consumer.2.1 open_⟩
    · exact ⟨fun _ => more, covers, due.keep rfl rfl rfl rfl .refl⟩
  next at_ =>
    have more := waiting (by simp [at_])
    rw [at_] at consumer due
    split at went <;> cases went
    next moved => exact .returned more covers (due.load consumer.2.1 moved)
    · exact ⟨fun _ => more, covers, due.keep rfl rfl rfl rfl .refl⟩
  next at_ =>
    have more := waiting (by simp [at_])
    rw [at_] at consumer due
    split at went <;> cases went
    next open_ => exact ⟨fun _ => more, covers, due.last ok covers consumer.2.1 open_⟩
    · exact ⟨fun _ => more, covers, due.keep rfl rfl rfl rfl .refl⟩
  next at_ =>
    have more := waiting (by simp [at_])
    rw [at_] at consumer due
    obtain ⟨_, reading, empty, _⟩ := consumer
    split at went <;> cases went
    next same =>
      exact ⟨fun _ => more, covers, due.keep rfl rfl rfl (same.symm.trans empty) .refl⟩
    next moved => exact .returned more covers (due.load reading (empty ▸ moved))
  next at_ =>
    have more := waiting (by simp [at_])
    rw [at_] at consumer due
    cases went
    exact .returned more covers (Enough.reload due covers consumer.2)
  next at_ =>
    have more := waiting (by simp [at_])
    rw [at_] at due
    obtain ⟨id, found, rfl⟩ := map_eq_some_iff.mp went
    rw [if_neg (ok.follow at_ found).1]
    exact ⟨fun _ => more, covers, due.keep rfl rfl rfl rfl .refl⟩
  next at_ =>
    have more := waiting (by simp [at_])
    rw [at_] at consumer due
    obtain ⟨id, found, rfl⟩ := map_eq_some_iff.mp went
    exact ⟨fun _ => more, covers.leave, due.leave ok covers consumer.2.1⟩
  next id copied at_ =>
    have more := waiting (by simp [at_])
    rw [at_] at consumer due
    split at went <;> cases went
    · exact ⟨fun _ => more, covers.store _ _ _,
        due.keep rfl rfl (tail_store _ _ _ _ _) rfl .refl⟩
    · exact ⟨fun _ => more, covers.leave, due.leave ok covers consumer.2.1⟩
  next id at_ =>
    have more := waiting (by simp [at_])
    rw [at_] at consumer due
    cases went
    exact ⟨fun _ => more, covers, Pending.advance consumer.2.1.1 due ok⟩
  next id at_ =>
    have more := waiting (by simp [at_])
    rw [at_] at due
    split at went
    all_goals
      cases went
      exact ⟨fun _ => more, covers, due.keep rfl rfl rfl rfl .refl⟩
  next id at_ =>
    have more := waiting (by simp [at_])
    rw [at_] at due
    cases went
    exact .returned more (covers.setOwner _ _) (due.keep rfl rfl rfl rfl .refl)
  next id at_ =>
    have more := waiting (by simp [at_])
    rw [at_] at due
    split at went <;> cases went
    · refine ⟨fun _ => more, covers, ?_⟩
      unfold Due
      rw [at_]
      exact due.keep rfl rfl rfl rfl .refl
    · exact ⟨fun _ => more, covers, due.keep rfl rfl rfl rfl .refl⟩
    · exact .returned more (covers.setOwner _ _) (due.keep rfl rfl rfl rfl .refl)
  next id at_ =>
    have more := waiting (by simp [at_])
    rw [at_] at due
    cases went
    exact .returned more (covers.setOwner _ _) (due.keep rfl rfl rfl rfl .refl)

theorem Gathering.startWait (gathering : Gathering config target state)
    (idle : state.consumer.pc = .idle) : Gathering config target (waitBuffer state) := by
  obtain ⟨_, covers, due⟩ := gathering
  unfold Due at due
  rw [idle] at due
  unfold waitBuffer
  dsimp only
  split
  next waiting =>
    rw [if_pos waiting] at due
    exact ⟨fun _ => waiting, covers, due.keep rfl rfl rfl rfl .refl⟩
  next fresh =>
    rw [if_neg fresh] at due
    split
    next => exact ⟨fun _ => rfl, covers, due.keep rfl rfl rfl rfl (Nat.le_succ _)⟩
    next => exact .returned rfl covers (due.keep rfl rfl rfl rfl .refl)

end Consumer

/-- The allowed steps between two calls of `FreeBuffer` -/
def Holding (config : Config) (state : State) : Action → Prop
  | .freeBuffer _ => False
  | action => Allowed config state action

structure Held (config : Config) (target : Target) (freed : List UInt8) (state : State) :
    Prop where
  valid : Valid config state
  gathering : Gathering config target state
  freed : state.freed = freed

variable {target : Target} {freed : List UInt8} {count : Nat}

section

variable (fits : config.Valid) (held : Held config target freed state)
include fits held

theorem Held.step {action : Action} (holding : Holding config state action)
    (went : step config state action = some next) : Held config target freed next := by
  obtain ⟨ok, gathering, same⟩ := held
  have producer : ∀ (_ : action ≠ .waitBuffer) (_ : action ≠ .consumer)
      (_ : ∀ length, action ≠ .freeBuffer length), Held config target freed next := by
    intro noWait noConsumer noFree
    have made := ok.producerStep fits noWait noConsumer noFree went
    exact ⟨made.valid, gathering.byProducer ok.chain.ordered made, made.freed.trans same⟩
  cases action with
  | waitBuffer =>
    have may : Allowed config state .waitBuffer := holding
    have nextValid := ok.step_valid fits may went
    simp only [UnboundedStreamBuffer.step] at went
    split at went <;> cases went
    next idle =>
      refine ⟨nextValid, gathering.startWait idle, ?_⟩
      rw [← same]
      unfold waitBuffer
      dsimp only
      split
      next => rfl
      next => split <;> rfl
  | consumer =>
    have running : state.consumer.pc ≠ .idle := by
      intro idle
      simp [UnboundedStreamBuffer.step, stepConsumer, idle] at went
    obtain ⟨other, same', called⟩ := callStep ok fits running
    obtain rfl := some.inj (same'.symm.trans went)
    exact ⟨called.valid, gathering.stepConsumer ok went, called.freed.trans same⟩
  | freeBuffer => exact holding.elim
  | _ =>
    exact producer (by simp) (by simp) (by simp)

theorem Held.run {final : State} {actions : List Action}
    (guarded : Guarded (UnboundedStreamBuffer.step config) (Holding config) state actions)
    (ran : execute (UnboundedStreamBuffer.step config) state actions = some final) :
    Held config target freed final :=
  invariant_of_guarded (fun held holding went => held.step fits holding went)
    held guarded ran

theorem Held.enough (idle : state.consumer.pc = .idle) (spent : target.bound ≤ state.waits) :
    target.position ≤ freed.length + exposedLength state := by
  obtain ⟨ok, ⟨_, covers, due⟩, same⟩ := held
  have consumer := ok.consumer
  unfold ConsumerValid at consumer
  rw [idle] at consumer
  have length := consumer.2.exposedLength_eq fits ok
  have position := ok.head.position
  rw [same] at position
  unfold Due at due
  rw [idle] at due
  have enough : Enough config target state.chain state.consumer := by
    by_contra missing
    obtain ⟨before, within⟩ := due.resolve_left missing
    have last : state.chain.first = target.node := by omega
    have reached := covers.covers before
    unfold Enough at missing
    unfold stale at within
    rw [← last] at reached
    rw [if_neg (show state.consumer.headThreshold ≠
      (state.chain.node state.chain.first).tail by omega)] at within
    omega
  unfold Enough at enough
  omega

end

def visible (state : State) (count : Nat) : Target :=
  { position := state.freed.length + count
    node := state.chain.last
    bound := state.waits + (state.chain.last - state.chain.first) + 2 }

theorem held_start (ok : Valid config state) (idle : state.consumer.pc = .idle)
    (within : state.freed.length + count ≤ state.chain.accepted.length) :
    Held config (visible state count) state.freed state := by
  have total := ok.chain.total
  have ordered := ok.chain.ordered
  refine ⟨ok, ⟨fun running => absurd idle running, ⟨.refl, fun _ => ?_⟩, ?_⟩, rfl⟩
  · change ((state.freed.length + count : Nat) : Int) + config.prefixSize ≤
      state.chain.base state.chain.last + (state.chain.node state.chain.last).tail
    omega
  · unfold Due
    rw [idle]
    refine .inr ⟨ordered, ?_⟩
    change state.waits + (state.chain.last - state.chain.first) +
      stale state.chain state.consumer + _ ≤
        state.waits + (state.chain.last - state.chain.first) + 2
    have moved : stale state.chain state.consumer ≤ 1 := by
      unfold stale
      split <;> omega
    split <;> omega

theorem waits_waitBuffer (state : State) : (waitBuffer state).waits =
      if (waitBuffer state).consumer.pc = .idle then state.waits + 1 else state.waits := by
  unfold waitBuffer
  dsimp only
  split
  next => rfl
  next => split <;> rfl

theorem Held.call (fits : config.Valid) (held : Held config target freed state)
    (idle : state.consumer.pc = .idle) (may : Allowed config state .waitBuffer) :
    ∃ actions final, (∀ action ∈ actions, action = .waitBuffer ∨ action = .consumer) ∧
      Guarded (UnboundedStreamBuffer.step config) (Holding config) state actions ∧
        execute (UnboundedStreamBuffer.step config) state actions = some final ∧
          final.consumer.pc = .idle ∧ final.waits = state.waits + 1 := by
  have went : UnboundedStreamBuffer.step config state .waitBuffer =
      some (waitBuffer state) := if_pos idle
  have valid := (held.step fits (show Holding config state .waitBuffer from may)
    went).valid
  by_cases returned : (waitBuffer state).consumer.pc = .idle
  · refine ⟨[.waitBuffer], waitBuffer state, by simp, ⟨may, ?_⟩, ?_, returned, ?_⟩
    · rw [went]
      trivial
    · simp [execute, went]
    · rw [waits_waitBuffer, if_pos returned]
  · obtain ⟨count, final, ran, idle', _, waits⟩ := call_returns valid fits returned
    refine ⟨.waitBuffer :: List.replicate count .consumer, final, ?_, ⟨may, ?_⟩,
      execute_cons.mpr ⟨_, went, ran⟩, idle', ?_⟩
    · intro action mem
      rcases List.mem_cons.mp mem with first | later
      · exact .inl first
      · exact .inr (List.eq_of_mem_replicate later)
    · rw [went]
      apply guarded_of_forall
      intro action mem reached
      rw [List.eq_of_mem_replicate mem]
      trivial
    · rw [waits, waits_waitBuffer, if_neg returned]

theorem Held.calls (configValid : config.Valid) (short : target.position ≤ freed.length + count)
    (fits : (count : Int) ≤ config.prefixSize) {left : Nat}
    (held : Held config target freed state) (idle : state.consumer.pc = .idle)
    (may : Allowed config state .waitBuffer) (bound : target.bound ≤ state.waits + left) :
    ∃ actions final, (∀ action ∈ actions, action = .waitBuffer ∨ action = .consumer) ∧
      Guarded (UnboundedStreamBuffer.step config) (Holding config) state actions ∧
        execute (UnboundedStreamBuffer.step config) state actions = some final ∧
          final.consumer.pc = .idle ∧ state.waits < final.waits ∧
            target.position ≤ freed.length + exposedLength final := by
  induction left generalizing state with
  | zero =>
    obtain ⟨actions, final, only, guarded, ran, idle', waits⟩ := held.call configValid idle may
    have after := held.run configValid guarded ran
    exact ⟨actions, final, only, guarded, ran, idle', by omega,
      after.enough configValid idle' (by omega)⟩
  | succ left ih =>
    obtain ⟨actions, middle, only, guarded, ran, idle', waits⟩ := held.call configValid idle may
    have after := held.run configValid guarded ran
    by_cases enough : target.position ≤ freed.length + exposedLength middle
    · exact ⟨actions, middle, only, guarded, ran, idle', by omega, enough⟩
    · have again : Allowed config middle .waitBuffer := fun _ => by omega
      obtain ⟨later, final, only', guarded', ran', idle'', waits', enough'⟩ :=
        ih after idle' again (by omega)
      refine ⟨actions ++ later, final, ?_, guarded.append ran guarded',
        execute_append.mpr ⟨middle, ran, ran'⟩, idle'', by omega, enough'⟩
      intro action mem
      rcases List.mem_append.mp mem with first | second
      · exact only action first
      · exact only' action second

end AdkAaf.Adk.UnboundedStreamBuffer
