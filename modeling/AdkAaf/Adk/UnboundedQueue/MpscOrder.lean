import AdkAaf.Adk.UnboundedQueue.Mpsc

/-! The steps of `MPSCUnboundedQueue` that store, and what its users see: one producer at a
time appends a node, each writes to the entry of its index, and the elements are popped in
the order of the indices. -/

set_option autoImplicit false

namespace AdkAaf.Adk.UnboundedQueue.Mpsc

open Function Lib Option List

variable {Value : Type} {config : Config} {state next : State Value} {queue after : Queue Value}
  {pc : ProducerPc Value} {entry : Entry Value}

namespace StateValid

variable (valid : StateValid config state)

include valid

variable {thread id : Nat}

theorem store {node : Node Value} (appending : Appending (state.producers thread))
    (queueValid : Valid config (setNode state.queue id node))
    (buffer : node.buffer = (state.queue.nodes id).buffer)
    (fields : (∀ number, state.queue.owner id ≠ .chain number) ∨
      node.nodeHold = (state.queue.nodes id).nodeHold ∧ node.prev = (state.queue.nodes id).prev)
    (same : assigned pc = assigned (state.producers thread))
    (fewer : ∀ index, Mpsc.pending pc = some index →
      Mpsc.pending (state.producers thread) = some index)
    (pcValid : PcValid config (setNode state.queue id node) pc) :
    StateValid config (move state thread (setNode state.queue id node) pc) := by
  obtain ⟨index, value, held, last⟩ := valid.threshold_of_appending appending
  refine valid.moveTo queueValid ?_ rfl rfl rfl valid.threshold same fewer pcValid ?_
  · refine valid.chain.kept .refl rfl rfl ?_
    intro number above below
    simp only [setNode]
    by_cases own : state.queue.place number = id
    · rcases fields with outside | fields
      · exact absurd own (valid.queue.place_ne above below outside)
      · rw [own, update_self]
        exact fields
    · rw [update_of_ne own]
      exact ⟨rfl, rfl⟩
  · refine valid.others held last ⟨.refl, .refl, fun _ _ => rfl⟩ ?_
    intro other entry _
    simp only [setNode]
    by_cases own : entry.node = id
    · rw [own, update_self, buffer]
    · rw [update_of_ne own]

theorem newNode {newNode after : NewNodePc} (at_ : state.producers thread = .newNode entry newNode)
    (queueValid : Valid config queue) (frame : NewNodeFrame state.queue queue)
    (newNodeValid : NewNodeValid queue after) :
    StateValid config (move state thread queue (.newNode entry after)) := by
  have threadValid := valid.threads thread
  rw [at_] at threadValid
  have outside : OutsideFrame state.queue queue :=
    ⟨frame.tailThreshold.symm.le, frame.last.symm.le,
      fun number _ => congrFun frame.place number⟩
  refine valid.moveTo queueValid ?_ frame.tail frame.posted frame.last ?_ (by rw [at_]; rfl)
    (fun _ waits => by rw [at_]; exact waits) ?_ ?_
  · apply valid.chain.kept frame.first.symm.le frame.last frame.place
    intro number above below
    rw [(frame.chain _ number (valid.queue.chain number above below)).1]
    exact ⟨rfl, rfl⟩
  · rw [frame.tailThreshold, frame.last]
    exact valid.threshold
  · exact ⟨threadValid.1.frame outside frame.last frame.tailThreshold, newNodeValid⟩
  · exact valid.others (by rw [at_]; rfl) threadValid.1.2.2 outside (valid.kept_newNode frame)

theorem hold (at_ : state.producers thread = .newNode entry (.ready id)) :
    StateValid config (move state thread (setHold state.queue id
        ((state.queue.nodes state.queue.tailPtr).nodeHold + config.nodeSize))
      (.backing entry id)) := by
  have threadValid := valid.threads thread
  rw [at_] at threadValid
  obtain ⟨atEnd, _, owned⟩ := threadValid
  have hold := valid.chain.holds state.queue.last valid.queue.ordered .refl
  rw [← valid.queue.tailPtr] at hold
  refine valid.store (by rw [at_]; trivial) (valid.queue.setHold _ _) rfl
    (.inl (by simp [owned])) (by rw [at_]; rfl) (fun _ waits => by rw [at_]; exact waits) ?_
  refine ⟨atEnd, owned, ?_⟩
  simp only [setNode]
  rw [update_self, hold, Nat.succ_mul]

theorem back (at_ : state.producers thread = .backing entry id) : StateValid config
      (move state thread (setPrev state.queue id state.queue.tailPtr) (.linking entry id)) := by
  have threadValid := valid.threads thread
  rw [at_] at threadValid
  obtain ⟨atEnd, owned, hold⟩ := threadValid
  refine valid.store (by rw [at_]; trivial) (valid.queue.setPrev _ _) rfl
    (.inl (by simp [owned])) (by rw [at_]; rfl) (fun _ waits => by rw [at_]; exact waits) ?_
  refine ⟨atEnd, ⟨owned, ?_⟩, ?_⟩
  · simp only [setNode]
    rw [update_self]
    exact hold
  · simp only [setNode]
    rw [update_self]

theorem link (at_ : state.producers thread = .linking entry id) : StateValid config
      (move state thread (setNext state.queue state.queue.tailPtr (some id))
        (.moving entry id)) := by
  have threadValid := valid.threads thread
  rw [at_] at threadValid
  obtain ⟨atEnd, ⟨owned, hold⟩, back⟩ := threadValid
  have apart : id ≠ state.queue.tailPtr := by
    rintro rfl
    have chained := valid.queue.chain state.queue.last valid.queue.ordered .refl
    rw [← valid.queue.tailPtr, owned] at chained
    cases chained
  refine valid.store (by rw [at_]; trivial) (valid.queue.setNext_tailPtr _) rfl
    (.inr ⟨rfl, rfl⟩) (by rw [at_]; rfl) (fun _ waits => by rw [at_]; exact waits) ?_
  refine ⟨atEnd, ⟨owned, ?_⟩, ?_, ?_⟩
  · simp only [setNode]
    rw [update_of_ne apart]
    exact hold
  · simp only [setNode]
    rw [update_of_ne apart]
    exact back
  · simp only [setNode]
    rw [update_self]

theorem append (at_ : state.producers thread = .moving entry id) :
    StateValid config (move state thread (appendNode state.queue id) (.raising entry)) := by
  have threadValid := valid.threads thread
  rw [at_] at threadValid
  obtain ⟨⟨inChain, slot, last⟩, ⟨owned, hold⟩, back, linked⟩ := threadValid
  have held : assigned (state.producers thread) = some (entry.index, entry.value) := by
    rw [at_]; rfl
  have index := inChain.2.2.2
  have older : ∀ number ≤ state.queue.last,
      (appendNode state.queue id).place number = state.queue.place number := by
    intro number below
    exact update_of_ne (by omega) _ _
  have newest : (appendNode state.queue id).place (state.queue.last + 1) = id :=
    update_self _ _ _
  have frame : OutsideFrame state.queue (appendNode state.queue id) :=
    ⟨.refl, Nat.le_succ _, older⟩
  refine ⟨valid.queue.appendNode owned linked, ⟨?_, ?_⟩,
    valid.indices.move rfl rfl (by rw [at_]; rfl), ?_, ?_, ?_, ?_⟩
  · intro number above below
    change number ≤ state.queue.last + 1 at below
    change ((appendNode state.queue id).nodes ((appendNode state.queue id).place number)).nodeHold
      = _
    rcases Nat.lt_or_eq_of_le below with earlier | rfl
    · rw [older number (Nat.le_of_lt_succ earlier)]
      exact valid.chain.holds number above (Nat.le_of_lt_succ earlier)
    · rw [newest]
      exact hold
  · intro number above below
    change ((appendNode state.queue id).nodes
      ((appendNode state.queue id).place (number + 1))).prev =
        some ((appendNode state.queue id).place number)
    rw [older number (Nat.le_of_lt_succ below)]
    rcases Nat.lt_succ_iff_lt_or_eq.mp below with earlier | rfl
    · rw [older (number + 1) earlier]
      exact valid.chain.prevs number above earlier
    · rw [newest, ← valid.queue.tailPtr]
      exact back
  · have reached := valid.index_lt_tail held
    change (state.queue.last + 1) * config.nodeSize ≤ state.queue.tail
    rw [Nat.succ_mul]
    omega
  · have threshold := valid.threshold
    change state.queue.tailThreshold ≤
      (state.queue.last + 1) * config.nodeSize + config.nodeSize
    rw [Nat.succ_mul]
    omega
  · -- the index of the appending thread is its own
    intro other otherIndex waits isLast
    simp only [move] at waits
    change (state.queue.last + 1) * config.nodeSize ≤ otherIndex
    by_cases own : other = thread
    · rw [own, update_self] at waits
      cases waits
    · rw [update_of_ne own] at waits
      have lower := valid.pending waits isLast
      have apart : otherIndex ≠ entry.index := by
        rintro rfl
        obtain ⟨value, otherHeld⟩ := assigned_of_pending waits
        exact own (valid.indices.unique otherHeld held)
      rw [Nat.succ_mul]
      apply Nat.le_of_not_lt
      intro upper
      have whole := block_add_mod lower upper
      omega
  · intro other
    simp only [move]
    by_cases own : other = thread
    · rw [own, update_self]
      exact ⟨last, slot, state.queue.last, inChain.frame frame, rfl⟩
    · rw [update_of_ne own]
      exact valid.others held last frame (fun _ _ _ => rfl) other own

theorem raise (fits : config.Valid) (at_ : state.producers thread = .raising entry) :
    StateValid config (move state thread
      { state.queue with tailThreshold := state.queue.tailThreshold + config.nodeSize }
      (.writing entry)) := by
  have positive := fits.two_le
  have threadValid := valid.threads thread
  rw [at_] at threadValid
  obtain ⟨threshold, slot, number, inChain, last⟩ := threadValid
  have frame : OutsideFrame state.queue
      { state.queue with tailThreshold := state.queue.tailThreshold + config.nodeSize } :=
    ⟨Nat.le_add_right _ _, .refl, fun _ _ => rfl⟩
  refine valid.moveTo (valid.queue.withCounters _ _) ⟨valid.chain.holds, valid.chain.prevs⟩ rfl
    rfl rfl ?_ (by rw [at_]; rfl) (fun _ waits => by cases waits) ?_ ?_
  · have index := inChain.2.2.2
    change state.queue.tailThreshold + config.nodeSize ≤
      state.queue.last * config.nodeSize + config.nodeSize
    rw [← last, Nat.succ_mul]
    omega
  · exact ⟨number, inChain.frame frame, fun _ => Nat.lt_of_succ_le last.le⟩
  · exact valid.others (by rw [at_]; rfl) threshold frame fun _ _ _ => rfl

variable {other : Nat}

theorem entry_ne {number otherNumber : Nat} {otherEntry : Entry Value}
    (held : assigned (state.producers thread) = some (entry.index, entry.value))
    (otherHeld : assigned (state.producers other) = some (otherEntry.index, otherEntry.value))
    (inChain : InChain config state.queue entry number)
    (otherInChain : InChain config state.queue otherEntry otherNumber) (apart : other ≠ thread)
    (node : otherEntry.node = entry.node) : otherEntry.slot ≠ entry.slot := by
  intro slot
  have above := valid.entry_above held inChain
  have otherAbove := valid.entry_above otherHeld otherInChain
  obtain ⟨below, place, _, index⟩ := inChain
  obtain ⟨otherBelow, otherPlace, _, otherIndex⟩ := otherInChain
  obtain rfl : otherNumber = number :=
    valid.queue.place_injective otherAbove otherBelow above below
      (otherPlace.symm.trans (node.trans place))
  rw [otherIndex, slot, ← index] at otherHeld
  exact apart (valid.indices.unique otherHeld held)

theorem write (at_ : state.producers thread = .writing entry) : StateValid config (move state thread
      (writeEntry state.queue entry.node entry.slot entry.value) (.posting entry)) := by
  have threadValid := valid.threads thread
  rw [at_] at threadValid
  obtain ⟨number, inChain, sealed⟩ := threadValid
  have held : assigned (state.producers thread) = some (entry.index, entry.value) := by
    rw [at_]; rfl
  have above := valid.entry_above held inChain
  have unposted := (valid.indices.given held).2.2
  obtain ⟨below, node, inside, index⟩ := id inChain
  rw [index] at unposted
  have queueValid := valid.queue.writeEntry entry.value above below inside unposted
  rw [← node] at queueValid
  have same : ∀ id, let nodes := (writeEntry state.queue entry.node entry.slot entry.value).nodes
      (nodes id).next = (state.queue.nodes id).next ∧
        (nodes id).prev = (state.queue.nodes id).prev ∧
          (nodes id).nodeHold = (state.queue.nodes id).nodeHold := by
    intro id
    simp only [writeEntry, setNode]
    by_cases own : id = entry.node
    · rw [own, update_self]
      exact ⟨rfl, rfl, rfl⟩
    · rw [update_of_ne own]
      exact ⟨rfl, rfl, rfl⟩
  have frame : BlockFrame state.queue
      (writeEntry state.queue entry.node entry.slot entry.value) :=
    ⟨rfl, rfl, rfl, rfl, rfl, same, fun _ => id⟩
  refine valid.moveTo queueValid ?_ rfl rfl rfl valid.threshold (by rw [at_]; rfl)
    (fun _ waits => by cases waits) ?_ ?_
  · exact valid.chain.kept .refl rfl rfl
      fun number _ _ => ⟨(same _).2.2, (same _).2.1⟩
  · refine ⟨⟨number, inChain, sealed⟩, ?_⟩
    simp only [writeEntry, setNode]
    rw [update_self]
    exact update_self _ _ _
  · intro other apart
    apply (valid.threads other).frame frame
    intro otherEntry posting
    have otherValid := valid.threads other
    rw [posting] at otherValid
    obtain ⟨⟨otherNumber, otherInChain, _⟩, _⟩ := otherValid
    simp only [writeEntry, setNode]
    by_cases own : otherEntry.node = entry.node
    · rw [own, update_self]
      exact update_of_ne (valid.entry_ne held (by rw [posting]; rfl) inChain otherInChain
        apart own) _ _
    · rw [update_of_ne own]

theorem post (at_ : state.producers thread = .posting entry) : StateValid config (move state thread
      (postEntry state.queue entry.node entry.slot entry.index entry.value) .idle) := by
  have threadValid := valid.threads thread
  rw [at_] at threadValid
  obtain ⟨⟨number, inChain, sealed⟩, written⟩ := threadValid
  have held : assigned (state.producers thread) = some (entry.index, entry.value) := by
    rw [at_]; rfl
  have above := valid.entry_above held inChain
  obtain ⟨started, found, unposted⟩ := valid.indices.given held
  have ahead := valid.queue.head_le_of_unposted started unposted
  obtain ⟨below, node, inside, index⟩ := inChain
  have queueValid := valid.queue.postEntry entry.value above below inside
    (index ▸ started) (index ▸ ahead) (index ▸ unposted) (node ▸ written) sealed
  rw [← node, ← index] at queueValid
  have same : ∀ id,
      let nodes := (postEntry state.queue entry.node entry.slot entry.index entry.value).nodes
      (nodes id).next = (state.queue.nodes id).next ∧
        (nodes id).prev = (state.queue.nodes id).prev ∧
          (nodes id).nodeHold = (state.queue.nodes id).nodeHold ∧
            (nodes id).buffer = (state.queue.nodes id).buffer := by
    intro id
    simp only [postEntry, setPos, setNode]
    by_cases own : id = entry.node
    · rw [own, update_self]
      exact ⟨rfl, rfl, rfl, rfl⟩
    · rw [update_of_ne own]
      exact ⟨rfl, rfl, rfl, rfl⟩
  have frame : BlockFrame state.queue
      (postEntry state.queue entry.node entry.slot entry.index entry.value) :=
    ⟨rfl, rfl, rfl, rfl, rfl, fun id => ⟨(same id).1, (same id).2.1, (same id).2.2.1⟩,
      fun _ => id⟩
  refine ⟨queueValid, ?_, ⟨valid.indices.length, ?_, ?_, ?_, ?_⟩, valid.reached, valid.threshold,
    ?_, ?_⟩
  · exact valid.chain.kept .refl rfl rfl
      fun number _ _ => ⟨(same _).2.2.1, (same _).2.1⟩
  · intro other otherIndex value otherHeld
    simp only [move] at otherHeld
    by_cases own : other = thread
    · rw [own, update_self] at otherHeld
      cases otherHeld
    · rw [update_of_ne own] at otherHeld
      obtain ⟨pos, pushed, otherUnposted⟩ := valid.indices.given otherHeld
      refine ⟨pos, pushed, ?_⟩
      simp only [move, postEntry]
      rw [update_of_ne]
      · exact otherUnposted
      · rintro rfl
        exact own (valid.indices.unique otherHeld held)
  · intro otherIndex value posted
    simp only [move, postEntry] at posted
    by_cases own : otherIndex = entry.index
    · rw [own, update_self] at posted
      cases posted
      rw [own]
      exact ⟨started, found⟩
    · rw [update_of_ne own] at posted
      exact valid.indices.posted posted
  · intro otherIndex pos bound
    simp only [move, postEntry]
    by_cases own : otherIndex = entry.index
    · rw [own, update_self]
      exact .inl rfl
    · rw [update_of_ne own]
      rcases valid.indices.complete otherIndex pos bound with done | ⟨other, value, waits⟩
      · exact .inl done
      · refine .inr ⟨other, value, ?_⟩
        rw [update_of_ne]
        · exact waits
        · rintro rfl
          rw [held] at waits
          cases waits
          exact own rfl
  · intro first second otherIndex value element firstHeld secondHeld
    simp only [move] at firstHeld secondHeld
    by_cases own : first = thread
    · rw [own, update_self] at firstHeld
      cases firstHeld
    · by_cases otherOwn : second = thread
      · rw [otherOwn, update_self] at secondHeld
        cases secondHeld
      · rw [update_of_ne own] at firstHeld
        rw [update_of_ne otherOwn] at secondHeld
        exact valid.indices.unique firstHeld secondHeld
  · intro other otherIndex waits isLast
    simp only [move] at waits
    by_cases own : other = thread
    · rw [own, update_self] at waits
      cases waits
    · rw [update_of_ne own] at waits
      exact valid.pending waits isLast
  · intro other
    simp only [move]
    by_cases own : other = thread
    · rw [own, update_self]
      trivial
    · rw [update_of_ne own]
      apply (valid.threads other).frame frame
      intro otherEntry _
      rw [(same otherEntry.node).2.2.2]

variable {value : Value}

theorem push (idle : state.producers thread = .idle) :
    StateValid config
      { queue := { state.queue with tail := state.queue.tail + 1 }
        producers := update state.producers thread (.waiting value state.queue.tail)
        pushed := state.pushed ++ [value] } := by
  have length := valid.indices.length
  have earlier : ∀ {index : Nat} {element : Value}, state.pushed[index - 1]? = some element →
      (state.pushed ++ [value])[index - 1]? = some element := by
    intro index element found
    obtain ⟨inside, _⟩ := List.getElem?_eq_some_iff.mp found
    rw [List.getElem?_append_left inside]
    exact found
  have fresh : ∀ {other index : Nat} {element : Value},
      assigned (state.producers other) = some (index, element) → index ≠ state.queue.tail :=
    fun held => (valid.index_lt_tail held).ne
  have unposted : state.queue.posted state.queue.tail = none := by
    cases posted : state.queue.posted state.queue.tail with
    | none => rfl
    | some element =>
      obtain ⟨pos, found⟩ := valid.indices.posted posted
      obtain ⟨inside, _⟩ := List.getElem?_eq_some_iff.mp found
      omega
  refine ⟨valid.queue.withCounters _ _, ⟨valid.chain.holds, valid.chain.prevs⟩,
    ⟨?_, ?_, ?_, ?_, ?_⟩, Nat.le_succ_of_le valid.reached, valid.threshold, ?_, ?_⟩
  · rw [length_append, length_singleton, length]
  · intro other index element held
    dsimp only at held
    by_cases own : other = thread
    · rw [own, update_self] at held
      cases held
      refine ⟨by omega, ?_, unposted⟩
      rw [← length, Nat.add_sub_cancel, List.getElem?_append_right .refl, Nat.sub_self]
      rfl
    · rw [update_of_ne own] at held
      obtain ⟨pos, found, other⟩ := valid.indices.given held
      exact ⟨pos, earlier found, other⟩
  · intro index element posted
    obtain ⟨pos, found⟩ := valid.indices.posted posted
    exact ⟨pos, earlier found⟩
  · intro index pos below
    rcases Nat.lt_or_eq_of_le (Nat.le_of_lt_succ below) with older | newest
    · rcases valid.indices.complete index pos older with done | ⟨other, element, held⟩
      · exact .inl done
      · refine .inr ⟨other, element, ?_⟩
        dsimp only
        rw [update_of_ne]
        · exact held
        · rintro rfl
          rw [idle] at held
          cases held
    · refine .inr ⟨thread, value, ?_⟩
      dsimp only
      rw [update_self, newest]
      rfl
  · intro first second index element other firstHeld secondHeld
    dsimp only at firstHeld secondHeld
    by_cases own : first = thread
    · by_cases otherOwn : second = thread
      · exact own.trans otherOwn.symm
      · rw [own, update_self] at firstHeld
        rw [update_of_ne otherOwn] at secondHeld
        cases firstHeld
        exact absurd rfl (fresh secondHeld)
    · rw [update_of_ne own] at firstHeld
      by_cases otherOwn : second = thread
      · rw [otherOwn, update_self] at secondHeld
        cases secondHeld
        exact absurd rfl (fresh firstHeld)
      · rw [update_of_ne otherOwn] at secondHeld
        exact valid.indices.unique firstHeld secondHeld
  · intro other index waits isLast
    dsimp only at waits
    by_cases own : other = thread
    · rw [own, update_self] at waits
      cases waits
      exact valid.reached
    · rw [update_of_ne own] at waits
      exact valid.pending waits isLast
  · intro other
    dsimp only
    by_cases own : other = thread
    · rw [own, update_self]
      trivial
    · rw [update_of_ne own]
      exact (valid.threads other).frame
        ⟨rfl, rfl, rfl, rfl, rfl, fun _ => ⟨rfl, rfl, rfl⟩, fun _ => id⟩ fun _ _ => rfl

theorem consumerStep (queueValid : Valid config queue)
    (frame : ConsumerFrame state.queue queue) : StateValid config { state with queue } := by
  refine ⟨queueValid, ?_, ⟨valid.indices.length.trans frame.tail.symm, ?_, ?_, ?_,
    valid.indices.unique⟩, ?_, ?_, ?_, ?_⟩
  · exact valid.chain.kept frame.first frame.last frame.place
      fun number _ _ => ⟨(frame.fields _).2.2.1, (frame.fields _).2.1⟩
  · intro thread index value held
    obtain ⟨pos, found, unposted⟩ := valid.indices.given held
    exact ⟨pos, found, (congrFun frame.posted index).trans unposted⟩
  · intro index value posted
    exact valid.indices.posted ((congrFun frame.posted index).symm.trans posted)
  · intro index pos below
    rw [frame.tail] at below
    rw [frame.posted]
    exact valid.indices.complete index pos below
  · dsimp only
    rw [frame.last, frame.tail]
    exact valid.reached
  · dsimp only
    rw [frame.last, frame.tailThreshold]
    exact valid.threshold
  · intro thread index waits isLast
    rw [frame.last]
    exact valid.pending waits isLast
  · intro thread
    exact (valid.threads thread).frame (.ofConsumer frame)
      fun entry _ => congrFun (frame.fields entry.node).2.2.2 entry.slot

theorem stepProducer (fits : config.Valid)
    (went : stepProducer config state thread = some next) : StateValid config next := by
  have threadValid := valid.threads thread
  unfold Mpsc.stepProducer at went
  dsimp only at went
  split at went
  next => cases went
  next value index at_ =>
    split at went <;> cases went
    · exact valid
    next passed =>
      exact valid.moveThread (by rw [at_]; rfl) (fun _ waits => by rw [at_]; exact waits)
        (Nat.lt_of_not_le passed)
  next value index at_ =>
    rw [at_] at threadValid
    cases went
    refine valid.moveThread (by rw [at_]; rfl) (fun _ waits => by rw [at_]; exact waits) ?_
    exact ⟨threadValid, state.queue.last, .refl, valid.queue.tailPtr,
      threadValid.trans_le valid.threshold⟩
  next value index node at_ =>
    have tested := valid.test at_ fits
    split at went <;> cases went
    next behind =>
      rw [if_pos behind] at tested
      exact tested
    next found =>
      rw [if_neg found] at tested
      exact tested
  next value index node at_ =>
    obtain ⟨prev, found, rfl⟩ := map_eq_some_iff.mp went
    exact valid.walk at_ fits found
  next entry id at_ =>
    cases went
    exact valid.hold at_
  next entry pc _ at_ =>
    rw [at_] at threadValid
    obtain ⟨⟨queue, after⟩, moved, rfl⟩ := map_eq_some_iff.mp went
    obtain ⟨queueValid, newNodeValid⟩ := valid.queue.stepNewNode fits threadValid.2 moved
    exact valid.newNode at_ queueValid
      (valid.queue.stepNewNode_frame fits threadValid.2 moved) newNodeValid
  next entry id at_ =>
    cases went
    exact valid.back at_
  next entry id at_ =>
    cases went
    exact valid.link at_
  next entry id at_ =>
    cases went
    exact valid.append at_
  next entry at_ =>
    cases went
    exact valid.raise fits at_
  next entry at_ =>
    cases went
    exact valid.write at_
  next entry at_ =>
    cases went
    exact valid.post at_

theorem step_valid (fits : config.Valid) {action : Action Value}
    (went : step config state action = some next) : StateValid config next := by
  cases action with
  | push thread value =>
    unfold step at went
    dsimp only at went
    split at went <;> cases went
    next idle => exact valid.push idle
  | producer thread => exact valid.stepProducer fits went
  | malloc thread id garbage =>
    unfold step at went
    dsimp only at went
    split at went
    next entry at_ =>
      have threadValid := valid.threads thread
      rw [at_] at threadValid
      obtain ⟨queue, allocated, rfl⟩ := map_eq_some_iff.mp went
      obtain ⟨queueValid, newNodeValid⟩ :=
        valid.queue.allocate fits threadValid.2 allocated
      exact valid.newNode at_ queueValid (Valid.allocate_frame allocated) newNodeValid
    next => cases went
  | waitEntry =>
    obtain ⟨queue, waited, rfl⟩ := map_eq_some_iff.mp went
    unfold waitEntry at waited
    split at waited
    next idle =>
      split at waited <;> cases waited
      · exact valid
      next found =>
        exact valid.consumerStep (valid.queue.startReading fits idle found)
          (.ofCache rfl)
    next => cases waited
  | consumer =>
    obtain ⟨queue, consumed, rfl⟩ := map_eq_some_iff.mp went
    exact valid.consumerStep (valid.queue.stepConsumer fits consumed)
      (valid.queue.consumerFrame fits consumed)

theorem appending_unique (appending : Appending (state.producers thread))
    (otherAppending : Appending (state.producers other)) : other = thread := by
  obtain ⟨i, value, held, last⟩ := valid.threshold_of_appending appending
  by_cases own : other = thread
  · exact own
  · exact absurd otherAppending (valid.not_appending held last own)

theorem walking_linked (fits : config.Valid) {index node : Nat}
    (at_ : state.producers thread = .walking value index node) :
    ∃ prev, (state.queue.nodes node).prev = some prev ∧ Linked state.queue prev := by
  have positive := fits.two_le
  have threadValid := valid.threads thread
  rw [at_] at threadValid
  obtain ⟨_, number, below, rfl, bound⟩ := threadValid
  cases number with
  | zero =>
    rw [Nat.zero_mul] at bound
    exact absurd bound (Nat.not_lt_zero _)
  | succ number =>
    rw [Nat.succ_mul] at bound
    have above := valid.first_le (by omega) (by rw [at_]; rfl) bound
    exact ⟨state.queue.place number, valid.chain.prevs number above below,
      valid.queue.place_linked above (Nat.le_of_succ_le below)⟩

theorem writing_entry (at_ : state.producers thread = .writing entry) :
    entry.slot = entry.index % config.nodeSize ∧ (state.queue.nodes entry.node).nodeHold =
        entry.index - entry.index % config.nodeSize ∧ Linked state.queue entry.node := by
  have threadValid := valid.threads thread
  rw [at_] at threadValid
  obtain ⟨number, inChain, _⟩ := threadValid
  have above := valid.entry_above (by rw [at_]; rfl) inChain
  obtain ⟨below, node, inside, index⟩ := inChain
  have remainder : entry.index % config.nodeSize = entry.slot := by
    rw [index]
    exact Nat.mul_add_mod_of_lt inside
  refine ⟨remainder.symm, ?_, ?_⟩
  · rw [node, valid.chain.holds number above below, remainder, index, Nat.add_sub_cancel]
  · rw [node]
    exact valid.queue.place_linked above below

theorem popped_prefix : state.queue.popped <+: state.pushed := by
  apply prefix_iff_getElem?.mpr
  intro off inside
  have popped := valid.queue.popped off inside
  rw [List.getElem?_eq_getElem inside] at popped
  exact (valid.indices.posted popped.symm).2

theorem scWaitEntry_iff (fits : config.Valid) (idle : state.queue.consumer = .idle) :
    scWaitEntry config state.queue = .kQueueEmpty ↔
      state.queue.posted (state.queue.popped.length + 1) = none := by
  have consumer := valid.queue.consumer
  unfold ConsumerValid at consumer
  rw [idle] at consumer
  obtain ⟨inFirst, count, _⟩ := consumer
  rw [count]
  exact valid.queue.scWaitEntry_iff fits inFirst

theorem popped_all (unposted : state.queue.posted (state.queue.popped.length + 1) = none)
    (done : ∀ thread, state.producers thread = .idle) : state.queue.popped = state.pushed := by
  have length := valid.indices.length
  have reached : ¬state.queue.popped.length + 1 < state.queue.tail := by
    intro more
    rcases valid.indices.complete _ (Nat.succ_pos _) more with posted | ⟨thread, value, held⟩
    · rw [unposted] at posted
      cases posted
    · rw [done thread] at held
      cases held
  exact valid.popped_prefix.eq_of_length_le (by omega)

end StateValid

/-- In every run of any number of producers and one consumer on a queue whose blocks have
been sized without wrapping: the search for a node stays in the chain, each producer writes
to the entry of its index in a node of the chain, one producer at a time is in the appending
block, and what is popped are the pushed elements in the order of their indices, none of
them being left out. -/
theorem popped_follows_indices {nodeSize cacheSize : UInt32} (cacheInit : UInt32)
    {entryBits : Nat} (nodes : max nodeSize.toNat 2 ≤ 2 ^ (31 - entryBits))
    (cache : cacheSize.toNat ≤ 2 ^ 27)
    {garbage : Nat → Node Value} {cachePos : Nat → Int} {cacheBuffer : Nat → Nat}
    {queue : Queue Value} {actions : List (Action Value)} {state : State Value}
    (made : init (create nodeSize cacheSize cacheInit entryBits) garbage cachePos cacheBuffer =
      some queue)
    (ran : execute (step (create nodeSize cacheSize cacheInit entryBits)) { queue } actions =
      some state) : (∀ thread value index node, state.producers thread = .walking value index node →
      ∃ prev, (state.queue.nodes node).prev = some prev ∧ Linked state.queue prev) ∧
    (∀ thread entry, state.producers thread = .writing entry →
      entry.slot = entry.index % (create nodeSize cacheSize cacheInit entryBits).nodeSize ∧
      (state.queue.nodes entry.node).nodeHold =
        entry.index - entry.index % (create nodeSize cacheSize cacheInit entryBits).nodeSize ∧
      Linked state.queue entry.node) ∧
    (∀ thread other, Appending (state.producers thread) → Appending (state.producers other) →
      other = thread) ∧ state.queue.popped <+: state.pushed ∧ (state.queue.consumer = .idle →
      (scWaitEntry (create nodeSize cacheSize cacheInit entryBits) state.queue = .kQueueEmpty ↔
        state.queue.posted (state.queue.popped.length + 1) = none)) ∧
    (state.queue.posted (state.queue.popped.length + 1) = none →
      (∀ thread, state.producers thread = .idle) → state.queue.popped = state.pushed) := by
  have configValid := create_valid cacheInit nodes cache
  have valid : StateValid (create nodeSize cacheSize cacheInit entryBits) state :=
    invariant_of_execute (fun valid stepped => valid.step_valid configValid stepped)
      (valid_initial configValid made) ran
  refine ⟨?_, ?_, ?_, valid.popped_prefix, valid.scWaitEntry_iff configValid, valid.popped_all⟩
  · intro thread value index node at_
    exact valid.walking_linked configValid at_
  · intro thread entry at_
    exact valid.writing_entry at_
  · intro thread other appending otherAppending
    exact valid.appending_unique appending otherAppending

/-- With two entries a node: the producer of the index 2 is delayed until the first node has
been recycled, appended again for the index 4, and is the one it starts to search from. -/
def delayedRun : List (Action Nat) := flatten
  [[.push 0 7, .push 1 8, .push 2 9], replicate 4 (.producer 0), [.malloc 0 1 staleNode],
    replicate 5 (.producer 0), [.producer 1], replicate 2 (.producer 0), [.waitEntry],
    replicate 7 .consumer, replicate 15 (.producer 2), replicate 4 (.producer 1)]

theorem delayed_popped_follows_indices :
    ∃ queue state, init (create 2 2 1 4) (fun _ => staleNode) (fun _ => 0) (fun _ => 0) =
        some queue ∧ execute (step (create 2 2 1 4)) { queue } delayedRun = some state ∧
      (∃ entry, state.producers 1 = .writing entry ∧ entry.index = 2 ∧
        (state.queue.nodes entry.node).nodeHold = 2) ∧
      state.queue.popped = [7] ∧ state.queue.popped <+: state.pushed := by
  have checked : (init (create 2 2 1 4) (fun _ => staleNode) (fun _ => 0) (fun _ => 0)).any
      (fun queue => (execute (step (create 2 2 1 4)) { queue } delayedRun).any fun state =>
        (match state.producers 1 with
          | .writing entry => decide (entry.index = 2)
          | _ => false) && decide (state.queue.popped = [7])) = true := by decide +kernel
  obtain ⟨queue, made, checked⟩ := (any_eq_true _ _).mp checked
  obtain ⟨state, ran, checked⟩ := (any_eq_true _ _).mp checked
  obtain ⟨writing, popped⟩ := (Bool.and_eq_true _ _).mp checked
  obtain ⟨_, writes, _, order, _⟩ :=
    popped_follows_indices 1 (by decide) (by decide) made ran
  split at writing
  next entry at_ =>
    have index := of_decide_eq_true writing
    obtain ⟨_, hold, _⟩ := writes 1 entry at_
    rw [index] at hold
    exact ⟨queue, state, made, ran, ⟨entry, at_, index, hold⟩,
      of_decide_eq_true popped, order⟩
  next => cases writing

/-- `node_size` `2 ^ 31 + 1` is rounded to zero: no entry is cleared, and the consumer pops
an element that no producer has pushed. -/
theorem pops_unpushed_element :
    ∃ queue state, init (create 2147483649 2 0 4) (fun _ => staleNode) (fun _ => 0)
        (fun _ => 0) = some queue ∧
      execute (step (create 2147483649 2 0 4)) { queue } [.waitEntry, .consumer] = some state ∧
      state.queue.popped = [9] ∧ state.pushed = [] ∧ ¬state.queue.popped <+: state.pushed := by
  have checked : (init (create 2147483649 2 0 4) (fun _ => staleNode) (fun _ => 0)
      (fun _ => 0)).any (fun queue =>
        (execute (step (create 2147483649 2 0 4)) { queue } [.waitEntry, .consumer]).any
          fun state => state.queue.popped = [9] ∧ state.pushed = []) = true := by
    decide +kernel
  obtain ⟨queue, made, checked⟩ := (any_eq_true _ _).mp checked
  obtain ⟨state, ran, checked⟩ := (any_eq_true _ _).mp checked
  obtain ⟨popped, pushed⟩ := of_decide_eq_true checked
  refine ⟨queue, state, made, ran, popped, pushed, ?_⟩
  rw [popped, pushed]
  simp

end AdkAaf.Adk.UnboundedQueue.Mpsc
