import AdkAaf.Adk.UnboundedQueue.MpscOrder
import AdkAaf.Adk.UnboundedQueue.Spsc

/-! `UnboundedQueueBase::Clear`, called while no other call is running. The nodes of the
chain go to the cache as they are: `DeleteNode` does not reset the marks of entries that have
not been popped. -/

set_option autoImplicit false

namespace AdkAaf.Adk.UnboundedQueue

open Function Lib QueueVariant Option QueueVariant.Ring List

variable {Value : Type} {config : Config} {queue next : Queue Value}

def deleteNode (config : Config) (queue : Queue Value) (id : Nat) : Queue Value :=
  match pushAlone config.cacheSize queue.cache id with
  | some cache => setOwner { queue with cache } id .cache
  | none => setOwner queue id .heap

/-- The loop of `Clear`, cut off after `fuel` nodes. -/
def deleteNodes (config : Config) : Nat → Option Nat → Queue Value → Option (Queue Value)
  | _, none, queue => some queue
  | 0, some _, _ => none
  | fuel + 1, some id, queue =>
    deleteNodes config fuel (queue.nodes id).next (deleteNode config queue id)

/-- `Clear`; if the cache is empty afterwards, `NewNode` gets the block `fresh`. -/
def clear (config : Config) (queue : Queue Value) (fresh : Nat) (garbage : Node Value) :
    Option (Queue Value) :=
  (deleteNodes config (queue.last + 1 - queue.first) (some queue.headPtr) queue).bind fun emptied =>
    (popAlone config.cacheSize emptied.cache).bind fun (cache, taken) =>
      match taken with
      | some id => some (restart config emptied cache id (emptied.nodes id))
      | none =>
        if emptied.owner fresh = .heap then
          some (restart config emptied cache fresh (allocateNewNode config garbage))
        else
          none

/-- Nothing is left to pop, or the cache takes no more nodes. -/
def Clearable (config : Config) (queue : Queue Value) : Prop :=
  queue.head = queue.tail ∨
    pushAlone config.cacheSize queue.cache queue.headPtr = none

/-- No producer has a node in hand, and the chain ends at `tail_ptr_`. -/
structure Quiet (config : Config) (queue : Queue Value) : Prop where
  valid : Valid config queue
  idle : queue.consumer = .idle
  pop : queue.cache.pop = .idle
  ends : (queue.nodes queue.tailPtr).next = none
  posted : ∀ index, (queue.posted index).isSome → index < queue.tail

structure Deleted (config : Config) (queue : Queue Value) (number : Nat) (next : Queue Value) :
    Prop where
  nodes : next.nodes = queue.nodes
  cache : Ring.Valid config.cacheSize next.cache
  push : next.cache.push = .idle
  pop : next.cache.pop = .idle
  cached : ∀ id ∈ next.cache.contents, next.owner id = .cache
  distinct : next.cache.contents.Nodup
  chain : ∀ other, number ≤ other → other ≤ queue.last →
    next.owner (queue.place other) = .chain other
  unused : ∀ id, (next.owner id).Outside → ∀ slot < config.nodeSize,
    (queue.nodes id).pos slot = 0
  heap : ∀ id, queue.owner id = .heap → next.owner id = .heap
  same : queue.head = queue.tail ∨ next.cache = queue.cache

theorem Quiet.deleted (quiet : Quiet config queue) : Deleted config queue queue.first queue where
  nodes := rfl
  __ := quiet.valid
  push := by
    have consumer := quiet.valid.consumer
    rw [ConsumerValid, quiet.idle] at consumer
    exact consumer.2.2
  pop := quiet.pop
  heap := fun _ => id
  same := .inr rfl

theorem Quiet.unmarked (quiet : Quiet config queue) (empty : queue.head = queue.tail)
    {number slot : Nat} (above : queue.first ≤ number) (below : number ≤ queue.last)
    (inside : slot < config.nodeSize) : (queue.nodes (queue.place number)).pos slot = 0 := by
  apply (quiet.valid.entries number slot above below inside).2
  rcases Nat.lt_or_ge (number * config.nodeSize + slot) queue.head with passed | ahead
  · exact .inl passed
  · refine .inr (not_isSome_iff_eq_none.mp fun posted => ?_)
    have behind := quiet.posted _ posted
    omega

theorem pushAlone_none {cache : QueueVariant.Ring Nat} {size id : Nat} (other : Nat)
    (refused : pushAlone size cache id = none) : pushAlone size cache other = none := by
  by_cases full : cache.pos (slot size cache.tail) > 0
  · simp [pushAlone, startPush, runPush, stepPush, full]
  · simp [pushAlone, startPush, runPush, stepPush, full] at refused

theorem Deleted.deleteNode (fits : config.Valid) {number : Nat}
    (quiet : Quiet config queue) (clearable : Clearable config queue)
    (deleted : Deleted config queue number next) (above : queue.first ≤ number)
    (below : number ≤ queue.last) :
    Deleted config queue (number + 1) (deleteNode config next (queue.place number)) := by
  have owned := deleted.chain number .refl below
  have apart : ∀ other, next.owner other = .cache → other ≠ queue.place number := by
    rintro other cached rfl
    rw [owned] at cached
    cases cached
  have free : ∀ id, queue.owner id = .heap → id ≠ queue.place number := by
    rintro id free rfl
    have held := deleted.heap _ free
    rw [owned] at held
    cases held
  have later : ∀ other, number + 1 ≤ other → other ≤ queue.last →
      queue.place other ≠ queue.place number := by
    intro other after inside same
    have second := deleted.chain other (Nat.le_of_succ_le after) inside
    rw [same, owned] at second
    cases second
    exact Nat.lt_irrefl _ after
  unfold UnboundedQueue.deleteNode
  cases pushed : pushAlone config.cacheSize next.cache (queue.place number) with
  | none =>
    refine { deleted with cached := ?_, chain := ?_, unused := ?_, heap := ?_ }
    · intro id mem
      exact (update_of_ne (apart id (deleted.cached id mem)) ..).trans (deleted.cached id mem)
    · intro other after inside
      exact (update_of_ne (later other after inside) ..).trans
        (deleted.chain other (Nat.le_of_succ_le after) inside)
    · intro id outside
      dsimp only [setOwner] at outside
      by_cases own : id = queue.place number
      · rw [own, update_self] at outside
        rcases outside with impossible | impossible | impossible <;> cases impossible
      · rw [update_of_ne own] at outside
        exact deleted.unused id outside
    · intro id unallocated
      exact (update_of_ne (free id unallocated) ..).trans (deleted.heap id unallocated)
  | some cache =>
    obtain ⟨cacheValid, pop, push, contents⟩ :=
      pushAlone_spec fits.cache deleted.cache pushed
    have empty : queue.head = queue.tail := by
      rcases deleted.same with empty | same
      · exact empty
      · refine clearable.resolve_right fun refused => ?_
        rw [same, pushAlone_none _ refused] at pushed
        cases pushed
    refine ⟨deleted.nodes, cacheValid, push, pop.trans deleted.pop, ?_, ?_, ?_, ?_, ?_, .inl empty⟩
    · intro id mem
      dsimp only [setOwner] at mem ⊢
      rw [contents] at mem
      rcases mem_append.mp mem with earlier | last
      · exact (update_of_ne (apart id (deleted.cached id earlier)) ..).trans
          (deleted.cached id earlier)
      · rw [mem_singleton.mp last, update_self]
    · show cache.contents.Nodup
      rw [contents, nodup_append]
      refine ⟨deleted.distinct, nodup_singleton _, ?_⟩
      intro id mem other last
      rw [mem_singleton.mp last]
      exact apart id (deleted.cached id mem)
    · intro other after inside
      exact (update_of_ne (later other after inside) ..).trans
        (deleted.chain other (Nat.le_of_succ_le after) inside)
    · intro id outside slot inside
      by_cases own : id = queue.place number
      · rw [own]
        exact quiet.unmarked empty above below inside
      · dsimp only [setOwner] at outside
        rw [update_of_ne own] at outside
        exact deleted.unused id outside slot inside
    · intro id unallocated
      exact (update_of_ne (free id unallocated) ..).trans (deleted.heap id unallocated)

theorem Quiet.deleteNodes (fits : config.Valid) (quiet : Quiet config queue)
    (clearable : Clearable config queue) (fuel : Nat) {number : Nat}
    (deleted : Deleted config queue number next) (above : queue.first ≤ number)
    (left : number + fuel = queue.last) :
    ∃ emptied, deleteNodes config (fuel + 1) (some (queue.place number)) next = some emptied ∧
      Deleted config queue (queue.last + 1) emptied := by
  induction fuel generalizing number next with
  | zero =>
    obtain rfl : number = queue.last := left
    have after := deleted.deleteNode fits quiet clearable above .refl
    refine ⟨_, ?_, after⟩
    have ends : (next.nodes (queue.place queue.last)).next = none := by
      rw [deleted.nodes, ← quiet.valid.tailPtr]
      exact quiet.ends
    rw [UnboundedQueue.deleteNodes, ends, UnboundedQueue.deleteNodes]
  | succ fuel ih =>
    have earlier : number < queue.last := by omega
    obtain ⟨emptied, ran, final⟩ := ih
      (deleted.deleteNode fits quiet clearable above earlier.le)
      (Nat.le_succ_of_le above) (by omega)
    refine ⟨emptied, ?_, final⟩
    rw [UnboundedQueue.deleteNodes, deleted.nodes, quiet.valid.links number above earlier]
    exact ran

theorem popAlone_isSome (size : Nat) (cache : QueueVariant.Ring Nat) :
    ∃ after taken, popAlone size cache = some (after, taken) := by
  by_cases empty : cache.pos (slot size cache.head) < 0
  all_goals simp [popAlone, startPop, runPop, stepPop, empty]

theorem Quiet.clear (fits : config.Valid) (quiet : Quiet config queue)
    (clearable : Clearable config queue) {fresh : Nat} (free : queue.owner fresh = .heap)
    (garbage : Node Value) :
    ∃ cleared, UnboundedQueue.clear config queue fresh garbage = some cleared ∧
      Valid config cleared ∧ Initial config cleared := by
  have ordered := quiet.valid.ordered
  obtain ⟨emptied, ran, deleted⟩ := quiet.deleteNodes fits clearable
    (queue.last - queue.first) quiet.deleted .refl (by omega)
  have fuel : queue.last - queue.first + 1 = queue.last + 1 - queue.first := by omega
  rw [fuel, ← quiet.valid.headPtr] at ran
  obtain ⟨cache, taken, popped⟩ := popAlone_isSome config.cacheSize emptied.cache
  obtain ⟨cacheValid, push, pop, contents⟩ := popAlone_spec fits.cache deleted.cache popped
  have distinct := contents ▸ deleted.distinct
  have cached := fun id mem => deleted.cached id (contents ▸ mem)
  unfold UnboundedQueue.clear
  rw [ran, bind_some, popped, bind_some]
  have unused := deleted.unused
  rw [← deleted.nodes] at unused
  cases taken with
  | some id =>
    obtain ⟨absent, rest⟩ := nodup_cons.mp distinct
    refine ⟨_, rfl, valid_restart fits cacheValid (push.trans deleted.push) pop rest ?_
      unused (unused id (.inl (cached id mem_cons_self)))⟩
    intro other mem
    refine ⟨?_, cached other (mem_cons_of_mem _ mem)⟩
    rintro rfl
    exact absent mem
  | none =>
    dsimp only
    have stillFree := deleted.heap fresh free
    rw [if_pos stillFree]
    refine ⟨_, rfl, valid_restart fits cacheValid (push.trans deleted.push) pop distinct ?_
      unused ?_⟩
    · intro other mem
      have inCache := cached other mem
      refine ⟨?_, inCache⟩
      rintro rfl
      rw [stillFree] at inCache
      cases inCache
    · intro slot inside
      simp only [allocateNewNode, fits.nodeEntries_eq]
      exact if_pos inside

def NextKept (queue next : Queue Value) : Prop :=
  ∀ id, (next.nodes id).next = (queue.nodes id).next ∨ (next.nodes id).next = none

theorem NextKept.setNode {id : Nat} {node : Node Value}
    (kept : node.next = (queue.nodes id).next ∨ node.next = none) :
    NextKept queue (setNode queue id node) := by
  intro other
  simp only [UnboundedQueue.setNode]
  by_cases own : other = id
  · rw [own, update_self]
    exact kept
  · rw [update_of_ne own]
    exact .inl rfl

theorem ConsumerFrame.nextKept (frame : ConsumerFrame queue next) : NextKept queue next :=
  fun id => .inl (frame.fields id).1

theorem stepNewNode_kept {pc after : NewNodePc}
    (went : stepNewNode config queue pc = some (next, after)) :
    NextKept queue next ∧ next.tailPtr = queue.tailPtr ∧
      ∀ id, after = .ready id → (next.nodes id).next = none := by
  cases pc with
  | allocating | ready => cases went
  | clearing id =>
    cases went
    refine ⟨.setNode (.inr rfl), rfl, ?_⟩
    intro other same
    cases same
    simp [setNext, setNode, update_self]
  | popping =>
    unfold stepNewNode at went
    dsimp only at went
    split at went <;> cases went <;>
      exact ⟨fun _ => .inl rfl, rfl, fun _ impossible => by cases impossible⟩

theorem allocate_kept {id : Nat} {garbage : Node Value}
    (allocated : allocate config queue id garbage = some next) :
    NextKept queue next ∧ next.tailPtr = queue.tailPtr ∧ (next.nodes id).next = none := by
  unfold allocate at allocated
  split at allocated <;> cases allocated
  refine ⟨.setNode (.inr rfl), rfl, ?_⟩
  simp [setOwner, setNode, update_self, allocateNewNode]

/-- Nothing follows a node that a producer has in hand, nor, unless the producer has linked
its node, `tail_ptr_`. -/
structure Ends (queue : Queue Value) (inHand : Nat → Prop) (linked : Prop) : Prop where
  fresh : ∀ id, inHand id → (queue.nodes id).next = none
  ends : ¬linked → (queue.nodes queue.tailPtr).next = none

namespace Ends

variable {inHand after : Nat → Prop} {linked afterLinked : Prop}

theorem kept (ends : Ends queue inHand linked) (kept : NextKept queue next)
    (tailPtr : next.tailPtr = queue.tailPtr)
    (hand : ∀ id, after id → inHand id ∨ (next.nodes id).next = none)
    (still : linked → afterLinked) : Ends next after afterLinked := by
  constructor
  · intro id held
    rcases hand id held with before | cleared
    · exact (kept id).elim (fun same => same.trans (ends.fresh id before)) fun reset => reset
    · exact cleared
  · intro notLinked
    rw [tailPtr]
    have free := ends.ends fun linked => notLinked (still linked)
    exact (kept _).elim (fun same => same.trans free) id

theorem link (ends : Ends queue inHand linked) (id : Nat)
    (hand : ∀ other, after other → inHand other ∧ other ≠ queue.tailPtr) (now : afterLinked) :
    Ends (setNext queue queue.tailPtr (some id)) after afterLinked := by
  constructor
  · intro other held
    obtain ⟨before, apart⟩ := hand other held
    simp only [setNext, setNode]
    rw [update_of_ne apart]
    exact ends.fresh other before
  · intro impossible
    exact absurd now impossible

theorem append (ends : Ends queue inHand linked) {id : Nat} (held : inHand id)
    (alone : ∀ other, ¬after other) : Ends (appendNode queue id) after afterLinked :=
  ⟨fun other later => absurd later (alone other), fun _ => ends.fresh id held⟩

end Ends

namespace Spsc

variable {state : State Value} {after : State Value}

def inHand : ProducerPc Value → Option Nat
  | .newNode _ (.ready id) | .holding _ id | .moving _ id => some id
  | .idle | .newNode _ _ | .writing _ | .posting _ => none

def Linking : ProducerPc Value → Prop
  | .holding _ _ | .moving _ _ => True
  | .idle | .newNode _ _ | .writing _ | .posting _ => False

def EndValid (state : State Value) : Prop :=
  Ends state.queue (fun id => inHand state.producer = some id) (Linking state.producer)

theorem EndValid.step_valid (fits : config.Valid) {action : Action Value}
    (valid : StateValid config state) (ends : EndValid state)
    (went : step config state action = some after) : EndValid after := by
  unfold EndValid at ends ⊢
  have producer := valid.producer
  cases action with
  | push value =>
    simp only [step, push] at went
    split at went
    next idle =>
      rw [idle] at ends
      split at went <;> cases went <;>
        exact ends.kept (fun _ => .inl rfl) rfl (fun _ held => .inl held) id
    next => cases went
  | producer =>
    simp only [step, stepProducer] at went
    split at went
    next => cases went
    next entry id ready =>
      rw [ready] at ends producer
      cases went
      refine ends.link id (fun other held => ⟨held, ?_⟩) trivial
      cases held
      rintro rfl
      have owned := producer.1.2
      rw [valid.queue.tailPtr, valid.queue.chain _ valid.queue.ordered .refl] at owned
      cases owned
    next entry pc notReady running =>
      rw [running] at ends
      obtain ⟨⟨queue, following⟩, moved, rfl⟩ := map_eq_some_iff.mp went
      obtain ⟨kept, tailPtr, cleared⟩ := stepNewNode_kept moved
      refine ends.kept kept tailPtr (fun id held => .inr ?_) fun impossible => impossible.elim
      cases following with cases held
      | ready other => exact cleared _ rfl
    next entry id holding =>
      rw [holding] at ends
      cases went
      exact ends.kept (.setNode (.inl rfl)) rfl (fun _ held => .inl held) fun linked => linked
    next entry id moving =>
      rw [moving] at ends
      cases went
      refine ends.append rfl fun _ impossible => ?_
      cases impossible
    next entry writing =>
      rw [writing] at ends
      cases went
      exact ends.kept (.setNode (.inl rfl)) rfl (fun _ held => .inl held) id
    next entry posting =>
      rw [posting] at ends
      cases went
      exact ends.kept (.setNode (.inl rfl)) rfl (fun _ held => .inl held) id
  | malloc id garbage =>
    simp only [step] at went
    split at went
    next entry allocating =>
      rw [allocating] at ends
      obtain ⟨queue, allocated, rfl⟩ := map_eq_some_iff.mp went
      obtain ⟨kept, tailPtr, cleared⟩ := allocate_kept allocated
      refine ends.kept kept tailPtr (fun other held => .inr ?_) fun impossible => impossible
      cases held
      exact cleared
    next => cases went
  | waitEntry =>
    obtain ⟨queue, waited, rfl⟩ := map_eq_some_iff.mp went
    unfold waitEntry at waited
    split at waited
    next =>
      split at waited <;> cases waited <;>
        exact ends.kept (fun _ => .inl rfl) rfl (fun _ held => .inl held) id
    next => cases waited
  | consumer =>
    obtain ⟨queue, consumed, rfl⟩ := map_eq_some_iff.mp went
    have frame := valid.queue.consumerFrame fits consumed
    exact ends.kept frame.nextKept frame.tailPtr (fun _ held => .inl held) id

theorem StateValid.quiet (valid : StateValid config state) (ends : EndValid state)
    (idle : state.producer = .idle) (consumer : state.queue.consumer = .idle) :
    Quiet config state.queue := by
  have producer := valid.producer
  rw [idle] at producer
  unfold EndValid at ends
  rw [idle] at ends
  exact ⟨valid.queue, consumer, producer.1, ends.ends fun impossible => impossible.elim,
    fun index posted => ((valid.posted index).mp posted).2⟩

theorem StateValid.popped_iff (valid : StateValid config state) (fits : config.Valid)
    (idle : state.queue.consumer = .idle) :
    scWaitEntry config state.queue = .kQueueEmpty ↔ state.queue.popped = state.pushed := by
  refine ⟨valid.popped_all fits idle, fun all => ?_⟩
  have consumer := valid.queue.consumer
  rw [ConsumerValid, idle] at consumer
  obtain ⟨inFirst, count, _⟩ := consumer
  have reached : state.queue.head = state.queue.tail := by
    rw [← count, ← valid.length, all]
  exact (valid.queue.scWaitEntry_iff fits inFirst).mpr (reached ▸ valid.unposted_tail)

end Spsc

namespace Mpsc

variable {state : State Value} {after : State Value}

def inHand : ProducerPc Value → Option Nat
  | .newNode _ (.ready id) | .backing _ id | .linking _ id | .moving _ id => some id
  | _ => none

def Linking : ProducerPc Value → Prop
  | .moving _ _ => True
  | _ => False

def Popping : ProducerPc Value → Prop
  | .newNode _ .popping => True
  | _ => False

structure EndValid (state : State Value) : Prop where
  ends : Ends state.queue (fun id => ∃ thread, inHand (state.producers thread) = some id)
    (∃ thread, Linking (state.producers thread))
  pop : (∀ thread, ¬Popping (state.producers thread)) → state.queue.cache.pop = .idle

theorem appending_of_inHand {pc : ProducerPc Value} {id : Nat} (held : inHand pc = some id) :
    Appending pc := by
  cases pc with
  | newNode | backing | linking | moving => trivial
  | _ => cases held

namespace EndValid

variable (valid : EndValid state) {thread : Nat} {queue : Queue Value} {pc : ProducerPc Value}

include valid

theorem move (kept : NextKept state.queue queue) (tailPtr : queue.tailPtr = state.queue.tailPtr)
    (hand : ∀ id, inHand pc = some id →
      inHand (state.producers thread) = some id ∨ (queue.nodes id).next = none)
    (still : Linking (state.producers thread) → Linking pc)
    (pop : ¬Popping pc → queue.cache.pop = .idle ∨
      ¬Popping (state.producers thread) ∧ queue.cache.pop = state.queue.cache.pop) :
    EndValid (Mpsc.move state thread queue pc) := by
  constructor
  · apply valid.ends.kept kept tailPtr
    · rintro id ⟨other, held⟩
      simp only [Mpsc.move] at held
      by_cases own : other = thread
      · rw [own, update_self] at held
        exact (hand id held).imp (fun before => ⟨thread, before⟩) fun reset => reset
      · rw [update_of_ne own] at held
        exact .inl ⟨other, held⟩
    · rintro ⟨other, linked⟩
      refine ⟨other, ?_⟩
      simp only [Mpsc.move]
      by_cases own : other = thread
      · rw [own, update_self]
        exact still (own ▸ linked)
      · rw [update_of_ne own]
        exact linked
  · intro quiet
    simp only [Mpsc.move] at quiet
    have own := quiet thread
    rw [update_self] at own
    rcases pop own with idle | ⟨before, same⟩
    · exact idle
    · refine same.trans (valid.pop fun other => ?_)
      by_cases self : other = thread
      · exact self ▸ before
      · have others := quiet other
        rw [update_of_ne self] at others
        exact others

theorem pass (kept : NextKept state.queue queue) (tailPtr : queue.tailPtr = state.queue.tailPtr)
    (pop : queue.cache.pop = state.queue.cache.pop)
    (hand : inHand pc = inHand (state.producers thread) ∨ inHand pc = none)
    (still : Linking (state.producers thread) → Linking pc)
    (outside : ¬Popping (state.producers thread)) : EndValid (Mpsc.move state thread queue pc) := by
  refine valid.move kept tailPtr ?_ still fun _ => .inr ⟨outside, pop⟩
  intro id held
  rcases hand with same | nothing
  · exact .inl (same ▸ held)
  · rw [nothing] at held
    cases held

theorem link (stateValid : StateValid config state) {entry : Entry Value} {id : Nat}
    (at_ : state.producers thread = .linking entry id) :
    EndValid (Mpsc.move state thread (setNext state.queue state.queue.tailPtr (some id))
      (.moving entry id)) := by
  have threadValid := stateValid.threads thread
  rw [at_] at threadValid
  constructor
  · apply valid.ends.link id
    · rintro other ⟨second, held⟩
      simp only [Mpsc.move] at held
      by_cases own : second = thread
      · rw [own, update_self] at held
        cases held
        refine ⟨⟨thread, by rw [at_]; rfl⟩, ?_⟩
        rintro rfl
        have owned := threadValid.2.1.1
        rw [stateValid.queue.tailPtr,
          stateValid.queue.chain _ stateValid.queue.ordered .refl] at owned
        cases owned
      · rw [update_of_ne own] at held
        have appending : Appending (state.producers thread) := by rw [at_]; trivial
        exact absurd (stateValid.appending_unique appending (appending_of_inHand held)) own
    · refine ⟨thread, ?_⟩
      simp only [Mpsc.move, update_self]
      trivial
  · intro quiet
    refine valid.pop fun other => ?_
    by_cases own : other = thread
    · rw [own, at_]
      exact fun impossible => impossible
    · have others := quiet other
      simp only [Mpsc.move, update_of_ne own] at others
      exact others

theorem append (stateValid : StateValid config state) {entry : Entry Value} {id : Nat}
    (at_ : state.producers thread = .moving entry id) :
    EndValid (Mpsc.move state thread (appendNode state.queue id) (.raising entry)) := by
  constructor
  · refine valid.ends.append ⟨thread, by rw [at_]; rfl⟩ ?_
    rintro other ⟨second, held⟩
    simp only [Mpsc.move] at held
    by_cases own : second = thread
    · rw [own, update_self] at held
      cases held
    · rw [update_of_ne own] at held
      have appending : Appending (state.producers thread) := by rw [at_]; trivial
      exact absurd (stateValid.appending_unique appending (appending_of_inHand held)) own
  · intro quiet
    refine valid.pop fun other => ?_
    by_cases own : other = thread
    · rw [own, at_]
      exact fun impossible => impossible
    · have others := quiet other
      simp only [Mpsc.move, update_of_ne own] at others
      exact others

theorem foundNode {value : Value} {index node : Nat} (entry : Entry Value)
    (at_ : state.producers thread = .testing value index node) :
    EndValid (Mpsc.foundNode config state thread entry) := by
  unfold Mpsc.foundNode
  split
  · refine valid.move (fun _ => .inl rfl) rfl ?_ ?_ fun outside => absurd trivial outside
    · nofun
    · rw [at_]
      exact id
  · refine valid.pass (fun _ => .inl rfl) rfl rfl (.inr rfl) ?_ ?_ <;> rw [at_] <;>
      exact id

theorem stepProducer (fits : config.Valid) (stateValid : StateValid config state)
    (went : stepProducer config state thread = some after) : EndValid after := by
  unfold Mpsc.stepProducer at went
  dsimp only at went
  split at went
  next => cases went
  next at_ =>
    split at went <;> cases went
    · exact valid
    · refine valid.pass (fun _ => .inl rfl) rfl rfl (.inr rfl) ?_ ?_ <;> rw [at_] <;>
        exact id
  next at_ =>
    cases went
    refine valid.pass (fun _ => .inl rfl) rfl rfl (.inr rfl) ?_ ?_ <;> rw [at_] <;>
      exact id
  next at_ =>
    split at went <;> cases went
    · refine valid.pass (fun _ => .inl rfl) rfl rfl (.inr rfl) ?_ ?_ <;> rw [at_] <;>
        exact id
    · exact valid.foundNode _ at_
  next at_ =>
    obtain ⟨prev, found, rfl⟩ := map_eq_some_iff.mp went
    refine valid.pass (fun _ => .inl rfl) rfl rfl (.inr rfl) ?_ ?_ <;> rw [at_] <;>
      exact id
  next at_ =>
    cases went
    refine valid.pass (.setNode (.inl rfl)) rfl rfl (.inl ?_) ?_ ?_ <;> rw [at_]
    · rfl
    all_goals exact id
  next entry pc _ at_ =>
    have threadValid := stateValid.threads thread
    rw [at_] at threadValid
    obtain ⟨⟨queue, following⟩, moved, rfl⟩ := map_eq_some_iff.mp went
    obtain ⟨kept, tailPtr, cleared⟩ := stepNewNode_kept moved
    obtain ⟨_, idle⟩ := stateValid.queue.stepNewNode fits threadValid.2 moved
    refine valid.move kept tailPtr ?_ (by rw [at_]; exact id) ?_
    · intro id held
      cases following with cases held
      | ready other => exact .inr (cleared _ rfl)
    · intro outside
      cases following with
      | popping => exact absurd trivial outside
      | allocating => exact .inl idle
      | clearing | ready => exact .inl idle.1
  next at_ =>
    cases went
    refine valid.pass (.setNode (.inl rfl)) rfl rfl (.inl ?_) ?_ ?_ <;> rw [at_]
    · rfl
    all_goals exact id
  next at_ =>
    cases went
    exact valid.link stateValid at_
  next at_ =>
    cases went
    exact valid.append stateValid at_
  next at_ =>
    cases went
    refine valid.pass (fun _ => .inl rfl) rfl rfl (.inr rfl) ?_ ?_ <;> rw [at_] <;>
      exact id
  next at_ =>
    cases went
    refine valid.pass (.setNode (.inl rfl)) rfl rfl (.inr rfl) ?_ ?_ <;> rw [at_] <;>
      exact id
  next at_ =>
    cases went
    refine valid.pass (.setNode (.inl rfl)) rfl rfl (.inr rfl) ?_ ?_ <;> rw [at_] <;>
      exact id

theorem withQueue (kept : NextKept state.queue queue)
    (tailPtr : queue.tailPtr = state.queue.tailPtr)
    (pop : queue.cache.pop = state.queue.cache.pop) : EndValid { state with queue } :=
  ⟨valid.ends.kept kept tailPtr (fun _ held => .inl held) id,
    fun quiet => pop.trans (valid.pop quiet)⟩

theorem step_valid (fits : config.Valid) {action : Action Value}
    (stateValid : StateValid config state) (went : step config state action = some after) :
    EndValid after := by
  cases action with
  | push thread value =>
    simp only [step] at went
    split at went <;> cases went
    next idle =>
      have moved := @pass _ state valid thread { state.queue with tail := state.queue.tail + 1 }
        (.waiting value state.queue.tail) (fun _ => .inl rfl) rfl rfl (.inr rfl)
        (by rw [idle]; exact id)
        (by rw [idle]; exact id)
      exact ⟨moved.ends, moved.pop⟩
  | producer thread => exact valid.stepProducer fits stateValid went
  | malloc thread id garbage =>
    simp only [step] at went
    split at went
    next entry at_ =>
      have threadValid := stateValid.threads thread
      rw [at_] at threadValid
      obtain ⟨queue, allocated, rfl⟩ := map_eq_some_iff.mp went
      obtain ⟨kept, tailPtr, cleared⟩ := allocate_kept allocated
      have idle := (stateValid.queue.allocate fits threadValid.2 allocated).2.1
      refine valid.move kept tailPtr ?_ (by rw [at_]; exact fun impossible => impossible)
        fun _ => .inl idle
      intro other held
      cases held
      exact .inr cleared
    next => cases went
  | waitEntry =>
    obtain ⟨queue, waited, rfl⟩ := map_eq_some_iff.mp went
    unfold waitEntry at waited
    split at waited
    next => split at waited <;> cases waited <;> exact valid.withQueue (fun _ => .inl rfl) rfl rfl
    next => cases waited
  | consumer =>
    obtain ⟨queue, consumed, rfl⟩ := map_eq_some_iff.mp went
    have frame := stateValid.queue.consumerFrame fits consumed
    exact valid.withQueue frame.nextKept frame.tailPtr frame.pop

end EndValid

theorem StateValid.quiet (valid : StateValid config state) (ends : EndValid state)
    (idle : ∀ thread, state.producers thread = .idle) (consumer : state.queue.consumer = .idle) :
    Quiet config state.queue := by
  refine ⟨valid.queue, consumer, ends.pop fun thread => ?_, ends.ends.ends ?_, ?_⟩
  · rw [idle thread]
    exact id
  · rintro ⟨thread, linked⟩
    rw [idle thread] at linked
    exact linked
  · intro index posted
    obtain ⟨value, found⟩ := isSome_iff_exists.mp posted
    obtain ⟨pos, pushed⟩ := valid.indices.posted found
    have inside := (List.getElem?_eq_some_iff.mp pushed).1
    have length := valid.indices.length
    omega

theorem StateValid.popped_iff (valid : StateValid config state) (fits : config.Valid)
    (idle : ∀ thread, state.producers thread = .idle) (consumer : state.queue.consumer = .idle) :
    scWaitEntry config state.queue = .kQueueEmpty ↔ state.queue.popped = state.pushed := by
  rw [valid.scWaitEntry_iff fits consumer]
  refine ⟨fun unposted => valid.popped_all unposted idle, fun all => ?_⟩
  cases posted : state.queue.posted (state.queue.popped.length + 1) with
  | none => rfl
  | some value =>
    have found := (valid.indices.posted posted).2
    rw [all] at found
    exact absurd (List.getElem?_eq_some_iff.mp found).1 (Nat.lt_irrefl _)

end Mpsc

theorem Spsc.EndValid.initial (initial : Initial config queue) : Spsc.EndValid { queue } := by
  refine ⟨?_, fun _ => initial.next⟩
  nofun

theorem Mpsc.EndValid.initial (initial : Initial config queue) : Mpsc.EndValid { queue } := by
  refine ⟨⟨?_, fun _ => initial.next⟩, fun _ => initial.pop⟩
  rintro id ⟨thread, impossible⟩
  cases impossible

/-- After a `Clear` between runs, in which nothing was left to pop or the cache took no more
nodes, what is popped are the elements pushed since, in order, and an idle queue is empty only
when all of them have been popped. -/
theorem clear_restarts {nodeSize cacheSize : UInt32} (cacheInit : UInt32) {entryBits : Nat}
    (nodes : max nodeSize.toNat 2 ≤ 2 ^ (31 - entryBits)) (cache : cacheSize.toNat ≤ 2 ^ 27)
    {garbage : Nat → Node Value} {cachePos : Nat → Int} {cacheBuffer : Nat → Nat}
    (made : init (create nodeSize cacheSize cacheInit entryBits) garbage cachePos cacheBuffer =
      some queue) (fresh : Nat) (block : Node Value) :
    (∀ actions state,
      execute (Spsc.step (create nodeSize cacheSize cacheInit entryBits)) { queue } actions =
        some state →
      state.producer = .idle → state.queue.consumer = .idle →
      Clearable (create nodeSize cacheSize cacheInit entryBits) state.queue →
      state.queue.owner fresh = .heap →
        ∃ cleared, clear (create nodeSize cacheSize cacheInit entryBits) state.queue fresh block =
            some cleared ∧
          ∀ later final, execute (Spsc.step (create nodeSize cacheSize cacheInit entryBits))
              { queue := cleared } later = some final →
            final.queue.popped <+: final.pushed ∧
            (final.queue.consumer = .idle →
              (scWaitEntry (create nodeSize cacheSize cacheInit entryBits) final.queue =
                .kQueueEmpty ↔ final.queue.popped = final.pushed))) ∧
    ∀ actions state,
      execute (Mpsc.step (create nodeSize cacheSize cacheInit entryBits)) { queue } actions =
        some state →
      (∀ thread, state.producers thread = .idle) → state.queue.consumer = .idle →
      Clearable (create nodeSize cacheSize cacheInit entryBits) state.queue →
      state.queue.owner fresh = .heap →
        ∃ cleared, clear (create nodeSize cacheSize cacheInit entryBits) state.queue fresh block =
            some cleared ∧
          ∀ later final, execute (Mpsc.step (create nodeSize cacheSize cacheInit entryBits))
              { queue := cleared } later = some final →
            final.queue.popped <+: final.pushed ∧
            ((∀ thread, final.producers thread = .idle) → final.queue.consumer = .idle →
              (scWaitEntry (create nodeSize cacheSize cacheInit entryBits) final.queue =
                .kQueueEmpty ↔ final.queue.popped = final.pushed)) := by
  have configValid := create_valid cacheInit nodes cache
  obtain ⟨valid, initial⟩ := valid_init configValid made
  constructor
  · intro actions state ran idle consumer clearable free
    obtain ⟨stateValid, ends⟩ := @Lib.invariant_of_execute _ _ _
      (fun state => Spsc.StateValid (create nodeSize cacheSize cacheInit entryBits) state ∧
        Spsc.EndValid state)
      (fun both stepped => ⟨both.1.step_valid configValid stepped,
        both.2.step_valid configValid both.1 stepped⟩)
      _ _ _ (And.intro (Spsc.Valid.stateValid configValid valid initial)
        (Spsc.EndValid.initial initial)) ran
    obtain ⟨cleared, result, again, restarted⟩ :=
      (stateValid.quiet ends idle consumer).clear configValid clearable free block
    refine ⟨cleared, result, fun later final continued => ?_⟩
    have finalValid := invariant_of_execute
      (fun valid stepped => Spsc.StateValid.step_valid valid configValid stepped)
      (Spsc.Valid.stateValid configValid again restarted) continued
    exact ⟨finalValid.popped_prefix, finalValid.popped_iff configValid⟩
  · intro actions state ran idle consumer clearable free
    obtain ⟨stateValid, ends⟩ := @Lib.invariant_of_execute _ _ _
      (fun state => Mpsc.StateValid (create nodeSize cacheSize cacheInit entryBits) state ∧
        Mpsc.EndValid state)
      (fun both stepped => ⟨both.1.step_valid configValid stepped,
        both.2.step_valid configValid both.1 stepped⟩)
      _ _ _ (And.intro (Mpsc.Valid.stateValid valid initial) (Mpsc.EndValid.initial initial)) ran
    obtain ⟨cleared, result, again, restarted⟩ :=
      (stateValid.quiet ends idle consumer).clear configValid clearable free block
    refine ⟨cleared, result, fun later final continued => ?_⟩
    have finalValid := invariant_of_execute
      (fun valid stepped => Mpsc.StateValid.step_valid valid configValid stepped)
      (Mpsc.Valid.stateValid again restarted) continued
    exact ⟨finalValid.popped_prefix, finalValid.popped_iff configValid⟩

def pushSeven : List (Spsc.Action Nat) := flatten
  [[.push 7, .producer, .malloc 1 staleNode], replicate 5 .producer]

def popSeven : List (Spsc.Action Nat) := .waitEntry :: replicate 7 .consumer

theorem emptied_clear_restarts :
    ∃ queue state cleared final,
      init (create 2 2 0 4) (fun _ => staleNode) (fun _ => 0) (fun _ => 0) = some queue ∧
      execute (Spsc.step (create 2 2 0 4)) { queue } (pushSeven ++ popSeven) = some state ∧
      clear (create 2 2 0 4) state.queue 9 staleNode = some cleared ∧
      execute (Spsc.step (create 2 2 0 4)) { queue := cleared } [.waitEntry] = some final ∧
      final.queue.popped <+: final.pushed := by
  obtain ⟨queue, state, made, ran, producer, consumer, empty, free, checked⟩ :=
    @Spsc.exists_of_check (create 2 2 0 4) (pushSeven ++ popSeven)
      (fun state => state.producer = .idle ∧ state.queue.consumer = .idle ∧
        state.queue.head = state.queue.tail ∧ state.queue.owner 9 = .heap ∧
        (clear (create 2 2 0 4) state.queue 9 staleNode).any fun cleared =>
          (execute (Spsc.step (create 2 2 0 4)) { queue := cleared } [.waitEntry]).isSome) _
      (by decide +kernel)
  obtain ⟨cleared, result, checked⟩ := (any_eq_true _ _).mp checked
  obtain ⟨final, continued⟩ := isSome_iff_exists.mp checked
  obtain ⟨after, same, later⟩ := (clear_restarts 0 (by decide) (by decide) made 9 staleNode).1
    _ _ ran producer consumer (.inl empty) free
  rw [result] at same
  cases same
  exact ⟨queue, state, cleared, final, made, ran, result, continued, (later _ _ continued).1⟩

/-- With the element still queued, its node comes back from the cache with its mark. -/
theorem clear_keeps_element :
    ∃ queue state cleared final,
      init (create 2 2 0 4) (fun _ => staleNode) (fun _ => 0) (fun _ => 0) = some queue ∧
      execute (Spsc.step (create 2 2 0 4)) { queue } pushSeven = some state ∧
      state.producer = .idle ∧ state.queue.consumer = .idle ∧
      clear (create 2 2 0 4) state.queue 9 staleNode = some cleared ∧
      execute (Spsc.step (create 2 2 0 4)) { queue := cleared } [.waitEntry, .consumer] =
        some final ∧
      final.pushed = [] ∧ final.queue.popped = [7] := by
  obtain ⟨queue, state, made, ran, producer, consumer, checked⟩ :=
    @Spsc.exists_of_check (create 2 2 0 4) pushSeven
      (fun state => state.producer = .idle ∧ state.queue.consumer = .idle ∧
        (clear (create 2 2 0 4) state.queue 9 staleNode).any fun cleared =>
          (execute (Spsc.step (create 2 2 0 4)) { queue := cleared }
            [.waitEntry, .consumer]).any fun final =>
              final.pushed = [] ∧ final.queue.popped = [7]) _ (by decide +kernel)
  obtain ⟨cleared, result, checked⟩ := (any_eq_true _ _).mp checked
  obtain ⟨final, continued, checked⟩ := (any_eq_true _ _).mp checked
  obtain ⟨pushed, popped⟩ := of_decide_eq_true checked
  exact ⟨queue, state, cleared, final, made, ran, producer, consumer, result, continued, pushed,
    popped⟩

end AdkAaf.Adk.UnboundedQueue
