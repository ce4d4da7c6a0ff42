import AdkAaf.Adk.PipelineVariant.Pause

/-! What `Pause()` promises, and the runs in which it keeps the promise. A look of the worker
that finds nothing is worth something only until the next message is posted, and a producer
that took the old pointer posts after the connectors were switched. -/

set_option autoImplicit false

namespace AdkAaf.Adk.PipelineVariant.Pausing

open Function Lib List

def ProducerPC.inHand : ProducerPC → List Nat
  | .outside => []
  | .calling message | .allocating message | .posting message | .counting message
  | .storingDrops message _ => [message]

def WorkerPC.inHand : WorkerPC → List Nat
  | .handling message => [message]
  | _ => []

inductive Place (Producer : Type) where
  | producer (producer : Producer)
  | queue
  | worker
  | processed
  | refused
  deriving DecidableEq

variable {Producer Connector : Type}

namespace System

def contents (system : System Producer Connector) : Place Producer → List Nat
  | .producer producer => (system.producers producer).inHand
  | .queue => system.queue
  | .worker => system.worker.inHand
  | .processed => system.processed
  | .refused => system.refused

def Resting (system : System Producer Connector) : Prop :=
  (system.worker = .raisingIdle ∨ system.worker = .idling) ∧ system.postedSinceLook = false

instance (system : System Producer Connector) : Decidable system.Resting :=
  inferInstanceAs (Decidable (_ ∧ _))

variable [DecidableEq Producer]

end System

def ProducerPC.Inside : ProducerPC → Prop
  | .allocating _ | .posting _ => True
  | .outside | .calling _ | .counting _ | .storingDrops _ _ => False

def ProducerPC.Counting : ProducerPC → Prop
  | .counting _ => True
  | _ => False

def ProducerPC.Storing : ProducerPC → Prop
  | .storingDrops _ _ => True
  | _ => False

def WorkerPC.Storing : WorkerPC → Prop
  | .storingDrops _ => True
  | _ => False

instance : ∀ pc : ProducerPC, Decidable pc.Inside
  | .allocating _ | .posting _ => inferInstanceAs (Decidable True)
  | .outside | .calling _ | .counting _ | .storingDrops _ _ => inferInstanceAs (Decidable False)

instance : ∀ pc : ProducerPC, Decidable pc.Counting
  | .counting _ => inferInstanceAs (Decidable True)
  | .outside | .calling _ | .allocating _ | .posting _ | .storingDrops _ _ =>
    inferInstanceAs (Decidable False)

instance : ∀ pc : ProducerPC, Decidable pc.Storing
  | .storingDrops _ _ => inferInstanceAs (Decidable True)
  | .outside | .calling _ | .allocating _ | .posting _ | .counting _ =>
    inferInstanceAs (Decidable False)

instance : ∀ pc : WorkerPC, Decidable pc.Storing
  | .storingDrops _ => inferInstanceAs (Decidable True)
  | .looking | .handling _ | .countingDrop | .freeing | .raisingIdle | .idling =>
    inferInstanceAs (Decidable False)

namespace System

/-- No thread is between the load and the store of `drop_msgs`. -/
def NoStore (system : System Producer Connector) : Prop :=
  (∀ producer, ¬(system.producers producer).Storing) ∧ ¬system.worker.Storing

/-- No message of an ordered stage waits in the ring for one before it. -/
def NoGap (system : System Producer Connector) : Prop :=
  ∀ message ∈ system.queue, ∀ earlier < message, system.head ≤ earlier → earlier ∈ system.queue

instance [Fintype Producer] (system : System Producer Connector) : Decidable system.NoStore :=
  inferInstanceAs (Decidable (_ ∧ _))

instance (system : System Producer Connector) : Decidable system.NoGap :=
  inferInstanceAs (Decidable (∀ message ∈ system.queue, _))

/-- `Pause()` takes `is_idle` for true only while no producer is in a call by the old pointer,
nothing was posted since the worker last looked, and no message waits for one before it. Of
two increments of `drop_msgs` one ends before the other begins, and an ordered stage refuses
no message. -/
def Allowed (config : Config Producer Connector) (system : System Producer Connector) :
    Action Producer → Prop
  | .forward _ _ | .pause | .resume => True
  | .producer producer => (system.producers producer).Counting →
      config.isOrdered = false ∧ system.NoStore
  | .worker _ => system.worker = .countingDrop → system.NoStore
  | .control => system.control = .sampling → system.isIdle = true →
      (∀ producer, ¬(system.producers producer).Inside) ∧ system.postedSinceLook = false ∧
        (config.isOrdered = true → system.NoGap)

instance [Fintype Producer] [DecidableEq Connector] (config : Config Producer Connector)
    (system : System Producer Connector) :
    ∀ action, Decidable (Allowed config system action)
  | .forward _ _ | .pause | .resume => inferInstanceAs (Decidable True)
  | .producer _ | .worker _ | .control => inferInstanceAs (Decidable (_ → _))

section

variable [DecidableEq Producer] {config : Config Producer Connector}
  {system next : System Producer Connector}

structure Tracked (system : System Producer Connector) : Prop where
  positive : ∀ message ∈ system.forwarded, 1 ≤ message
  placed : ∀ message ∈ system.forwarded, Placed system.contents message
  issued : ∀ place message, message ∈ system.contents place → message ∈ system.forwarded

theorem Tracked.start : (start : System Producer Connector).Tracked where
  positive message mem := by cases mem
  placed message mem := by cases mem
  issued place message mem := by cases place <;> cases mem

variable {message : Nat}

theorem Tracked.unique (tracked : system.Tracked) {first second : Place Producer}
    (mem : message ∈ system.contents first) (other : message ∈ system.contents second) :
    first = second := by
  obtain ⟨place, only⟩ := tracked.placed message (tracked.issued first message mem)
  exact (only.of_mem mem).trans (only.of_mem other).symm

theorem Tracked.congr (tracked : system.Tracked) (forwarded : next.forwarded = system.forwarded)
    (contents : next.contents = system.contents) : next.Tracked := by
  constructor
  · rw [forwarded]
    exact tracked.positive
  · rw [forwarded, contents]
    exact tracked.placed
  · rw [forwarded, contents]
    exact tracked.issued

theorem Tracked.passes (tracked : system.Tracked) {source target : Place Producer}
    (passes : Passes system.contents next.contents message source target)
    (forwarded : next.forwarded = system.forwarded) : next.Tracked := by
  constructor
  · rw [forwarded]
    exact tracked.positive
  · intro other mem
    rw [forwarded] at mem
    exact (tracked.placed other mem).passes passes
  · intro place other mem
    obtain ⟨before, found⟩ := passes.mem_before mem
    rw [forwarded]
    exact tracked.issued before other found

theorem contents_setProducer (producer : Producer) (pc : ProducerPC) (place : Place Producer) :
    (system.setProducer producer pc).contents place =
      if place = .producer producer then pc.inHand else system.contents place := by
  cases place with
  | producer other =>
    by_cases own : other = producer
    · subst own
      simp only [contents, setProducer, update_self, if_true]
    · have away : Place.producer other ≠ .producer producer := fun same => own (by cases same; rfl)
      simp only [contents, setProducer, update_of_ne own, if_neg away]
  | _ => rfl

variable {producer : Producer}

section

variable (tracked : system.Tracked)
include tracked

theorem Tracked.setProducer {pc : ProducerPC}
    (same : pc.inHand = (system.producers producer).inHand) :
    (system.setProducer producer pc).Tracked := by
  refine tracked.congr rfl (funext fun place => ?_)
  rw [contents_setProducer]
  split
  next own =>
    subst own
    exact same
  next => rfl

theorem Tracked.forward (outside : system.producers producer = .outside) (pos : 1 ≤ message)
    (fresh : message ∉ system.forwarded) :
    ({ system with forwarded := system.forwarded ++ [message] }.setProducer producer
      (.calling message)).Tracked := by
  have enters : Enters system.contents
      ({ system with forwarded := system.forwarded ++ [message] }.setProducer producer
        (.calling message)).contents message (.producer producer) := by
    constructor
    · rw [contents_setProducer, if_pos rfl, contents, outside]
      exact Perm.refl _
    · intro place away
      rw [contents_setProducer, if_neg away]
      rfl
  constructor
  · intro other mem
    rcases mem_append.mp mem with old | new
    · exact tracked.positive other old
    · cases mem_singleton.mp new
      exact pos
  · intro other mem
    by_cases same : other = message
    · subst same
      exact enters.placed fun place found => fresh (tracked.issued place _ found)
    · have old : other ∈ system.forwarded := by
        rcases mem_append.mp mem with old | new
        · exact old
        · exact absurd (mem_singleton.mp new) same
      exact (tracked.placed other old).enters enters same
  · intro place other mem
    rcases enters.mem_iff.mp mem with old | ⟨rfl, _⟩
    · exact mem_append_left _ (tracked.issued place other old)
    · exact mem_append_right _ mem_cons_self

theorem Tracked.leave (target : Place Producer)
    (now : (system.producers producer).inHand = [message])
    (elsewhere : ∀ other, target ≠ .producer other)
    (arrives : next.contents target = system.contents target ++ [message])
    (producers : next.producers = update system.producers producer .outside)
    (others : ∀ place, (∀ other, place ≠ .producer other) → place ≠ target →
      next.contents place = system.contents place) (forwarded : next.forwarded = system.forwarded) :
    next.Tracked := by
  have passes : Passes system.contents next.contents message (.producer producer) target := by
    constructor
    · exact (elsewhere producer).symm
    · rw [contents, contents, now, producers, update_self]
      exact Perm.refl _
    · rw [arrives]
      exact perm_append_singleton _ _
    · intro place away aside
      cases place with
      | producer other =>
        have apart : other ≠ producer := fun same => away (congrArg Place.producer same)
        rw [contents, producers, update_of_ne apart, contents]
      | _ => exact others _ (fun _ same => by cases same) aside
  exact tracked.passes passes forwarded

theorem Tracked.post (posting : system.producers producer = .posting message) :
    ({ system with queue := system.queue ++ [message], postedSinceLook := true }.setProducer
      producer .outside).Tracked := by
  refine tracked.leave .queue (congrArg ProducerPC.inHand posting) (fun _ same => by cases same)
    rfl rfl ?_ rfl
  intro place away aside
  cases place with
  | producer other => exact absurd rfl (away other)
  | queue => exact absurd rfl aside
  | worker | processed | refused => rfl

theorem Tracked.refuse {drops : Nat}
    (storing : system.producers producer = .storingDrops message drops) :
    ({ system with dropMsgs := drops + 1, refused := system.refused ++ [message] }.setProducer
      producer .outside).Tracked := by
  refine tracked.leave .refused (congrArg ProducerPC.inHand storing) (fun _ same => by cases same)
    rfl rfl ?_ rfl
  intro place away aside
  cases place with
  | producer other => exact absurd rfl (away other)
  | queue | worker | processed => rfl
  | refused => exact absurd rfl aside

theorem Tracked.producerStep (went : system.producerStep config producer = some next) :
    next.Tracked := by
  unfold System.producerStep at went
  cases now : system.producers producer with
  | outside => simp only [now, reduceCtorEq] at went
  | calling message =>
    simp only [now] at went
    split at went
    all_goals
      cases went
      exact tracked.setProducer (congrArg ProducerPC.inHand now).symm
  | allocating message =>
    have posting : (system.setProducer producer (.posting message)).Tracked :=
      tracked.setProducer (congrArg ProducerPC.inHand now).symm
    simp only [now] at went
    split at went <;> cases went
    · exact posting.congr rfl rfl
    · exact tracked
  | posting message =>
    have posted := tracked.post now
    simp only [now] at went
    split at went
    next =>
      cases went
      exact posted
    next =>
      split at went <;> cases went
      · exact posted.congr rfl rfl
      · exact tracked
  | counting message =>
    simp only [now] at went
    cases went
    exact tracked.setProducer (congrArg ProducerPC.inHand now).symm
  | storingDrops message drops =>
    simp only [now] at went
    cases went
    exact tracked.refuse now

end

omit [DecidableEq Producer] in
theorem waitEntry_some {taken : System Producer Connector}
    (found : system.waitEntry config = some (message, taken)) :
    message ∈ system.queue ∧ (config.isOrdered = true → message = system.head) ∧
      taken = { system with
        queue := system.queue.erase message
        head := if config.isOrdered then system.head + 1 else system.head } := by
  unfold waitEntry at found
  split at found
  next ordered =>
    split at found <;> cases found
    next mem => exact ⟨mem, fun _ => rfl, by rw [if_pos ordered]⟩
  next unordered =>
    split at found <;> cases found
    next first rest queued =>
      refine ⟨queued ▸ mem_cons_self, fun ordered => absurd ordered unordered, ?_⟩
      rw [if_neg unordered, queued, erase_cons_head]

omit [DecidableEq Producer] in
theorem waitEntry_none (found : system.waitEntry config = none) :
    if config.isOrdered then system.head ∉ system.queue else system.queue = [] := by
  unfold waitEntry at found
  split at found
  next ordered =>
    split at found
    next => cases found
    next away =>
      rw [if_pos ordered]
      exact away
  next unordered =>
    rw [if_neg unordered]
    split at found
    next empty => exact empty
    next => cases found

section

variable (tracked : system.Tracked)
include tracked

theorem Tracked.take {head : Nat} (looking : system.worker = .looking)
    (mem : message ∈ system.queue) :
    ({ system with
      queue := system.queue.erase message, head := head, worker := .handling message
      postedSinceLook := false } : System Producer Connector).Tracked := by
  have passes : Passes system.contents ({ system with
        queue := system.queue.erase message, head := head, worker := .handling message
        postedSinceLook := false } : System Producer Connector).contents message .queue
        .worker := by
    constructor
    · exact fun same => by cases same
    · exact perm_cons_erase mem
    · rw [contents, contents, looking]
      exact Perm.refl _
    · intro place away aside
      cases place with
      | producer other | processed | refused => rfl
      | queue => exact absurd rfl away
      | worker => exact absurd rfl aside
  exact tracked.passes passes rfl

theorem Tracked.process {pc : WorkerPC} (handling : system.worker = .handling message)
    (done : pc.inHand = []) :
    ({ system with processed := system.processed ++ [message], worker := pc } :
      System Producer Connector).Tracked := by
  have passes : Passes system.contents
      ({ system with processed := system.processed ++ [message], worker := pc } :
        System Producer Connector).contents message .worker .processed := by
    constructor
    · exact fun same => by cases same
    · rw [contents, contents, handling, done]
      exact Perm.refl _
    · exact perm_append_singleton _ _
    · intro place away aside
      cases place with
      | producer other | queue | refused => rfl
      | worker => exact absurd rfl away
      | processed => exact absurd rfl aside
  exact tracked.passes passes rfl

theorem Tracked.congrWorker (same : next.worker.inHand = system.worker.inHand)
    (producers : next.producers = system.producers) (queue : next.queue = system.queue)
    (processed : next.processed = system.processed) (refused : next.refused = system.refused)
    (forwarded : next.forwarded = system.forwarded) : next.Tracked := by
  refine tracked.congr forwarded (funext fun place => ?_)
  cases place with
  | producer other => rw [contents, producers, contents]
  | queue => exact queue
  | worker => exact same
  | processed => exact processed
  | refused => exact refused

theorem Tracked.workerStep (threw : Bool) : (system.workerStep config threw).Tracked := by
  unfold System.workerStep
  cases now : system.worker with
  | looking =>
    dsimp only
    split
    next message taken found =>
      obtain ⟨mem, _, rfl⟩ := waitEntry_some found
      exact tracked.take now mem
    next =>
      exact tracked.congrWorker (congrArg WorkerPC.inHand now).symm rfl rfl rfl rfl rfl
  | handling message =>
    refine tracked.process now ?_
    split <;> rfl
  | _ =>
    exact tracked.congrWorker (congrArg WorkerPC.inHand now).symm rfl rfl rfl rfl rfl

end

variable [DecidableEq Connector]

omit [DecidableEq Producer] in
theorem controlStep_cases (went : system.controlStep = some next) :
    (∃ connector rest, system.control = .pausing (connector :: rest) ∧
      next = { system with
        callptr := update system.callptr connector .preMessagePaused
        control := .pausing rest }) ∨
    (system.control = .pausing [] ∧ next = { system with control := .sampling }) ∨
    (system.control = .sampling ∧ system.isIdle = true ∧
      next = { system with control := .paused }) ∨
    (system.control = .sampling ∧ next = system) ∨
    (∃ connector rest, system.control = .resuming (connector :: rest) ∧
      next = { system with
        callptr := update system.callptr connector .preMessage
        control := .resuming rest }) ∨
    (system.control = .resuming [] ∧ next = { system with control := .accepting }) := by
  unfold controlStep at went
  split at went
  next => cases went
  next => cases went
  next connector rest now =>
    cases went
    exact .inl ⟨connector, rest, now, rfl⟩
  next now =>
    cases went
    exact .inr (.inl ⟨now, rfl⟩)
  next now =>
    split at went <;> cases went
    next idle => exact .inr (.inr (.inl ⟨now, idle, rfl⟩))
    · exact .inr (.inr (.inr (.inl ⟨now, rfl⟩)))
  next connector rest now =>
    cases went
    exact .inr (.inr (.inr (.inr (.inl ⟨connector, rest, now, rfl⟩))))
  next now =>
    cases went
    exact .inr (.inr (.inr (.inr (.inr ⟨now, rfl⟩))))

omit [DecidableEq Producer] in
theorem controlStep_frame (went : system.controlStep = some next) :
    next = { system with callptr := next.callptr, control := next.control } := by
  rcases controlStep_cases went with ⟨_, _, _, rfl⟩ | ⟨_, rfl⟩ | ⟨_, _, rfl⟩ | ⟨_, rfl⟩ |
    ⟨_, _, _, rfl⟩ | ⟨_, rfl⟩ <;> rfl

end

end System

end AdkAaf.Adk.PipelineVariant.Pausing
