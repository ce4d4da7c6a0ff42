import AdkAaf.Adk.PipelineVariant.PauseContract

/-! `Pause()` keeps its promise in the runs that are allowed. Three invariants beside the places
of the messages carry this: what `drop_msgs` counts, what a look of the worker that found
nothing still says, and which connectors are switched. -/

set_option autoImplicit false

namespace AdkAaf.Adk.PipelineVariant.Pausing

open Function Lib Option List

namespace System

variable {Producer Connector : Type}

/-- At most one thread is between the load and the store of `drop_msgs`. -/
structure Counts (system : System Producer Connector) : Prop where
  counted : system.dropMsgs = system.refused.length + system.thrown
  loaded : ∀ producer message drops,
    system.producers producer = .storingDrops message drops → drops = system.dropMsgs
  workerLoaded : ∀ drops, system.worker = .storingDrops drops → drops = system.dropMsgs
  alone : ∀ producer other, (system.producers producer).Storing →
    (system.producers other).Storing → other = producer
  apart : ∀ producer, (system.producers producer).Storing → ¬system.worker.Storing

variable {config : Config Producer Connector} {system next : System Producer Connector}

theorem Counts.start : (start : System Producer Connector).Counts where
  counted := rfl
  loaded _ _ _ storing := by cases storing
  workerLoaded _ storing := by cases storing
  alone _ _ storing := storing.elim
  apart _ storing := storing.elim

theorem Counts.congr (counts : system.Counts)
    (producers : ∀ producer, (next.producers producer).Storing →
      next.producers producer = system.producers producer)
    (worker : next.worker.Storing → next.worker = system.worker)
    (dropMsgs : next.dropMsgs = system.dropMsgs) (refused : next.refused = system.refused)
    (thrown : next.thrown = system.thrown) : next.Counts where
  counted := by
    rw [dropMsgs, refused, thrown]
    exact counts.counted
  loaded := by
    intro producer message drops storing
    have same := producers producer (by rw [storing]; trivial)
    rw [dropMsgs]
    exact counts.loaded producer message drops (same.symm.trans storing)
  workerLoaded := by
    intro drops storing
    have same := worker (by rw [storing]; trivial)
    rw [dropMsgs]
    exact counts.workerLoaded drops (same.symm.trans storing)
  alone := by
    intro producer other storing otherStoring
    have same := producers producer storing
    have otherSame := producers other otherStoring
    exact counts.alone producer other (same ▸ storing) (otherSame ▸ otherStoring)
  apart := by
    intro producer storing workerStoring
    have same := producers producer storing
    have workerSame := worker workerStoring
    exact counts.apart producer (same ▸ storing) (workerSame ▸ workerStoring)

variable [DecidableEq Producer]

section

variable (counts : system.Counts)
include counts

theorem Counts.setProducer {producer : Producer} {pc : ProducerPC} (outside : ¬pc.Storing) :
    (system.setProducer producer pc).Counts := by
  refine counts.congr ?_ (fun _ => rfl) rfl rfl rfl
  intro other storing
  by_cases own : other = producer
  · subst own
    rw [setProducer_self] at storing
    exact absurd storing outside
  · exact setProducer_of_ne _ own _

theorem Counts.load (noStore : system.NoStore) (producer : Producer) (message : Nat) :
    (system.setProducer producer (.storingDrops message system.dropMsgs)).Counts := by
  have own : ∀ {other}, ((system.setProducer producer
      (.storingDrops message system.dropMsgs)).producers other).Storing → other = producer := by
    intro other storing
    by_contra apart
    rw [setProducer_of_ne _ apart] at storing
    exact noStore.1 other storing
  constructor
  · exact counts.counted
  · intro other held drops storing
    cases own (by rw [storing]; trivial)
    rw [setProducer_self] at storing
    cases storing
    rfl
  · exact counts.workerLoaded
  · intro first second storing otherStoring
    rw [own storing, own otherStoring]
  · intro _ _
    exact noStore.2

variable {producer : Producer}

theorem Counts.refuse {message drops : Nat}
    (storing : system.producers producer = .storingDrops message drops) :
    ({ system with dropMsgs := drops + 1, refused := system.refused ++ [message] }.setProducer
      producer .outside).Counts := by
  have held : (system.producers producer).Storing := by
    rw [storing]
    trivial
  have none : ∀ other, ¬(({ system with
      dropMsgs := drops + 1, refused := system.refused ++ [message] }.setProducer producer
      .outside).producers other).Storing := by
    intro other otherStoring
    by_cases own : other = producer
    · subst own
      rw [setProducer_self] at otherStoring
      exact otherStoring
    · rw [setProducer_of_ne _ own] at otherStoring
      exact own (counts.alone producer other held otherStoring)
  have loaded := counts.loaded producer message drops storing
  have counted := counts.counted
  constructor
  · change drops + 1 = (system.refused ++ [message]).length + system.thrown
    rw [length_append, length_singleton]
    omega
  · intro other kept later otherStoring
    exact absurd (by rw [otherStoring]; trivial) (none other)
  · intro later workerStoring
    refine absurd ?_ (counts.apart producer held)
    change system.worker = .storingDrops later at workerStoring
    rw [workerStoring]
    trivial
  · intro first second firstStoring
    exact absurd firstStoring (none first)
  · intro first firstStoring
    exact absurd firstStoring (none first)

theorem Counts.producerStep (may : (system.producers producer).Counting → system.NoStore)
    (went : system.producerStep config producer = some next) : next.Counts := by
  unfold System.producerStep at went
  cases now : system.producers producer with
  | outside => simp only [now, reduceCtorEq] at went
  | calling message =>
    simp only [now] at went
    split at went
    all_goals
      cases went
      exact counts.setProducer id
  | allocating message =>
    simp only [now] at went
    split at went <;> cases went
    · have reserved : ({ system with
          reserved := if config.isOrdered then system.reserved
            else system.reserved ++ [producer] } : System Producer Connector).Counts :=
        counts.congr (fun _ _ => rfl) (fun _ => rfl) rfl rfl rfl
      exact reserved.setProducer id
    · exact counts
  | posting message =>
    have posted : ({ system with
        queue := system.queue ++ [message], postedSinceLook := true } :
        System Producer Connector).Counts :=
      counts.congr (fun _ _ => rfl) (fun _ => rfl) rfl rfl rfl
    have outside := @Counts.setProducer _ _ _ _ posted producer .outside id
    simp only [now] at went
    split at went
    next =>
      cases went
      exact outside
    next =>
      split at went <;> cases went
      · exact outside.congr (fun _ _ => rfl) (fun _ => rfl) rfl rfl rfl
      · exact counts
  | counting message =>
    simp only [now] at went
    cases went
    exact counts.load (may (by rw [now]; trivial)) producer message
  | storingDrops message drops =>
    simp only [now] at went
    cases went
    exact counts.refuse now

omit [DecidableEq Producer] in
theorem Counts.workerStep (threw : Bool)
    (may : system.worker = .countingDrop → system.NoStore) :
    (system.workerStep config threw).Counts := by
  have goesOn : ∀ {later : System Producer Connector}, later.producers = system.producers →
      ¬later.worker.Storing → later.dropMsgs = system.dropMsgs →
      later.refused = system.refused → later.thrown = system.thrown → later.Counts := by
    intro later producers outside dropMsgs refused thrown
    exact counts.congr (fun producer _ => congrFun producers producer)
      (fun storing => absurd storing outside) dropMsgs refused thrown
  unfold System.workerStep
  cases now : system.worker with
  | looking =>
    dsimp only
    split
    next message taken found =>
      obtain ⟨_, _, rfl⟩ := waitEntry_some found
      exact goesOn rfl id rfl rfl rfl
    next => exact goesOn rfl id rfl rfl rfl
  | handling message =>
    refine goesOn rfl ?_ rfl rfl rfl
    dsimp only
    split <;> exact id
  | countingDrop =>
    have noStore := may now
    constructor
    · exact counts.counted
    · exact counts.loaded
    · intro drops storing
      cases storing
      rfl
    · exact counts.alone
    · intro producer storing
      exact absurd storing (noStore.1 producer)
  | storingDrops drops =>
    have loaded := counts.workerLoaded drops now
    have counted := counts.counted
    constructor
    · change drops + 1 = system.refused.length + (system.thrown + 1)
      omega
    · intro producer message later storing
      refine absurd ?_ (counts.apart producer (by
        change system.producers producer = _ at storing
        rw [storing]
        trivial))
      rw [now]
      trivial
    · nofun
    · exact counts.alone
    · exact fun _ _ => id
  | freeing | raisingIdle | idling => exact goesOn rfl id rfl rfl rfl

end

structure Rests (config : Config Producer Connector) (system : System Producer Connector) :
    Prop where
  idle : system.isIdle = true → system.worker = .idling
  looked : system.Resting →
    if config.isOrdered then system.head ∉ system.queue else system.queue = []

omit [DecidableEq Producer] in
theorem Rests.start : Rests config (start : System Producer Connector) where
  idle raised := by cases raised
  looked resting := by rcases resting.1 with away | away <;> cases away

section

variable (rests : system.Rests config)
include rests

omit [DecidableEq Producer] in
theorem Rests.congr (isIdle : next.isIdle = system.isIdle) (worker : next.worker = system.worker)
    (queue : next.queue = system.queue) (head : next.head = system.head)
    (posted : next.postedSinceLook = system.postedSinceLook) : next.Rests config := by
  constructor
  · rw [isIdle, worker]
    exact rests.idle
  · rw [Resting, worker, posted, queue, head]
    exact rests.looked

theorem Rests.producerStep {producer : Producer}
    (went : system.producerStep config producer = some next) : next.Rests config := by
  unfold System.producerStep at went
  cases now : system.producers producer with
  | outside => simp only [now, reduceCtorEq] at went
  | calling message =>
    simp only [now] at went
    split at went
    all_goals
      cases went
      exact rests.congr rfl rfl rfl rfl rfl
  | allocating message =>
    simp only [now] at went
    split at went <;> cases went
    · exact rests.congr rfl rfl rfl rfl rfl
    · exact rests
  | posting message =>
    -- what is posted ends what the last look of the worker says
    simp only [now] at went
    split at went
    next =>
      cases went
      exact ⟨rests.idle, fun resting => by cases resting.2⟩
    next =>
      split at went <;> cases went
      · exact ⟨rests.idle, fun resting => by cases resting.2⟩
      · exact rests
  | counting message | storingDrops message drops =>
    simp only [now] at went
    cases went
    exact rests.congr rfl rfl rfl rfl rfl

omit [DecidableEq Producer] in
theorem Rests.busy {pc : WorkerPC} (now : system.worker = pc) (notIdle : pc ≠ .idling)
    (isIdle : next.isIdle = system.isIdle) (notRaising : next.worker ≠ .raisingIdle)
    (notIdling : next.worker ≠ .idling) : next.Rests config := by
  constructor
  · intro raised
    exact absurd (now.symm.trans (rests.idle (isIdle.symm.trans raised))) notIdle
  · intro resting
    rcases resting.1 with away | away
    · exact absurd away notRaising
    · exact absurd away notIdling

omit [DecidableEq Producer] in
theorem Rests.workerStep (threw : Bool) : (system.workerStep config threw).Rests config := by
  unfold System.workerStep
  cases now : system.worker with
  | looking =>
    dsimp only
    split
    next message taken found =>
      obtain ⟨_, _, rfl⟩ := waitEntry_some found
      exact rests.busy now WorkerPC.noConfusion rfl WorkerPC.noConfusion WorkerPC.noConfusion
    next found =>
      have nothing := waitEntry_none found
      constructor
      · intro raised
        exact absurd (now.symm.trans (rests.idle raised)) WorkerPC.noConfusion
      · exact fun _ => nothing
  | handling message =>
    refine rests.busy now WorkerPC.noConfusion rfl ?_ ?_
    · dsimp only
      split <;> exact WorkerPC.noConfusion
    · dsimp only
      split <;> exact WorkerPC.noConfusion
  | countingDrop | storingDrops drops | freeing =>
    exact rests.busy now WorkerPC.noConfusion rfl WorkerPC.noConfusion WorkerPC.noConfusion
  | raisingIdle =>
    constructor
    · exact fun _ => rfl
    · exact fun resting => rests.looked ⟨.inl now, resting.2⟩
  | idling =>
    constructor
    · nofun
    · intro resting
      rcases resting.1 with away | away <;> cases away

end

structure Ordered (system : System Producer Connector) : Prop where
  started : 1 ≤ system.head
  taken : ∀ number, 1 ≤ number → number < system.head →
    number ∈ system.processed ∨ system.worker = .handling number
  processed : ∀ number ∈ system.processed, number < system.head
  handling : ∀ number, system.worker = .handling number → number < system.head
  accepts : ∀ producer, ¬(system.producers producer).Storing
  refused : system.refused = []

omit [DecidableEq Producer] in
theorem Ordered.start : (start : System Producer Connector).Ordered where
  started := Nat.le_refl 1
  taken number positive below := absurd positive (Nat.not_le_of_lt below)
  processed number mem := by cases mem
  handling number handling := by cases handling
  accepts producer storing := storing
  refused := rfl

section

variable (ordered : system.Ordered)
include ordered

omit [DecidableEq Producer] in
theorem Ordered.congr (head : next.head = system.head)
    (processed : next.processed = system.processed)
    (worker : ∀ n, next.worker = .handling n ↔ system.worker = .handling n)
    (accepts : ∀ producer, ¬(next.producers producer).Storing)
    (refused : next.refused = system.refused) : next.Ordered := by
  constructor
  · rw [head]
    exact ordered.started
  · intro n pos below
    rw [head] at below
    rw [processed, worker]
    exact ordered.taken n pos below
  · rw [processed, head]
    exact ordered.processed
  · intro n handling
    rw [head]
    exact ordered.handling n ((worker n).mp handling)
  · exact accepts
  · rw [refused]
    exact ordered.refused

theorem Ordered.setProducer {producer : Producer} {pc : ProducerPC} (accepts : ¬pc.Storing) :
    (system.setProducer producer pc).Ordered := by
  refine ordered.congr rfl rfl (fun _ => .rfl) ?_ rfl
  intro other
  by_cases own : other = producer
  · subst own
    rw [setProducer_self]
    exact accepts
  · rw [setProducer_of_ne _ own]
    exact ordered.accepts other

theorem Ordered.producerStep {producer : Producer} (may : ¬(system.producers producer).Counting)
    (went : system.producerStep config producer = some next) : next.Ordered := by
  unfold System.producerStep at went
  cases now : system.producers producer with
  | outside => simp only [now, reduceCtorEq] at went
  | calling message =>
    simp only [now] at went
    split at went
    all_goals
      cases went
      exact ordered.setProducer id
  | allocating message =>
    have posting : (system.setProducer producer (.posting message)).Ordered :=
      ordered.setProducer id
    simp only [now] at went
    split at went <;> cases went
    · exact posting.congr rfl rfl (fun _ => .rfl) posting.accepts rfl
    · exact ordered
  | posting message =>
    have outside : (system.setProducer producer .outside).Ordered :=
      ordered.setProducer id
    simp only [now] at went
    split at went
    next =>
      cases went
      exact outside.congr rfl rfl (fun _ => .rfl) outside.accepts rfl
    next =>
      split at went <;> cases went
      · exact outside.congr rfl rfl (fun _ => .rfl) outside.accepts rfl
      · exact ordered
  | counting message => exact absurd (by rw [now]; trivial) may
  | storingDrops message drops =>
    exact absurd (by rw [now]; trivial) (ordered.accepts producer)

omit [DecidableEq Producer] in
theorem Ordered.free (before : system.worker.inHand = []) (after : next.worker.inHand = [])
    (head : next.head = system.head) (processed : next.processed = system.processed)
    (producers : next.producers = system.producers) (refused : next.refused = system.refused) :
    next.Ordered := by
  refine ordered.congr head processed ?_ (by rw [producers]; exact ordered.accepts) refused
  intro n
  constructor
  · intro handling
    rw [handling] at after
    cases after
  · intro handling
    rw [handling] at before
    cases before

omit [DecidableEq Producer] in
theorem Ordered.workerStep (isOrdered : config.isOrdered = true) (threw : Bool) :
    (system.workerStep config threw).Ordered := by
  unfold System.workerStep
  cases now : system.worker with
  | looking =>
    dsimp only
    split
    next message taken found =>
      obtain ⟨_, atHead, rfl⟩ := waitEntry_some found
      cases atHead isOrdered
      rw [if_pos isOrdered]
      constructor
      · exact Nat.le_succ_of_le ordered.started
      · intro k pos below
        rcases Nat.lt_succ_iff_lt_or_eq.mp below with earlier | rfl
        · rcases ordered.taken k pos earlier with done | handling
          · exact .inl done
          · rw [now] at handling
            cases handling
        · exact .inr rfl
      · intro k mem
        exact Nat.lt_succ_of_lt (ordered.processed k mem)
      · intro k handling
        cases handling
        exact Nat.lt_succ_self _
      · exact ordered.accepts
      · exact ordered.refused
    next => exact ordered.free (congrArg WorkerPC.inHand now) rfl rfl rfl rfl rfl
  | handling message =>
    have below := ordered.handling message now
    constructor
    · exact ordered.started
    · intro k pos earlier
      left
      rcases ordered.taken k pos earlier with done | handling
      · exact mem_append_left _ done
      · rw [now] at handling
        cases handling
        exact mem_append_right _ mem_cons_self
    · intro k mem
      rcases mem_append.mp mem with done | last
      · exact ordered.processed k done
      · cases mem_singleton.mp last
        exact below
    · intro k handling
      dsimp only at handling
      split at handling <;> cases handling
    · exact ordered.accepts
    · exact ordered.refused
  | _ => exact ordered.free (congrArg WorkerPC.inHand now) rfl rfl rfl rfl rfl

end

def Switched (config : Config Producer Connector) (system : System Producer Connector) : Prop :=
  match system.control with
  | .pausing rest => ∀ connector ∈ config.prevConnectors,
      connector ∈ rest ∨ system.callptr connector = .preMessagePaused
  | .sampling | .paused => ∀ connector ∈ config.prevConnectors,
      system.callptr connector = .preMessagePaused
  | .accepting | .resuming _ => True

structure Quiet (system : System Producer Connector) : Prop where
  queue : system.queue = []
  worker : system.worker.inHand = []
  producers : ∀ producer, ¬(system.producers producer).Inside

structure Paused (config : Config Producer Connector) (system : System Producer Connector) :
    Prop where
  switched : system.Switched config
  quiet : system.control = .paused → system.Quiet

omit [DecidableEq Producer] in
theorem Paused.congr (paused : system.Paused config) (callptr : next.callptr = system.callptr)
    (control : next.control = system.control) (quiet : system.Quiet → next.Quiet) :
    next.Paused config := by
  constructor
  · rw [Switched, callptr, control]
    exact paused.switched
  · rw [control]
    exact fun away => quiet (paused.quiet away)

theorem Quiet.setProducer (quiet : system.Quiet) (producer : Producer) {pc : ProducerPC}
    (aside : ¬pc.Inside) : (system.setProducer producer pc).Quiet := by
  refine ⟨quiet.queue, quiet.worker, fun other => ?_⟩
  by_cases own : other = producer
  · subst own
    rw [setProducer_self]
    exact aside
  · rw [setProducer_of_ne _ own]
    exact quiet.producers other

variable {producer : Producer}

theorem Paused.producerStep (paused : system.Paused config)
    (went : system.producerStep config producer = some next) : next.Paused config := by
  have inside : (system.producers producer).Inside → system.control ≠ .paused :=
    fun call away => (paused.quiet away).producers producer call
  unfold System.producerStep at went
  cases now : system.producers producer with
  | outside => simp only [now, reduceCtorEq] at went
  | calling message =>
    simp only [now] at went
    split at went
    next accepting =>
      cases went
      refine ⟨paused.switched, fun away => ?_⟩
      -- a paused stage has no connector with the old pointer
      have switched := paused.switched
      change system.control = .paused at away
      rw [Switched, away] at switched
      have closed := switched _ (config.connected producer)
      rw [accepting] at closed
      cases closed
    next =>
      cases went
      exact paused.congr rfl rfl fun quiet => quiet.setProducer producer id
  | allocating message =>
    have open' := inside (by rw [now]; trivial)
    simp only [now] at went
    split at went <;> cases went
    · exact ⟨paused.switched, fun away => absurd away open'⟩
    · exact paused
  | posting message =>
    have open' := inside (by rw [now]; trivial)
    simp only [now] at went
    split at went
    next =>
      cases went
      exact ⟨paused.switched, fun away => absurd away open'⟩
    next =>
      split at went <;> cases went
      · exact ⟨paused.switched, fun away => absurd away open'⟩
      · exact paused
  | counting message =>
    simp only [now] at went
    cases went
    exact paused.congr rfl rfl fun quiet => quiet.setProducer producer id
  | storingDrops message drops =>
    simp only [now] at went
    cases went
    refine paused.congr rfl rfl fun quiet => ?_
    have outside : (system.setProducer producer .outside).Quiet :=
      quiet.setProducer producer id
    exact { outside with }

omit [DecidableEq Producer] in
theorem Quiet.workerStep (quiet : system.Quiet) (threw : Bool) :
    (system.workerStep config threw).Quiet := by
  unfold System.workerStep
  cases now : system.worker with
  | looking =>
    dsimp only
    split
    next message taken found =>
      have mem := (waitEntry_some found).1
      rw [quiet.queue] at mem
      cases mem
    next => exact ⟨quiet.queue, rfl, quiet.producers⟩
  | handling message =>
    have worker := quiet.worker
    rw [now] at worker
    cases worker
  | countingDrop | storingDrops drops | freeing | raisingIdle | idling =>
    exact ⟨quiet.queue, rfl, quiet.producers⟩

omit [DecidableEq Producer] in
theorem workerStep_frame (threw : Bool) :
    (system.workerStep config threw).callptr = system.callptr ∧
      (system.workerStep config threw).control = system.control ∧
      (system.workerStep config threw).producers = system.producers := by
  unfold System.workerStep
  split
  next =>
    split
    next message taken found =>
      obtain ⟨_, _, rfl⟩ := waitEntry_some found
      exact ⟨rfl, rfl, rfl⟩
    next => exact ⟨rfl, rfl, rfl⟩
  all_goals exact ⟨rfl, rfl, rfl⟩

structure Sound (config : Config Producer Connector) (system : System Producer Connector) :
    Prop where
  tracked : system.Tracked
  counts : system.Counts
  rests : system.Rests config
  ordered : config.isOrdered = true → system.Ordered
  paused : system.Paused config

theorem Sound.start (config : Config Producer Connector) : Sound config start where
  tracked := .start
  counts := .start
  rests := .start
  ordered _ := .start
  paused := ⟨trivial, fun away => by cases away⟩

theorem Sound.head_le (sound : Sound config system) (isOrdered : config.isOrdered = true)
    {message : Nat} (mem : message ∈ system.contents .queue) : system.head ≤ message := by
  by_contra below
  have positive := sound.tracked.positive message (sound.tracked.issued _ message mem)
  have ordered := sound.ordered isOrdered
  rcases ordered.taken message positive (Nat.lt_of_not_le below) with done | handling
  · cases sound.tracked.unique mem (show message ∈ system.contents .processed from done)
  · have held : message ∈ system.contents .worker := by
      rw [contents, handling]
      exact mem_cons_self
    cases sound.tracked.unique mem held

theorem Sound.queue_empty (sound : Sound config system) (resting : system.Resting)
    (noGap : config.isOrdered = true → system.NoGap) : system.queue = [] := by
  have looked := sound.rests.looked resting
  split at looked
  next isOrdered =>
    refine eq_nil_iff_forall_not_mem.mpr fun message mem => ?_
    have atLeast := sound.head_le isOrdered mem
    rcases Nat.lt_or_eq_of_le atLeast with later | same
    · exact looked (noGap isOrdered message mem system.head later .refl)
    · exact looked (same ▸ mem)
  · exact looked

variable [DecidableEq Connector]

theorem Sound.controlStep (sound : Sound config system)
    (may : system.control = .sampling → system.isIdle = true →
      (∀ producer, ¬(system.producers producer).Inside) ∧ system.postedSinceLook = false ∧
        (config.isOrdered = true → system.NoGap))
    (went : system.controlStep = some next) : Sound config next := by
  have frame := controlStep_frame went
  have paused : next.Paused config := by
    have switched := sound.paused.switched
    rw [Switched] at switched
    rcases controlStep_cases went with ⟨connector, rest, now, rfl⟩ | ⟨now, rfl⟩ |
      ⟨now, idle, rfl⟩ | ⟨now, rfl⟩ | ⟨connector, rest, now, rfl⟩ | ⟨now, rfl⟩
    · rw [now] at switched
      refine ⟨fun other mem => ?_, fun away => by cases away⟩
      by_cases own : other = connector
      · subst own
        exact .inr (update_self _ _ _)
      · rcases switched other mem with remaining | closed
        · rcases mem_cons.mp remaining with same | later
          · exact absurd same own
          · exact .inl later
        · exact .inr ((update_of_ne own _ _).trans closed)
    · rw [now] at switched
      refine ⟨fun other mem => ?_, fun away => by cases away⟩
      rcases switched other mem with remaining | closed
      · cases remaining
      · exact closed
    · rw [now] at switched
      refine ⟨switched, fun _ => ?_⟩
      obtain ⟨outside, posted, noGap⟩ := may now idle
      have idling := sound.rests.idle idle
      exact ⟨sound.queue_empty ⟨.inr idling, posted⟩ noGap, congrArg WorkerPC.inHand idling,
        outside⟩
    · exact sound.paused
    all_goals exact ⟨trivial, fun away => by cases away⟩
  rw [frame] at paused ⊢
  exact ⟨sound.tracked.congr rfl rfl,
    sound.counts.congr (fun _ _ => rfl) (fun _ => rfl) rfl rfl rfl,
    sound.rests.congr rfl rfl rfl rfl rfl,
    fun isOrdered => (sound.ordered isOrdered).congr rfl rfl (fun _ => .rfl)
      (sound.ordered isOrdered).accepts rfl,
    paused⟩

omit [DecidableEq Connector] in
theorem Sound.setControl (sound : Sound config system) {control : ControlPC Connector}
    (paused : ({ system with control := control } : System Producer Connector).Paused config) :
    Sound config { system with control := control } :=
  ⟨sound.tracked.congr rfl rfl, sound.counts.congr (fun _ _ => rfl) (fun _ => rfl) rfl rfl rfl,
    sound.rests.congr rfl rfl rfl rfl rfl,
    fun isOrdered => (sound.ordered isOrdered).congr rfl rfl (fun _ => .rfl)
      (sound.ordered isOrdered).accepts rfl,
    paused⟩

omit [DecidableEq Connector] in
theorem Sound.forward (sound : Sound config system) {message : Nat}
    (outside : system.producers producer = .outside) (pos : 1 ≤ message)
    (fresh : message ∉ system.forwarded) :
    Sound config ({ system with forwarded := system.forwarded ++ [message] }.setProducer producer
      (.calling message)) := by
  have counts : (system.setProducer producer (.calling message)).Counts :=
    sound.counts.setProducer id
  constructor
  · exact sound.tracked.forward outside pos fresh
  · exact counts.congr (fun _ _ => rfl) (fun _ => rfl) rfl rfl rfl
  · exact sound.rests.congr rfl rfl rfl rfl rfl
  · intro isOrdered
    have ordered : (system.setProducer producer (.calling message)).Ordered :=
      (sound.ordered isOrdered).setProducer id
    exact ordered.congr rfl rfl (fun _ => .rfl) ordered.accepts rfl
  · refine sound.paused.congr rfl rfl fun quiet => ?_
    have called : (system.setProducer producer (.calling message)).Quiet :=
      quiet.setProducer producer id
    exact ⟨called.queue, called.worker, called.producers⟩

theorem Sound.step {action : Action Producer} (sound : Sound config system)
    (may : Allowed config system action) (went : step config system action = some next) :
    Sound config next := by
  cases action with
  | forward producer message =>
    simp only [System.step] at went
    split at went <;> cases went
    next guard => exact sound.forward guard.1 guard.2.1 guard.2.2
  | producer producer =>
    refine ⟨sound.tracked.producerStep went,
      sound.counts.producerStep (fun counting => (may counting).2) went,
      sound.rests.producerStep went, fun isOrdered => ?_, sound.paused.producerStep went⟩
    refine (sound.ordered isOrdered).producerStep (fun counting => ?_) went
    exact Bool.false_ne_true ((may counting).1.symm.trans isOrdered)
  | worker threw =>
    cases went
    obtain ⟨callptr, control, _⟩ := workerStep_frame threw
    exact ⟨sound.tracked.workerStep threw, sound.counts.workerStep threw may,
      sound.rests.workerStep threw,
      fun isOrdered => (sound.ordered isOrdered).workerStep isOrdered threw,
      sound.paused.congr callptr control fun quiet => quiet.workerStep threw⟩
  | pause =>
    simp only [System.step] at went
    split at went
    next =>
      cases went
      exact sound.setControl ⟨fun _ mem => .inl mem, fun away => by cases away⟩
    next =>
      cases went
      exact sound
    all_goals cases went
  | resume =>
    simp only [System.step] at went
    split at went
    next =>
      cases went
      exact sound.setControl ⟨trivial, fun away => by cases away⟩
    next =>
      cases went
      exact sound.setControl ⟨trivial, fun away => by cases away⟩
    all_goals cases went
  | control => exact sound.controlStep may went

end System

/-- The producer takes the pointer before `Pause()` switches it, and posts after `Pause()` found
the worker idle. -/
def overtakenRun : List (Action Unit) :=
  [.worker false, .worker false, .forward () 1, .producer (), .pause, .control, .control,
    .control, .producer (), .producer (), .worker false, .worker false]

end AdkAaf.Adk.PipelineVariant.Pausing
