import AdkAaf.Adk.IoEngine.TxSchedule
import AdkAaf.Lib.Token

/-! An endpoint that is not released is at one place, and a message in its queue does not wait
there unseen. -/

set_option autoImplicit false
set_option linter.unusedSectionVars false

namespace AdkAaf.Adk.IoEngine.TxSchedule

open Lib State

/-- Who has the endpoint. `thread` is one that took it out of idle and is about to add the
job, `registrar` is `RegTxEndpoint`. -/
inductive Place (Thread : Type) where
  | queue (queue : ActorQueue)
  | actor
  | epoll
  | idle
  | thread (thread : Thread)
  | registrar
  deriving DecidableEq

def IdlePc.holds : IdlePc → Bool
  | .lock => true
  | .setTxIdle => true
  | .addJob => true
  | _ => false

def IdlePc.checks : IdlePc → Bool
  | .readHead => true
  | .readTail _ => true
  | .atomicSetTxActive => true
  | _ => false

def RegPc.holds : RegPc → Bool
  | .idle pc => pc.holds
  | .done => false
  | _ => true

def ActorPc.holds : ActorPc → Bool
  | .idle pc => pc.holds
  | .away => false
  | .setTxBlock => false
  | _ => true

variable {Thread : Type} [DecidableEq Thread]

namespace State

/-- How often the endpoint is at a place. In the epoll set it counts until the epoll thread
has added the job. -/
def entries (state : State Thread) : Place Thread → Nat
  | .queue queue => state.queues queue
  | .actor => if state.actor.holds then 1 else 0
  | .epoll => if state.inEpoll ∧ state.epoll ≠ .ePollDel then 1 else 0
  | .idle => if state.txStatus = .kIdle then 1 else 0
  | .thread thread => if state.threads thread = .addJob then 1 else 0
  | .registrar => if state.reg.holds then 1 else 0

end State

inductive Runner where
  | actor
  | registrar
  deriving DecidableEq

def Runner.place : Runner → Place Thread
  | .actor => .actor
  | .registrar => .registrar

namespace State

def runs (state : State Thread) : Runner → Option IdlePc
  | .actor =>
    match state.actor with
    | .idle pc => some pc
    | _ => none
  | .registrar =>
    match state.reg with
    | .idle pc => some pc
    | _ => none

/-- A thread is between its push and its compare and swap, or between its store of idle and
its compare and swap. -/
def Checking (state : State Thread) : Prop :=
  (∃ thread, state.threads thread = .readStatus ∨ state.threads thread = .atomicSetTxActive) ∨
    ∃ runner pc, state.runs runner = some pc ∧ pc.checks = true

end State

/-- The endpoint is at exactly one place, once, and no message waits in an idle endpoint that
nobody is about to look at. -/
structure Woken (state : State Thread) : Prop where
  held : ∃ place, OnlyAt state.entries place
  woken : state.txStatus = .kIdle → .posted ∈ state.txMessageQueue → state.Checking

structure Kept (state : State Thread) : Prop extends Woken state where
  undropped : state.epoll ≠ .ePollDelDropped ∧ state.epoll ≠ .dropTxEndpoint
  polled : state.epoll ≠ .wait → state.inEpoll = true
  blocked : state.actor = .setTxBlock →
    state.entries .epoll ≠ 0 ∨ state.queues .activeEndpoints ≠ 0
  behind : ∀ runner head, state.runs runner = some (.readTail head) → head ≤ state.head

variable {config : Config} {state next : State Thread} {thread : Thread}

theorem busy_of_only {place holder : Place Thread} (only : OnlyAt state.entries place)
    (held : state.entries holder ≠ 0) (other : holder ≠ .idle) : state.txStatus ≠ .kIdle := by
  intro idle
  have absent := only.absent held other.symm
  rw [entries, if_pos idle] at absent
  cases absent

def Keeps (next : State Thread) : Prop := next.released = false → Kept next

section Threads

theorem entries_setThread (state : State Thread) (thread : Thread) (pc : ThreadPc)
    (place : Place Thread) : (state.setThread thread pc).entries place =
      if place = .thread thread then (if pc = .addJob then 1 else 0) else state.entries place := by
  cases place with
  | thread other =>
    by_cases same : other = thread
    all_goals simp [entries, setThread, same]
  | _ => rfl

variable {pc : ThreadPc}

theorem entries_setThread_same (before : state.threads thread ≠ .addJob) (after : pc ≠ .addJob) :
    (state.setThread thread pc).entries = state.entries := by
  funext place
  rw [entries_setThread]
  split
  next here =>
    rw [here]
    exact (if_neg before).symm
  next => rfl

theorem checking_setThread (checking : state.Checking)
    (other : state.threads thread ≠ .readStatus ∧ state.threads thread ≠ .atomicSetTxActive) :
    (state.setThread thread pc).Checking := by
  rcases checking with ⟨checker, checks⟩ | runner
  · refine .inl ⟨checker, ?_⟩
    have apart : checker ≠ thread := by
      rintro rfl
      rcases checks with checks | checks
      · exact other.1 checks
      · exact other.2 checks
    rw [setThread]
    dsimp only
    rw [if_neg apart]
    exact checks
  · exact .inr runner

theorem checking_of_setThread (checks : pc = .readStatus ∨ pc = .atomicSetTxActive) :
    (state.setThread thread pc).Checking := by
  refine .inl ⟨thread, ?_⟩
  rw [setThread]
  dsimp only
  rw [if_pos rfl]
  exact checks

theorem Kept.setThread (kept : Kept state) (before : state.threads thread ≠ .addJob)
    (after : pc ≠ .addJob) (woken : state.txStatus = .kIdle → .posted ∈ state.txMessageQueue →
      (state.setThread thread pc).Checking) : Kept (state.setThread thread pc) := by
  have same : (state.setThread thread pc).entries = state.entries :=
    entries_setThread_same before after
  refine { kept with toWoken := ⟨?_, woken⟩ }
  rw [same]
  exact kept.held

def ThreadPc.quiet : ThreadPc → Bool
  | .readStatus => false
  | .atomicSetTxActive => false
  | .addJob => false
  | _ => true

theorem Kept.setThread_quiet (kept : Kept state) (quiet : (state.threads thread).quiet = true)
    (after : pc ≠ .addJob) : Kept (state.setThread thread pc) := by
  refine kept.setThread ?_ after fun idle posted => checking_setThread (kept.woken idle posted)
    ⟨?_, ?_⟩
  all_goals
    intro own
    rw [own] at quiet
    cases quiet

theorem moves_setThread {after : State Thread} {source target : Place Thread}
    (moved : ∀ place, place ≠ .thread thread →
      after.entries place + (if place = source then 1 else 0) =
        state.entries place + (if place = target then 1 else 0))
    (own : (if pc = .addJob then 1 else 0) + (if .thread thread = source then 1 else 0) =
      state.entries (.thread thread) + (if .thread thread = target then 1 else 0)) :
    Moves state.entries (after.setThread thread pc).entries source target := by
  intro place
  rw [entries_setThread]
  split
  next here =>
    rw [here]
    exact own
  next elsewhere => exact moved place elsewhere

theorem Kept.sendMessage (kept : Kept state)
    (went : state.sendMessage config thread = some next) : Kept next := by
  rw [State.sendMessage] at went
  split at went
  next outside =>
    split at went <;> cases went
    · exact kept
    · have pushed : Kept { state with
          txMessageQueue := state.txMessageQueue ++ [Slot.reserved thread] } := by
        refine { kept with toWoken := ⟨kept.held, ?_⟩ }
        intro idle posted
        rcases List.mem_append.mp posted with posted | last
        · exact kept.woken idle posted
        · cases List.mem_singleton.mp last
      exact pushed.setThread_quiet (congrArg ThreadPc.quiet outside) ThreadPc.noConfusion
  next => cases went

theorem Kept.unregTxEndpoint (kept : Kept state)
    (went : state.unregTxEndpoint thread = some next) : Kept next := by
  rw [State.unregTxEndpoint] at went
  split at went
  next outside =>
    split at went <;> cases went
    · exact kept
    · exact kept.setThread_quiet (congrArg ThreadPc.quiet outside) ThreadPc.noConfusion
  next => cases went

theorem Kept.threadReturns (kept : Kept state)
    (went : state.threadReturns thread = some next) : Kept next := by
  rw [State.threadReturns] at went
  split at went <;> cases went
  next writes => exact kept.setThread_quiet (congrArg ThreadPc.quiet writes) ThreadPc.noConfusion

theorem moves_atomicSetTxActive (idle : state.txStatus = .kIdle)
    (own : state.threads thread = .atomicSetTxActive) :
    Moves state.entries ({ state with txStatus := .kActive }.setThread thread .addJob).entries
      .idle (.thread thread) := by
  apply moves_setThread
  · intro place elsewhere
    rw [if_neg elsewhere]
    cases place with
    | idle => simp [entries, idle]
    | _ => rfl
  · simp [entries, own]

theorem moves_addJob_setThread (own : state.threads thread = .addJob) :
    Moves state.entries (state.addJob.setThread thread .outside).entries
      (.thread thread) (.queue .activeEndpoints) := by
  apply moves_setThread
  · intro place elsewhere
    rw [if_neg elsewhere]
    cases place with
    | queue queue => simp [entries, addJob]
    | _ => rfl
  · simp [entries, own]

theorem Kept.threadNext (kept : Kept state) (went : state.threadNext thread = some next) :
    Keeps next := by
  intro unreleased
  rw [State.threadNext] at went
  cases own : state.threads thread with rw [own] at went
  | outside => cases went
  | post =>
    cases went
    have before : (state.post thread).threads thread ≠ .addJob := by
      change state.threads thread ≠ .addJob
      rw [own]
      exact ThreadPc.noConfusion
    have same : ((state.post thread).setThread thread .readStatus).entries = state.entries :=
      (entries_setThread_same before ThreadPc.noConfusion).trans
        (funext fun place => by cases place <;> rfl)
    refine { kept with toWoken := ⟨?_, fun _ _ => checking_of_setThread (.inl rfl)⟩ }
    rw [same]
    exact kept.held
  | readStatus =>
    cases went
    have before : state.threads thread ≠ .addJob := by
      rw [own]
      exact ThreadPc.noConfusion
    split
    next idle =>
      exact kept.setThread before ThreadPc.noConfusion fun _ _ =>
        checking_of_setThread (.inr rfl)
    next busy => exact kept.setThread before ThreadPc.noConfusion fun idle => absurd idle busy
  | atomicSetTxActive =>
    dsimp only at went
    split at went <;> cases went
    next idle =>
      obtain ⟨place, only⟩ := kept.held
      have held : state.entries .idle ≠ 0 := by
        rw [entries, if_pos idle]
        exact Nat.one_ne_zero
      have moved := only.moves held (moves_atomicSetTxActive idle own)
      exact { kept with toWoken := ⟨⟨_, moved⟩, TxStatus.noConfusion⟩ }
    next busy =>
      have before : state.threads thread ≠ .addJob := by
        rw [own]
        exact ThreadPc.noConfusion
      exact kept.setThread before ThreadPc.noConfusion fun idle => absurd idle busy
  | addJob =>
    cases went
    obtain ⟨place, only⟩ := kept.held
    have held : state.entries (.thread thread) ≠ 0 := by
      rw [entries, if_pos own]
      exact Nat.one_ne_zero
    have moved := only.moves held (moves_addJob_setThread own)
    refine { kept with toWoken := ⟨⟨_, moved⟩, ?_⟩, blocked := ?_ }
    · intro idle
      have busy : state.txStatus ≠ .kIdle := busy_of_only only held (by simp)
      exact absurd idle busy
    · intro _
      exact .inr (Nat.succ_ne_zero _)
  | atomicSetTxRelease =>
    dsimp only at went
    split at went <;> cases went
    · cases unreleased
    · exact kept.setThread_quiet (congrArg ThreadPc.quiet own) ThreadPc.noConfusion
  | readBlock =>
    cases went
    refine kept.setThread_quiet (congrArg ThreadPc.quiet own) ?_
    split <;> exact ThreadPc.noConfusion
  | writePipe =>
    cases went
    have written : Kept { state with deletePipe := state.deletePipe + 1 } :=
      { kept with toWoken := ⟨kept.held, kept.woken⟩ }
    exact written.setThread_quiet (congrArg ThreadPc.quiet own) ThreadPc.noConfusion

end Threads

section Runners

/-- The actor or `RegTxEndpoint` goes on in `OnTxEndpointIdle`, or returns from it. -/
def State.setRunner (state : State Thread) : Runner → Option IdlePc → State Thread
  | .actor, some pc => { state with actor := .idle pc }
  | .actor, none => { state with actor := .away }
  | .registrar, some pc => { state with reg := .idle pc }
  | .registrar, none => { state with reg := .done }

def heldAt : Option IdlePc → Nat
  | some pc => if pc.holds then 1 else 0
  | none => 0

theorem entries_setRunner (state : State Thread) (runner : Runner) (pc : Option IdlePc)
    (place : Place Thread) : (state.setRunner runner pc).entries place =
      if place = runner.place then heldAt pc else state.entries place := by
  cases runner with
  | actor | registrar =>
    cases pc with
    | some pc | none => cases place <;> rfl

theorem entries_place {runner : Runner} {pc : IdlePc} (runs : state.runs runner = some pc) :
    state.entries runner.place = heldAt (some pc) := by
  cases runner with rw [State.runs] at runs
  | actor =>
    split at runs <;> cases runs
    next own =>
      change (if state.actor.holds then 1 else 0) = _
      rw [own]
      rfl
  | registrar =>
    split at runs <;> cases runs
    next own =>
      change (if state.reg.holds then 1 else 0) = _
      rw [own]
      rfl

theorem runs_setRunner (state : State Thread) (runner other : Runner) (pc : Option IdlePc) :
    (state.setRunner runner pc).runs other = if other = runner then pc else state.runs other := by
  cases runner with
  | actor | registrar => cases pc <;> cases other <;> rfl

/-- The parts of the state that `OnTxEndpointIdle` leaves, and the queue that it adds to. -/
structure Framed (state after : State Thread) : Prop where
  actor : after.actor = state.actor
  reg : after.reg = state.reg
  epoll : after.epoll = state.epoll
  inEpoll : after.inEpoll = state.inEpoll
  head : after.head = state.head
  jobs : state.queues .activeEndpoints ≤ after.queues .activeEndpoints

theorem framed_onTxEndpointIdle (state : State Thread) (pc : IdlePc) :
    Framed state (state.onTxEndpointIdle pc).1 := by
  cases pc with
  | atomicSetTxActive =>
    rw [onTxEndpointIdle]
    split <;> exact ⟨rfl, rfl, rfl, rfl, rfl, .refl⟩
  | addJob => exact ⟨rfl, rfl, rfl, rfl, rfl, Nat.le_add_right _ _⟩
  | _ => exact ⟨rfl, rfl, rfl, rfl, rfl, .refl⟩

theorem readTail_of_onTxEndpointIdle {pc : IdlePc} {head : Nat}
    (after : (state.onTxEndpointIdle pc).2 = some (.readTail head)) : head = state.head := by
  cases pc with
  | readHead =>
    cases after
    rfl
  | readTail saved | atomicSetTxActive =>
    rw [onTxEndpointIdle] at after
    split at after <;> cases after
  | _ => cases after

variable {runner : Runner} {pc : IdlePc} {later : Option IdlePc} {after : State Thread}

theorem Kept.setRunner (kept : Kept state) (framed : Framed state after)
    (behind : ∀ head, later = some (.readTail head) → head ≤ state.head)
    (woken : Woken (after.setRunner runner later)) : Kept (after.setRunner runner later) := by
  refine ⟨woken, ?_, ?_, ?_, ?_⟩
  · have same : (after.setRunner runner later).epoll = state.epoll := by
      rw [← framed.epoll]
      cases runner <;> cases later <;> rfl
    rw [same]
    exact kept.undropped
  · have same : (after.setRunner runner later).epoll = state.epoll ∧
        (after.setRunner runner later).inEpoll = state.inEpoll := by
      rw [← framed.epoll, ← framed.inEpoll]
      cases runner <;> cases later <;> exact ⟨rfl, rfl⟩
    rw [same.1, same.2]
    exact kept.polled
  · intro blocks
    have blocked : state.actor = .setTxBlock := by
      rw [← framed.actor]
      cases runner with
      | actor => cases later <;> cases blocks
      | registrar => cases later <;> exact blocks
    have epoll : (after.setRunner runner later).entries .epoll = state.entries .epoll := by
      rw [entries_setRunner, if_neg (by cases runner <;> simp [Runner.place])]
      rw [entries, entries, framed.epoll, framed.inEpoll]
    have jobs : state.queues .activeEndpoints ≤
        (after.setRunner runner later).queues .activeEndpoints := by
      refine framed.jobs.trans ?_
      cases runner <;> cases later <;> exact .refl
    rw [epoll]
    rcases kept.blocked blocked with polled | added
    · exact .inl polled
    · exact .inr (((Nat.pos_of_ne_zero added).trans_le jobs).ne')
  · intro other head runs
    have same : (after.setRunner runner later).head = state.head := by
      rw [← framed.head]
      cases runner <;> cases later <;> rfl
    rw [same]
    rw [runs_setRunner] at runs
    split at runs
    next => exact behind head runs
    next =>
      refine kept.behind other head ?_
      rw [← runs]
      cases other with
      | actor =>
        rw [State.runs, State.runs, framed.actor]
      | registrar =>
        rw [State.runs, State.runs, framed.reg]

theorem place_ne_idle (runner : Runner) : (runner.place : Place Thread) ≠ .idle := by
  cases runner <;> simp [Runner.place]

theorem held_setRunner (kept : Kept state) (runs : state.runs runner = some pc)
    (same : after.entries = state.entries) (level : heldAt later = heldAt (some pc)) :
    ∃ place, OnlyAt (after.setRunner runner later).entries place := by
  have unmoved : (after.setRunner runner later).entries = state.entries := by
    funext place
    rw [entries_setRunner]
    split
    next here => rw [here, entries_place runs, level]
    next => rw [same]
  rw [unmoved]
  exact kept.held

theorem held_setRunner_moves {source target : Place Thread} (kept : Kept state)
    (runs : state.runs runner = some pc) (held : state.entries source ≠ 0)
    (others : ∀ place, place ≠ runner.place →
      after.entries place + (if place = source then 1 else 0) =
        state.entries place + (if place = target then 1 else 0))
    (own : heldAt later + (if runner.place = source then 1 else 0) =
      heldAt (some pc) + (if runner.place = target then 1 else 0)) :
    OnlyAt (after.setRunner runner later).entries target := by
  obtain ⟨place, only⟩ := kept.held
  refine only.moves held ?_
  intro other
  rw [entries_setRunner]
  split
  next here =>
    rw [here, entries_place runs]
    exact own
  next elsewhere => exact others other elsewhere

theorem checking_setRunner {pc : IdlePc} (checks : pc.checks = true) :
    (after.setRunner runner (some pc)).Checking :=
  .inr ⟨runner, pc, (runs_setRunner after runner runner (some pc)).trans (if_pos rfl), checks⟩

theorem checking_setRunner_other (checking : state.Checking) (framed : Framed state after)
    (threads : after.threads = state.threads) (runs : state.runs runner = some pc)
    (other : pc.checks = false) : (after.setRunner runner later).Checking := by
  rcases checking with thread | ⟨checker, checked, running, checks⟩
  · refine .inl ?_
    have same : (after.setRunner runner later).threads = state.threads := by
      rw [← threads]
      cases runner <;> cases later <;> rfl
    rw [same]
    exact thread
  · have apart : checker ≠ runner := by
      rintro rfl
      rw [running] at runs
      cases runs
      rw [checks] at other
      cases other
    refine .inr ⟨checker, checked, ?_, checks⟩
    rw [runs_setRunner, if_neg apart, ← running]
    cases checker with
    | actor => rw [State.runs, State.runs, framed.actor]
    | registrar => rw [State.runs, State.runs, framed.reg]

theorem txStatus_setRunner : (after.setRunner runner later).txStatus = after.txStatus := by
  cases runner <;> cases later <;> rfl

theorem txMessageQueue_setRunner :
    (after.setRunner runner later).txMessageQueue = after.txMessageQueue := by
  cases runner <;> cases later <;> rfl

theorem Kept.onTxEndpointIdle (kept : Kept state) (runs : state.runs runner = some pc) :
    Kept ((state.onTxEndpointIdle pc).1.setRunner runner (state.onTxEndpointIdle pc).2) := by
  have framed := framed_onTxEndpointIdle state pc
  have behind : ∀ head, (state.onTxEndpointIdle pc).2 = some (.readTail head) →
      head ≤ state.head := fun head reads => (readTail_of_onTxEndpointIdle reads).le
  refine kept.setRunner framed behind ?_
  have place := entries_place runs
  have notIdle : (runner.place : Place Thread) ≠ .idle := place_ne_idle runner
  cases pc with
  | lock | unlock =>
    refine ⟨held_setRunner kept runs (funext fun place => by cases place <;> rfl) rfl, ?_⟩
    intro idle posted
    rw [txStatus_setRunner] at idle
    rw [txMessageQueue_setRunner] at posted
    exact checking_setRunner_other (kept.woken idle posted) framed rfl runs rfl
  | setTxIdle =>
    have held : state.entries runner.place ≠ 0 := by
      rw [place]
      exact Nat.one_ne_zero
    obtain ⟨_, only⟩ := kept.held
    have busy := busy_of_only only held notIdle
    refine ⟨⟨.idle, held_setRunner_moves kept runs held ?_ ?_⟩, fun _ _ => checking_setRunner rfl⟩
    · intro other elsewhere
      rw [if_neg elsewhere]
      cases other with
      | idle => simp [entries, onTxEndpointIdle, busy]
      | _ => rfl
    · rw [if_pos rfl, if_neg notIdle]
      rfl
  | readHead =>
    exact ⟨held_setRunner kept runs rfl rfl, fun _ _ => checking_setRunner rfl⟩
  | readTail saved =>
    rw [onTxEndpointIdle]
    split
    next empty =>
      refine ⟨held_setRunner kept runs rfl rfl, ?_⟩
      intro _ posted
      rw [txMessageQueue_setRunner] at posted
      have saved := kept.behind runner saved runs
      rw [tail] at empty
      have none : state.txMessageQueue = [] := List.length_eq_zero_iff.mp (by omega)
      rw [none] at posted
      cases posted
    next => exact ⟨held_setRunner kept runs rfl rfl, fun _ _ => checking_setRunner rfl⟩
  | atomicSetTxActive =>
    rw [onTxEndpointIdle]
    split
    next idle =>
      have held : state.entries .idle ≠ 0 := by
        rw [entries, if_pos idle]
        exact Nat.one_ne_zero
      refine ⟨⟨runner.place, held_setRunner_moves kept runs held ?_ ?_⟩, ?_⟩
      · intro other elsewhere
        rw [if_neg elsewhere]
        cases other with
        | idle => simp [entries, idle]
        | _ => rfl
      · rw [if_pos rfl, if_neg notIdle]
        rfl
      · intro active
        rw [txStatus_setRunner] at active
        cases active
    next busy =>
      refine ⟨held_setRunner kept runs rfl rfl, ?_⟩
      intro idle
      rw [txStatus_setRunner] at idle
      exact absurd idle busy
  | addJob =>
    have held : state.entries runner.place ≠ 0 := by
      rw [place]
      exact Nat.one_ne_zero
    obtain ⟨_, only⟩ := kept.held
    have busy := busy_of_only only held notIdle
    refine ⟨⟨.queue .activeEndpoints, held_setRunner_moves kept runs held ?_ ?_⟩, ?_⟩
    · intro other elsewhere
      rw [if_neg elsewhere]
      cases other with
      | queue queue => simp [entries, onTxEndpointIdle, addJob]
      | _ => rfl
    · cases runner <;> rfl
    · intro idle
      rw [txStatus_setRunner] at idle
      exact absurd idle busy

theorem Kept.regTxEndpoint (kept : Kept state) (went : state.regTxEndpoint = some next) :
    Kept next := by
  rw [State.regTxEndpoint] at went
  have awake {later : RegPc} (holds : later.holds = state.reg.holds)
      (before : state.runs .registrar = none)
      (after : { state with reg := later }.runs .registrar = none ∨ later = .idle .lock) :
      Kept { state with reg := later } := by
    have same : { state with reg := later }.entries = state.entries := by
      funext place
      cases place with
      | registrar => simp [entries, holds]
      | _ => rfl
    refine { kept with toWoken := ⟨?_, ?_⟩, behind := ?_ }
    · rw [same]
      exact kept.held
    · intro idle posted
      rcases kept.woken idle posted with thread | ⟨runner, pc, runs, checks⟩
      · exact .inl thread
      · cases runner with
        | actor => exact .inr ⟨.actor, pc, runs, checks⟩
        | registrar =>
          rw [before] at runs
          cases runs
    · intro runner head runs
      cases runner with
      | actor => exact kept.behind .actor head runs
      | registrar =>
        rcases after with none | lock
        · rw [none] at runs
          cases runs
        · rw [lock] at runs
          cases runs
  cases reg : state.reg with rw [reg] at went
  | readHead =>
    cases went
    exact awake (by rw [reg]; rfl) (by rw [State.runs, reg]) (.inl rfl)
  | readTail head =>
    dsimp only at went
    split at went <;> cases went
    · exact awake (by rw [reg]; rfl) (by rw [State.runs, reg]) (.inr rfl)
    · exact awake (by rw [reg]; rfl) (by rw [State.runs, reg]) (.inl rfl)
  | setTxActive =>
    cases went
    have held : state.entries .registrar ≠ 0 := by
      rw [entries, reg]
      exact Nat.one_ne_zero
    obtain ⟨place, only⟩ := kept.held
    have busy : state.txStatus ≠ .kIdle := busy_of_only only held (by simp)
    have same : { state with txStatus := .kActive, reg := .addJob }.entries = state.entries := by
      funext place
      cases place with
      | idle => simp [entries, busy]
      | registrar => simp [entries, reg, RegPc.holds]
      | _ => rfl
    refine { kept with toWoken := ⟨?_, TxStatus.noConfusion⟩, behind := ?_ }
    · rw [same]
      exact kept.held
    · intro runner head runs
      cases runner with
      | actor => exact kept.behind .actor head runs
      | registrar => cases runs
  | addJob =>
    cases went
    have held : state.entries .registrar ≠ 0 := by
      rw [entries, reg]
      exact Nat.one_ne_zero
    obtain ⟨place, only⟩ := kept.held
    have busy : state.txStatus ≠ .kIdle := busy_of_only only held (by simp)
    have move : Moves state.entries { state.addJob with reg := .done }.entries .registrar
        (.queue .activeEndpoints) := by
      intro other
      cases other with
      | registrar => simp [entries, reg, RegPc.holds]
      | queue queue => simp [entries, addJob]
      | _ => rfl
    refine ⟨⟨⟨_, only.moves held move⟩, fun idle => absurd idle busy⟩, kept.undropped,
      kept.polled, fun _ => .inr (Nat.succ_ne_zero _), ?_⟩
    intro runner head runs
    cases runner with
    | actor => exact kept.behind .actor head runs
    | registrar => cases runs
  | idle pc =>
    have runs : state.runs .registrar = some pc := by rw [State.runs, reg]
    have later := kept.onTxEndpointIdle runs
    cases returned : state.onTxEndpointIdle pc with
    | mk after result =>
      dsimp only at went
      rw [returned] at went later
      cases result with
      | some pc | none =>
        cases went
        exact later
  | done => cases went

end Runners

section Actor

variable {queue : ActorQueue}

section

variable (kept : Kept state)
include kept

theorem Kept.actor {after : State Thread} (held : ∃ place, OnlyAt after.entries place)
    (same : after.threads = state.threads ∧ after.reg = state.reg ∧ after.epoll = state.epoll ∧
      after.txStatus = state.txStatus) (inEpoll : state.inEpoll = true → after.inEpoll = true)
    (blocked : after.actor = .setTxBlock → after.entries .epoll ≠ 0)
    (head : state.head ≤ after.head)
    (queued : .posted ∈ after.txMessageQueue → .posted ∈ state.txMessageQueue)
    (before : state.runs .actor = none)
    (behind : ∀ head, after.runs .actor ≠ some (.readTail head)) : Kept after := by
  obtain ⟨threads, reg, epoll, txStatus⟩ := same
  refine ⟨⟨held, ?_⟩, ?_, ?_, fun blocks => .inl (blocked blocks), ?_⟩
  · intro idle posted
    rw [txStatus] at idle
    rcases kept.woken idle (queued posted) with thread | ⟨runner, pc, runs, checks⟩
    · refine .inl ?_
      rw [threads]
      exact thread
    · cases runner with
      | actor =>
        rw [before] at runs
        cases runs
      | registrar =>
        refine .inr ⟨.registrar, pc, ?_, checks⟩
        rw [State.runs, reg]
        exact runs
  · rw [epoll]
    exact kept.undropped
  · rw [epoll]
    exact fun polls => inEpoll (kept.polled polls)
  · intro runner saved runs
    cases runner with
    | actor => exact absurd runs (behind saved)
    | registrar =>
      refine Nat.le_trans (kept.behind .registrar saved ?_) head
      rw [State.runs, reg] at runs
      exact runs

theorem Kept.actorHolds {pc : ActorPc} (count : Nat) (held : state.actor.holds = true)
    (holds : pc.holds = true) (before : state.runs .actor = none)
    (behind : ∀ head, pc ≠ .idle (.readTail head)) :
    Kept { state with
      head := state.head + count
      txMessageQueue := state.txMessageQueue.drop count
      actor := pc } := by
  refine kept.actor ?_ ⟨rfl, rfl, rfl, rfl⟩ id ?_ (Nat.le_add_right _ _) List.mem_of_mem_drop
    before ?_
  · have same : entries { state with
        head := state.head + count
        txMessageQueue := state.txMessageQueue.drop count
        actor := pc } = state.entries := by
      funext place
      cases place with
      | actor => simp [entries, held, holds]
      | _ => rfl
    rw [same]
    exact kept.held
  · intro blocks
    change pc = _ at blocks
    rw [blocks] at holds
    cases holds
  · intro head runs
    cases pc with cases runs
    | idle pc => exact behind head rfl

theorem Kept.pop (went : state.pop queue = some next) : Kept next := by
  rw [State.pop] at went
  split at went
  next free =>
    cases went
    obtain ⟨away, waiting⟩ := free
    obtain ⟨place, only⟩ := kept.held
    have held : state.entries (.queue queue) ≠ 0 := waiting
    have one : state.queues queue = 1 := by
      cases only.unique held
      exact only.here
    have move : Moves state.entries { state with
        actor := .popped queue
        queues := fun other => state.queues other - if other = queue then 1 else 0 }.entries
          (.queue queue) .actor := by
      intro other
      cases other with
      | queue other =>
        by_cases same : other = queue
        · simp [entries, same, one]
        · simp [entries, same]
      | actor => simp [entries, away, ActorPc.holds]
      | _ => rfl
    exact kept.actor ⟨_, only.moves held move⟩ ⟨rfl, rfl, rfl, rfl⟩ id
      (fun blocks => by cases blocks)
      .refl id (by rw [State.runs, away]) (fun _ runs => by cases runs)
  next => cases went

theorem Kept.elementAt (went : state.elementAt = some next) : Kept next := by
  rw [State.elementAt] at went
  split at went
  next q own =>
    have held : state.actor.holds = true := by
      rw [own]
      rfl
    have before : state.runs .actor = none := by rw [State.runs, own]
    split at went
    all_goals
      cases went
      exact kept.actorHolds 0 held rfl before (fun _ => ActorPc.noConfusion)
  next => cases went

theorem Kept.sent {count : Nat} (went : state.sent count = some next) : Kept next := by
  rw [State.sent] at went
  split at went
  next q own =>
    split at went <;> cases went
    have held : state.actor.holds = true := by
      rw [own]
      rfl
    exact kept.actorHolds count held rfl (by rw [State.runs, own])
      (fun _ => ActorPc.noConfusion)
  next => cases went

theorem Kept.again (went : state.again config = some next) : Kept next := by
  rw [State.again] at went
  split at went
  next q own =>
    have held : state.actor.holds = true := by
      rw [own]
      rfl
    have before : state.runs .actor = none := by rw [State.runs, own]
    split at went
    all_goals
      cases went
      exact kept.actorHolds 0 held rfl before (fun _ => ActorPc.noConfusion)
  next => cases went

theorem Kept.push (went : state.push config queue = some next) : Kept next := by
  rw [State.push] at went
  split at went
  next origin result own =>
    split at went <;> cases went
    obtain ⟨place, only⟩ := kept.held
    have held : state.entries .actor ≠ 0 := by
      rw [entries, own]
      exact Nat.one_ne_zero
    have move : Moves state.entries { state with
        actor := .away
        queues := fun other => state.queues other + if other = queue then 1 else 0 }.entries
          .actor (.queue queue) := by
      intro other
      cases other with
      | queue other => simp [entries]
      | actor => simp [entries, own, ActorPc.holds]
      | _ => rfl
    exact kept.actor ⟨_, only.moves held move⟩ ⟨rfl, rfl, rfl, rfl⟩ id
      (fun blocks => by cases blocks) .refl id (by rw [State.runs, own])
      (fun _ runs => by cases runs)
  next => cases went

theorem Kept.becomesIdle (went : state.becomesIdle = some next) : Kept next := by
  rw [State.becomesIdle] at went
  split at went <;> cases went
  next own =>
    have held : state.actor.holds = true := by
      rw [own]
      rfl
    exact kept.actorHolds 0 held rfl (by rw [State.runs, own]) (fun _ lock => by cases lock)

theorem Kept.ePollAddW {memory : Bool} (went : state.ePollAddW memory = some next) : Kept next := by
  rw [State.ePollAddW] at went
  split at went
  next q own =>
    have before : state.runs .actor = none := by rw [State.runs, own]
    split at went <;> cases went
    · have held : state.actor.holds = true := by
        rw [own]
        rfl
      exact kept.actorHolds 0 held rfl before (fun _ => ActorPc.noConfusion)
    next added =>
      have outside : state.inEpoll = false := by
        cases inside : state.inEpoll with
        | false => rfl
        | true => simp [inside] at added
      have waits : state.epoll = .wait := by
        by_cases waits : state.epoll = .wait
        · exact waits
        · rw [kept.polled waits] at outside
          cases outside
      obtain ⟨place, only⟩ := kept.held
      have held : state.entries .actor ≠ 0 := by
        rw [entries, own]
        exact Nat.one_ne_zero
      have move : Moves state.entries { state with
          inEpoll := true, actor := .setTxBlock }.entries .actor .epoll := by
        intro other
        cases other with
        | epoll => simp [entries, outside, waits]
        | actor => simp [entries, own, ActorPc.holds]
        | _ => rfl
      refine kept.actor ⟨_, only.moves held move⟩ ⟨rfl, rfl, rfl, rfl⟩ (fun _ => rfl) ?_
        .refl id before (fun _ runs => by cases runs)
      intro _
      simp [entries, waits]
  next => cases went

theorem Kept.actorNext (went : state.actorNext = some next) : Kept next := by
  rw [State.actorNext] at went
  split at went
  next own =>
    cases went
    obtain ⟨place, only⟩ := kept.held
    -- the epoll thread may have added the job, and the store only makes the status stale
    have busy : state.txStatus ≠ .kIdle := by
      rcases kept.blocked own with polled | added
      · exact busy_of_only only polled (by simp)
      · have held : state.entries (.queue .activeEndpoints) ≠ 0 := added
        exact busy_of_only only held (by simp)
    have same : { state with txStatus := .kBlock, actor := .away }.entries = state.entries := by
      funext place
      cases place with
      | idle => simp [entries, busy]
      | actor => simp [entries, own, ActorPc.holds]
      | _ => rfl
    refine ⟨⟨?_, TxStatus.noConfusion⟩, kept.undropped, kept.polled, fun blocks => ?_, ?_⟩
    · rw [same]
      exact kept.held
    · cases blocks
    · intro runner head runs
      cases runner with
      | actor => cases runs
      | registrar => exact kept.behind .registrar head runs
  next pc own =>
    have runs : state.runs .actor = some pc := by rw [State.runs, own]
    have later := kept.onTxEndpointIdle runs
    cases returned : state.onTxEndpointIdle pc with
    | mk after result =>
      rw [returned] at went later
      cases result with
      | some pc | none =>
        cases went
        exact later
  next => cases went

end

theorem released_of_failed (went : state.failed = some next) : next.released = true := by
  rw [failed] at went
  split at went <;> cases went
  rfl

theorem released_of_actorDrops (went : state.actorDrops config = some next) :
    next.released = true := by
  rw [actorDrops] at went
  split at went <;> cases went
  rfl

end Actor

section Epoll

theorem Kept.epoll {pc : EpollPc} {inside : Bool} (kept : Kept state)
    (undropped : pc ≠ .ePollDelDropped ∧ pc ≠ .dropTxEndpoint) (polls : pc ≠ .wait → inside = true)
    (same : { state with inEpoll := inside, epoll := pc }.entries = state.entries) :
    Kept { state with inEpoll := inside, epoll := pc } := by
  refine ⟨⟨?_, kept.woken⟩, undropped, polls, ?_, kept.behind⟩
  · rw [same]
    exact kept.held
  · rw [same]
    exact kept.blocked

theorem Kept.ePollWait {error : Bool} (kept : Kept state)
    (went : state.ePollWait error = some next) : Kept next := by
  rw [State.ePollWait] at went
  split at went <;> cases went
  next ready =>
    have same : { state with epoll := .event error }.entries = state.entries := by
      funext place
      cases place with
      | epoll => simp [entries, ready]
      | _ => rfl
    exact kept.epoll ⟨EpollPc.noConfusion, EpollPc.noConfusion⟩ (fun _ => ready.2) same

theorem Kept.epollNext (kept : Kept state) (went : state.epollNext = some next) :
    Keeps next := by
  intro unreleased
  rw [State.epollNext] at went
  obtain ⟨place, only⟩ := kept.held
  cases own : state.epoll with
  | wait =>
    rw [own] at went
    cases went
  | event error =>
    rw [own] at went
    have inside := kept.polled (by rw [own]; exact EpollPc.noConfusion)
    have held : state.entries .epoll ≠ 0 := by simp [entries, inside, own]
    have busy : state.txStatus ≠ .kIdle := busy_of_only only held (by simp)
    cases error with cases went
    | true => cases unreleased
    | false =>
      have same : { state with txStatus := .kActive, epoll := .addJob }.entries =
          state.entries := by
        funext place
        cases place with
        | idle => simp [entries, busy]
        | epoll => simp [entries, own]
        | _ => rfl
      refine ⟨⟨?_, TxStatus.noConfusion⟩, ⟨EpollPc.noConfusion, EpollPc.noConfusion⟩,
        fun _ => inside, ?_, kept.behind⟩
      · rw [same]
        exact kept.held
      · rw [same]
        exact kept.blocked
  | addJob =>
    rw [own] at went
    cases went
    have inside := kept.polled (by rw [own]; exact EpollPc.noConfusion)
    have held : state.entries .epoll ≠ 0 := by simp [entries, inside, own]
    have busy : state.txStatus ≠ .kIdle := busy_of_only only held (by simp)
    have move : Moves state.entries { state.addJob with epoll := .ePollDel }.entries .epoll
        (.queue .activeEndpoints) := by
      intro other
      cases other with
      | queue queue => simp [entries, addJob]
      | epoll => simp [entries, addJob, own, inside]
      | _ => rfl
    exact ⟨⟨⟨_, only.moves held move⟩, fun idle => absurd idle busy⟩,
      ⟨EpollPc.noConfusion, EpollPc.noConfusion⟩, fun _ => inside,
      fun _ => .inr (Nat.succ_ne_zero _), kept.behind⟩
  | ePollDel =>
    rw [own] at went
    cases went
    have same : { state with inEpoll := false, epoll := .wait }.entries = state.entries := by
      funext place
      cases place with
      | epoll => simp [entries, own]
      | _ => rfl
    exact kept.epoll ⟨EpollPc.noConfusion, EpollPc.noConfusion⟩ (fun busy => absurd rfl busy) same
  | ePollDelDropped => exact absurd own kept.undropped.1
  | dropTxEndpoint => exact absurd own kept.undropped.2

theorem Kept.readPipe (kept : Kept state) (went : state.readPipe = some next) : Keeps next := by
  intro unreleased
  rw [State.readPipe] at went
  split at went
  next =>
    dsimp only at went
    split at went <;> cases went
    · cases unreleased
    · exact { kept with toWoken := ⟨kept.held, kept.woken⟩ }
  next => cases went

end Epoll

section Runs

variable {action : Action Thread}

theorem Kept.step (kept : Kept state) (went : step config state action = some next) :
    Keeps next := by
  cases action with
  | sendMessage thread => exact fun _ => kept.sendMessage went
  | unregTxEndpoint thread => exact fun _ => kept.unregTxEndpoint went
  | next thread => exact kept.threadNext went
  | returns thread => exact fun _ => kept.threadReturns went
  | regTxEndpoint => exact fun _ => kept.regTxEndpoint went
  | pop queue => exact fun _ => kept.pop went
  | elementAt => exact fun _ => kept.elementAt went
  | sent count => exact fun _ => kept.sent went
  | again => exact fun _ => kept.again went
  | failed =>
    intro unreleased
    rw [released_of_failed went] at unreleased
    cases unreleased
  | push queue => exact fun _ => kept.push went
  | onTxEndpointIdle => exact fun _ => kept.becomesIdle went
  | onTxEndpointBlock memory => exact fun _ => kept.ePollAddW went
  | dropTxEndpoint =>
    intro unreleased
    rw [released_of_actorDrops went] at unreleased
    cases unreleased
  | actor => exact fun _ => kept.actorNext went
  | ePollWait error => exact fun _ => kept.ePollWait went
  | epoll => exact kept.epollNext went
  | readPipe => exact kept.readPipe went
  | close | stop =>
    cases went
    exact fun _ => { kept with toWoken := ⟨kept.held, kept.woken⟩ }

theorem released_onTxEndpointIdle (state : State Thread) (pc : IdlePc) :
    (state.onTxEndpointIdle pc).1.released = state.released := by
  cases pc with
  | atomicSetTxActive =>
    rw [onTxEndpointIdle]
    split <;> rfl
  | _ => rfl

theorem released_of_actorNext (released : state.released = true)
    (went : state.actorNext = some next) : next.released = true := by
  rw [State.actorNext] at went
  split at went
  next =>
    cases went
    exact released
  next pc own =>
    have same := released_onTxEndpointIdle state pc
    rw [released] at same
    split at went
    next after later returned =>
      cases went
      rw [returned] at same
      exact same
    next after returned =>
      cases went
      rw [returned] at same
      exact same
  next => cases went

theorem released_of_regTxEndpoint (released : state.released = true)
    (went : state.regTxEndpoint = some next) : next.released = true := by
  rw [State.regTxEndpoint] at went
  split at went
  case h_5 pc own =>
    have same := released_onTxEndpointIdle state pc
    rw [released] at same
    split at went
    next after later returned =>
      cases went
      rw [returned] at same
      exact same
    next after returned =>
      cases went
      rw [returned] at same
      exact same
  all_goals cases went
  all_goals exact released

theorem released_of_step (released : state.released = true)
    (went : step config state action = some next) : next.released = true := by
  cases action with
  | regTxEndpoint => exact released_of_regTxEndpoint released went
  | actor => exact released_of_actorNext released went
  | failed => exact released_of_failed went
  | dropTxEndpoint => exact released_of_actorDrops went
  | _ =>
    simp only [step, State.sendMessage, State.unregTxEndpoint, State.threadNext,
      State.threadReturns, State.pop, State.elementAt, State.sent, State.again, State.push,
      State.becomesIdle, State.ePollAddW, State.ePollWait, State.epollNext, State.readPipe]
      at went
    repeat' split at went
    all_goals cases went
    all_goals
      first
      | exact released
      | rfl

theorem kept_initial : Kept ({} : State Thread) := by
  refine ⟨⟨⟨.registrar, ?_⟩, TxStatus.noConfusion⟩,
    ⟨EpollPc.noConfusion, EpollPc.noConfusion⟩, fun busy => absurd rfl busy, ActorPc.noConfusion,
      ?_⟩
  · intro place
    cases place with
    | queue queue => rfl
    | _ => simp [entries, RegPc.holds, ActorPc.holds]
  · intro runner head runs
    cases runner <;> cases runs

/-- In every run, whatever the threads are and however their steps mix, an endpoint that is not
released is at one place, and no message waits in an idle endpoint that nobody looks at. -/
theorem woken_of_execute (config : Config) (actions : List (Action Thread)) {final : State Thread}
    (ran : execute (step config) {} actions = some final) (unreleased : final.released = false) :
    Woken final := by
  have preserved : ∀ {state : State Thread} {action next},
      (state.released = true ∨ Kept state) → step config state action = some next →
        (next.released = true ∨ Kept next) := by
    intro state action next kept stepped
    rcases kept with released | kept
    · exact .inl (released_of_step released stepped)
    · cases released : next.released with
      | false => exact .inr (kept.step stepped released)
      | true => exact .inl rfl
  rcases invariant_of_execute preserved (.inr kept_initial) ran with released | kept
  · rw [released] at unreleased
    cases unreleased
  · exact kept.toWoken

def poller : Config where
  queueSize := 256
  lowLatency := true
  driveMode := .kPoller

/-- A message that the socket does not take brings the endpoint to the epoll set, and the epoll
thread brings it back. -/
def blockedOnce : List (Action Unit) :=
  [.regTxEndpoint, .regTxEndpoint, .regTxEndpoint, .regTxEndpoint, .regTxEndpoint,
    .regTxEndpoint, .regTxEndpoint, .sendMessage (), .next (), .next (), .next (), .next (),
    .pop .activeEndpoints, .elementAt, .again, .onTxEndpointBlock true, .actor,
    .ePollWait false, .epoll, .epoll]

theorem woken_after_event :
    ∃ final, execute (step poller) {} blockedOnce = some final ∧ Woken final := by
  obtain ⟨final, ran, unreleased⟩ : ∃ final, execute (step poller) {} blockedOnce = some final ∧
      final.released = false := execute_check (by decide +kernel)
  exact ⟨final, ran, woken_of_execute poller blockedOnce ran unreleased⟩

def State.InActor (state : State Thread) : Prop :=
  state.actor.holds = true ∨ ∃ queue, state.queues queue ≠ 0

def State.OneOfThree (state : State Thread) : Prop :=
  state.InActor ∧ state.inEpoll = false ∧ state.txStatus ≠ .kIdle ∨
    ¬ state.InActor ∧ state.inEpoll = true ∧ state.txStatus ≠ .kIdle ∨
    ¬ state.InActor ∧ state.inEpoll = false ∧ state.txStatus = .kIdle

/-- The epoll thread adds the job before it deletes the endpoint from the set. -/
theorem added_before_ePollDel :
    ∃ final, execute (step poller) {} blockedOnce = some final ∧ final.released = false ∧
      ¬ final.OneOfThree := by
  obtain ⟨final, ran, unreleased, added, inside⟩ : ∃ final,
      execute (step poller) {} blockedOnce = some final ∧ final.released = false ∧
        final.queues .activeEndpoints ≠ 0 ∧ final.inEpoll = true :=
    execute_check (by decide +kernel)
  refine ⟨final, ran, unreleased, ?_⟩
  rintro (⟨_, outside, _⟩ | ⟨elsewhere, _⟩ | ⟨elsewhere, _⟩)
  · rw [inside] at outside
    cases outside
  all_goals exact elsewhere (.inr ⟨_, added⟩)

end Runs

end AdkAaf.Adk.IoEngine.TxSchedule
