import AdkAaf.Adk.IoEngine.TxWakeup

/-! The send direction of an endpoint that is released stays so, in runs in which the tx epoll
thread does not release it while the actor is about to store that it is blocked. Before that
somebody has the endpoint, or it is in the epoll set with a status that `UnregTxEndpoint`
takes for blocked. -/

set_option autoImplicit false
set_option linter.unusedSectionVars false

namespace AdkAaf.Adk.IoEngine.TxSchedule

open Lib

variable {Thread : Type} [DecidableEq Thread]

/-- The tx epoll thread does not release the endpoint between `EPollAddW` and `set_tx_block` of
the actor. -/
def Allowed (state : State Thread) : Action Thread → Prop
  | .epoll =>
    state.epoll = .event true ∨ state.epoll = .dropTxEndpoint → state.actor ≠ .setTxBlock
  | _ => True

/-- What the tx epoll thread still has to do about an endpoint that is released. -/
def EpollPc.Leaving (inEpoll : Bool) (status : TxStatus) : EpollPc → Prop
  | .wait => inEpoll = false ∧ status = .kRelease
  | .ePollDel | .ePollDelDropped => inEpoll = true ∧ status = .kRelease
  | .dropTxEndpoint => inEpoll = false
  | .event _ | .addJob => False

structure Dropped (state : State Thread) : Prop where
  gone : ∀ place, place ≠ .epoll → state.entries place = 0
  leaving : state.epoll.Leaving state.inEpoll state.txStatus
  unblocked : state.txStatus = .kRelease → state.actor ≠ .setTxBlock

variable {config : Config} {state next : State Thread} {thread : Thread}

structure StaysDropped (state next : State Thread) : Prop where
  dropped : Dropped next
  final : state.txStatus = .kRelease → next.txStatus = .kRelease

namespace Dropped

section

variable (dropped : Dropped state)
include dropped

theorem busy : state.txStatus ≠ .kIdle := by
  intro idle
  have absent := dropped.gone .idle (by simp)
  rw [State.entries, if_pos idle] at absent
  cases absent

theorem no_addJob (thread : Thread) : state.threads thread ≠ .addJob := by
  intro adds
  have absent := dropped.gone (.thread thread) (by simp)
  rw [State.entries, if_pos adds] at absent
  cases absent

theorem actor_holds : state.actor.holds = false := by
  have absent := dropped.gone .actor (by simp)
  cases holds : state.actor.holds with
  | false => rfl
  | true => simp [State.entries, holds] at absent

theorem reg_holds : state.reg.holds = false := by
  have absent := dropped.gone .registrar (by simp)
  cases holds : state.reg.holds with
  | false => rfl
  | true => simp [State.entries, holds] at absent

theorem same (entries : ∀ place, place ≠ .epoll → next.entries place = state.entries place)
    (epoll : next.epoll = state.epoll) (inEpoll : next.inEpoll = state.inEpoll)
    (status : next.txStatus = state.txStatus)
    (blocks : next.actor = .setTxBlock → state.actor = .setTxBlock) : StaysDropped state next := by
  refine ⟨⟨fun place other => (entries place other).trans (dropped.gone place other), ?_, ?_⟩, ?_⟩
  · rw [epoll, inEpoll, status]
    exact dropped.leaving
  · intro released actor
    exact dropped.unblocked (status ▸ released) (blocks actor)
  · exact fun released => status.trans released

theorem setThread {pc : ThreadPc} (after : pc ≠ .addJob) :
    StaysDropped state (state.setThread thread pc) :=
  dropped.same
    (fun place _ => congrFun (entries_setThread_same (dropped.no_addJob thread) after) place)
    rfl rfl rfl id

theorem sendMessage (stepped : state.sendMessage config thread = some next) :
    StaysDropped state next := by
  rw [State.sendMessage] at stepped
  split at stepped
  next =>
    split at stepped <;> cases stepped
    · exact ⟨dropped, id⟩
    · have pushed : Dropped { state with
          txMessageQueue := state.txMessageQueue ++ [Slot.reserved thread] } :=
        { dropped with }
      have went : StaysDropped _ (State.setThread _ thread ThreadPc.post) :=
        pushed.setThread (by simp)
      exact ⟨went.dropped, went.final⟩
  next => cases stepped

theorem unregTxEndpoint (went : state.unregTxEndpoint thread = some next) :
    StaysDropped state next := by
  rw [State.unregTxEndpoint] at went
  split at went
  next =>
    split at went <;> cases went
    · exact ⟨dropped, id⟩
    · exact dropped.setThread (by simp)
  next => cases went

theorem threadReturns (went : state.threadReturns thread = some next) :
    StaysDropped state next := by
  rw [State.threadReturns] at went
  split at went <;> cases went
  exact dropped.setThread (by simp)

/-- The endpoint is not idle, so that no compare and swap succeeds. -/
theorem threadNext (stepped : state.threadNext thread = some next) : StaysDropped state next := by
  rw [State.threadNext] at stepped
  have busy := dropped.busy
  cases own : state.threads thread with
  | outside =>
    rw [own] at stepped
    cases stepped
  | post =>
    rw [own] at stepped
    cases stepped
    have posted : Dropped (state.post thread) := { dropped with }
    have went : StaysDropped _ ((state.post thread).setThread thread ThreadPc.readStatus) :=
      posted.setThread (by simp)
    exact ⟨went.dropped, went.final⟩
  | readStatus | atomicSetTxActive | atomicSetTxRelease =>
    simp only [own, busy, if_false, Option.some.injEq] at stepped
    cases stepped
    exact dropped.setThread (by simp)
  | addJob => exact absurd own (dropped.no_addJob thread)
  | readBlock =>
    rw [own] at stepped
    cases stepped
    refine dropped.setThread ?_
    split <;> simp
  | writePipe =>
    rw [own] at stepped
    cases stepped
    have wrote : Dropped { state with deletePipe := state.deletePipe + 1 } := { dropped with }
    have went : StaysDropped _ (State.setThread _ thread ThreadPc.outside) :=
      wrote.setThread (by simp)
    exact ⟨went.dropped, went.final⟩

end

theorem onTxEndpointIdle {pc : IdlePc} (busy : state.txStatus ≠ .kIdle) (free : pc.holds = false) :
    ∃ lock, (state.onTxEndpointIdle pc).1 = { state with txStatusLock := lock } ∧
      ∀ later, (state.onTxEndpointIdle pc).2 = some later → later.holds = false := by
  cases pc with
  | lock | setTxIdle | addJob => cases free
  | readHead =>
    refine ⟨_, rfl, ?_⟩
    rintro later ⟨⟩
    rfl
  | readTail head =>
    refine ⟨_, rfl, ?_⟩
    rintro later ⟨⟩
    split <;> rfl
  | atomicSetTxActive =>
    rw [State.onTxEndpointIdle, if_neg busy]
    refine ⟨_, rfl, ?_⟩
    rintro later ⟨⟩
    rfl
  | unlock =>
    refine ⟨_, rfl, ?_⟩
    intros; contradiction

section

variable (dropped : Dropped state)
include dropped

theorem regGoes {lock : Bool} {pc : RegPc} (free : pc.holds = false) :
    StaysDropped state { state with txStatusLock := lock, reg := pc } := by
  refine dropped.same ?_ rfl rfl rfl id
  intro place _
  cases place with
  | registrar => simp [State.entries, free, dropped.reg_holds]
  | _ => rfl

theorem regTxEndpoint (went : state.regTxEndpoint = some next) : StaysDropped state next := by
  have free := dropped.reg_holds
  rw [State.regTxEndpoint] at went
  cases own : state.reg with
  | done =>
    rw [own] at went
    cases went
  | idle pc =>
    rw [own] at went free
    obtain ⟨lock, after, later⟩ := onTxEndpointIdle dropped.busy free
    rcases ran : state.onTxEndpointIdle pc with ⟨middle, rest⟩
    rw [ran] at after later
    cases after
    simp only [ran] at went
    cases rest with cases went
    | none => exact dropped.regGoes rfl
    | some pc => exact dropped.regGoes (later pc rfl)
  | _ => simp [own, RegPc.holds] at free

theorem actorGoes {lock : Bool} {pc : ActorPc} (free : pc.holds = false)
    (after : pc ≠ .setTxBlock) :
    StaysDropped state { state with txStatusLock := lock, actor := pc } := by
  refine dropped.same ?_ rfl rfl rfl fun blocks => absurd blocks after
  intro place _
  cases place with
  | actor => simp [State.entries, free, dropped.actor_holds]
  | _ => rfl

theorem actorNext (went : state.actorNext = some next) : StaysDropped state next := by
  have free := dropped.actor_holds
  rw [State.actorNext] at went
  cases own : state.actor with
  | setTxBlock =>
    rw [own] at went
    cases went
    have unreleased : state.txStatus ≠ .kRelease := fun released => dropped.unblocked released own
    refine ⟨⟨?_, ?_, ?_⟩, fun released => absurd released unreleased⟩
    · intro place other
      cases place with
      | actor | idle => rfl
      | epoll => exact absurd rfl other
      | _ => exact dropped.gone _ other
    · have leaving := dropped.leaving
      cases epoll : state.epoll with rw [epoll] at leaving
      | dropTxEndpoint => exact leaving
      | wait | ePollDel | ePollDelDropped => exact absurd leaving.2 unreleased
      | event error | addJob => exact leaving.elim
    · intros; contradiction
  | idle pc =>
    rw [own] at went free
    obtain ⟨lock, after, later⟩ := onTxEndpointIdle dropped.busy free
    rcases ran : state.onTxEndpointIdle pc with ⟨middle, rest⟩
    rw [ran] at after later
    cases after
    simp only [ran] at went
    cases rest with cases went
    | none => exact dropped.actorGoes rfl (by simp)
    | some pc => exact dropped.actorGoes (later pc rfl) (by simp)
  | _ =>
    rw [own] at went
    cases went

theorem epollNext (may : Allowed state (Action.epoll : Action Thread))
    (went : state.epollNext = some next) : StaysDropped state next := by
  have leaving := dropped.leaving
  rw [State.epollNext] at went
  cases own : state.epoll with
  | wait =>
    rw [own] at went
    cases went
  | event error | addJob =>
    rw [own] at leaving
    exact leaving.elim
  | ePollDel | ePollDelDropped =>
    rw [own] at went leaving
    cases went
    refine ⟨⟨?_, ⟨rfl, leaving.2⟩, dropped.unblocked⟩, id⟩
    intro place other
    cases place with
    | epoll => exact absurd rfl other
    | _ => exact dropped.gone _ other
  | dropTxEndpoint =>
    rw [own] at went leaving
    cases went
    refine ⟨⟨?_, ⟨leaving, rfl⟩, fun _ => may (.inr own)⟩, fun _ => rfl⟩
    intro place other
    cases place with
    | epoll => exact absurd rfl other
    | idle => rfl
    | _ => exact dropped.gone _ other

theorem readPipe (went : state.readPipe = some next) : StaysDropped state next := by
  have leaving := dropped.leaving
  rw [State.readPipe] at went
  split at went
  next ready =>
    rw [ready.1] at leaving
    dsimp only at went
    split at went
    next inside =>
      rw [leaving.1] at inside
      cases inside
    next =>
      cases went
      exact dropped.same (fun _ _ => rfl) rfl rfl rfl id
  next => cases went

theorem not_ePollWait {error : Bool} : state.ePollWait error = none := by
  have leaving := dropped.leaving
  rw [State.ePollWait]
  split
  next ready =>
    rw [ready.1, ready.2] at leaving
    cases leaving.1
  next => rfl

theorem actor_idle {action : Action Thread}
    (goes : match action with
      | .pop _ | .elementAt | .sent _ | .again | .failed | .push _ | .onTxEndpointIdle
      | .onTxEndpointBlock _ | .dropTxEndpoint => True
      | _ => False) : step config state action = none := by
  have free := dropped.actor_holds
  have empty : ∀ q, state.queues q = 0 := fun q => dropped.gone (.queue q) (by simp)
  cases action with
  | pop q => simp [step, State.pop, empty q]
  | dropTxEndpoint =>
    cases own : state.actor with
    | popped q | returned q result => simp [own, ActorPc.holds] at free
    | _ => simp [step, State.actorDrops, State.mayDrop, own]
  | onTxEndpointIdle =>
    cases own : state.actor with
    | returned q result => simp [own, ActorPc.holds] at free
    | _ => simp [step, State.becomesIdle, own]
  | elementAt | sent count | again | failed | push q | onTxEndpointBlock memory =>
    cases own : state.actor with
    | away | setTxBlock | idle pc =>
      simp [step, State.elementAt, State.sent, State.again, State.failed, State.push,
        State.ePollAddW, own]
    | _ => simp [own, ActorPc.holds] at free
  | _ => exact goes.elim

theorem step {action : Action Thread} (may : Allowed state action)
    (went : TxSchedule.step config state action = some next) : StaysDropped state next := by
  cases action with
  | sendMessage thread => exact dropped.sendMessage went
  | unregTxEndpoint thread => exact dropped.unregTxEndpoint went
  | next thread => exact dropped.threadNext went
  | returns thread => exact dropped.threadReturns went
  | regTxEndpoint => exact dropped.regTxEndpoint went
  | actor => exact dropped.actorNext went
  | ePollWait error =>
    rw [TxSchedule.step, dropped.not_ePollWait] at went
    cases went
  | epoll => exact dropped.epollNext may went
  | readPipe => exact dropped.readPipe went
  | close | stop =>
    cases went
    exact dropped.same (fun _ _ => rfl) rfl rfl rfl id
  | _ =>
    rw [dropped.actor_idle trivial] at went
    cases went

end

end Dropped

/-- An endpoint that is not released. In the epoll set it is blocked, as far as
`UnregTxEndpoint` can see, once the actor has stored that. -/
structure Live (state : State Thread) : Prop extends Kept state where
  unreleased : state.txStatus ≠ .kRelease
  reachable : state.inEpoll = true →
    state.epoll ≠ .wait ∨ state.txStatus = .kBlock ∨ state.actor = .setTxBlock

namespace Kept

variable {holder : Place Thread}

section

variable (kept : Kept state) (held : state.entries holder ≠ 0)
include kept held

/-- The endpoint is elsewhere, so that the epoll thread has at most to delete it. -/
theorem leaving (elsewhere : holder ≠ .epoll) : state.epoll.Leaving state.inEpoll .kRelease := by
  obtain ⟨place, only⟩ := kept.held
  have absent := only.absent held elsewhere.symm
  cases own : state.epoll with
  | wait =>
    refine ⟨?_, rfl⟩
    cases inside : state.inEpoll with
    | false => rfl
    | true => simp [State.entries, own, inside] at absent
  | ePollDel => exact ⟨kept.polled (by simp [own]), rfl⟩
  | ePollDelDropped => exact absurd own kept.undropped.1
  | dropTxEndpoint => exact absurd own kept.undropped.2
  | event error | addJob =>
    have inside := kept.polled (by simp [own])
    simp [State.entries, own, inside] at absent

theorem deletes (elsewhere : holder ≠ .epoll) (inside : state.inEpoll = true) :
    state.epoll ≠ .wait := by
  intro waits
  have leaving := kept.leaving held elsewhere
  rw [waits, inside] at leaving
  cases leaving.1

theorem gone {place : Place Thread} (other : place ≠ holder) : state.entries place = 0 := by
  obtain ⟨at', only⟩ := kept.held
  exact only.absent held other

end

end Kept

namespace Live

theorem same (live : Live state) (kept : Kept next) (status : next.txStatus = state.txStatus)
    (inEpoll : next.inEpoll = state.inEpoll) (epoll : next.epoll = state.epoll)
    (blocks : state.actor = .setTxBlock → next.actor = .setTxBlock) : Live next where
  toKept := kept
  unreleased := status ▸ live.unreleased
  reachable inside := by
    rw [epoll, status]
    exact (live.reachable (inEpoll ▸ inside)).imp_right fun stored => stored.imp_right blocks

theorem stored (live : Live state) {holder : Place Thread} (held : state.entries holder ≠ 0)
    (elsewhere : holder ≠ .epoll) (kept : Kept next) (status : next.txStatus ≠ .kRelease)
    (inEpoll : next.inEpoll = state.inEpoll) (epoll : next.epoll = state.epoll) : Live next where
  toKept := kept
  unreleased := status
  reachable inside := .inl (epoll ▸ live.toKept.deletes held elsewhere (inEpoll ▸ inside))

theorem onTxEndpointIdle {runner : Runner} {pc : IdlePc} (live : Live state)
    (runs : state.runs runner = some pc) (kept : Kept next)
    (status : next.txStatus = (state.onTxEndpointIdle pc).1.txStatus)
    (inEpoll : next.inEpoll = state.inEpoll) (epoll : next.epoll = state.epoll)
    (blocks : state.actor = .setTxBlock → next.actor = .setTxBlock) : Live next := by
  cases pc with
  | setTxIdle =>
    have held : state.entries runner.place ≠ 0 := by
      rw [entries_place runs]
      exact Nat.one_ne_zero
    refine live.stored held ?_ kept ?_ inEpoll epoll
    · cases runner <;> simp [Runner.place]
    · rw [status]
      simp [State.onTxEndpointIdle]
  | atomicSetTxActive =>
    rw [State.onTxEndpointIdle] at status
    split at status
    next idle =>
      have held : state.entries .idle ≠ 0 := by simp [State.entries, idle]
      refine live.stored held (by simp) kept ?_ inEpoll epoll
      rw [status]
      simp
    next => exact live.same kept status inEpoll epoll blocks
  | _ => exact live.same kept status inEpoll epoll blocks

theorem regTxEndpoint (live : Live state) (went : state.regTxEndpoint = some next) :
    Live next := by
  have kept := live.toKept.regTxEndpoint went
  rw [State.regTxEndpoint] at went
  cases own : state.reg with rw [own] at went
  | readHead | readTail head | addJob =>
    cases went
    exact live.same kept rfl rfl rfl id
  | setTxActive =>
    cases went
    have held : state.entries .registrar ≠ 0 := by simp [State.entries, own, RegPc.holds]
    exact live.stored held (by simp) kept (by simp) rfl rfl
  | done => cases went
  | idle pc =>
    have runs : state.runs .registrar = some pc := by rw [State.runs, own]
    have framed := framed_onTxEndpointIdle state pc
    rcases ran : state.onTxEndpointIdle pc with ⟨middle, rest⟩
    rw [ran] at framed
    simp only [ran] at went
    cases rest with
    | none | some later =>
      cases went
      exact live.onTxEndpointIdle runs kept (by rw [ran]) framed.inEpoll framed.epoll
        fun blocks => framed.actor.trans blocks

theorem actorNext (live : Live state) (went : state.actorNext = some next) : Live next := by
  have kept := live.toKept.actorNext went
  rw [State.actorNext] at went
  cases own : state.actor with rw [own] at went
  | setTxBlock =>
    cases went
    exact ⟨kept, by simp, fun _ => .inr (.inl rfl)⟩
  | idle pc =>
    have runs : state.runs .actor = some pc := by rw [State.runs, own]
    have framed := framed_onTxEndpointIdle state pc
    rcases ran : state.onTxEndpointIdle pc with ⟨middle, rest⟩
    rw [ran] at framed
    simp only [ran] at went
    have idles : state.actor ≠ .setTxBlock := by simp [own]
    cases rest with
    | none | some later =>
      cases went
      exact live.onTxEndpointIdle runs kept (by rw [ran]) framed.inEpoll framed.epoll
        fun blocks => absurd blocks idles
  | _ => cases went

theorem threadNext (live : Live state) (went : state.threadNext thread = some next)
    (unreleased : next.released = false) : Live next := by
  have kept := live.toKept.threadNext went unreleased
  rw [State.threadNext] at went
  cases own : state.threads thread with
  | outside =>
    rw [own] at went
    cases went
  | atomicSetTxActive =>
    simp only [own] at went
    split at went <;> cases went
    next idle =>
      have held : state.entries .idle ≠ 0 := by simp [State.entries, idle]
      exact live.stored held (by simp) kept (by simp [State.setThread]) rfl rfl
    · exact live.same kept rfl rfl rfl id
  | atomicSetTxRelease =>
    simp only [own] at went
    split at went <;> cases went
    · cases unreleased
    · exact live.same kept rfl rfl rfl id
  | _ =>
    rw [own] at went
    cases went
    exact live.same kept rfl rfl rfl id

variable {action : Action Thread}

section

variable (live : Live state)
include live

theorem actorGoes (kept : Kept next)
    (goes : match action with
      | .pop _ | .elementAt | .sent _ | .again | .push _ | .onTxEndpointIdle
      | .onTxEndpointBlock _ => True
      | _ => False) (went : TxSchedule.step config state action = some next) : Live next := by
  cases action with
  | onTxEndpointBlock memory =>
    rw [TxSchedule.step, State.ePollAddW] at went
    split at went
    next own =>
      split at went <;> cases went
      · exact live.same kept rfl rfl rfl fun blocks => by simp [own] at blocks
      · exact ⟨kept, live.unreleased, fun _ => .inr (.inr rfl)⟩
    next => cases went
  | pop q | onTxEndpointIdle | elementAt | sent count | again | push q =>
    -- none of these starts where the actor stores that the endpoint is blocked
    simp only [TxSchedule.step, State.pop, State.becomesIdle, State.elementAt, State.sent,
      State.again, State.push] at went
    repeat' split at went
    all_goals cases went
    all_goals exact live.same kept rfl rfl rfl fun blocks => by simp_all
  | _ => exact goes.elim

theorem epollNext (went : state.epollNext = some next) (unreleased : next.released = false) :
    Live next := by
  have kept := live.toKept.epollNext went unreleased
  rw [State.epollNext] at went
  cases own : state.epoll with
  | wait =>
    rw [own] at went
    cases went
  | event error =>
    rw [own] at went
    cases error with cases went
    | true => cases unreleased
    | false => exact ⟨kept, by simp, fun _ => .inl (by simp)⟩
  | addJob =>
    rw [own] at went
    cases went
    exact ⟨kept, live.unreleased, fun _ => .inl (by simp)⟩
  | ePollDel =>
    rw [own] at went
    cases went
    exact ⟨kept, live.unreleased, fun inside => by cases inside⟩
  | ePollDelDropped => exact absurd own live.undropped.1
  | dropTxEndpoint => exact absurd own live.undropped.2

theorem readPipe (went : state.readPipe = some next) (unreleased : next.released = false) :
    Live next := by
  have kept := live.toKept.readPipe went unreleased
  rw [State.readPipe] at went
  split at went
  next =>
    dsimp only at went
    split at went <;> cases went
    · cases unreleased
    · exact live.same kept rfl rfl rfl id
  next => cases went

theorem step (went : TxSchedule.step config state action = some next)
    (unreleased : next.released = false) : Live next := by
  have kept := live.toKept.step went unreleased
  cases action with
  | next thread => exact live.threadNext went unreleased
  | regTxEndpoint => exact live.regTxEndpoint went
  | actor => exact live.actorNext went
  | epoll => exact live.epollNext went unreleased
  | readPipe => exact live.readPipe went unreleased
  | failed =>
    rw [released_of_failed went] at unreleased
    cases unreleased
  | dropTxEndpoint =>
    rw [released_of_actorDrops went] at unreleased
    cases unreleased
  | sendMessage thread =>
    rw [TxSchedule.step, State.sendMessage] at went
    repeat' split at went
    · cases went
      exact live
    · cases went
      exact live.same kept rfl rfl rfl id
    · cases went
  | unregTxEndpoint thread =>
    rw [TxSchedule.step, State.unregTxEndpoint] at went
    repeat' split at went
    · cases went
      exact live
    · cases went
      exact live.same kept rfl rfl rfl id
    · cases went
  | returns thread =>
    rw [TxSchedule.step, State.threadReturns] at went
    split at went <;> cases went
    exact live.same kept rfl rfl rfl id
  | ePollWait error =>
    rw [TxSchedule.step, State.ePollWait] at went
    split at went <;> cases went
    exact ⟨kept, live.unreleased, fun _ => .inl (by simp)⟩
  | close | stop =>
    cases went
    exact live.same kept rfl rfl rfl id
  | _ => exact live.actorGoes kept trivial went

theorem release {holder : Place Thread} (held : state.entries holder ≠ 0)
    (elsewhere : holder ≠ .epoll)
    (entries : ∀ place, place ≠ .epoll → place ≠ holder → place ≠ .idle →
      next.entries place = state.entries place) (left : next.entries holder = 0)
    (status : next.txStatus = .kRelease) (inEpoll : next.inEpoll = state.inEpoll)
    (epoll : next.epoll = state.epoll) (unblocked : next.actor ≠ .setTxBlock) : Dropped next where
  gone place other := by
    by_cases atHolder : place = holder
    · exact atHolder ▸ left
    · by_cases atIdle : place = .idle
      · rw [atIdle]
        simp [State.entries, status]
      · exact (entries place other atHolder atIdle).trans (live.toKept.gone held atHolder)
  leaving := by
    rw [epoll, inEpoll, status]
    exact live.toKept.leaving held elsewhere
  unblocked _ := unblocked

theorem idle_unblocked (idle : state.txStatus = .kIdle) : state.actor ≠ .setTxBlock := by
  intro blocks
  have held : state.entries .idle ≠ 0 := by simp [State.entries, idle]
  rcases live.blocked blocks with polled | added
  · exact polled (live.toKept.gone held (by simp))
  · have absent : state.entries (.queue .activeEndpoints) = 0 := live.toKept.gone held (by simp)
    exact added absent

theorem released_threadNext (before : state.released = false)
    (went : state.threadNext thread = some next) (released : next.released = true) :
    Dropped next := by
  rw [State.threadNext] at went
  cases own : state.threads thread with
  | outside =>
    rw [own] at went
    cases went
  | atomicSetTxRelease =>
    simp only [own] at went
    split at went <;> cases went
    next idle =>
      have held : state.entries .idle ≠ 0 := by simp [State.entries, idle]
      refine live.release held (by simp) ?_ (by simp [State.entries, State.setThread]) rfl rfl
        rfl ?_
      · intro place _ _ atIdle
        rw [entries_setThread]
        split
        next here =>
          rw [here]
          simp [State.entries, own]
        next =>
          cases place with
          | idle => exact absurd rfl atIdle
          | _ => rfl
      · exact live.idle_unblocked idle
    · rw [State.setThread, before] at released
      cases released
  | atomicSetTxActive =>
    simp only [own] at went
    split at went
    all_goals
      cases went
      rw [State.setThread, before] at released
      cases released
  | _ =>
    rw [own] at went
    cases went
    simp only [State.setThread, State.post, State.addJob, before] at released
    cases released

theorem released_actor (holds : state.actor.holds = true) :
    Dropped { state.dropTxEndpoint with actor := .away } := by
  have held : state.entries .actor ≠ 0 := by simp [State.entries, holds]
  refine live.release held (by simp) ?_ rfl rfl rfl rfl (by simp)
  intro place other atActor atIdle
  cases place with
  | actor => exact absurd rfl atActor
  | idle => exact absurd rfl atIdle
  | _ => rfl

theorem released_failed (went : state.failed = some next) : Dropped next := by
  rw [State.failed] at went
  split at went <;> cases went
  next own => exact live.released_actor (by simp [own, ActorPc.holds])

theorem released_actorDrops (went : state.actorDrops config = some next) : Dropped next := by
  rw [State.actorDrops] at went
  split at went <;> cases went
  next drops =>
    refine live.released_actor ?_
    rw [State.mayDrop] at drops
    split at drops
    next own => simp [own, ActorPc.holds]
    next own => simp [own, ActorPc.holds]
    next => cases drops

theorem released_epollNext (before : state.released = false)
    (may : Allowed state (Action.epoll : Action Thread)) (went : state.epollNext = some next)
    (released : next.released = true) : Dropped next := by
  rw [State.epollNext] at went
  cases own : state.epoll with
  | event error =>
    rw [own] at went
    have inside := live.polled (by simp [own])
    have held : state.entries .epoll ≠ 0 := by simp [State.entries, own, inside]
    cases error with cases went
    | false =>
      rw [before] at released
      cases released
    | true =>
      refine ⟨?_, ⟨inside, rfl⟩, fun _ => may (.inl own)⟩
      intro place other
      cases place with
      | epoll => exact absurd rfl other
      | idle => rfl
      | _ => exact live.toKept.gone held other
  | dropTxEndpoint => exact absurd own live.undropped.2
  | wait =>
    rw [own] at went
    cases went
  | _ =>
    rw [own] at went
    cases went
    simp only [State.addJob, before] at released
    cases released

theorem released_readPipe (before : state.released = false) (went : state.readPipe = some next)
    (released : next.released = true) : Dropped next := by
  rw [State.readPipe] at went
  split at went
  next ready =>
    dsimp only at went
    split at went <;> cases went
    next inside =>
      have held : state.entries .epoll ≠ 0 := by simp [State.entries, ready.1, inside]
      refine ⟨?_, rfl, fun drops => absurd drops live.unreleased⟩
      intro place other
      cases place with
      | epoll => exact absurd rfl other
      | _ => exact live.toKept.gone held other
    · rw [before] at released
      cases released
  next => cases went

end

theorem released_same (other : match action with
      | .next _ | .failed | .dropTxEndpoint | .epoll | .readPipe => False
      | _ => True)
    (before : state.released = false)
    (went : TxSchedule.step config state action = some next) : next.released = false := by
  cases action with
  | next thread | failed | dropTxEndpoint | epoll | readPipe => exact other.elim
  | regTxEndpoint =>
    rw [TxSchedule.step, State.regTxEndpoint] at went
    cases own : state.reg with
    | idle pc =>
      have same := released_onTxEndpointIdle state pc
      rcases ran : state.onTxEndpointIdle pc with ⟨middle, rest⟩
      rw [ran] at same
      simp only [own, ran] at went
      cases rest with
      | none | some later =>
        cases went
        exact same.trans before
    | done =>
      rw [own] at went
      cases went
    | _ =>
      rw [own] at went
      cases went
      exact before
  | actor =>
    rw [TxSchedule.step, State.actorNext] at went
    cases own : state.actor with
    | setTxBlock =>
      rw [own] at went
      cases went
      exact before
    | idle pc =>
      have same := released_onTxEndpointIdle state pc
      rcases ran : state.onTxEndpointIdle pc with ⟨middle, rest⟩
      rw [ran] at same
      simp only [own, ran] at went
      cases rest with
      | none | some later =>
        cases went
        exact same.trans before
    | _ =>
      rw [own] at went
      cases went
  | _ =>
    simp only [TxSchedule.step, State.sendMessage, State.unregTxEndpoint, State.threadReturns,
      State.pop, State.elementAt, State.sent, State.again, State.push, State.becomesIdle,
      State.ePollAddW, State.ePollWait] at went
    repeat' split at went
    all_goals cases went
    all_goals exact before

theorem released (live : Live state) (before : state.released = false)
    (may : Allowed state action) (went : TxSchedule.step config state action = some next)
    (released : next.released = true) : Dropped next := by
  cases action with
  | next thread => exact live.released_threadNext before went released
  | failed => exact live.released_failed went
  | dropTxEndpoint => exact live.released_actorDrops went
  | epoll => exact live.released_epollNext before may went released
  | readPipe => exact live.released_readPipe before went released
  | _ =>
    rw [released_same trivial before went] at released
    cases released

end Live

structure Settled (state : State Thread) : Prop where
  live : state.released = false → Live state
  dropped : state.released = true → Dropped state

namespace Settled

theorem initial : Settled ({} : State Thread) where
  live _ := ⟨kept_initial, by simp, fun inside => by cases inside⟩
  dropped released := by cases released

theorem step (settled : Settled state) {action : Action Thread} (may : Allowed state action)
    (went : TxSchedule.step config state action = some next) :
    Settled next ∧ (state.txStatus = .kRelease → next.txStatus = .kRelease) := by
  cases before : state.released with
  | false =>
    have live := settled.live before
    refine ⟨⟨live.step went, fun released =>
      live.released before may went released⟩, fun released =>
        absurd released live.unreleased⟩
  | true =>
    have stays := (settled.dropped before).step may went
    have released := released_of_step before went
    refine ⟨⟨fun unreleased => ?_, fun _ => stays.dropped⟩, stays.final⟩
    rw [released] at unreleased
    cases unreleased

theorem dropTxEndpoint (settled : Settled state)
    (idle : state.txStatus = .kIdle ∨ state.txStatus = .kRelease) :
    Settled state.dropTxEndpoint := by
  constructor
  · nofun
  intro _
  cases before : state.released with
  | false =>
    have live := settled.live before
    rcases idle with idle | released
    · have held : state.entries .idle ≠ 0 := by simp [State.entries, idle]
      refine live.release held (by simp) ?_ rfl rfl rfl rfl ?_
      · intro place _ _ atIdle
        cases place with
        | idle => exact absurd rfl atIdle
        | _ => rfl
      · exact live.idle_unblocked idle
    · exact absurd released live.unreleased
  | true =>
    have dropped := settled.dropped before
    rcases idle with idle | released
    · exact absurd idle dropped.busy
    · have leaving := dropped.leaving
      rw [released] at leaving
      refine ⟨?_, leaving, fun _ => dropped.unblocked released⟩
      intro place other
      cases place with
      | epoll => exact absurd rfl other
      | idle => rfl
      | _ => exact dropped.gone _ other

theorem inEpoll_of_deletes (settled : Settled state)
    (deletes : state.epoll = .ePollDel ∨ state.epoll = .ePollDelDropped) :
    state.inEpoll = true := by
  cases before : state.released with
  | false =>
    refine (settled.live before).polled ?_
    rcases deletes with own | own
    all_goals simp [own]
  | true =>
    have leaving := (settled.dropped before).leaving
    rcases deletes with own | own
    · rw [own] at leaving
      exact leaving.1
    · rw [own] at leaving
      exact leaving.1

end Settled

/-- Somebody has the endpoint or takes it out of idle, the tx epoll thread has something to do
about it, or it is in the epoll set and `UnregTxEndpoint` finds it blocked. -/
def State.Attended (state : State Thread) : Prop :=
  (∃ place, place ≠ .epoll ∧ OnlyAt state.entries place) ∨
    state.epoll ≠ .wait ∨
    state.inEpoll = true ∧ (state.txStatus = .kBlock ∨ state.actor = .setTxBlock)

theorem Settled.attended (settled : Settled state) :
    state.txStatus = .kRelease ∧ state.inEpoll = false ∨ state.Attended := by
  cases own : state.epoll with
  | wait =>
    cases before : state.released with
    | false =>
      have live := settled.live before
      obtain ⟨place, only⟩ := live.held
      by_cases polled : place = .epoll
      · have inside : state.inEpoll = true := by
          have here := only.here
          rw [polled] at here
          cases inside : state.inEpoll with
          | true => rfl
          | false => simp [State.entries, inside] at here
        refine .inr (.inr (.inr ⟨inside, ?_⟩))
        exact (live.reachable inside).resolve_left fun acts => acts own
      · exact .inr (.inl ⟨place, polled, only⟩)
    | true =>
      have leaving := (settled.dropped before).leaving
      rw [own] at leaving
      exact .inl ⟨leaving.2, leaving.1⟩
  | _ => exact .inr (.inr (.inl (by simp [own])))

end AdkAaf.Adk.IoEngine.TxSchedule
