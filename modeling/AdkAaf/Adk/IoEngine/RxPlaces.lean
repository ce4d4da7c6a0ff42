import AdkAaf.Adk.IoEngine.RxSchedule
import AdkAaf.Lib.Token

/-! An endpoint is at one place. The epoll set has it until the job is in the queue of an actor,
although it is deleted from the set only then; `ToDeliverEvent` releases it, and a thread in
`SetRxUncork` has it between its compare and swap and the end of `AddJob`. -/

set_option autoImplicit false
set_option linter.unusedSectionVars false

namespace AdkAaf.Adk.IoEngine.RxSchedule

open Lib QueueVariant Function
open TxSchedule (ActorQueue)

inductive Place (Actor Thread : Type) where
  | queue (actor : Actor) (queue : ActorQueue)
  | actor (actor : Actor)
  | epoll
  | corked
  | thread (thread : Thread)
  | registrar
  | released
  deriving DecidableEq

variable {Actor Thread Endpoint : Type}

def ActorPc.holds : ActorPc Endpoint → Option Endpoint
  | .popped _ endpoint | .delivering _ endpoint | .storePre _ endpoint _ | .storeSet endpoint
  | .returned _ endpoint _ | .ePollAddR endpoint => some endpoint
  | .away | .popping | .setRxPolling _ => none

def ThreadPc.holds : ThreadPc Actor Endpoint → Option Endpoint
  | .addJob endpoint _ => some endpoint
  | .outside | .setRxRelease _ | .writePipe _ => none

def EpollPc.endpoint : EpollPc Actor Endpoint → Option Endpoint
  | .event endpoint _ | .addJob endpoint _ | .ePollDel endpoint | .ePollDelDropped endpoint =>
    some endpoint
  | .wait | .dropRxEndpoint _ => none

def EpollPc.behind : EpollPc Actor Endpoint → Option Endpoint
  | .ePollDel endpoint | .ePollDelDropped endpoint => some endpoint
  | .wait | .event _ _ | .addJob _ _ | .dropRxEndpoint _ => none

namespace State

variable [DecidableEq Endpoint]

def queued (state : State Actor Thread Endpoint) (actor : Actor) : ActorQueue → List Endpoint
  | .activeEndpoints => (state.rings actor).contents
  | queue => state.locals actor queue

def entries (state : State Actor Thread Endpoint) (endpoint : Endpoint) :
    Place Actor Thread → Nat
  | .queue actor queue => (state.queued actor queue).count endpoint
  | .actor actor => if (state.actors actor).holds = some endpoint then 1 else 0
  | .epoll => if state.inEpoll endpoint ∧ state.epoll.behind ≠ some endpoint then 1 else 0
  | .corked => if state.rxCork endpoint = .kRxCorkSet then 1 else 0
  | .thread thread => if (state.threads thread).holds = some endpoint then 1 else 0
  | .registrar => if state.reg endpoint = .ePollAddR then 1 else 0
  | .released => if state.released endpoint then 1 else 0

variable [DecidableEq Actor] [DecidableEq Thread]

def Held (state : State Actor Thread Endpoint) : Prop :=
  ∀ endpoint, ∃ place, OnlyAt (state.entries endpoint) place

variable {state next : State Actor Thread Endpoint} {endpoint other : Endpoint}

theorem entries_setActor (actor : Actor) (pc : ActorPc Endpoint) (endpoint : Endpoint) :
    (state.setActor actor pc).entries endpoint = update (state.entries endpoint) (.actor actor)
          (if pc.holds = some endpoint then 1 else 0) := by
  funext place
  by_cases here : place = .actor actor
  · subst here
    simp [entries, setActor, update_self]
  · rw [update_of_ne here]
    cases place with
    | actor another =>
      have different : another ≠ actor := fun same => here (congrArg Place.actor same)
      simp [entries, setActor, update_of_ne different]
    | _ => rfl

theorem entries_setThread (thread : Thread) (pc : ThreadPc Actor Endpoint) (endpoint : Endpoint) :
    (state.setThread thread pc).entries endpoint = update (state.entries endpoint) (.thread thread)
          (if pc.holds = some endpoint then 1 else 0) := by
  funext place
  by_cases here : place = .thread thread
  · subst here
    simp [entries, setThread, update_self]
  · rw [update_of_ne here]
    cases place with
    | thread another =>
      have different : another ≠ thread := fun same => here (congrArg Place.thread same)
      simp [entries, setThread, update_of_ne different]
    | _ => rfl

theorem entries_setRing (actor : Actor) (ring : QueueVariant.Ring Endpoint) (endpoint : Endpoint) :
    (state.setRing actor ring).entries endpoint
      = update (state.entries endpoint) (.queue actor .activeEndpoints)
          (ring.contents.count endpoint) := by
  funext place
  by_cases here : place = .queue actor .activeEndpoints
  · subst here
    simp [entries, queued, setRing, update_self]
  · rw [update_of_ne here]
    cases place with
    | queue another queue =>
      cases queue with
      | activeEndpoints =>
        have different : another ≠ actor := by
          intro same
          exact here (same ▸ rfl)
        simp [entries, queued, setRing, update_of_ne different]
      | activeEps | activeEps0 | activeEps1 => rfl
    | _ => rfl

theorem entries_setLocal (actor : Actor) {queue : ActorQueue} (isLocal : queue ≠ .activeEndpoints)
    (endpoints : List Endpoint) (endpoint : Endpoint) :
    (state.setLocal actor queue endpoints).entries endpoint
      = update (state.entries endpoint) (.queue actor queue) (endpoints.count endpoint) := by
  funext place
  by_cases here : place = .queue actor queue
  · subst here
    cases queue with
    | activeEndpoints => exact absurd rfl isLocal
    | activeEps | activeEps0 | activeEps1 =>
      simp [entries, queued, setLocal, update_self]
  · rw [update_of_ne here]
    cases place with
    | queue another elsewhere =>
      cases elsewhere with
      | activeEndpoints => rfl
      | activeEps | activeEps0 | activeEps1 =>
        by_cases same : another = actor
        · subst same
          have different := fun same => here (congrArg (Place.queue another) same)
          simp [entries, queued, setLocal, update_self, update_of_ne different]
        · simp [entries, queued, setLocal, update_of_ne same]
    | _ => rfl

theorem entries_setEpoll (pc : EpollPc Actor Endpoint) (endpoint : Endpoint) :
    (state.setEpoll pc).entries endpoint = update (state.entries endpoint) .epoll
          (if state.inEpoll endpoint ∧ pc.behind ≠ some endpoint then 1 else 0) := by
  funext place
  cases place with
  | _ =>
    rfl

theorem entries_setInEpoll (inEpoll : Bool) :
    (state.setInEpoll endpoint inEpoll).entries endpoint = update (state.entries endpoint) .epoll
          (if inEpoll ∧ state.epoll.behind ≠ some endpoint then 1 else 0) := by
  funext place
  cases place with
  | epoll => simp only [entries, setInEpoll, update_self]
  | _ =>
    rfl

theorem entries_setReg (pc : RegPc) : (state.setReg endpoint pc).entries endpoint
      = update (state.entries endpoint) .registrar (if pc = .ePollAddR then 1 else 0) := by
  funext place
  cases place with
  | registrar => simp only [entries, setReg, update_self]
  | _ =>
    rfl

theorem entries_setCork (cork : EpRxCorkStat) : (state.setCork endpoint cork).entries endpoint
      = update (state.entries endpoint) .corked (if cork = .kRxCorkSet then 1 else 0) := by
  funext place
  cases place with
  | corked => simp only [entries, setCork, update_self]
  | _ =>
    rfl

theorem entries_release :
    (state.release endpoint).entries endpoint = update (state.entries endpoint) .released 1 := by
  funext place
  cases place with
  | released => simp only [entries, release, update_self, if_true]
  | _ =>
    rfl

section

variable (different : other ≠ endpoint)
include different

theorem entries_setInEpoll_of_ne (inEpoll : Bool) :
    (state.setInEpoll endpoint inEpoll).entries other = state.entries other := by
  funext place
  cases place with
  | epoll => simp only [entries, setInEpoll, update_of_ne different]
  | _ => rfl

theorem entries_setReg_of_ne (pc : RegPc) :
    (state.setReg endpoint pc).entries other = state.entries other := by
  funext place
  cases place with
  | registrar => simp only [entries, setReg, update_of_ne different]
  | _ => rfl

theorem entries_setCork_of_ne (cork : EpRxCorkStat) :
    (state.setCork endpoint cork).entries other = state.entries other := by
  funext place
  cases place with
  | corked => simp only [entries, setCork, update_of_ne different]
  | _ => rfl

theorem entries_release_of_ne : (state.release endpoint).entries other = state.entries other := by
  funext place
  cases place with
  | released => simp only [entries, release, update_of_ne different]
  | _ => rfl

end

theorem entries_setActor_of_ne {actor : Actor} {pc : ActorPc Endpoint}
    (before : (state.actors actor).holds ≠ some other) (after : pc.holds ≠ some other) :
    (state.setActor actor pc).entries other = state.entries other := by
  rw [entries_setActor, if_neg after]
  exact update_eq_self_iff.mpr (if_neg before).symm

theorem entries_setActor_same {actor : Actor} {pc : ActorPc Endpoint}
    (same : pc.holds = (state.actors actor).holds) :
    (state.setActor actor pc).entries = state.entries := by
  funext endpoint
  rw [entries_setActor, same]
  exact update_eq_self_iff.mpr rfl

theorem entries_setThread_of_ne {thread : Thread} {pc : ThreadPc Actor Endpoint}
    (before : (state.threads thread).holds ≠ some other) (after : pc.holds ≠ some other) :
    (state.setThread thread pc).entries other = state.entries other := by
  rw [entries_setThread, if_neg after]
  exact update_eq_self_iff.mpr (if_neg before).symm

theorem entries_setThread_same {thread : Thread} {pc : ThreadPc Actor Endpoint}
    (same : pc.holds = (state.threads thread).holds) :
    (state.setThread thread pc).entries = state.entries := by
  funext endpoint
  rw [entries_setThread, same]
  exact update_eq_self_iff.mpr rfl

theorem entries_setRing_same {actor : Actor} {ring : QueueVariant.Ring Endpoint}
    (same : ring.contents = (state.rings actor).contents) :
    (state.setRing actor ring).entries = state.entries := by
  funext endpoint
  rw [entries_setRing, same]
  exact update_eq_self_iff.mpr rfl

theorem entries_setEpoll_same {pc : EpollPc Actor Endpoint}
    (same : pc.behind = state.epoll.behind) : (state.setEpoll pc).entries = state.entries := by
  funext endpoint
  rw [entries_setEpoll, same]
  exact update_eq_self_iff.mpr rfl

theorem entries_setCork_same {cork : EpRxCorkStat} (before : state.rxCork endpoint ≠ .kRxCorkSet)
    (after : cork ≠ .kRxCorkSet) : (state.setCork endpoint cork).entries = state.entries := by
  funext other
  by_cases own : other = endpoint
  · subst own
    rw [entries_setCork, if_neg after]
    exact update_eq_self_iff.mpr (if_neg before).symm
  · exact entries_setCork_of_ne own cork

theorem Held.move (held : state.Held) {source target : Place Actor Thread} {rest : Nat}
    (different : source ≠ target) (leaves : state.entries endpoint source = rest + 1)
    (own : next.entries endpoint = update (update (state.entries endpoint) source rest) target
      (state.entries endpoint target + 1))
    (others : ∀ other, other ≠ endpoint → next.entries other = state.entries other) :
    next.Held := by
  intro other
  by_cases same : other = endpoint
  · subst same
    obtain ⟨place, only⟩ := held other
    refine ⟨target, only.moves (by rw [leaves]; exact Nat.succ_ne_zero rest) ?_⟩
    intro elsewhere
    rw [own]
    by_cases atTarget : elsewhere = target
    · subst atTarget
      rw [update_self, if_neg (Ne.symm different), if_pos rfl]
    · rw [update_of_ne atTarget, if_neg atTarget]
      by_cases atSource : elsewhere = source
      · subst atSource
        rw [update_self, if_pos rfl, leaves]
      · rw [update_of_ne atSource, if_neg atSource]
  · rw [others other same]
    exact held other

theorem Held.same (held : state.Held) (same : next.entries = state.entries) : next.Held := by
  intro endpoint
  rw [same]
  exact held endpoint

end State

end AdkAaf.Adk.IoEngine.RxSchedule
