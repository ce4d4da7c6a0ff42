import AdkAaf.Adk.IoEngine.RxJobs

/-! No step of an actor loses an endpoint, nor does registration. -/

set_option autoImplicit false
set_option linter.unusedSectionVars false

namespace AdkAaf.Adk.IoEngine.RxSchedule

open Lib QueueVariant Function List
open TxSchedule (ActorQueue)

variable {Actor Thread Endpoint : Type} [DecidableEq Actor] [DecidableEq Thread]
  [DecidableEq Endpoint] [Fintype Endpoint]

/-- The invariant. The last three say which endpoints are about to be released. -/
structure Kept (config : Config Endpoint) (state : State Actor Thread Endpoint) : Prop where
  held : state.Held
  rings : ∀ actor, state.RingKept config.size actor
  polled : ∀ endpoint, state.epoll.endpoint = some endpoint → state.inEpoll endpoint = true
  events : ∀ endpoint ∈ state.asyncEvents, state.released endpoint = true
  releasing : ∀ thread endpoint, state.threads thread = .setRxRelease endpoint →
    state.released endpoint = true
  dropping : ∀ endpoint, state.epoll = .dropRxEndpoint endpoint →
    state.released endpoint = true

/-- A thread that takes the entry of a queue has no other thread beside it, and `SetRxCork` is
not called for an endpoint that is corked. -/
def Allowed (state : State Actor Thread Endpoint) : Action Actor Thread Endpoint → Prop
  | .thread thread =>
    match state.threads thread with
    | .addJob _ (.allocEntry actor) => state.Alone (some thread) actor
    | _ => True
  | .epoll =>
    match state.epoll with
    | .addJob _ (.allocEntry actor) => state.Alone none actor
    | _ => True
  | .actor actor =>
    match state.actors actor with
    | .storePre _ _ corked => state.rxCork corked ≠ .kRxCorkSet
    | _ => True
  | _ => True

variable {config : Config Endpoint} {state next : State Actor Thread Endpoint}
  {endpoint : Endpoint} {actor : Actor} {thread : Thread}

namespace Kept

theorem frame (kept : Kept config state) (held : next.Held) (rings : next.rings = state.rings)
    (threads : next.threads = state.threads) (epoll : next.epoll = state.epoll)
    (inEpoll : ∀ endpoint, state.inEpoll endpoint = true → next.inEpoll endpoint = true)
    (events : ∀ endpoint ∈ next.asyncEvents,
      endpoint ∈ state.asyncEvents ∨ next.released endpoint = true)
    (released : ∀ endpoint, state.released endpoint = true → next.released endpoint = true) :
    Kept config next where
  held := held
  rings actor := by
    apply (kept.rings actor).same (congrFun rings actor)
    intro adder endpoint pc adds _
    cases adder with
    | some thread => exact (congrArg ThreadPc.adding (congrFun threads thread)).symm.trans adds
    | none => exact (congrArg EpollPc.adding epoll).symm.trans adds
  polled endpoint about := inEpoll endpoint (kept.polled endpoint (epoll ▸ about))
  events endpoint mem := by
    cases events endpoint mem with
    | inl before => exact released endpoint (kept.events endpoint before)
    | inr now => exact now
  releasing thread endpoint releases :=
    released endpoint (kept.releasing thread endpoint (threads ▸ releases))
  dropping endpoint drops := released endpoint (kept.dropping endpoint (epoll ▸ drops))

variable {place : Place Actor Thread}

theorem absent (kept : Kept config state) {elsewhere : Place Actor Thread}
    (here : state.entries endpoint place = 1) (apart : elsewhere ≠ place) :
    state.entries endpoint elsewhere = 0 := by
  obtain ⟨at', only⟩ := kept.held endpoint
  exact only.absent (by rw [here]; exact Nat.one_ne_zero) apart

theorem not_corked (kept : Kept config state) (here : state.entries endpoint place = 1)
    (apart : Place.corked ≠ place) : state.rxCork endpoint ≠ .kRxCorkSet := by
  intro corked
  have none := kept.absent here apart
  rw [State.entries, if_pos corked] at none
  cases none

theorem entries_released (released : state.released endpoint = true) :
    state.entries endpoint .released = 1 := by
  rw [State.entries, if_pos released]

theorem entries_actor (holds : (state.actors actor).holds = some endpoint) :
    state.entries endpoint (.actor actor) = 1 := by
  rw [State.entries, if_pos holds]

theorem entries_setRxRelease (uncorked : state.rxCork endpoint ≠ .kRxCorkSet) :
    (state.setRxRelease endpoint).entries = state.entries :=
  State.entries_setCork_same uncorked (by simp)

theorem entries_dropRxEndpoint (uncorked : state.rxCork endpoint ≠ .kRxCorkSet) :
    (state.dropRxEndpoint endpoint).entries = (state.release endpoint).entries := by
  have uncorked' : (state.release endpoint).rxCork endpoint ≠ .kRxCorkSet := uncorked
  exact entries_setRxRelease uncorked'

variable {middle : State Actor Thread Endpoint}

variable {pc : ActorPc Endpoint}

theorem handOver (kept : Kept config state) {target : Place Actor Thread}
    (holds : (state.actors actor).holds = some endpoint) (away : pc.holds = none)
    (elsewhere : target ≠ .actor actor) (actors : middle.actors actor = state.actors actor)
    (arrives : middle.entries endpoint = update (state.entries endpoint) target 1)
    (others : ∀ other, other ≠ endpoint → middle.entries other = state.entries other) :
    (middle.setActor actor pc).Held := by
  have here : state.entries endpoint (.actor actor) = 0 + 1 := entries_actor holds
  apply kept.held.move elsewhere.symm here
  · rw [State.entries_setActor, arrives, away, if_neg (by simp),
      kept.absent here elsewhere, update_comm elsewhere.symm]
  · intro other apart
    rw [State.entries_setActor_of_ne, others other apart]
    · rw [actors, holds]
      exact fun same => apart (Option.some.inj same).symm
    · rw [away]
      simp

theorem goOn (kept : Kept config state) (same : pc.holds = (state.actors actor).holds) :
    Kept config (state.setActor actor pc) :=
  kept.frame (kept.held.same (State.entries_setActor_same same)) rfl rfl rfl (fun _ => id)
    (fun _ mem => .inl mem) (fun _ => id)

variable {queue : ActorQueue}

section

variable (kept : Kept config state)
include kept

theorem pop_local (isLocal : queue ≠ .activeEndpoints) {rest : List Endpoint}
    (away : state.actors actor = .away) (found : state.locals actor queue = endpoint :: rest) :
    Kept config ((state.setLocal actor queue rest).setActor actor (.popped queue endpoint)) := by
  have queued : state.queued actor queue = endpoint :: rest := by
    cases queue with
    | activeEndpoints => exact absurd rfl isLocal
    | activeEps | activeEps0 | activeEps1 => exact found
  have here : state.entries endpoint (.queue actor queue) = rest.count endpoint + 1 := by
    rw [State.entries, queued, count_cons_self]
  refine kept.frame ?_ rfl rfl rfl (fun _ => id) (fun _ mem => .inl mem)
    (fun _ => id)
  have elsewhere : (.queue actor queue : Place Actor Thread) ≠ .actor actor := by simp
  apply kept.held.move elsewhere here
  · have absent : state.entries endpoint (.actor actor) = 0 := by
      rw [State.entries, away, ActorPc.holds, if_neg (by simp)]
    rw [State.entries_setActor, State.entries_setLocal actor isLocal, absent, ActorPc.holds,
      if_pos rfl]
  · intro other apart
    have elsewhere : endpoint ≠ other := apart.symm
    rw [State.entries_setActor_of_ne, State.entries_setLocal actor isLocal]
    · apply update_eq_self_iff.mpr
      rw [State.entries, queued, count_cons_of_ne elsewhere]
    · change (state.actors actor).holds ≠ _
      rw [away]
      simp [ActorPc.holds]
    · simp [ActorPc.holds, elsewhere]

theorem pop (went : state.pop actor queue = some next) : Kept config next := by
  cases queue with
  | activeEndpoints =>
    simp only [State.pop, Option.ite_none_right_eq_some, Option.some.injEq] at went
    obtain ⟨away, rfl⟩ := went
    have popping : Kept config (state.setRing actor (state.rings actor).startPop) := by
      refine { kept with held := kept.held.same (State.entries_setRing_same rfl), rings := ?_ }
      intro other
      by_cases own : other = actor
      · subst own
        obtain ⟨push, ok, pushes⟩ := kept.rings other
        refine ⟨push, ?_, ?_⟩
        · simp only [State.setRing, update_self]
          exact ok.startPop
        · intro adder endpoint pc adds entered
          simp only [State.setRing, update_self]
          have before := pushes adder endpoint pc adds entered
          cases pc <;> exact before
      · exact (kept.rings other).same (update_of_ne own _ _) (fun _ _ _ adds _ => adds)
    apply popping.goOn
    change _ = (state.actors actor).holds
    rw [away]
    rfl
  | activeEps | activeEps0 | activeEps1 =>
    simp only [State.pop, Option.ite_none_right_eq_some] at went
    obtain ⟨away, popped⟩ := went
    split at popped <;> cases popped
    next endpoint rest found => exact kept.pop_local (by simp) away found

theorem received (went : state.received actor = some next) : Kept config next := by
  cases pc : state.actors actor with
  | popped q endpoint =>
    simp only [State.received, pc] at went
    cases went
    exact kept.goOn (by rw [pc]; rfl)
  | _ => simp only [State.received, pc, reduceCtorEq] at went

theorem again (went : state.again actor = some next) : Kept config next := by
  cases pc : state.actors actor with
  | popped q endpoint =>
    simp only [State.again, pc] at went
    cases went
    exact kept.goOn (by rw [pc]; rfl)
  | _ => simp only [State.again, pc, reduceCtorEq] at went

theorem setRxCork {corked : Endpoint} (went : state.setRxCork actor corked = some next) :
    Kept config next := by
  cases pc : state.actors actor with
  | delivering q endpoint =>
    simp only [State.setRxCork, pc] at went
    split at went <;> cases went
    · exact kept
    · exact kept.goOn (by rw [pc]; rfl)
  | _ => simp only [State.setRxCork, pc, reduceCtorEq] at went

theorem delivered (went : state.delivered actor = some next) : Kept config next := by
  cases pc : state.actors actor with
  | delivering q endpoint =>
    simp only [State.delivered, pc] at went
    split at went
    all_goals
      cases went
      exact kept.goOn (by rw [pc]; rfl)
  | _ => simp only [State.delivered, pc, reduceCtorEq] at went

theorem onRxEndpointBlock (went : state.onRxEndpointBlock actor = some next) :
    Kept config next := by
  rw [State.onRxEndpointBlock] at went
  split at went <;> cases went
  next endpoint pc => exact kept.goOn (by rw [pc]; rfl)

theorem pushLocal (isLocal : queue ≠ .activeEndpoints)
    (holds : (state.actors actor).holds = some endpoint) :
    Kept config ((state.setLocal actor queue (state.locals actor queue ++ [endpoint])).setActor
      actor .away) := by
  have queued : state.queued actor queue = state.locals actor queue := by
    cases queue with
    | activeEndpoints => exact absurd rfl isLocal
    | activeEps | activeEps0 | activeEps1 => rfl
  refine kept.frame ?_ rfl rfl rfl (fun _ => id) (fun _ mem => .inl mem)
    (fun _ => id)
  have elsewhere : (.queue actor queue : Place Actor Thread) ≠ .actor actor := by simp
  refine kept.handOver holds rfl elsewhere rfl ?_ ?_
  · have absent := kept.absent (entries_actor holds) elsewhere
    rw [State.entries, queued] at absent
    rw [State.entries_setLocal actor isLocal, count_append, absent, count_singleton_self]
  · intro other apart
    rw [State.entries_setLocal actor isLocal]
    apply update_eq_self_iff.mpr
    rw [State.entries, queued, count_append,
      count_singleton, if_neg (by simpa using apart.symm), Nat.add_zero]

theorem push (went : state.push config.lowLatency actor queue = some next) :
    Kept config next := by
  cases pc : state.actors actor with
  | returned origin endpoint result =>
    simp only [State.push, pc, Option.ite_none_right_eq_some, Option.some.injEq] at went
    obtain ⟨may, rfl⟩ := went
    apply kept.pushLocal
    · rintro rfl
      cases origin <;> cases result <;> cases may
    · rw [pc]
      rfl
  | _ => simp only [State.push, pc, reduceCtorEq] at went

end

variable {other : Endpoint}

theorem releases (released : state.released other = true) :
    (state.release endpoint).released other = true := by
  by_cases own : other = endpoint
  · subst own
    exact update_self ..
  · exact (update_of_ne own _ _).trans released

section

variable (kept : Kept config state)
include kept

theorem releaseActor (holds : (state.actors actor).holds = some endpoint)
    (entries : middle.entries = (state.release endpoint).entries)
    (rings : middle.rings = state.rings) (threads : middle.threads = state.threads)
    (epoll : middle.epoll = state.epoll) (inEpoll : middle.inEpoll = state.inEpoll)
    (actors : middle.actors = state.actors)
    (released : middle.released = (state.release endpoint).released)
    (events : ∀ other ∈ middle.asyncEvents, other ∈ state.asyncEvents ∨ other = endpoint) :
    Kept config (middle.setActor actor .away) := by
  have stays : ∀ other, state.released other = true → middle.released other = true := by
    intro other before
    rw [released]
    exact releases before
  refine kept.frame ?_ rings threads epoll ?_ ?_ stays
  · have elsewhere : (.released : Place Actor Thread) ≠ .actor actor := by simp
    apply kept.handOver holds rfl elsewhere (congrFun actors actor)
    · rw [entries]
      exact State.entries_release
    · intro other apart
      rw [entries]
      exact State.entries_release_of_ne apart
  · intro other inSet
    exact (congrFun inEpoll other).trans inSet
  · intro other mem
    cases events other mem with
    | inl before => exact .inl before
    | inr own =>
      right
      subst own
      change middle.released other = true
      rw [released]
      simp [State.release, update_self]

theorem failed {room : Bool} (went : state.failed actor room = some next) :
    Kept config next := by
  cases pc : state.actors actor with
  | popped queue endpoint =>
    simp only [State.failed, pc] at went
    cases went
    refine kept.releaseActor (by rw [pc]; rfl) rfl rfl rfl rfl rfl rfl rfl ?_
    intro other mem
    cases room with
    | false => exact .inl mem
    | true =>
      cases mem with
      | head => exact .inr rfl
      | tail _ before => exact .inl before
  | _ => simp only [State.failed, pc, reduceCtorEq] at went

theorem dropActor (holds : (state.actors actor).holds = some endpoint) :
    Kept config ((state.dropRxEndpoint endpoint).setActor actor .away) :=
  kept.releaseActor holds (entries_dropRxEndpoint (kept.not_corked (entries_actor holds) (by simp)))
    rfl rfl rfl rfl rfl rfl (fun _ mem => .inl mem)

theorem actorDrops (went : state.actorDrops config.lowLatency actor = some next) :
    Kept config next := by
  rw [State.actorDrops] at went
  split at went
  next endpoint pc =>
    split at went <;> cases went
    exact kept.dropActor (by rw [pc]; rfl)
  next endpoint pc =>
    split at went <;> cases went
    exact kept.dropActor (by rw [pc]; rfl)
  next endpoint pc =>
    split at went <;> cases went
    exact kept.dropActor (by rw [pc]; rfl)
  · cases went

theorem not_behind (outside : state.inEpoll endpoint = false) :
    state.epoll.behind ≠ some endpoint := by
  intro behind
  have about : state.epoll.endpoint = some endpoint := by
    cases pc : state.epoll with rw [pc] at behind
    | ePollDel own | ePollDelDropped own => exact behind
    | _ => cases behind
  rw [kept.polled endpoint about] at outside
  cases outside

end

theorem entersSet (inSet : state.inEpoll other = true) :
    (state.setInEpoll endpoint true).inEpoll other = true := by
  by_cases own : other = endpoint
  · subst own
    exact update_self ..
  · exact (update_of_ne own _ _).trans inSet

variable {memory : Bool}

theorem ePollAddR (kept : Kept config state) (went : state.ePollAddR actor memory = some next) :
    Kept config next := by
  cases pc : state.actors actor with
  | ePollAddR endpoint =>
    have holds : (state.actors actor).holds = some endpoint := by rw [pc]; rfl
    simp only [State.ePollAddR, pc] at went
    split at went <;> cases went
    · exact kept.pushLocal (by simp) holds
    next fresh =>
      have outside : state.inEpoll endpoint = false := by
        cases inSet : state.inEpoll endpoint with
        | true => simp [inSet] at fresh
        | false => rfl
      have elsewhere : (.epoll : Place Actor Thread) ≠ .actor actor := by simp
      refine kept.frame ?_ rfl rfl rfl (fun _ => entersSet) (fun _ mem => .inl mem)
        (fun _ => id)
      refine kept.handOver holds rfl elsewhere rfl ?_ ?_
      · rw [State.entries_setInEpoll, if_pos ⟨rfl, kept.not_behind outside⟩]
      · intro other apart
        exact State.entries_setInEpoll_of_ne apart true
  | _ => simp only [State.ePollAddR, pc, reduceCtorEq] at went

variable {event : PopEvent Endpoint}

variable {ring : QueueVariant.Ring Endpoint}

section

variable (kept : Kept config state)
include kept

theorem popRings (went : Ring.stepPop config.size (state.rings actor) = some (ring, event))
    (other : Actor) : (state.setRing actor ring).RingKept config.size other := by
  by_cases own : other = actor
  · subst own
    obtain ⟨push, ok, pushes⟩ := kept.rings other
    have popped := Ring.stepPop_push push went
    obtain ⟨after, _, _⟩ := Ring.stepPop_spec config.sizeValid ok popped
    refine ⟨push, ?_, ?_⟩
    · simp only [State.setRing, update_self]
      exact after
    · intro adder endpoint pc adds entered
      simp only [State.setRing, update_self]
      have before := pushes adder endpoint pc adds entered
      have tail : ring.tail = (state.rings other).tail := Ring.stepPop_tail went
      cases pc with
      | setRxActive _ | allocEntry _ => trivial
      | write _ slot | loadPos _ slot | storePos _ slot pos =>
        rw [AddJobPc.Pushes, tail]
        exact before
  · exact (kept.rings other).same (update_of_ne own _ _) (fun _ _ _ adds _ => adds)

theorem popEffect (went : Ring.stepPop config.size (state.rings actor) = some (ring, event)) :
    Ring.PopEffect (state.rings actor) ring event := by
  obtain ⟨push, ok, _⟩ := kept.rings actor
  obtain ⟨_, _, effect⟩ := Ring.stepPop_spec config.sizeValid ok (Ring.stepPop_push push went)
  cases event with
  | running | kQueueEmpty | kSuccess endpoint => exact effect

theorem popped (popping : state.actors actor = .popping)
    (went : Ring.stepPop config.size (state.rings actor) = some (ring, .kSuccess endpoint)) :
    Kept config ((state.setRing actor ring).setActor actor
      (.popped .activeEndpoints endpoint)) := by
  have contents : (state.rings actor).contents = endpoint :: ring.contents :=
    (kept.popEffect went).2
  have free : (state.actors actor).holds = none := by
    rw [popping]
    rfl
  have absent : state.entries endpoint (.actor actor) = 0 := by
    rw [State.entries, free, if_neg (by simp)]
  have here : state.entries endpoint (.queue actor .activeEndpoints)
      = ring.contents.count endpoint + 1 := by
    rw [State.entries, State.queued, contents, count_cons_self]
  have elsewhere :
      (.queue actor .activeEndpoints : Place Actor Thread) ≠ .actor actor := by simp
  have held : ((state.setRing actor ring).setActor actor
      (.popped .activeEndpoints endpoint)).Held := by
    apply kept.held.move elsewhere here
    · rw [State.entries_setActor, State.entries_setRing, absent, ActorPc.holds, if_pos rfl]
    · intro other different
      have apart : endpoint ≠ other := different.symm
      rw [State.entries_setActor_of_ne, State.entries_setRing]
      · apply update_eq_self_iff.mpr
        rw [State.entries, State.queued, contents, count_cons_of_ne apart]
      · change (state.actors actor).holds ≠ _
        rw [free]
        simp
      · simp [ActorPc.holds, apart]
  exact { kept with held := held, rings := kept.popRings went }

theorem popping (same : ring.contents = (state.rings actor).contents)
    (went : Ring.stepPop config.size (state.rings actor) = some (ring, event)) :
    Kept config (state.setRing actor ring) :=
  { kept with
    held := kept.held.same (State.entries_setRing_same same)
    rings := kept.popRings went }

theorem actorNext (may : Allowed state (.actor actor : Action Actor Thread Endpoint))
    (went : state.actorNext config.size actor = some next) : Kept config next := by
  cases pc : state.actors actor with
  | popping =>
    simp only [State.actorNext, pc] at went
    split at went <;> cases went
    next ring moved => exact kept.popping (kept.popEffect moved).1 moved
    next ring moved =>
      have empty := kept.popping (kept.popEffect moved).1 moved
      apply empty.goOn
      change _ = (state.actors actor).holds
      rw [pc]
      rfl
    next ring endpoint moved => exact kept.popped pc moved
  | storePre queue endpoint corked =>
    simp only [State.actorNext, pc] at went
    cases went
    simp only [Allowed, pc] at may
    have asked : Kept config (state.setCork corked .kRxCorkPre) :=
      kept.frame (kept.held.same (State.entries_setCork_same may (by simp))) rfl rfl rfl
        (fun _ => id) (fun _ mem => .inl mem) (fun _ => id)
    apply asked.goOn
    change _ = (state.actors actor).holds
    rw [pc]
    rfl
  | storeSet endpoint =>
    simp only [State.actorNext, pc] at went
    cases went
    refine kept.frame ?_ rfl rfl rfl (fun _ => id) (fun _ mem => .inl mem)
      (fun _ => id)
    have holds : (state.actors actor).holds = some endpoint := by rw [pc]; rfl
    have elsewhere : (.corked : Place Actor Thread) ≠ .actor actor := by simp
    refine kept.handOver holds rfl elsewhere rfl ?_ ?_
    · rw [State.entries_setCork, if_pos rfl]
    · intro other apart
      exact State.entries_setCork_of_ne apart _
  | setRxPolling endpoint =>
    simp only [State.actorNext, pc] at went
    cases went
    have polling : Kept config (state.setStatus endpoint .kPolling) :=
      kept.frame kept.held rfl rfl rfl (fun _ => id) (fun _ mem => .inl mem)
        (fun _ => id)
    apply polling.goOn
    change _ = (state.actors actor).holds
    rw [pc]
    rfl
  | _ =>
    simp only [State.actorNext, pc, reduceCtorEq] at went

theorem regRxEndpoint {hasHandler : Bool}
    (went : state.regRxEndpoint endpoint hasHandler memory = some next) : Kept config next := by
  cases pc : state.reg endpoint with
  | ePollAddR =>
    have here : state.entries endpoint .registrar = 0 + 1 := by rw [State.entries, if_pos pc]
    simp only [State.regRxEndpoint, pc] at went
    split at went <;> cases went
    next fresh =>
      have outside : state.inEpoll endpoint = false := by
        cases inSet : state.inEpoll endpoint with
        | true => simp [inSet] at fresh
        | false => rfl
      refine kept.frame ?_ rfl rfl rfl (fun _ => entersSet) (fun _ mem => .inl mem)
        (fun _ => id)
      have absent := kept.absent here (by simp : (.epoll : Place Actor Thread) ≠ .registrar)
      apply kept.held.move (by simp : (.registrar : Place Actor Thread) ≠ .epoll) here
      · rw [State.entries_setReg, State.entries_setInEpoll,
          if_pos ⟨rfl, kept.not_behind outside⟩, if_neg (by simp), absent,
          update_comm (by simp)]
      · intro other apart
        rw [State.entries_setReg_of_ne apart, State.entries_setInEpoll_of_ne apart]
    · refine kept.frame ?_ rfl rfl rfl (fun _ => id) (fun _ mem => .inl mem)
        (fun _ => releases)
      have uncorked := kept.not_corked here (by simp)
      have absent := kept.absent here (by simp : (.released : Place Actor Thread) ≠ .registrar)
      apply kept.held.move (by simp : (.registrar : Place Actor Thread) ≠ .released) here
      · rw [State.entries_setReg, entries_dropRxEndpoint uncorked, State.entries_release,
          if_neg (by simp), absent, update_comm (by simp)]
      · intro other apart
        rw [State.entries_setReg_of_ne apart, entries_dropRxEndpoint uncorked,
          State.entries_release_of_ne apart]
  | setRxPolling =>
    simp only [State.regRxEndpoint, pc] at went
    cases went
    refine kept.frame ?_ rfl rfl rfl (fun _ => id) (fun _ mem => .inl mem)
      (fun _ => id)
    apply kept.held.same
    funext other
    by_cases own : other = endpoint
    · subst own
      rw [State.entries_setReg]
      apply update_eq_self_iff.mpr
      change _ = if state.reg other = .ePollAddR then 1 else 0
      rw [pc]
      rfl
    · exact State.entries_setReg_of_ne own _
  | done => simp only [State.regRxEndpoint, pc, reduceCtorEq] at went

theorem setToDelete : Kept config (state.setToDelete endpoint) :=
  kept.frame kept.held rfl rfl rfl (fun _ => id) (fun _ mem => .inl mem)
    (fun _ => id)

theorem doDeliverEvent (went : state.doDeliverEvent endpoint = some next) :
    Kept config next := by
  rw [State.doDeliverEvent, Option.ite_none_right_eq_some] at went
  obtain ⟨mem, same⟩ := went
  cases same
  have uncorked := kept.not_corked (entries_released (kept.events endpoint mem)) (by simp)
  refine kept.frame ?_ rfl rfl rfl (fun _ => id) ?_ (fun _ => id)
  · exact kept.held.same (entries_setRxRelease uncorked)
  · intro other left
    exact .inl (mem_of_mem_erase left)

end

end Kept

end AdkAaf.Adk.IoEngine.RxSchedule
