import AdkAaf.Adk.IoEngine.RxActors
import Mathlib.Data.Fintype.Option

/-! No step of another thread loses an endpoint, and no run does. -/

set_option autoImplicit false
set_option linter.unusedSectionVars false

namespace AdkAaf.Adk.IoEngine.RxSchedule

open Lib QueueVariant Function Option State
open TxSchedule (ActorQueue)

variable {Actor Thread Endpoint : Type} [DecidableEq Actor] [DecidableEq Thread]
  [DecidableEq Endpoint] [Fintype Endpoint] {config : Config Endpoint}
  {state next : State Actor Thread Endpoint} {endpoint : Endpoint} {actor : Actor}
  {thread : Thread}

namespace Kept

variable {middle : State Actor Thread Endpoint}

theorem goThread (kept : Kept config state)
    {pc : ThreadPc Actor Endpoint} (held : (middle.setThread thread pc).Held)
    (rings : middle.rings = state.rings) (threads : middle.threads = state.threads)
    (epoll : middle.epoll = state.epoll) (inEpoll : middle.inEpoll = state.inEpoll)
    (events : middle.asyncEvents = state.asyncEvents)
    (released : ∀ endpoint, state.released endpoint = true → middle.released endpoint = true)
    (entered : ∀ endpoint job, pc.adding = some (endpoint, job) → job.entered = none)
    (releasing : ∀ endpoint, pc = .setRxRelease endpoint → middle.released endpoint = true) :
    Kept config (middle.setThread thread pc) where
  held := held
  rings actor := by
    refine (kept.rings actor).same (congrFun rings actor) ?_
    intro adder endpoint job adds jobEntered
    cases adder with
    | none => exact (congrArg EpollPc.adding epoll).symm.trans adds
    | some other =>
      by_cases own : other = thread
      · subst own
        simp only [State.adding, State.setThread, update_self] at adds
        rw [entered endpoint job adds] at jobEntered
        cases jobEntered
      · simp only [State.adding, State.setThread, update_of_ne own, threads] at adds
        exact adds
  polled endpoint about := by
    rw [show (middle.setThread thread pc).inEpoll = state.inEpoll from inEpoll]
    exact kept.polled endpoint (epoll ▸ about)
  events endpoint mem := by
    rw [show (middle.setThread thread pc).asyncEvents = state.asyncEvents from events] at mem
    exact released endpoint (kept.events endpoint mem)
  releasing other endpoint releases := by
    by_cases own : other = thread
    · subst own
      simp only [State.setThread, update_self] at releases
      exact releasing endpoint releases
    · simp only [State.setThread, update_of_ne own, threads] at releases
      exact released endpoint (kept.releasing other endpoint releases)
  dropping endpoint drops := released endpoint (kept.dropping endpoint (epoll ▸ drops))

theorem entries_corked (corked : state.rxCork endpoint = .kRxCorkSet) :
    state.entries endpoint .corked = 0 + 1 := by
  rw [entries, if_pos corked]

theorem setRxUncork (kept : Kept config state)
    (went : state.setRxUncork thread endpoint actor = some next) : Kept config next := by
  rw [State.setRxUncork, ite_none_right_eq_some] at went
  obtain ⟨outside, went⟩ := went
  split at went <;> cases went
  next corked =>
    refine kept.goThread ?_ rfl rfl rfl rfl rfl (fun _ => id) ?_ ?_
    · have here := entries_corked corked
      have different : (.corked : Place Actor Thread) ≠ .thread thread := by simp
      have absent := kept.absent here different.symm
      apply kept.held.move different here
      · rw [entries_setThread, entries_setCork, absent, if_neg (by simp),
          ThreadPc.holds, if_pos rfl]
      · intro other apart
        have elsewhere : endpoint ≠ other := apart.symm
        rw [entries_setThread_of_ne, entries_setCork_of_ne apart]
        · change (state.threads thread).holds ≠ _
          rw [outside]
          simp [ThreadPc.holds]
        · simp [ThreadPc.holds, elsewhere]
    · intro other job adds
      cases adds
      rfl
    · intros; contradiction
  · exact kept

theorem checkAndSetRxCorkLck (kept : Kept config state)
    (went : state.checkAndSetRxCorkLck thread endpoint = some next) : Kept config next := by
  rw [State.checkAndSetRxCorkLck, ite_none_right_eq_some] at went
  obtain ⟨outside, went⟩ := went
  split at went <;> cases went
  next corked =>
    refine kept.goThread ?_ rfl rfl rfl rfl rfl (fun _ => releases) ?_ ?_
    · have here := entries_corked corked
      have different : (.corked : Place Actor Thread) ≠ .released := by simp
      have absent := kept.absent here different.symm
      have same : ((((state.setCork endpoint .kRxCorkLck).release endpoint).setThread thread
          (.setRxRelease endpoint)).entries)
            = ((state.setCork endpoint .kRxCorkLck).release endpoint).entries := by
        apply entries_setThread_same
        change _ = (state.threads thread).holds
        rw [outside]
        rfl
      apply kept.held.move different here
      · rw [same, entries_release, entries_setCork, absent, if_neg (by simp)]
      · intro other apart
        rw [same, entries_release_of_ne apart, entries_setCork_of_ne apart]
    · nofun
    · intro other own
      cases own
      exact update_self ..
  · exact kept

theorem unregRxEndpoint (kept : Kept config state)
    (went : state.unregRxEndpoint thread endpoint = some next) : Kept config next := by
  rw [State.unregRxEndpoint, ite_none_right_eq_some] at went
  obtain ⟨outside, went⟩ := went
  split at went <;> cases went
  · refine kept.goThread ?_ rfl rfl rfl rfl rfl (fun _ => id) ?_ ?_
    · apply kept.held.same
      apply entries_setThread_same
      rw [outside]
      rfl
    all_goals nofun
  · exact kept

variable {pc : AddJobPc Actor} {rest : Option (AddJobPc Actor)}

theorem addJob_frame {size : Nat} (added : state.addJob size endpoint pc = (middle, rest)) :
    middle.threads = state.threads ∧ middle.epoll = state.epoll ∧
      middle.inEpoll = state.inEpoll ∧ middle.asyncEvents = state.asyncEvents ∧
      middle.released = state.released := by
  cases pc with
  | allocEntry _ =>
    rw [State.addJob] at added
    split at added <;> cases added <;> exact ⟨rfl, rfl, rfl, rfl, rfl⟩
  | _ =>
    cases added
    exact ⟨rfl, rfl, rfl, rfl, rfl⟩

variable {adder : Adder Thread}

section

variable (kept : Kept config state)
include kept

theorem addJob_held (adds : state.adding adder = some (endpoint, pc))
    (added : state.addJob config.size endpoint pc = (middle, rest)) :
    (middle.setAdder adder endpoint rest).Held := by
  cases pc with
  | setRxActive own =>
    cases added
    have adds' : (state.setStatus endpoint .kActive).adding adder
        = some (endpoint, .setRxActive own) := adds
    exact kept.held.same (entries_setAdder_some adds' _)
  | allocEntry own =>
    have free := allocEntry_free config kept.held kept.polled (kept.rings own) adds
    rw [State.addJob, if_neg (Int.not_lt.mpr (Int.le_of_lt free))] at added
    cases added
    exact kept.held.same (entries_setAdder_some adds _)
  | write own slot =>
    cases added
    have adds' : (state.setRing own { state.rings own with
        buffer := update (state.rings own).buffer slot endpoint }).adding adder
          = some (endpoint, .write own slot) := adds
    exact kept.held.same ((entries_setAdder_some adds' _).trans (entries_setRing_same rfl))
  | loadPos own slot =>
    cases added
    exact kept.held.same (entries_setAdder_some adds _)
  | storePos own slot pos =>
    cases added
    have here := entries_of_adding kept.polled adds
    have different : (adder.place : Place Actor Thread) ≠ .queue own .activeEndpoints := by
      cases adder <;> simp [Adder.place]
    have absent := kept.absent here different.symm
    rw [entries, queued] at absent
    apply kept.held.move different here
    · rw [entries_setAdder_none, entries_setRing, List.count_append, absent,
        List.count_singleton_self, entries, queued, absent,
        update_comm different]
    · intro other apart
      have adds' : (state.setRing own { state.rings own with
          pos := update (state.rings own).pos slot (config.size - pos)
          tail := (state.rings own).tail + 1
          contents := (state.rings own).contents ++ [endpoint] }).adding adder
            = some (endpoint, .storePos own slot pos) := adds
      rw [entries_setAdder_none_of_ne adds' apart, entries_setRing]
      apply update_eq_self_iff.mpr
      rw [entries, queued, List.count_append, List.count_singleton,
        if_neg (by simpa using apart.symm), Nat.add_zero]

theorem addJob (adds : state.adding adder = some (endpoint, pc))
    (alone : ∀ actor, pc = .allocEntry actor → state.Alone adder actor)
    (added : state.addJob config.size endpoint pc = (middle, rest)) :
    Kept config (middle.setAdder adder endpoint rest) := by
  obtain ⟨threads, epoll, inEpoll, events, released⟩ := addJob_frame added
  have rings := addJob_rings config kept.held kept.polled kept.rings adds alone added
  have held := kept.addJob_held adds added
  cases adder with
  | some thread =>
    have gone : ∃ pc, middle.setAdder (some thread) endpoint rest = middle.setThread thread pc ∧
          ∀ other, pc ≠ .setRxRelease other := by
      cases rest with
      | some later => exact ⟨.addJob endpoint later, rfl, by simp⟩
      | none => exact ⟨.outside, rfl, by simp⟩
    obtain ⟨pc, shape, quiet⟩ := gone
    rw [shape] at held rings ⊢
    refine ⟨held, rings, ?_, ?_, ?_, ?_⟩
    · intro other about
      change middle.inEpoll other = true
      rw [inEpoll]
      exact kept.polled other (epoll ▸ about)
    · intro other mem
      change middle.released other = true
      rw [released]
      exact kept.events other (events ▸ mem)
    · intro another other releases
      change middle.released other = true
      rw [released]
      by_cases own : another = thread
      · subst own
        simp only [State.setThread, update_self] at releases
        exact absurd releases (quiet other)
      · simp only [State.setThread, update_of_ne own, threads] at releases
        exact kept.releasing another other releases
    · intro other drops
      change middle.released other = true
      rw [released]
      exact kept.dropping other (epoll ▸ drops)
  | none =>
    have gone : ∃ pc, middle.setAdder none endpoint rest = middle.setEpoll pc ∧
        pc.endpoint = some endpoint ∧ ∀ other, pc ≠ .dropRxEndpoint other := by
      cases rest with
      | some later => exact ⟨.addJob endpoint later, rfl, rfl, by simp⟩
      | none => exact ⟨.ePollDel endpoint, rfl, rfl, by simp⟩
    obtain ⟨pc, shape, same, quiet⟩ := gone
    rw [shape] at held rings ⊢
    refine ⟨held, rings, ?_, ?_, ?_, ?_⟩
    · intro other about
      change middle.inEpoll other = true
      rw [inEpoll]
      apply kept.polled other
      rw [epoll_of_adding adds]
      exact same.symm.trans about
    · intro other mem
      change middle.released other = true
      rw [released]
      exact kept.events other (events ▸ mem)
    · intro another other releases
      change middle.released other = true
      rw [released]
      exact kept.releasing another other (threads ▸ releases)
    · intro other drops
      exact absurd drops (quiet other)

theorem threadNext (may : Allowed state (.thread thread : Action Actor Thread Endpoint))
    (went : state.threadNext config.size thread = some next) : Kept config next := by
  cases pc : state.threads thread with
  | outside => simp only [State.threadNext, pc, reduceCtorEq] at went
  | addJob endpoint job =>
    have adds : state.adding (some thread) = some (endpoint, job) := by
      rw [State.adding, pc]
      rfl
    have alone : ∀ actor, job = .allocEntry actor → state.Alone (some thread) actor := by
      intro actor alloc
      subst alloc
      simp only [Allowed, pc] at may
      exact may
    simp only [State.threadNext, pc] at went
    split at went
    next middle later added =>
      cases went
      exact kept.addJob adds alone added
    next middle added =>
      cases went
      exact kept.addJob adds alone added
  | setRxRelease endpoint =>
    simp only [State.threadNext, pc] at went
    cases went
    refine kept.goThread ?_ rfl rfl rfl rfl rfl (fun _ => id) ?_ ?_
    · apply kept.held.same
      have released := entries_released (kept.releasing thread endpoint pc)
      have uncorked := kept.not_corked released (by simp)
      refine (entries_setThread_same ?_).trans (entries_setRxRelease uncorked)
      change _ = (state.threads thread).holds
      rw [pc]
      rfl
    all_goals intros; contradiction
  | writePipe endpoint =>
    simp only [State.threadNext, pc] at went
    cases went
    refine kept.goThread ?_ rfl rfl rfl rfl rfl (fun _ => id) ?_ ?_
    · apply kept.held.same
      refine entries_setThread_same ?_
      rw [pc]
      rfl
    all_goals intros; contradiction

theorem goEpoll {pc : EpollPc Actor Endpoint} (held : (middle.setEpoll pc).Held)
    (rings : middle.rings = state.rings) (threads : middle.threads = state.threads)
    (polled : ∀ endpoint, pc.endpoint = some endpoint → middle.inEpoll endpoint = true)
    (events : ∀ endpoint ∈ middle.asyncEvents,
      endpoint ∈ state.asyncEvents ∨ middle.released endpoint = true)
    (released : ∀ endpoint, state.released endpoint = true → middle.released endpoint = true)
    (entered : ∀ endpoint job, pc.adding = some (endpoint, job) → job.entered = none)
    (dropping : ∀ endpoint, pc = .dropRxEndpoint endpoint → middle.released endpoint = true) :
    Kept config (middle.setEpoll pc) where
  held := held
  rings actor := by
    refine (kept.rings actor).same (congrFun rings actor) ?_
    intro adder endpoint job adds jobEntered
    cases adder with
    | none =>
      rw [entered endpoint job adds] at jobEntered
      cases jobEntered
    | some other => exact (congrArg ThreadPc.adding (congrFun threads other)).symm.trans adds
  polled := polled
  events endpoint mem := by
    cases events endpoint mem with
    | inl before => exact released endpoint (kept.events endpoint before)
    | inr now => exact now
  releasing thread endpoint releases :=
    released endpoint (kept.releasing thread endpoint (threads ▸ releases))
  dropping := dropping

end

theorem entries_epoll (inSet : state.inEpoll endpoint = true)
    (current : state.epoll.behind ≠ some endpoint) : state.entries endpoint .epoll = 0 + 1 := by
  rw [entries, if_pos ⟨inSet, current⟩]

section

variable (kept : Kept config state)
include kept

theorem ePollWait {error : Bool} (went : state.ePollWait endpoint error = some next) :
    Kept config next := by
  rw [State.ePollWait, ite_none_right_eq_some] at went
  obtain ⟨⟨waits, inSet⟩, same⟩ := went
  cases same
  refine kept.goEpoll ?_ rfl rfl ?_ (fun _ => .inl) (fun _ => id) ?_ ?_
  · apply kept.held.same
    apply entries_setEpoll_same
    rw [waits]
    rfl
  · intro other about
    cases about
    exact inSet
  all_goals nofun

theorem dispatchRxEndpoint (went : state.dispatchRxEndpoint actor = some next) :
    Kept config next := by
  rw [State.dispatchRxEndpoint] at went
  split at went <;> cases went
  next endpoint pc =>
    refine kept.goEpoll ?_ rfl rfl ?_ (fun _ => .inl) (fun _ => id) ?_ ?_
    · apply kept.held.same
      apply entries_setEpoll_same
      rw [pc]
      rfl
    · intro other about
      apply kept.polled other
      rw [pc]
      exact about
    · intro other job adds
      cases adds
      rfl
    · intros; contradiction

theorem epollDropped {room : Bool} (went : state.epollDropped room = some next) :
    Kept config next := by
  rw [State.epollDropped] at went
  split at went <;> cases went
  next endpoint pc =>
    have inSet : state.inEpoll endpoint = true := kept.polled endpoint (by rw [pc]; rfl)
    have here : state.entries endpoint .epoll = 0 + 1 :=
      entries_epoll inSet (by rw [pc]; simp [EpollPc.behind])
    have different : (.epoll : Place Actor Thread) ≠ .released := by simp
    refine kept.goEpoll ?_ rfl rfl ?_ ?_ (fun _ => releases) ?_ ?_
    · have absent := kept.absent here different.symm
      have same : (state.toDeliverEvent endpoint room).entries
          = (state.release endpoint).entries := rfl
      apply kept.held.move different here
      · rw [entries_setEpoll, same, entries_release, absent,
          if_neg (fun both => both.2 rfl), update_comm different]
      · intro other apart
        have elsewhere : endpoint ≠ other := apart.symm
        rw [entries_setEpoll, same, entries_release_of_ne apart]
        simp [entries, pc, EpollPc.behind, elsewhere, toDeliverEvent, release]
    · intro other about
      cases about
      exact inSet
    · intro other mem
      cases room with
      | false => exact .inl mem
      | true =>
        cases mem with
        | head =>
          right
          exact update_self ..
        | tail _ before => exact .inl before
    all_goals intros; contradiction

theorem epollNext (may : Allowed state (.epoll : Action Actor Thread Endpoint))
    (went : state.epollNext config.size = some next) : Kept config next := by
  cases pc : state.epoll with
  | wait | event _ _ => simp only [State.epollNext, pc, reduceCtorEq] at went
  | addJob endpoint job =>
    have adds : state.adding (none : Adder Thread) = some (endpoint, job) := by
      rw [State.adding, pc]
      rfl
    have alone : ∀ actor, job = .allocEntry actor → state.Alone none actor := by
      intro actor alloc
      subst alloc
      simp only [Allowed, pc] at may
      exact may
    simp only [State.epollNext, pc] at went
    split at went
    next middle later added =>
      cases went
      exact kept.addJob adds alone added
    next middle added =>
      cases went
      exact kept.addJob adds alone added
  | ePollDel endpoint | ePollDelDropped endpoint =>
    simp only [State.epollNext, pc] at went
    cases went
    refine kept.goEpoll ?_ rfl rfl ?_ (fun _ => .inl) (fun _ => id) ?_ ?_
    · apply kept.held.same
      funext other
      rw [entries_setEpoll]
      by_cases own : other = endpoint
      · subst own
        rw [entries_setInEpoll, update_idem]
        simp [entries, pc, EpollPc.behind, setInEpoll]
      · rw [entries_setInEpoll_of_ne own]
        have elsewhere : endpoint ≠ other := fun same => own same.symm
        simp [entries, pc, EpollPc.behind, setInEpoll, update_of_ne own, elsewhere]
    all_goals intros; contradiction
  | dropRxEndpoint endpoint =>
    simp only [State.epollNext, pc] at went
    cases went
    refine kept.goEpoll ?_ rfl rfl ?_ (fun _ => .inl) (fun _ => id) ?_ ?_
    · apply kept.held.same
      have released := entries_released (kept.dropping endpoint pc)
      have uncorked := kept.not_corked released (by simp)
      refine (entries_setEpoll_same ?_).trans (entries_setRxRelease uncorked)
      change _ = state.epoll.behind
      rw [pc]
      rfl
    all_goals intros; contradiction

theorem readPipe (went : state.readPipe = some next) : Kept config next := by
  rw [State.readPipe, ite_none_right_eq_some] at went
  obtain ⟨waits, went⟩ := went
  split at went
  · cases went
  next endpoint rest pipe =>
    split at went <;> cases went
    next inSet =>
      have here : state.entries endpoint .epoll = 0 + 1 :=
        entries_epoll inSet (by rw [waits]; simp [EpollPc.behind])
      have different : (.epoll : Place Actor Thread) ≠ .released := by simp
      have absent := kept.absent here different.symm
      refine kept.goEpoll ?_ rfl rfl ?_ (fun _ => .inl) (fun _ => releases) ?_ ?_
      · have same : ((({ state with deletePipe := rest }.setInEpoll endpoint false).release
            endpoint).setEpoll (.dropRxEndpoint endpoint)).entries
              = (({ state with deletePipe := rest }.setInEpoll endpoint false).release
                  endpoint).entries := by
          apply entries_setEpoll_same
          rw [waits]
          rfl
        have outside : ({ state with deletePipe := rest }.setInEpoll endpoint false).entries
            endpoint = update (state.entries endpoint) .epoll 0 :=
          (entries_setInEpoll false).trans (by simp; rfl)
        apply kept.held.move different here
        · rw [same, entries_release, outside, absent]
        · intro other apart
          rw [same, entries_release_of_ne apart, entries_setInEpoll_of_ne apart]
          rfl
      · intros; contradiction
      · intros; contradiction
      · intro other own
        cases own
        exact update_self ..
    · exact kept.frame kept.held rfl rfl rfl (fun _ => id)
        (fun _ mem => .inl mem) (fun _ => id)

end

theorem initial (config : Config Endpoint) (pos : Actor → Nat → Int)
    (buffer : Actor → Nat → Endpoint) :
    Kept config (RxSchedule.initial config.size pos buffer : State Actor Thread Endpoint) where
  held := by
    intro endpoint
    refine ⟨.registrar, ?_⟩
    intro place
    cases place with
    | queue actor queue => cases queue <;> rfl
    | _ => rfl
  rings actor := by
    refine ⟨.idle, Ring.valid_create config.sizeValid _ _, ?_⟩
    intro adder endpoint pc adds
    cases adder <;> cases adds
  polled endpoint about := by cases about
  events endpoint mem := by cases mem
  releasing thread endpoint releases := by cases releases
  dropping endpoint drops := by cases drops

theorem step (kept : Kept config state) {action : Action Actor Thread Endpoint}
    (may : Allowed state action)
    (went : RxSchedule.step config state action = some next) : Kept config next := by
  cases action with
  | regRxEndpoint endpoint hasHandler memory => exact kept.regRxEndpoint went
  | pop actor queue => exact kept.pop went
  | received actor => exact kept.received went
  | setRxCork actor endpoint => exact kept.setRxCork went
  | delivered actor => exact kept.delivered went
  | again actor => exact kept.again went
  | failed actor room => exact kept.failed went
  | push actor queue => exact kept.push went
  | onRxEndpointBlock actor => exact kept.onRxEndpointBlock went
  | ePollAddR actor memory => exact kept.ePollAddR went
  | dropRxEndpoint actor => exact kept.actorDrops went
  | actor actor => exact kept.actorNext may went
  | setRxUncork thread endpoint actor => exact kept.setRxUncork went
  | checkAndSetRxCorkLck thread endpoint => exact kept.checkAndSetRxCorkLck went
  | unregRxEndpoint thread endpoint => exact kept.unregRxEndpoint went
  | thread thread => exact kept.threadNext may went
  | ePollWait endpoint error => exact kept.ePollWait went
  | dispatchRxEndpoint actor => exact kept.dispatchRxEndpoint went
  | toDeliverEvent room => exact kept.epollDropped went
  | epoll => exact kept.epollNext may went
  | readPipe => exact kept.readPipe went
  | setToDelete endpoint =>
    cases went
    exact kept.setToDelete
  | doDeliverEvent endpoint => exact kept.doDeliverEvent went

end Kept

theorem held_of_execute {pos : Actor → Nat → Int} {buffer : Actor → Nat → Endpoint}
    {actions : List (Action Actor Thread Endpoint)}
    (allowed : Guarded (step config) Allowed (initial config.size pos buffer) actions)
    (ran : execute (step config) (initial config.size pos buffer) actions = some state)
    (endpoint : Endpoint) : ∃ place, OnlyAt (state.entries endpoint) place :=
  (invariant_of_guarded (fun (kept : Kept config _) allowed stepped => kept.step allowed stepped)
    (.initial config pos buffer) allowed ran).held endpoint

/-- The assertion of `AddJob` holds: the queue of the actor is not full, and the endpoint is not
in it. -/
theorem addJob_pushes {pos : Actor → Nat → Int} {buffer : Actor → Nat → Endpoint}
    {actions : List (Action Actor Thread Endpoint)} {adder : Adder Thread}
    (allowed : Guarded (step config) Allowed (initial config.size pos buffer) actions)
    (ran : execute (step config) (initial config.size pos buffer) actions = some state)
    (adds : state.adding adder = some (endpoint, .allocEntry actor)) :
    endpoint ∉ state.queued actor .activeEndpoints ∧
      state.addJob config.size endpoint (.allocEntry actor) =
        (state, some (.write actor (Ring.slot config.size (state.rings actor).tail))) := by
  have kept := invariant_of_guarded (fun (kept : Kept config _) allowed stepped =>
    kept.step allowed stepped) (.initial config pos buffer) allowed ran
  have elsewhere : (.queue actor .activeEndpoints : Place Actor Thread) ≠ adder.place := by
    cases adder <;> simp [Adder.place]
  have free := allocEntry_free config kept.held kept.polled (kept.rings actor) adds
  have absent := kept.absent (entries_of_adding kept.polled adds) elsewhere
  refine ⟨List.count_eq_zero.mp absent, ?_⟩
  rw [State.addJob, if_neg (Int.not_lt.mpr (Int.le_of_lt free))]

instance Alone.decidable [Fintype Thread] (state : State Actor Thread Endpoint)
    (adder : Adder Thread) (actor : Actor) : Decidable (state.Alone adder actor) := by
  unfold Alone
  infer_instance

instance Allowed.decidable [Fintype Thread] (state : State Actor Thread Endpoint) :
    ∀ action : Action Actor Thread Endpoint, Decidable (Allowed state action)
  | .thread thread =>
    let takes : Decidable (match state.threads thread with
        | .addJob _ (.allocEntry actor) => state.Alone (some thread) actor
        | _ => True) :=
      match state.threads thread with
      | .addJob _ (.allocEntry _) => inferInstance
      | .addJob _ (.setRxActive _) | .addJob _ (.write _ _) | .addJob _ (.loadPos _ _)
      | .addJob _ (.storePos _ _ _) | .outside | .setRxRelease _ | .writePipe _ => isTrue trivial
    takes
  | .epoll =>
    let takes : Decidable (match state.epoll with
        | .addJob _ (.allocEntry actor) => state.Alone none actor
        | _ => True) :=
      match state.epoll with
      | .addJob _ (.allocEntry _) => inferInstance
      | .addJob _ (.setRxActive _) | .addJob _ (.write _ _) | .addJob _ (.loadPos _ _)
      | .addJob _ (.storePos _ _ _) | .wait | .event _ _ | .ePollDel _ | .ePollDelDropped _
      | .dropRxEndpoint _ => isTrue trivial
    takes
  | .actor actor =>
    let corks : Decidable (match state.actors actor with
        | .storePre _ _ corked => state.rxCork corked ≠ .kRxCorkSet
        | _ => True) :=
      match state.actors actor with
      | .storePre _ _ _ => inferInstance
      | .away | .popping | .popped _ _ | .delivering _ _ | .storeSet _ | .returned _ _ _
      | .ePollAddR _ | .setRxPolling _ => isTrue trivial
    corks
  | .regRxEndpoint _ _ _ | .pop _ _ | .received _ | .setRxCork _ _ | .delivered _ | .again _
  | .failed _ _ | .push _ _ | .onRxEndpointBlock _ | .ePollAddR _ _ | .dropRxEndpoint _
  | .setRxUncork _ _ _ | .checkAndSetRxCorkLck _ _ | .unregRxEndpoint _ _ | .ePollWait _ _
  | .dispatchRxEndpoint _ | .toDeliverEvent _ | .readPipe | .setToDelete _ | .doDeliverEvent _ =>
    isTrue trivial

def twoEndpoints : Config (Fin 2) where
  size := 2
  sizeValid := ⟨1, by decide, rfl⟩
  capacity := by decide
  lowLatency := false

abbrev start : State Unit (Fin 2) (Fin 2) := initial 2 (fun _ _ => 0) (fun _ _ => 0)

def dispatched (endpoint : Fin 2) : List (Action Unit (Fin 2) (Fin 2)) :=
  [.regRxEndpoint endpoint true true, .regRxEndpoint endpoint true true, .ePollWait endpoint false,
    .dispatchRxEndpoint (), .epoll, .epoll, .epoll, .epoll, .epoll]

def corked (endpoint : Fin 2) : List (Action Unit (Fin 2) (Fin 2)) :=
  dispatched endpoint
    ++ [.epoll, .pop () .activeEndpoints, .actor (), .actor (), .actor (), .actor (),
      .received (), .setRxCork () endpoint, .actor (), .delivered (), .actor ()]

/-- One endpoint is uncorked while the other is dispatched, to the same actor. -/
def uncorkedBetween : List (Action Unit (Fin 2) (Fin 2)) :=
  corked 0
    ++ [.regRxEndpoint 1 true true, .ePollWait 1 false, .dispatchRxEndpoint (), .epoll,
      .setRxUncork 0 0 (), .thread 0, .thread 0, .thread 0, .thread 0, .thread 0, .epoll, .epoll,
      .epoll, .epoll]

theorem held_uncorked_between :
    ∃ state, execute (step twoEndpoints) start uncorkedBetween = some state ∧
      state.queued () .activeEndpoints = [0, 1] ∧ ∃ place, OnlyAt (state.entries 0) place := by
  obtain ⟨state, ran, queued⟩ :
      ∃ state, execute (step twoEndpoints) start uncorkedBetween = some state ∧
        state.queued () .activeEndpoints = [0, 1] :=
    execute_check (by decide +kernel)
  exact ⟨state, ran, queued, held_of_execute (by decide +kernel) ran 0⟩

theorem addJob_pushes_behind :
    ∃ state, execute (step twoEndpoints) start (uncorkedBetween.take 30) = some state ∧
      state.queued () .activeEndpoints = [0] ∧
      state.addJob 2 1 (.allocEntry ()) = (state, some (.write () 0)) := by
  obtain ⟨state, ran, queued, adds, tail⟩ :
      ∃ state, execute (step twoEndpoints) start (uncorkedBetween.take 30) = some state ∧
        state.queued () .activeEndpoints = [0] ∧
        state.adding none = some (1, .allocEntry ()) ∧ Ring.slot 2 (state.rings ()).tail = 0 :=
    execute_check (by decide +kernel)
  have pushes := (addJob_pushes (by decide +kernel) ran adds).2
  rw [show twoEndpoints.size = 2 from rfl, tail] at pushes
  exact ⟨state, ran, queued, pushes⟩

/-- Two threads uncork an endpoint each, and their pushes to the one queue mix: both take the
entry at the tail, and the second flips back the sign that the first has flipped. -/
def uncorkedAtOnce : List (Action Unit (Fin 2) (Fin 2)) :=
  corked 0 ++ corked 1
    ++ [.setRxUncork 0 0 (), .setRxUncork 1 1 (), .thread 0, .thread 1, .thread 0, .thread 1,
      .thread 0, .thread 1, .thread 0, .thread 0, .thread 1, .thread 1]

/-- The first endpoint, corked already, is corked again while the other is delivered, and
`SetRxUncork` finds `kRxCorkPre`. -/
def corkedTwice : List (Action Unit (Fin 2) (Fin 2)) :=
  corked 0 ++ dispatched 1
    ++ [.epoll, .pop () .activeEndpoints, .actor (), .actor (), .actor (), .actor (),
      .received (), .setRxCork () 0, .actor (), .delivered (), .push () .activeEps,
      .setRxUncork 0 0 ()]

/-- After `AddJob` the endpoint is in the queue of the actor and still in the epoll set; two
endpoints that are uncorked at once are nowhere, and neither is one that is corked twice. -/
theorem dispatched_in_two_places :
    (∃ state, execute (step twoEndpoints) start (dispatched 0) = some state ∧
      state.inEpoll 0 = true ∧ 0 ∈ state.queued () .activeEndpoints) ∧
    (∃ state, execute (step twoEndpoints) start uncorkedAtOnce = some state ∧
      (Ring.popAlone 2 (state.rings ())).map Prod.snd = some none ∧
      (∀ queue ∈ [ActorQueue.activeEps, .activeEps0, .activeEps1], state.locals () queue = []) ∧
      state.actors () = .away ∧ state.epoll = .wait ∧ (∀ thread, state.threads thread = .outside) ∧
      ∀ endpoint, state.inEpoll endpoint = false ∧ state.rxCork endpoint = .kRxCorkNot ∧
        state.released endpoint = false) ∧
    ∃ state, execute (step twoEndpoints) start corkedTwice = some state ∧
      (∀ queue ∈ [ActorQueue.activeEndpoints, .activeEps, .activeEps0, .activeEps1],
        0 ∉ state.queued () queue) ∧
      state.actors () = .away ∧ state.epoll = .wait ∧ (∀ thread, state.threads thread = .outside) ∧
      state.inEpoll 0 = false ∧ state.rxCork 0 = .kRxCorkPre ∧ state.released 0 = false :=
  ⟨execute_check (by decide +kernel), execute_check (by decide +kernel),
    execute_check (by decide +kernel)⟩

end AdkAaf.Adk.IoEngine.RxSchedule
