import AdkAaf.Adk.IoEngine.RxHeld

/-! The receive direction of an endpoint that is released stays so, in runs in which nobody stores
that it is released while somebody else is about to store that it is polled. Before that
somebody has the endpoint, or it is in the epoll set with a status that `UnregRxEndpoint` takes
for polled, or an event or a thread is on the way to release it. -/

set_option autoImplicit false
set_option linter.unusedSectionVars false

namespace AdkAaf.Adk.IoEngine.RxSchedule

open Lib QueueVariant Function Option EpollPc
open TxSchedule (ActorQueue)

variable {Actor Thread Endpoint : Type}

def ActorPc.polling : ActorPc Endpoint → Option Endpoint
  | .setRxPolling endpoint => some endpoint
  | _ => none

def ThreadPc.releasing : ThreadPc Actor Endpoint → Option Endpoint
  | .setRxRelease endpoint => some endpoint
  | .outside | .addJob _ _ | .writePipe _ => none

def EpollPc.dropping : EpollPc Actor Endpoint → Option Endpoint
  | .dropRxEndpoint endpoint => some endpoint
  | _ => none

namespace State

def PolledBy (state : State Actor Thread Endpoint) (endpoint : Endpoint) : Prop :=
  ∃ actor, (state.actors actor).polling = some endpoint

def Polls (state : State Actor Thread Endpoint) (endpoint : Endpoint) : Prop :=
  state.PolledBy endpoint ∨ state.reg endpoint = .setRxPolling

/-- The control actor, a thread or the rx epoll thread is about to release the endpoint. -/
def Releases (state : State Actor Thread Endpoint) (endpoint : Endpoint) : Prop :=
  endpoint ∈ state.asyncEvents ∨ (∃ thread, (state.threads thread).releasing = some endpoint) ∨
    state.epoll.dropping = some endpoint

def stores (state : State Actor Thread Endpoint) : Action Actor Thread Endpoint → Option Endpoint
  | .dropRxEndpoint actor => (state.actors actor).holds
  | .doDeliverEvent endpoint => some endpoint
  | .thread thread => (state.threads thread).releasing
  | .epoll => state.epoll.dropping
  | _ => none

end State

def Action.delivers : Action Actor Thread Endpoint → Prop
  | .failed _ room => room = true
  | .toDeliverEvent room => room = true
  | _ => True

variable [DecidableEq Actor] [DecidableEq Thread] [DecidableEq Endpoint] [Fintype Endpoint]

/-- Nobody stores that an endpoint is released while somebody is about to store that it is
polled, and no event is dropped. -/
structure ReleaseAllowed (state : State Actor Thread Endpoint)
    (action : Action Actor Thread Endpoint) : Prop where
  allowed : Allowed state action
  unpolled : ∀ endpoint, state.stores action = some endpoint → ¬ state.Polls endpoint
  delivers : action.delivers

structure Final (state : State Actor Thread Endpoint) (endpoint : Endpoint) : Prop where
  released : state.rxStatus endpoint = .kRelease → state.released endpoint = true
  pending : state.released endpoint = true →
    state.rxStatus endpoint = .kRelease ∨ state.Releases endpoint
  unpolled : state.rxStatus endpoint = .kRelease → ¬ state.Polls endpoint
  polled : state.inEpoll endpoint = true → state.epoll.endpoint = some endpoint ∨
    state.rxStatus endpoint = .kPolling ∨ state.Polls endpoint
  registered : state.reg endpoint = .ePollAddR → ¬ state.PolledBy endpoint

structure Settled (config : Config Endpoint) (state : State Actor Thread Endpoint) : Prop extends
    Kept config state where
  final : ∀ endpoint, Final state endpoint

/-- What the invariant says about an endpoint is the same in both states. -/
structure Alike (state next : State Actor Thread Endpoint) (endpoint : Endpoint) : Prop where
  status : next.rxStatus endpoint = state.rxStatus endpoint
  released : next.released endpoint = state.released endpoint
  reg : next.reg endpoint = state.reg endpoint
  inEpoll : next.inEpoll endpoint = state.inEpoll endpoint
  polledBy : next.PolledBy endpoint ↔ state.PolledBy endpoint
  releases : next.Releases endpoint ↔ state.Releases endpoint
  handled : next.epoll.endpoint = some endpoint ↔ state.epoll.endpoint = some endpoint

variable {config : Config Endpoint} {state next : State Actor Thread Endpoint}
  {endpoint other : Endpoint} {actor : Actor} {thread : Thread}

theorem Final.alike (final : Final state endpoint) (alike : Alike state next endpoint) :
    Final next endpoint where
  released := by
    rw [alike.status, alike.released]
    exact final.released
  pending := by
    rw [alike.status, alike.released, alike.releases]
    exact final.pending
  unpolled := by
    rw [alike.status, State.Polls, alike.polledBy, alike.reg]
    exact final.unpolled
  polled := by
    rw [alike.status, alike.inEpoll, alike.handled, State.Polls, alike.polledBy, alike.reg]
    exact final.polled
  registered := by
    rw [alike.reg, alike.polledBy]
    exact final.registered

/-- The step keeps the invariant, and released endpoints released. -/
structure StaysSettled (config : Config Endpoint) (state next : State Actor Thread Endpoint) :
    Prop where
  settled : Settled config next
  final : ∀ endpoint, state.rxStatus endpoint = .kRelease → next.rxStatus endpoint = .kRelease

theorem polledBy_setActor {pc : ActorPc Endpoint} :
    (state.setActor actor pc).PolledBy endpoint ↔ pc.polling = some endpoint ∨
      ∃ other, other ≠ actor ∧ (state.actors other).polling = some endpoint :=
  exists_update_iff state.actors fun _ pc => pc.polling = some endpoint

theorem polledBy_setActor_same {pc : ActorPc Endpoint}
    (before : (state.actors actor).polling ≠ some endpoint) (after : pc.polling ≠ some endpoint) :
    (state.setActor actor pc).PolledBy endpoint ↔ state.PolledBy endpoint := by
  rw [polledBy_setActor]
  constructor
  · rintro (polls | ⟨other, _, polls⟩)
    · exact absurd polls after
    · exact ⟨other, polls⟩
  · rintro ⟨other, polls⟩
    refine .inr ⟨other, ?_, polls⟩
    rintro rfl
    exact before polls

theorem releases_setThread_same {pc : ThreadPc Actor Endpoint}
    (before : (state.threads thread).releasing ≠ some endpoint)
    (after : pc.releasing ≠ some endpoint) :
    (state.setThread thread pc).Releases endpoint ↔ state.Releases endpoint := by
  apply or_congr .rfl
  apply or_congr ?_ .rfl
  apply (exists_update_iff state.threads fun _ pc => pc.releasing = some endpoint).trans
  constructor
  · rintro (releases | ⟨other, _, releases⟩)
    · exact absurd releases after
    · exact ⟨other, releases⟩
  · rintro ⟨other, releases⟩
    refine .inr ⟨other, ?_, releases⟩
    rintro rfl
    exact before releases

theorem releases_setEpoll_same {pc : EpollPc Actor Endpoint}
    (before : state.epoll.dropping ≠ some endpoint) (after : pc.dropping ≠ some endpoint) :
    (state.setEpoll pc).Releases endpoint ↔ state.Releases endpoint := by
  apply or_congr .rfl
  apply or_congr .rfl
  exact ⟨fun drops => absurd drops after, fun drops => absurd drops before⟩

namespace Alike

variable {middle : State Actor Thread Endpoint}

theorem refl (state : State Actor Thread Endpoint) (endpoint : Endpoint) :
    Alike state state endpoint :=
  ⟨rfl, rfl, rfl, rfl, .rfl, .rfl, .rfl⟩

theorem setActor (alike : Alike state middle endpoint) {pc : ActorPc Endpoint}
    (before : (middle.actors actor).polling ≠ some endpoint) (after : pc.polling ≠ some endpoint) :
    Alike state (middle.setActor actor pc) endpoint :=
  { alike with polledBy := (polledBy_setActor_same before after).trans alike.polledBy }

theorem setThread (alike : Alike state middle endpoint) {pc : ThreadPc Actor Endpoint}
    (before : (middle.threads thread).releasing ≠ some endpoint)
    (after : pc.releasing ≠ some endpoint) : Alike state (middle.setThread thread pc) endpoint :=
  { alike with releases := (releases_setThread_same before after).trans alike.releases }

theorem setEpoll (alike : Alike state middle endpoint) {pc : EpollPc Actor Endpoint}
    (before : middle.epoll.dropping ≠ some endpoint) (after : pc.dropping ≠ some endpoint)
    (handled : pc.endpoint = some endpoint ↔ middle.epoll.endpoint = some endpoint) :
    Alike state (middle.setEpoll pc) endpoint :=
  { alike with
    releases := (releases_setEpoll_same before after).trans alike.releases
    handled := handled.trans alike.handled }

section

variable (alike : Alike state middle other)
include alike

theorem setStatus {status : RxStatus} (apart : other ≠ endpoint) :
    Alike state (middle.setStatus endpoint status) other :=
  { alike with status := (update_of_ne apart ..).trans alike.status }

theorem release (apart : other ≠ endpoint) : Alike state (middle.release endpoint) other :=
  { alike with released := (update_of_ne apart ..).trans alike.released }

theorem setReg {pc : RegPc} (apart : other ≠ endpoint) :
    Alike state (middle.setReg endpoint pc) other :=
  { alike with reg := (update_of_ne apart ..).trans alike.reg }

theorem setInEpoll {inEpoll : Bool} (apart : other ≠ endpoint) :
    Alike state (middle.setInEpoll endpoint inEpoll) other :=
  { alike with inEpoll := (update_of_ne apart ..).trans alike.inEpoll }

theorem setCork {cork : EpRxCorkStat} : Alike state (middle.setCork endpoint cork) other :=
  { alike with }

theorem setRxRelease (apart : other ≠ endpoint) :
    Alike state (middle.setRxRelease endpoint) other :=
  alike.setCork.setStatus apart

end

theorem setRing (alike : Alike state middle endpoint) {ring : QueueVariant.Ring Endpoint} :
    Alike state (middle.setRing actor ring) endpoint :=
  { alike with }

theorem setLocal (alike : Alike state middle endpoint) {q : ActorQueue}
    {endpoints : List Endpoint} : Alike state (middle.setLocal actor q endpoints) endpoint :=
  { alike with }

theorem events (alike : Alike state middle other) {events : List Endpoint}
    (same : other ∈ events ↔ other ∈ middle.asyncEvents) :
    Alike state { middle with asyncEvents := events } other :=
  { alike with releases := (or_congr same .rfl).trans alike.releases }

end Alike

theorem EpollPc.endpoint_of_behind {pc : EpollPc Actor Endpoint}
    (behind : pc.behind = some endpoint) : pc.endpoint = some endpoint := by
  cases pc with
  | ePollDel other | ePollDelDropped other => exact behind
  | _ => cases behind

theorem Kept.handled (kept : Kept config state) {place : Place Actor Thread}
    (here : state.entries endpoint place = 1) (elsewhere : place ≠ .epoll)
    (inSet : state.inEpoll endpoint = true) : state.epoll.endpoint = some endpoint := by
  have absent := kept.absent here elsewhere.symm
  by_cases behind : state.epoll.behind = some endpoint
  · exact endpoint_of_behind behind
  · rw [State.entries, if_pos ⟨inSet, behind⟩] at absent
    cases absent

theorem Kept.final_released (kept : Kept config state) (released : state.released endpoint = true)
    (pending : state.rxStatus endpoint = .kRelease ∨ state.Releases endpoint)
    (unpolled : state.rxStatus endpoint = .kRelease → ¬ state.Polls endpoint) :
    Final state endpoint where
  released _ := released
  pending _ := pending
  unpolled := unpolled
  polled inSet := .inl (kept.handled (Kept.entries_released released) (by simp) inSet)
  registered registering := by
    have absent : state.entries endpoint .registrar = 0 :=
      kept.absent (Kept.entries_released released) (by simp)
    rw [State.entries, if_pos registering] at absent
    cases absent

theorem Final.unstored (unreleased : state.rxStatus endpoint ≠ .kRelease)
    (pending : state.released endpoint = true → state.Releases endpoint)
    (polled : state.inEpoll endpoint = true → state.epoll.endpoint = some endpoint ∨
      state.rxStatus endpoint = .kPolling ∨ state.Polls endpoint)
    (registered : state.reg endpoint = .ePollAddR → ¬ state.PolledBy endpoint) :
    Final state endpoint :=
  ⟨fun released => absurd released unreleased, fun released => .inr (pending released),
    fun released => absurd released unreleased, polled, registered⟩

namespace Settled

section

variable (settled : Settled config state)
include settled

theorem unreleased {place : Place Actor Thread} (here : state.entries endpoint place = 1)
    (elsewhere : place ≠ .released) :
    state.released endpoint = false ∧ state.rxStatus endpoint ≠ .kRelease := by
  have absent := settled.toKept.absent here elsewhere.symm
  cases released : state.released endpoint with
  | false =>
    refine ⟨rfl, fun stored => ?_⟩
    rw [(settled.final endpoint).released stored] at released
    cases released
  | true =>
    rw [Kept.entries_released released] at absent
    cases absent

theorem unregistered {place : Place Actor Thread} (here : state.entries endpoint place = 1)
    (elsewhere : place ≠ .registrar) : state.reg endpoint ≠ .ePollAddR := by
  intro registering
  have absent := settled.toKept.absent here elsewhere.symm
  rw [State.entries, if_pos registering] at absent
  cases absent

theorem quiet (kept : Kept config next) (alike : ∀ endpoint, Alike state next endpoint) :
    StaysSettled config state next where
  settled := ⟨kept, fun endpoint => (settled.final endpoint).alike (alike endpoint)⟩
  final endpoint released := (alike endpoint).status.trans released

theorem changed (endpoint : Endpoint) (kept : Kept config next) (own : Final next endpoint)
    (final : state.rxStatus endpoint = .kRelease → next.rxStatus endpoint = .kRelease)
    (others : ∀ other, other ≠ endpoint → Alike state next other) :
    StaysSettled config state next where
  settled := by
    refine ⟨kept, fun other => ?_⟩
    by_cases same : other = endpoint
    · exact same ▸ own
    · exact (settled.final other).alike (others other same)
  final other released := by
    by_cases same : other = endpoint
    · exact same ▸ final (same ▸ released)
    · exact (others other same).status.trans released

theorem regRxEndpoint {hasHandler memory : Bool} (kept : Kept config next)
    (went : state.regRxEndpoint endpoint hasHandler memory = some next) :
    StaysSettled config state next := by
  rw [State.regRxEndpoint] at went
  cases pc : state.reg endpoint with
  | ePollAddR =>
    have here : state.entries endpoint .registrar = 1 := by simp [State.entries, pc]
    obtain ⟨held, unreleased⟩ := settled.unreleased here (by simp)
    have unpolled := (settled.final endpoint).registered pc
    simp only [pc] at went
    split at went <;> cases went
    · refine settled.changed endpoint kept ?_ id fun other different =>
        ((Alike.refl state other).setInEpoll different).setReg different
      have polls : ((state.setInEpoll endpoint true).setReg endpoint .setRxPolling).Polls
          endpoint := .inr (update_self ..)
      exact .unstored unreleased (fun released => by cases held.symm.trans released)
        (fun _ => .inr (.inr polls)) fun _ => unpolled
    · refine settled.changed endpoint kept ?_ (fun _ => update_self ..) fun _ apart =>
        (((Alike.refl state _).release apart).setRxRelease apart).setReg apart
      refine kept.final_released (update_self ..) (.inl (update_self ..)) ?_
      rintro - (polled | registering)
      · exact unpolled polled
      · have now : ((state.dropRxEndpoint endpoint).setReg endpoint .done).reg endpoint = .done :=
          update_self ..
        rw [now] at registering
        cases registering
  | setRxPolling =>
    simp only [pc] at went
    cases went
    have final := settled.final endpoint
    have unreleased : state.rxStatus endpoint ≠ .kRelease :=
      fun released => final.unpolled released (.inr pc)
    have polling : ((state.setStatus endpoint .kPolling).setReg endpoint
        .done).rxStatus endpoint = .kPolling := update_self ..
    refine settled.changed endpoint kept ?_ (fun released => absurd released unreleased)
      fun other different => ((Alike.refl state other).setStatus different).setReg different
    refine .unstored (by simp [polling])
      (fun released => (final.pending released).resolve_left unreleased)
      (fun _ => .inr (.inl polling)) ?_
    · have now : ((state.setStatus endpoint .kPolling).setReg endpoint .done).reg endpoint =
          .done := update_self ..
      rw [now]
      intros; contradiction
  | done => simp only [pc, reduceCtorEq] at went

end

variable {middle : State Actor Thread Endpoint}

section

variable (settled : Settled config state)
include settled

theorem actorGoes {pc : ActorPc Endpoint} (kept : Kept config (middle.setActor actor pc))
    (before : (middle.actors actor).polling = none) (after : pc.polling = none)
    (alike : ∀ endpoint, Alike state middle endpoint) :
    StaysSettled config state (middle.setActor actor pc) :=
  settled.quiet kept fun endpoint =>
    (alike endpoint).setActor (by rw [before]; simp) (by rw [after]; simp)

theorem pop {q : ActorQueue} (kept : Kept config next)
    (went : state.pop actor q = some next) : StaysSettled config state next := by
  by_cases away : state.actors actor = .away
  · have before : (state.actors actor).polling = none := by rw [away]; rfl
    cases q with simp only [State.pop, away, if_true] at went
    | activeEndpoints =>
      cases went
      exact settled.actorGoes kept before rfl fun endpoint => (Alike.refl state endpoint).setRing
    | activeEps | activeEps0 | activeEps1 =>
      split at went <;> cases went
      exact settled.actorGoes kept before rfl fun endpoint =>
        (Alike.refl state endpoint).setLocal
  · cases q with
    | activeEndpoints | activeEps | activeEps0 | activeEps1 =>
      simp only [State.pop, away, if_false, reduceCtorEq] at went

theorem actorMoves {action : Action Actor Thread Endpoint} (kept : Kept config next)
    (moves : match action with
      | .received _ | .setRxCork .. | .delivered _ | .again _ | .push .. | .onRxEndpointBlock _ =>
        True
      | _ => False) (went : RxSchedule.step config state action = some next) :
    StaysSettled config state next := by
  cases action with
  | received actor | setRxCork actor corked | delivered actor | again actor | push actor q
  | onRxEndpointBlock actor =>
    simp only [RxSchedule.step, State.received, State.setRxCork, State.delivered, State.again,
      State.push, State.onRxEndpointBlock] at went
    repeat' split at went
    all_goals cases went
    all_goals first
      | exact settled.quiet kept (Alike.refl state)
      | refine settled.actorGoes kept ?_ rfl fun endpoint => ?_
        · simp [*, State.setLocal, ActorPc.polling]
        · first | exact Alike.refl state endpoint | exact (Alike.refl state endpoint).setLocal
  | _ => exact moves.elim

theorem ePollAddR {memory : Bool} (kept : Kept config next)
    (went : state.ePollAddR actor memory = some next) : StaysSettled config state next := by
  rw [State.ePollAddR] at went
  split at went
  next endpoint own =>
    have before : (state.actors actor).polling = none := by rw [own]; rfl
    split at went <;> cases went
    · exact settled.actorGoes kept before rfl fun endpoint => (Alike.refl state endpoint).setLocal
    · have here : state.entries endpoint (.actor actor) = 1 := Kept.entries_actor (by rw [own]; rfl)
      obtain ⟨held, unreleased⟩ := settled.unreleased here (by simp)
      refine settled.changed endpoint kept ?_ id fun other apart =>
        ((Alike.refl state other).setInEpoll apart).setActor ?_ ?_
      · have polls : ((state.setInEpoll endpoint true).setActor actor
            (.setRxPolling endpoint)).Polls endpoint := .inl (polledBy_setActor.mpr (.inl rfl))
        exact .unstored unreleased (fun released => by cases held.symm.trans released)
          (fun _ => .inr (.inr polls))
          fun registering => absurd registering (settled.unregistered here (by simp))
      · change (state.actors actor).polling ≠ some other
        rw [before]
        simp
      · exact fun same => apart (some.inj same).symm
  next => cases went

theorem actorReleases (holds : (state.actors actor).holds = some endpoint)
    (kept : Kept config (middle.setActor actor .away))
    (polling : (middle.actors actor).polling = none) (released : middle.released endpoint = true)
    (pending : middle.rxStatus endpoint = .kRelease ∨ middle.Releases endpoint)
    (unpolled : middle.rxStatus endpoint = .kRelease → ¬ middle.Polls endpoint)
    (others : ∀ other, other ≠ endpoint → Alike state middle other) :
    StaysSettled config state (middle.setActor actor .away) := by
  have here : state.entries endpoint (.actor actor) = 1 := Kept.entries_actor holds
  obtain ⟨_, unreleased⟩ := settled.unreleased here (by simp)
  have away {other : Endpoint} : (ActorPc.away : ActorPc Endpoint).polling ≠ some other := by
    simp [ActorPc.polling]
  have idle {other : Endpoint} : (middle.actors actor).polling ≠ some other := by
    rw [polling]
    simp
  refine settled.changed endpoint kept ?_ (fun released => absurd released unreleased)
    fun other apart => (others other apart).setActor idle away
  refine kept.final_released released pending fun stored polls => unpolled stored ?_
  exact polls.imp_left (polledBy_setActor_same idle away).mp

theorem failed {room : Bool} (kept : Kept config next) (delivers : room = true)
    (went : state.failed actor room = some next) : StaysSettled config state next := by
  subst delivers
  rw [State.failed] at went
  split at went <;> cases went
  next queue endpoint own =>
    have holds : (state.actors actor).holds = some endpoint := by rw [own]; rfl
    have here : state.entries endpoint (.actor actor) = 1 := Kept.entries_actor holds
    obtain ⟨_, unreleased⟩ := settled.unreleased here (by simp)
    have idle : (state.actors actor).polling = none := by rw [own]; rfl
    refine settled.actorReleases holds kept idle (update_self ..)
      (.inr (.inl List.mem_cons_self)) (fun released => absurd released unreleased)
      fun other apart => ((Alike.refl state other).release apart).events ?_
    change other ∈ endpoint :: state.asyncEvents ↔ other ∈ state.asyncEvents
    simp [apart]

theorem actorDrops (kept : Kept config next)
    (unpolled : ∀ endpoint, (state.actors actor).holds = some endpoint → ¬ state.Polls endpoint)
    (went : state.actorDrops config.lowLatency actor = some next) :
    StaysSettled config state next := by
  have drops {endpoint : Endpoint} (holds : (state.actors actor).holds = some endpoint)
      (idle : (state.actors actor).polling = none)
      (kept : Kept config ((state.dropRxEndpoint endpoint).setActor actor .away)) :
      StaysSettled config state ((state.dropRxEndpoint endpoint).setActor actor .away) :=
    settled.actorReleases holds kept idle (update_self ..)
      (.inl (update_self ..)) (fun _ => unpolled endpoint holds)
      fun other apart => ((Alike.refl state other).release apart).setRxRelease apart
  rw [State.actorDrops] at went
  split at went
  next endpoint own =>
    split at went <;> cases went
    exact drops (by rw [own]; rfl) (by rw [own]; rfl) kept
  next endpoint own =>
    split at went <;> cases went
    exact drops (by rw [own]; rfl) (by rw [own]; rfl) kept
  next endpoint own =>
    split at went <;> cases went
    exact drops (by rw [own]; rfl) (by rw [own]; rfl) kept
  next => cases went

theorem actorNext (kept : Kept config next)
    (went : state.actorNext config.size actor = some next) : StaysSettled config state next := by
  rw [State.actorNext] at went
  cases pc : state.actors actor with
  | popping =>
    have before : (state.actors actor).polling = none := by rw [pc]; rfl
    simp only [pc] at went
    split at went <;> cases went
    · exact settled.quiet kept fun endpoint => (Alike.refl state endpoint).setRing
    all_goals exact settled.actorGoes kept before rfl fun endpoint =>
      (Alike.refl state endpoint).setRing
  | storePre queue endpoint corked | storeSet endpoint =>
    simp only [pc] at went
    cases went
    have before : (state.actors actor).polling = none := by rw [pc]; rfl
    exact settled.actorGoes kept before rfl fun endpoint => (Alike.refl state endpoint).setCork
  | setRxPolling endpoint =>
    simp only [pc] at went
    cases went
    have final := settled.final endpoint
    have polls : state.PolledBy endpoint := ⟨actor, by rw [pc]; rfl⟩
    have unreleased : state.rxStatus endpoint ≠ .kRelease :=
      fun released => final.unpolled released (.inl polls)
    have polling : ((state.setStatus endpoint .kPolling).setActor actor .away).rxStatus endpoint =
        .kPolling := update_self ..
    refine settled.changed endpoint kept ?_ (fun released => absurd released unreleased)
      fun other apart => ((Alike.refl state other).setStatus apart).setActor ?_ ?_
    · exact .unstored (by simp [polling])
        (fun released => (final.pending released).resolve_left unreleased)
        (fun _ => .inr (.inl polling))
        fun registering => absurd polls (final.registered registering)
    · change (state.actors actor).polling ≠ some other
      rw [pc]
      exact fun same => apart (some.inj same).symm
    · simp [ActorPc.polling]
  | _ => simp only [pc, reduceCtorEq] at went

end

variable {adder : Adder Thread}

theorem setAdder_alike {pc : AddJobPc Actor} (alike : Alike state middle other)
    (adds : middle.adding adder = some (endpoint, pc)) (rest : Option (AddJobPc Actor)) :
    Alike state (middle.setAdder adder endpoint rest) other := by
  cases adder with
  | some thread =>
    have before : (middle.threads thread).releasing ≠ some other := by
      rw [State.threads_of_adding adds]
      simp [ThreadPc.releasing]
    cases rest with
    | some later | none => exact alike.setThread before (by simp [ThreadPc.releasing])
  | none =>
    have own := State.epoll_of_adding adds
    have before : middle.epoll.dropping ≠ some other := by
      rw [own]
      simp [dropping]
    have handled : middle.epoll.endpoint = some endpoint := by
      rw [own]
      rfl
    cases rest with
    | some later | none =>
      exact alike.setEpoll before (by simp [dropping]) (by rw [handled]; rfl)

theorem addJob_alike {size : Nat} {pc : AddJobPc Actor}
    {rest : Option (AddJobPc Actor)} (added : state.addJob size endpoint pc = (middle, rest)) :
    (∀ other, Alike state middle other) ∨ middle = state.setStatus endpoint .kActive := by
  cases pc with
  | setRxActive actor =>
    cases added
    exact .inr rfl
  | write actor slot | storePos actor slot pos =>
    cases added
    exact .inl fun other => (Alike.refl state other).setRing
  | loadPos actor slot =>
    cases added
    exact .inl (Alike.refl state)
  | allocEntry actor =>
    rw [State.addJob] at added
    split at added
    all_goals
      cases added
      exact .inl (Alike.refl state)

section

variable (settled : Settled config state)
include settled

theorem final_setRxActive {pc : AddJobPc Actor} (adds : state.adding adder = some (endpoint, pc)) :
    state.rxStatus endpoint ≠ .kRelease ∧ Final (state.setStatus endpoint .kActive) endpoint := by
  have here := State.entries_of_adding settled.toKept.polled adds
  have unadded : (adder.place : Place Actor Thread) ≠ .released ∧
      (adder.place : Place Actor Thread) ≠ .registrar := by
    cases adder <;> simp [Adder.place]
  obtain ⟨held, unreleased⟩ := settled.unreleased here unadded.1
  have active : (state.setStatus endpoint .kActive).rxStatus endpoint = .kActive := update_self ..
  refine ⟨unreleased, .unstored (by simp [active])
    (fun released => by cases held.symm.trans released) (fun inSet => .inl ?_)
    fun registering => absurd registering (settled.unregistered here unadded.2)⟩
  · cases adder with
    | some thread => exact settled.toKept.handled here (by simp [Adder.place]) inSet
    | none =>
      change state.epoll.endpoint = some endpoint
      rw [State.epoll_of_adding adds]
      rfl

theorem addJob {pc : AddJobPc Actor} {rest : Option (AddJobPc Actor)}
    (adds : state.adding adder = some (endpoint, pc))
    (added : state.addJob config.size endpoint pc = (middle, rest))
    (kept : Kept config (middle.setAdder adder endpoint rest)) :
    StaysSettled config state (middle.setAdder adder endpoint rest) := by
  have frame := Kept.addJob_frame added
  have still : middle.adding adder = some (endpoint, pc) := by
    cases adder with
    | some thread => exact (congrArg ThreadPc.adding (congrFun frame.1 thread)).trans adds
    | none => exact (congrArg adding frame.2.1).trans adds
  rcases addJob_alike added with alike | active
  · exact settled.quiet kept fun other => setAdder_alike (alike other) still rest
  · obtain ⟨unreleased, final⟩ := settled.final_setRxActive adds
    subst active
    have own := final.alike (setAdder_alike (Alike.refl _ endpoint) still rest)
    exact settled.changed endpoint kept own
      (fun released => absurd released unreleased) fun other apart =>
        setAdder_alike ((Alike.refl state other).setStatus apart) still rest

theorem threadGoes {pc : ThreadPc Actor Endpoint} (kept : Kept config (middle.setThread thread pc))
    (before : (middle.threads thread).releasing = none) (after : pc.releasing = none)
    (alike : ∀ endpoint, Alike state middle endpoint) :
    StaysSettled config state (middle.setThread thread pc) :=
  settled.quiet kept fun endpoint =>
    (alike endpoint).setThread (by rw [before]; simp) (by rw [after]; simp)

section

variable (kept : Kept config next)
include kept

theorem setRxUncork (went : state.setRxUncork thread endpoint actor = some next) :
    StaysSettled config state next := by
  rw [State.setRxUncork] at went
  split at went
  next outside =>
    split at went <;> cases went
    · have before : (state.threads thread).releasing = none := by rw [outside]; rfl
      exact settled.threadGoes kept before rfl fun other => (Alike.refl state other).setCork
    · exact settled.quiet kept (Alike.refl state)
  next => cases went

theorem unregRxEndpoint (went : state.unregRxEndpoint thread endpoint = some next) :
    StaysSettled config state next := by
  rw [State.unregRxEndpoint] at went
  split at went
  next outside =>
    split at went <;> cases went
    · exact settled.threadGoes kept (by rw [outside]; rfl) rfl (Alike.refl state)
    · exact settled.quiet kept (Alike.refl state)
  next => cases went

theorem checkAndSetRxCorkLck (went : state.checkAndSetRxCorkLck thread endpoint = some next) :
    StaysSettled config state next := by
  rw [State.checkAndSetRxCorkLck] at went
  split at went
  next outside =>
    split at went <;> cases went
    next corked =>
      have here : state.entries endpoint .corked = 1 := by simp [State.entries, corked]
      obtain ⟨_, unreleased⟩ := settled.unreleased here (by simp)
      have releases : (((state.setCork endpoint .kRxCorkLck).release endpoint).setThread thread
          (.setRxRelease endpoint)).Releases endpoint :=
        .inr (.inl ⟨thread, by simp [State.setThread, ThreadPc.releasing]⟩)
      refine settled.changed endpoint kept ?_ id fun other apart =>
        (((Alike.refl state other).setCork).release apart).setThread ?_ ?_
      · exact kept.final_released (update_self ..) (.inr releases)
          fun released => absurd released unreleased
      · change (state.threads thread).releasing ≠ some other
        rw [outside]
        simp [ThreadPc.releasing]
      · exact fun same => apart (some.inj same).symm
    · exact settled.quiet kept (Alike.refl state)
  next => cases went

theorem threadNext (unpolled : ∀ endpoint, (state.threads thread).releasing = some endpoint →
      ¬ state.Polls endpoint) (went : state.threadNext config.size thread = some next) :
    StaysSettled config state next := by
  cases pc : state.threads thread with
  | outside => simp only [State.threadNext, pc, reduceCtorEq] at went
  | addJob endpoint job =>
    have adds : state.adding (some thread) = some (endpoint, job) := by
      rw [State.adding, pc]
      rfl
    simp only [State.threadNext, pc] at went
    split at went
    next middle later added =>
      cases went
      exact settled.addJob adds added kept
    next middle added =>
      cases went
      exact settled.addJob adds added kept
  | setRxRelease endpoint =>
    simp only [State.threadNext, pc] at went
    cases went
    refine settled.changed endpoint kept ?_ (fun _ => update_self ..) fun other apart =>
      ((Alike.refl state other).setRxRelease apart).setThread ?_ ?_
    · exact kept.final_released (settled.toKept.releasing thread endpoint pc)
        (.inl (update_self ..)) fun _ => unpolled endpoint (by rw [pc]; rfl)
    · change (state.threads thread).releasing ≠ some other
      rw [pc]
      exact fun same => apart (some.inj same).symm
    · simp [ThreadPc.releasing]
  | writePipe endpoint =>
    simp only [State.threadNext, pc] at went
    cases went
    have before : (state.threads thread).releasing = none := by rw [pc]; rfl
    exact settled.threadGoes kept before rfl fun other =>
      ⟨rfl, rfl, rfl, rfl, .rfl, .rfl, .rfl⟩

theorem doDeliverEvent (unpolled : ¬ state.Polls endpoint)
    (went : state.doDeliverEvent endpoint = some next) : StaysSettled config state next := by
  rw [State.doDeliverEvent] at went
  split at went <;> cases went
  next mem =>
    refine settled.changed endpoint kept ?_ (fun _ => update_self ..) fun other apart =>
      ((Alike.refl state other).events (List.mem_erase_of_ne apart)).setRxRelease apart
    exact kept.final_released (settled.toKept.events endpoint mem)
      (.inl (update_self ..)) fun _ => unpolled

end

theorem ePollWait {error : Bool} (kept : Kept config next)
    (went : state.ePollWait endpoint error = some next) : StaysSettled config state next := by
  rw [State.ePollWait] at went
  split at went <;> cases went
  next ready =>
    have none {other : Endpoint} : state.epoll.dropping ≠ some other := by
      rw [ready.1]
      simp [dropping]
    have final := settled.final endpoint
    refine settled.changed endpoint kept ?_ id fun other apart =>
      (Alike.refl state other).setEpoll none (by simp [dropping]) ?_
    · refine { final with pending := fun released => ?_, polled := fun _ => .inl rfl }
      exact (final.pending released).imp_right
        (releases_setEpoll_same none (by simp [dropping])).mpr
    · rw [ready.1]
      exact ⟨fun same => absurd (some.inj same).symm apart, fun none => by cases none⟩

theorem epollGoes {pc : EpollPc Actor Endpoint} (kept : Kept config (state.setEpoll pc))
    (before : state.epoll.dropping = none) (after : pc.dropping = none)
    (same : pc.endpoint = state.epoll.endpoint) : StaysSettled config state (state.setEpoll pc) :=
  settled.quiet kept fun other => (Alike.refl state other).setEpoll (by rw [before]; simp)
    (by rw [after]; simp) (by rw [same])

theorem dispatchRxEndpoint (kept : Kept config next)
    (went : state.dispatchRxEndpoint actor = some next) : StaysSettled config state next := by
  rw [State.dispatchRxEndpoint] at went
  split at went <;> cases went
  next own => exact settled.epollGoes kept (by rw [own]; rfl) rfl (by rw [own]; rfl)

theorem epollDropped {room : Bool} (kept : Kept config next) (delivers : room = true)
    (went : state.epollDropped room = some next) : StaysSettled config state next := by
  subst delivers
  rw [State.epollDropped] at went
  split at went <;> cases went
  next endpoint own =>
    have inSet : state.inEpoll endpoint = true :=
      settled.toKept.polled endpoint (by rw [own]; rfl)
    have here : state.entries endpoint .epoll = 1 := by
      simp [State.entries, inSet, own, behind]
    obtain ⟨_, unreleased⟩ := settled.unreleased here (by simp)
    refine settled.changed endpoint kept ?_ id fun other apart =>
      (((Alike.refl state other).release apart).events ?_).setEpoll ?_ ?_ ?_
    · exact kept.final_released (update_self ..) (.inr (.inl List.mem_cons_self))
        fun released => absurd released unreleased
    · change other ∈ endpoint :: state.asyncEvents ↔ other ∈ state.asyncEvents
      simp [apart]
    · change state.epoll.dropping ≠ some other
      rw [own]
      simp [dropping]
    · simp [dropping]
    · change _ ↔ state.epoll.endpoint = some other
      rw [own]
      exact .rfl

theorem ePollDel (kept : Kept config ((state.setInEpoll endpoint false).setEpoll .wait))
    (none : state.epoll.dropping = none) (handled : state.epoll.endpoint = some endpoint) :
    StaysSettled config state ((state.setInEpoll endpoint false).setEpoll .wait) := by
  have before {other : Endpoint} : state.epoll.dropping ≠ some other := by
    rw [none]
    simp
  have final := settled.final endpoint
  refine settled.changed endpoint kept ?_ id fun other apart =>
    ((Alike.refl state other).setInEpoll apart).setEpoll before (by simp [dropping]) ?_
  · refine { final with pending := fun released => ?_, polled := fun inSet => ?_ }
    · exact (final.pending released).imp_right
        (releases_setEpoll_same before (by simp [dropping])).mpr
    · have left : ((state.setInEpoll endpoint false).setEpoll .wait).inEpoll endpoint = false :=
        update_self ..
      rw [left] at inSet
      cases inSet
  · change _ ↔ state.epoll.endpoint = some other
    rw [handled]
    exact ⟨fun none => (by cases none), fun same => absurd (some.inj same).symm apart⟩

theorem epollNext (kept : Kept config next)
    (unpolled : ∀ endpoint, state.epoll.dropping = some endpoint → ¬ state.Polls endpoint)
    (went : state.epollNext config.size = some next) : StaysSettled config state next := by
  cases own : state.epoll with
  | wait | event endpoint error => simp only [State.epollNext, own, reduceCtorEq] at went
  | addJob endpoint job =>
    have adds : state.adding (none : Adder Thread) = some (endpoint, job) := by
      rw [State.adding, own]
      rfl
    simp only [State.epollNext, own] at went
    split at went
    next middle later added =>
      cases went
      exact settled.addJob adds added kept
    next middle added =>
      cases went
      exact settled.addJob adds added kept
  | ePollDel endpoint | ePollDelDropped endpoint =>
    simp only [State.epollNext, own] at went
    cases went
    exact settled.ePollDel kept (by rw [own]; rfl) (by rw [own]; rfl)
  | dropRxEndpoint endpoint =>
    simp only [State.epollNext, own] at went
    cases went
    refine settled.changed endpoint kept ?_ (fun _ => update_self ..) fun other apart =>
      ((Alike.refl state other).setRxRelease apart).setEpoll ?_ ?_ ?_
    · exact kept.final_released (settled.toKept.dropping endpoint own)
        (.inl (update_self ..)) fun _ => unpolled endpoint (by rw [own]; rfl)
    · change state.epoll.dropping ≠ some other
      rw [own]
      exact fun same => apart (some.inj same).symm
    · simp [dropping]
    · change _ ↔ state.epoll.endpoint = some other
      rw [own]
      exact .rfl

theorem readPipe (kept : Kept config next) (went : state.readPipe = some next) :
    StaysSettled config state next := by
  rw [State.readPipe] at went
  split at went
  next waits =>
    split at went
    next => cases went
    next endpoint rest _ =>
      split at went <;> cases went
      next inSet =>
        have here : state.entries endpoint .epoll = 1 := by
          simp [State.entries, inSet, waits, behind]
        obtain ⟨_, unreleased⟩ := settled.unreleased here (by simp)
        have alike (other : Endpoint) : Alike state { state with deletePipe := rest } other :=
          ⟨rfl, rfl, rfl, rfl, .rfl, .rfl, .rfl⟩
        refine settled.changed endpoint kept ?_ id fun other apart =>
          (((alike other).setInEpoll apart).release apart).setEpoll ?_ ?_ ?_
        · exact kept.final_released (update_self ..) (.inr (.inr (.inr rfl)))
            fun released => absurd released unreleased
        · change state.epoll.dropping ≠ some other
          rw [waits]
          simp [dropping]
        · exact fun same => apart (some.inj same).symm
        · change _ ↔ state.epoll.endpoint = some other
          rw [waits]
          exact .rfl
      · exact settled.quiet kept fun other => ⟨rfl, rfl, rfl, rfl, .rfl, .rfl, .rfl⟩
  next => cases went

end

theorem initial (config : Config Endpoint) (pos : Actor → Nat → Int)
    (buffer : Actor → Nat → Endpoint) :
    Settled config (RxSchedule.initial config.size pos buffer : State Actor Thread Endpoint) where
  toKept := .initial config pos buffer
  final endpoint := by
    constructor
    · nofun
    · nofun
    · nofun
    · nofun
    · rintro - ⟨actor, polls⟩
      cases polls

theorem step (settled : Settled config state) {action : Action Actor Thread Endpoint}
    (may : ReleaseAllowed state action)
    (went : RxSchedule.step config state action = some next) :
    StaysSettled config state next := by
  have kept := settled.toKept.step may.allowed went
  cases action with
  | regRxEndpoint endpoint hasHandler memory => exact settled.regRxEndpoint kept went
  | pop actor queue => exact settled.pop kept went
  | failed actor room => exact settled.failed kept may.delivers went
  | ePollAddR actor memory => exact settled.ePollAddR kept went
  | dropRxEndpoint actor => exact settled.actorDrops kept may.unpolled went
  | actor actor => exact settled.actorNext kept went
  | setRxUncork thread endpoint actor => exact settled.setRxUncork kept went
  | checkAndSetRxCorkLck thread endpoint => exact settled.checkAndSetRxCorkLck kept went
  | unregRxEndpoint thread endpoint => exact settled.unregRxEndpoint kept went
  | thread thread => exact settled.threadNext kept may.unpolled went
  | ePollWait endpoint error => exact settled.ePollWait kept went
  | dispatchRxEndpoint actor => exact settled.dispatchRxEndpoint kept went
  | toDeliverEvent room => exact settled.epollDropped kept may.delivers went
  | epoll => exact settled.epollNext kept may.unpolled went
  | readPipe => exact settled.readPipe kept went
  | setToDelete endpoint =>
    cases went
    exact settled.quiet kept fun other => ⟨rfl, rfl, rfl, rfl, .rfl, .rfl, .rfl⟩
  | doDeliverEvent endpoint =>
    exact settled.doDeliverEvent kept (may.unpolled endpoint rfl) went
  | _ => exact settled.actorMoves kept trivial went

end Settled

/-- Somebody has the endpoint, or it is corked; somebody is about to release it; the rx epoll
thread has an event of it; or it is in the epoll set and `UnregRxEndpoint` finds it polled. -/
def State.Attended (state : State Actor Thread Endpoint) (endpoint : Endpoint) : Prop :=
  (∃ place, place ≠ .epoll ∧ place ≠ .released ∧ OnlyAt (state.entries endpoint) place) ∨
    state.Releases endpoint ∨
    state.epoll.endpoint = some endpoint ∨
    state.inEpoll endpoint = true ∧
      (state.rxStatus endpoint = .kPolling ∨ state.Polls endpoint)

theorem Settled.attended (settled : Settled config state) (endpoint : Endpoint) :
    state.rxStatus endpoint = .kRelease ∧ state.inEpoll endpoint = false ∨
      state.Attended endpoint := by
  have final := settled.final endpoint
  obtain ⟨place, only⟩ := settled.held endpoint
  by_cases polled : place = .epoll
  · have inSet : state.inEpoll endpoint = true := by
      have here := only.here
      rw [polled] at here
      cases inSet : state.inEpoll endpoint with
      | true => rfl
      | false => simp [State.entries, inSet] at here
    rcases final.polled inSet with handled | stored
    · exact .inr (.inr (.inr (.inl handled)))
    · exact .inr (.inr (.inr (.inr ⟨inSet, stored⟩)))
  · by_cases gone : place = .released
    · have released : state.released endpoint = true := by
        have here := only.here
        rw [gone] at here
        cases released : state.released endpoint with
        | true => rfl
        | false => simp [State.entries, released] at here
      rcases final.pending released with stored | releases
      · cases inSet : state.inEpoll endpoint with
        | false => exact .inl ⟨stored, rfl⟩
        | true => exact .inr (.inr (.inr (.inl (settled.toKept.handled
            (Kept.entries_released released) (by simp) inSet))))
      · exact .inr (.inr (.inl releases))
    · exact .inr (.inl ⟨place, polled, gone, only⟩)

end AdkAaf.Adk.IoEngine.RxSchedule
