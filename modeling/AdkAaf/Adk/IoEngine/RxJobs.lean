import AdkAaf.Adk.IoEngine.RxPlaces

/-! The queues of jobs. As long as one thread at a time is between `SP_AllocEntry` and the end
of `SP_PostEntry` of a queue, that queue is a ring with one pushing and one popping thread. -/

set_option autoImplicit false
set_option linter.unusedSectionVars false

namespace AdkAaf.Adk.IoEngine.RxSchedule

open Lib QueueVariant Function Option
open TxSchedule (ActorQueue)

variable {Actor Thread Endpoint : Type}

/-- A thread that may be in `AddJob`; `none` is the rx epoll thread. -/
abbrev Adder (Thread : Type) := Option Thread

def Adder.place : Adder Thread → Place Actor Thread
  | some thread => .thread thread
  | none => .epoll

def ThreadPc.adding : ThreadPc Actor Endpoint → Option (Endpoint × AddJobPc Actor)
  | .addJob endpoint pc => some (endpoint, pc)
  | .outside | .setRxRelease _ | .writePipe _ => none

def EpollPc.adding : EpollPc Actor Endpoint → Option (Endpoint × AddJobPc Actor)
  | .addJob endpoint pc => some (endpoint, pc)
  | _ => none

/-- The queue of an entry that is allocated and not posted. -/
def AddJobPc.entered : AddJobPc Actor → Option Actor
  | .setRxActive _ | .allocEntry _ => none
  | .write actor _ | .loadPos actor _ | .storePos actor _ _ => some actor

def AddJobPc.Pushes (size : Nat) (ring : QueueVariant.Ring Endpoint) (endpoint : Endpoint) :
    AddJobPc Actor → PushPc Endpoint → Prop
  | .setRxActive _, _ | .allocEntry _, _ => True
  | .write _ slot, push => slot = Ring.slot size ring.tail ∧ push = .writing endpoint
  | .loadPos _ slot, push => slot = Ring.slot size ring.tail ∧ push = .posting endpoint
  | .storePos _ slot pos, push =>
    slot = Ring.slot size ring.tail ∧ push = .storing endpoint pos

namespace State

def adding (state : State Actor Thread Endpoint) :
    Adder Thread → Option (Endpoint × AddJobPc Actor)
  | some thread => (state.threads thread).adding
  | none => state.epoll.adding

def entered (state : State Actor Thread Endpoint) (adder : Adder Thread) : Option Actor :=
  (state.adding adder).bind fun adding => adding.2.entered

def Alone (state : State Actor Thread Endpoint) (adder : Adder Thread) (actor : Actor) : Prop :=
  ∀ other, other ≠ adder → state.entered other ≠ some actor

/-- The queue of an actor is a ring, and a thread that has an entry of it is its pusher. -/
def RingKept (size : Nat) (state : State Actor Thread Endpoint) (actor : Actor) : Prop :=
  ∃ push, Ring.Valid size { state.rings actor with push } ∧
    ∀ adder endpoint pc, state.adding adder = some (endpoint, pc) →
      pc.entered = some actor → pc.Pushes size (state.rings actor) endpoint push

variable [DecidableEq Actor] [DecidableEq Thread] [DecidableEq Endpoint]
  {state next : State Actor Thread Endpoint} {endpoint : Endpoint} {adder other : Adder Thread}
  {actor : Actor} {pc : AddJobPc Actor} {size : Nat}

def setAdder (state : State Actor Thread Endpoint) (adder : Adder Thread) (endpoint : Endpoint) :
    Option (AddJobPc Actor) → State Actor Thread Endpoint
  | some pc =>
    match adder with
    | some thread => state.setThread thread (.addJob endpoint pc)
    | none => state.setEpoll (.addJob endpoint pc)
  | none =>
    match adder with
    | some thread => state.setThread thread .outside
    | none => state.setEpoll (.ePollDel endpoint)

variable {rest : Option (AddJobPc Actor)}

theorem adding_setAdder_self :
    (state.setAdder adder endpoint rest).adding adder = rest.map fun pc => (endpoint, pc) := by
  cases rest with
  | some pc =>
    cases adder with
    | some thread =>
      simp [adding, setAdder, setThread, update_self, ThreadPc.adding, map_some]
    | none => rfl
  | none =>
    cases adder with
    | some thread =>
      simp [adding, setAdder, setThread, update_self, ThreadPc.adding, map_none]
    | none => rfl

theorem adding_setAdder_of_ne (apart : other ≠ adder) :
    (state.setAdder adder endpoint rest).adding other = state.adding other := by
  cases adder with
  | none =>
    cases other with
    | none => exact absurd rfl apart
    | some thread => cases rest <;> rfl
  | some thread =>
    cases other with
    | none => cases rest <;> rfl
    | some another =>
      have elsewhere : another ≠ thread := fun same => apart (congrArg some same)
      cases rest <;>
        simp [adding, setAdder, setThread, update_of_ne elsewhere]

theorem rings_setAdder : (state.setAdder adder endpoint rest).rings = state.rings := by
  cases rest <;> cases adder <;> rfl

theorem threads_of_adding {thread : Thread}
    (adds : state.adding (some thread) = some (endpoint, pc)) :
    state.threads thread = .addJob endpoint pc := by
  cases at' : state.threads thread with
  | addJob own job =>
    simp only [adding, at', ThreadPc.adding, some.injEq, Prod.mk.injEq] at adds
    rw [adds.1, adds.2]
  | outside | setRxRelease _ | writePipe _ =>
    simp only [adding, at', ThreadPc.adding, reduceCtorEq] at adds

theorem epoll_of_adding (adds : state.adding none = some (endpoint, pc)) :
    state.epoll = .addJob endpoint pc := by
  cases at' : state.epoll with
  | addJob own job =>
    simp only [adding, at', EpollPc.adding, some.injEq, Prod.mk.injEq] at adds
    rw [adds.1, adds.2]
  | _ =>
    simp only [adding, at', EpollPc.adding, reduceCtorEq] at adds

theorem entries_setAdder_some (adds : state.adding adder = some (endpoint, pc))
    (later : AddJobPc Actor) :
    (state.setAdder adder endpoint (some later)).entries = state.entries := by
  cases adder with
  | some thread =>
    apply entries_setThread_same
    rw [threads_of_adding adds]
    rfl
  | none =>
    apply entries_setEpoll_same
    rw [epoll_of_adding adds]
    rfl

theorem entries_setAdder_none : (state.setAdder adder endpoint none).entries endpoint
      = update (state.entries endpoint) adder.place 0 := by
  cases adder with
  | some thread => exact entries_setThread thread .outside endpoint
  | none =>
    rw [setAdder, entries_setEpoll, if_neg (fun both => both.2 rfl)]
    rfl

theorem entries_setAdder_none_of_ne (adds : state.adding adder = some (endpoint, pc))
    {another : Endpoint} (different : another ≠ endpoint) :
    (state.setAdder adder endpoint none).entries another = state.entries another := by
  cases adder with
  | some thread =>
    apply entries_setThread_of_ne
    · rw [threads_of_adding adds]
      exact fun same => different (some.inj same).symm
    · simp [ThreadPc.holds]
  | none =>
    rw [setAdder, entries_setEpoll]
    have apart : endpoint ≠ another := different.symm
    simp [entries, epoll_of_adding adds, EpollPc.behind, apart]

theorem entries_of_adding (polled : ∀ endpoint, state.epoll.endpoint = some endpoint →
      state.inEpoll endpoint = true) (adds : state.adding adder = some (endpoint, pc)) :
    state.entries endpoint adder.place = 1 := by
  cases adder with
  | some thread =>
    rw [Adder.place, entries, threads_of_adding adds, ThreadPc.holds, if_pos rfl]
  | none =>
    have at' := epoll_of_adding adds
    have inSet := polled endpoint (by rw [at', EpollPc.endpoint])
    rw [Adder.place, entries, at', EpollPc.behind, if_pos ⟨inSet, by simp⟩]

theorem place_injective : Injective (Adder.place : Adder Thread → Place Actor Thread) := by
  intro adder other same
  cases adder <;> cases other <;> simp_all [Adder.place]

theorem alone_of_entered (held : state.Held)
    (polled : ∀ endpoint, state.epoll.endpoint = some endpoint → state.inEpoll endpoint = true)
    (kept : state.RingKept size actor) (adds : state.adding adder = some (endpoint, pc))
    (entered : pc.entered = some actor) : state.Alone adder actor := by
  intro other apart otherEntered
  obtain ⟨push, _, pushes⟩ := kept
  rw [State.entered, bind_eq_some_iff] at otherEntered
  obtain ⟨⟨another, otherPc⟩, otherAdds, otherEntered⟩ := otherEntered
  have own := pushes adder endpoint pc adds entered
  have others := pushes other another otherPc otherAdds otherEntered
  have same : another = endpoint := by
    cases pc <;> cases otherPc <;>
      simp_all [AddJobPc.Pushes, AddJobPc.entered]
  subst same
  obtain ⟨place, only⟩ := held another
  have here := only.unique (Nat.ne_of_gt (Nat.lt_of_lt_of_eq Nat.zero_lt_one
    (entries_of_adding polled adds).symm))
  have there := only.unique (Nat.ne_of_gt (Nat.lt_of_lt_of_eq Nat.zero_lt_one
    (entries_of_adding polled otherAdds).symm))
  exact apart (place_injective (there.trans here.symm))

theorem RingKept.same (kept : state.RingKept size actor)
    (rings : next.rings actor = state.rings actor)
    (adding : ∀ adder endpoint pc, next.adding adder = some (endpoint, pc) →
      pc.entered = some actor → state.adding adder = some (endpoint, pc)) :
    next.RingKept size actor := by
  obtain ⟨push, ok, pushes⟩ := kept
  refine ⟨push, rings ▸ ok, ?_⟩
  intro adder endpoint pc adds entered
  rw [rings]
  exact pushes adder endpoint pc (adding adder endpoint pc adds entered) entered

theorem RingKept.pusher (push : PushPc Endpoint)
    (ok : Ring.Valid size { next.rings actor with push })
    (pushes : pc.Pushes size (next.rings actor) endpoint push) (alone : state.Alone adder actor)
    (others : ∀ other, other ≠ adder → next.adding other = state.adding other) :
    (next.setAdder adder endpoint (some pc)).RingKept size actor := by
  refine ⟨push, ?_, ?_⟩
  · rw [rings_setAdder]
    exact ok
  · intro other another otherPc otherAdds otherEntered
    rw [rings_setAdder]
    by_cases own : other = adder
    · subst own
      rw [adding_setAdder_self] at otherAdds
      cases otherAdds
      exact pushes
    · rw [adding_setAdder_of_ne own, others other own] at otherAdds
      have entered : state.entered other = some actor := by
        simp [State.entered, otherAdds, bind_some, otherEntered]
      exact absurd entered (alone other own)

theorem RingKept.posted (push : PushPc Endpoint)
    (ok : Ring.Valid size { next.rings actor with push }) (alone : state.Alone adder actor)
    (others : ∀ other, other ≠ adder → next.adding other = state.adding other) :
    (next.setAdder adder endpoint none).RingKept size actor := by
  refine ⟨push, ?_, ?_⟩
  · rw [rings_setAdder]
    exact ok
  · intro other another otherPc otherAdds otherEntered
    by_cases own : other = adder
    · subst own
      rw [adding_setAdder_self] at otherAdds
      cases otherAdds
    · rw [adding_setAdder_of_ne own, others other own] at otherAdds
      have entered : state.entered other = some actor := by
        simp [State.entered, otherAdds, bind_some, otherEntered]
      exact absurd entered (alone other own)

variable [Fintype Endpoint]

theorem Held.room (held : state.Held) {place : Place Actor Thread}
    (here : state.entries endpoint place = 1) (elsewhere : place ≠ .queue actor .activeEndpoints) :
    (state.rings actor).contents.length < Fintype.card Endpoint := by
  have count : ∀ other, (state.rings actor).contents.count other ≤ 1 := by
    intro other
    obtain ⟨at', only⟩ := held other
    have counted := only (.queue actor .activeEndpoints)
    change (state.rings actor).contents.count other = _ at counted
    rw [counted]
    split
    · exact Nat.le_refl 1
    · exact Nat.zero_le 1
  have absent : endpoint ∉ (state.rings actor).contents := by
    obtain ⟨at', only⟩ := held endpoint
    have same := only.unique ((Nat.lt_of_lt_of_eq Nat.zero_lt_one here.symm).ne')
    have none := only.elsewhere (same ▸ Ne.symm elsewhere)
    exact List.count_eq_zero.mp none
  have nodup : (endpoint :: (state.rings actor).contents).Nodup :=
    List.nodup_cons.mpr ⟨absent, List.nodup_iff_count_le_one.mpr count⟩
  exact nodup.length_le_card

theorem RingKept.elsewhere (kept : state.RingKept size actor) {own : Actor}
    (apart : actor ≠ own)
    (entered : ∀ pc, rest = some pc → pc.entered = none ∨ pc.entered = some own)
    (rings : next.rings actor = state.rings actor)
    (others : ∀ other, other ≠ adder → next.adding other = state.adding other) :
    (next.setAdder adder endpoint rest).RingKept size actor := by
  apply kept.same
  · rw [rings_setAdder]
    exact rings
  · intro other another otherPc otherAdds otherEntered
    by_cases same : other = adder
    · subst same
      rw [adding_setAdder_self, map_eq_some_iff] at otherAdds
      obtain ⟨pc, rfl, again⟩ := otherAdds
      cases again
      rcases entered _ rfl with none | here
      · rw [none] at otherEntered
        cases otherEntered
      · rw [here] at otherEntered
        cases otherEntered
        exact absurd rfl apart
    · rw [adding_setAdder_of_ne same, others other same] at otherAdds
      exact otherAdds

section

variable (config : Config Endpoint) (held : state.Held)
  (polled : ∀ endpoint, state.epoll.endpoint = some endpoint → state.inEpoll endpoint = true)
include config held polled

theorem allocEntry_free (kept : state.RingKept config.size actor)
    (adds : state.adding adder = some (endpoint, pc)) :
    (state.rings actor).pos (Ring.slot config.size (state.rings actor).tail) < 0 := by
  obtain ⟨push, ok, _⟩ := kept
  have elsewhere : (adder.place : Place Actor Thread) ≠ .queue actor .activeEndpoints := by
    cases adder <;> simp [Adder.place]
  have room := Nat.lt_of_lt_of_le
    (held.room (entries_of_adding polled adds) elsewhere) config.capacity
  have sign := ok.tail_sign config.sizeValid
  rw [if_pos room] at sign
  exact sign

theorem addJob_rings (kept : ∀ actor, state.RingKept config.size actor)
    (adds : state.adding adder = some (endpoint, pc))
    (alone : ∀ actor, pc = .allocEntry actor → state.Alone adder actor)
    {middle : State Actor Thread Endpoint}
    (added : state.addJob config.size endpoint pc = (middle, rest)) (actor : Actor) :
    (middle.setAdder adder endpoint rest).RingKept config.size actor := by
  cases pc with
  | setRxActive own =>
    cases added
    apply (kept actor).same
    · rw [rings_setAdder]
      rfl
    · intro other another otherPc otherAdds entered
      by_cases same : other = adder
      · subst same
        rw [adding_setAdder_self] at otherAdds
        cases otherAdds
        cases entered
      · rw [adding_setAdder_of_ne same] at otherAdds
        exact otherAdds
  | allocEntry own =>
    have free := allocEntry_free config held polled (kept own) adds
    rw [addJob, if_neg (Int.not_lt.mpr (Int.le_of_lt free))] at added
    cases added
    by_cases here : actor = own
    · subst here
      obtain ⟨push, ok, _⟩ := kept actor
      exact .pusher (.writing endpoint) (ok.setPush free) ⟨rfl, rfl⟩ (alone actor rfl)
        (fun _ _ => rfl)
    · exact (kept actor).elsewhere here (fun _ same => .inr (by cases same; rfl)) rfl
        (fun _ _ => rfl)
  | write own slot =>
    cases added
    by_cases here : actor = own
    · subst here
      have lone := alone_of_entered held polled (kept actor) adds rfl
      obtain ⟨push, ok, pushes⟩ := kept actor
      obtain ⟨rfl, rfl⟩ := pushes adder endpoint _ adds rfl
      have written := ok.write config.sizeValid rfl
      refine .pusher (.posting endpoint) ?_ ?_ lone ?_
      · simp only [setRing, update_self]
        exact written
      · simp only [setRing, update_self]
        exact ⟨rfl, rfl⟩
      · exact fun _ _ => rfl
    · exact (kept actor).elsewhere here (fun _ same => .inr (by cases same; rfl))
        (update_of_ne here _ _) (fun _ _ => rfl)
  | loadPos own slot =>
    cases added
    by_cases here : actor = own
    · subst here
      have lone := alone_of_entered held polled (kept actor) adds rfl
      obtain ⟨push, ok, pushes⟩ := kept actor
      obtain ⟨rfl, rfl⟩ := pushes adder endpoint _ adds rfl
      have posting := ok.push
      exact .pusher (.storing endpoint _) (ok.setPush ⟨posting.1, posting.2, rfl⟩)
        ⟨rfl, rfl⟩ lone (fun _ _ => rfl)
    · exact (kept actor).elsewhere here (fun _ same => .inr (by cases same; rfl)) rfl
        (fun _ _ => rfl)
  | storePos own slot pos =>
    cases added
    by_cases here : actor = own
    · subst here
      have lone := alone_of_entered held polled (kept actor) adds rfl
      obtain ⟨push, ok, pushes⟩ := kept actor
      obtain ⟨rfl, rfl⟩ := pushes adder endpoint _ adds rfl
      have posted := ok.post config.sizeValid rfl
      refine .posted .idle ?_ lone ?_
      · simp only [setRing, update_self]
        exact posted
      · exact fun _ _ => rfl
    · exact (kept actor).elsewhere here (fun _ impossible => by cases impossible)
        (update_of_ne here _ _) (fun _ _ => rfl)

end

end State

end AdkAaf.Adk.IoEngine.RxSchedule
