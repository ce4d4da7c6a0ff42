import AdkAaf.Adk.IoEngine.Quiescence
import Mathlib.Algebra.GroupWithZero.Nat

/-! `Close()` and `Shutdown()` keep what `endpoint.h` says of them in the runs that are allowed.
Once the handler of a header is the blank one, no step gives the original back to an actor; so
what a waiting call learned about one arena stays true while it looks at the others. -/

set_option autoImplicit false

namespace AdkAaf.Adk.IoEngine.Quiescence

open Function Lib Option

variable {Actor Thread Header Endpoint : Type}

namespace System

structure Frames (system next : System Actor Thread Header Endpoint) : Prop where
  blank : ∀ header, system.messageHandler header = .blank → next.messageHandler header = .blank
  settled : ∀ actor header, system.messageHandler header = .blank →
    (system.arenas actor).Settled header (next.arenas actor)

structure Gone (system : System Actor Thread Header Endpoint) (caller : Caller Actor Thread)
    (header : Header) : Prop where
  blank : system.messageHandler header = .blank
  own : ∀ actor, caller = .actor actor → (system.arenas actor).Spent header
  others : ∀ actor, caller ≠ .actor actor → ¬(system.arenas actor).pc.MayRun header

/-- While `RxActorRCU` samples the counters. -/
structure Sampled (system : System Actor Thread Header Endpoint) (caller : Caller Actor Thread)
    (header : Header) (remaining : List Actor) : Prop where
  blank : system.messageHandler header = .blank
  own : ∀ actor, caller = .actor actor → ¬(system.arenas actor).pc.Holds header
  others : ∀ actor, caller ≠ .actor actor →
    actor ∈ remaining ∨ (system.arenas actor).Graced header

structure Polled (system : System Actor Thread Header Endpoint) (caller : Caller Actor Thread)
    (header : Header) (remaining : List Actor) : Prop where
  blank : system.messageHandler header = .blank
  own : ∀ actor, caller = .actor actor → ¬(system.arenas actor).pc.Holds header
  graced : ∀ actor, caller ≠ .actor actor → (system.arenas actor).Graced header
  passed : ∀ actor, caller ≠ .actor actor →
    actor ∈ remaining ∨ ¬(system.arenas actor).pc.Holds header

def Sound (config : Config Actor Header Endpoint) (system : System Actor Thread Header Endpoint)
    (caller : Caller Actor Thread) : CallPC Actor Endpoint → Prop
  | .testing endpoint _ _ => system.messageHandler (config.header endpoint) = .blank
  | .sampling endpoint remaining => system.Sampled caller (config.header endpoint) remaining
  | .polling endpoint remaining => system.Polled caller (config.header endpoint) remaining
  | _ => True

structure Invariant (config : Config Actor Header Endpoint)
    (system : System Actor Thread Header Endpoint) : Prop where
  returned : ∀ entry ∈ system.returned, system.Gone entry.1 (config.header entry.2)
  sound : ∀ caller, system.Sound config caller (system.calls caller)

variable {config : Config Actor Header Endpoint}
  {system next : System Actor Thread Header Endpoint}

theorem Frames.refl : system.Frames system where
  blank _ blank := blank
  settled _ _ _ := .rfl

theorem Frames.trans {last : System Actor Thread Header Endpoint} (first : system.Frames next)
    (second : next.Frames last) : system.Frames last where
  blank header blank := second.blank header (first.blank header blank)
  settled actor header blank := by
    have before := first.settled actor header blank
    have after := second.settled actor header (first.blank header blank)
    exact ⟨after.holds ∘ before.holds, after.mayRun ∘ before.mayRun, after.spent ∘ before.spent,
      after.graced ∘ before.graced⟩

theorem Frames.storeHandler [DecidableEq Header] (header : Header) :
    system.Frames { system with
      messageHandler := update system.messageHandler header .blank } where
  blank other blank := by
    by_cases own : other = header
    · subst own
      exact update_self ..
    · exact (update_of_ne own _ _).trans blank
  settled _ _ _ := .rfl

theorem Frames.storeDecode (decodeTemplate : Header → Installed) :
    system.Frames { system with decodeTemplate := decodeTemplate } where
  blank _ blank := blank
  settled _ _ _ := .rfl

theorem Frames.setStatus [DecidableEq Endpoint] {endpoint : Endpoint} {status : EpStatus} :
    system.Frames (system.setStatus endpoint status) where
  blank _ blank := blank
  settled _ _ _ := .rfl

variable {caller : Caller Actor Thread} {header : Header}

theorem Gone.frame (gone : system.Gone caller header) (frames : system.Frames next) :
    next.Gone caller header where
  blank := frames.blank _ gone.blank
  own actor same := (frames.settled actor _ gone.blank).spent (gone.own actor same)
  others actor other := (frames.settled actor _ gone.blank).mayRun (gone.others actor other)

variable {remaining : List Actor}

theorem Sampled.frame (sampled : system.Sampled caller header remaining)
    (frames : system.Frames next) :
    next.Sampled caller header remaining where
  blank := frames.blank _ sampled.blank
  own actor same := (frames.settled actor _ sampled.blank).holds (sampled.own actor same)
  others actor other :=
    (sampled.others actor other).imp id (frames.settled actor _ sampled.blank).graced

theorem Polled.frame (polled : system.Polled caller header remaining)
    (frames : system.Frames next) : next.Polled caller header remaining where
  blank := frames.blank _ polled.blank
  own actor same := (frames.settled actor _ polled.blank).holds (polled.own actor same)
  graced actor other := (frames.settled actor _ polled.blank).graced (polled.graced actor other)
  passed actor other :=
    (polled.passed actor other).imp id (frames.settled actor _ polled.blank).holds

theorem Sound.frame {pc : CallPC Actor Endpoint} (sound : system.Sound config caller pc)
    (frames : system.Frames next) : next.Sound config caller pc := by
  cases pc with
  | testing endpoint decode handler => exact frames.blank _ sound
  | sampling endpoint remaining => exact Sampled.frame sound frames
  | polling endpoint remaining => exact Polled.frame sound frames
  | _ => trivial

theorem Invariant.follow (inv : system.Invariant config) (frames : system.Frames next)
    (calls : ∀ caller, next.calls caller = system.calls caller ∨
      next.Sound config caller (next.calls caller))
    (returned : ∀ entry ∈ next.returned, entry ∈ system.returned ∨
      next.Gone entry.1 (config.header entry.2)) : next.Invariant config where
  returned := by
    intro entry mem
    cases returned entry mem with
    | inl before => exact (inv.returned entry before).frame frames
    | inr gone => exact gone
  sound := by
    intro caller
    cases calls caller with
    | inl same => exact same ▸ (inv.sound caller).frame frames
    | inr sound => exact sound

theorem Polled.pass {caller : Caller Actor Thread} {header : Header} {actor : Actor}
    (polled : system.Polled caller header (actor :: remaining))
    (moved : (system.arenas actor).actorRcuCounter ≠ (system.arenas actor).actorCounter) :
    system.Polled caller header remaining where
  __ := polled
  passed := by
    intro other apart
    cases polled.passed other apart with
    | inr gone => exact .inr gone
    | inl listed =>
      cases listed with
      | tail _ later => exact .inl later
      | head =>
        right
        cases polled.graced _ apart with
        | inl same => exact absurd same moved
        | inr gone => exact gone

theorem Invariant.established (config : Config Actor Header Endpoint) :
    (established : System Actor Thread Header Endpoint).Invariant config where
  returned _ mem := by cases mem
  sound _ := trivial

section

variable [DecidableEq Actor]

theorem Frames.setArena {actor : Actor} {arena : RecvActorArena Header}
    (settled : ∀ header, system.messageHandler header = .blank →
      (system.arenas actor).Settled header arena) :
    system.Frames (system.setArena actor arena) where
  blank _ blank := blank
  settled other header blank := by
    by_cases own : other = actor
    · subst own
      simp only [System.setArena, update_self]
      exact settled header blank
    · simp only [System.setArena, update_of_ne own]
      exact .rfl

variable {caller : Caller Actor Thread}

theorem Sampled.sample {header : Header} {actor : Actor}
    (sampled : system.Sampled caller header (actor :: remaining)) :
    (system.setArena actor (system.arenas actor).sample).Sampled caller header remaining := by
  have frames : system.Frames (system.setArena actor (system.arenas actor).sample) :=
    .setArena fun _ _ => RecvActorArena.sample_settled
  have kept := sampled.frame frames
  refine ⟨kept.blank, kept.own, ?_⟩
  intro other apart
  cases kept.others other apart with
  | inr graced => exact .inr graced
  | inl listed =>
    cases listed with
    | tail _ later => exact .inl later
    | head =>
      right
      simp only [System.setArena, update_self]
      exact .inl rfl

variable [DecidableEq Thread]

theorem Frames.setCall {pc : CallPC Actor Endpoint} : system.Frames (system.setCall caller pc) where
  blank _ blank := blank
  settled _ _ _ := .rfl

theorem Invariant.setCall (inv : system.Invariant config)
    (frames : system.Frames next) (calls : next.calls = system.calls)
    (returned : next.returned = system.returned)
    {pc : CallPC Actor Endpoint} (sound : next.Sound config caller pc) :
    (next.setCall caller pc).Invariant config := by
  apply inv.follow (frames.trans .setCall)
  · intro other
    by_cases own : other = caller
    · subst own
      right
      simp only [System.setCall, update_self]
      exact sound.frame .setCall
    · left
      simp [System.setCall, update_of_ne own, calls]
  · intro entry mem
    left
    exact returned ▸ mem

theorem mem_otherArenas {actor : Actor} :
    actor ∈ otherArenas config caller ↔ caller ≠ .actor actor := by
  simp [otherArenas, List.mem_filter, config.listed actor, true_and]

theorem Polled.quiesced {header : Header}
    (polled : system.Polled caller header []) : system.Quiesced config caller header := by
  refine ⟨polled.blank, ?_⟩
  intro actor _
  split
  next own =>
    intro willStart
    exact polled.own actor own willStart.mayRun.holds
  next own =>
    intro mayRun
    cases polled.passed actor own with
    | inl listed => cases listed
    | inr gone => exact gone mayRun.holds

theorem Sampled.start {header : Header}
    (blank : system.messageHandler header = .blank) (free : system.inDelivery caller = false) :
    system.Sampled caller header (otherArenas config caller) where
  blank := blank
  own := by
    intro actor same holds
    subst same
    simp only [inDelivery, holds.isDelivering, Bool.true_eq_false] at free
  others actor other := .inl (mem_otherArenas.mpr other)

theorem Sampled.poll {header : Header} (sampled : system.Sampled caller header []) :
    system.Polled caller header (otherArenas config caller) where
  blank := sampled.blank
  own := sampled.own
  graced := by
    intro actor other
    cases sampled.others actor other with
    | inl listed => cases listed
    | inr graced => exact graced
  passed _ other := .inl (mem_otherArenas.mpr other)

theorem Polled.again {header : Header} (polled : system.Polled caller header remaining) :
    system.Polled caller header (otherArenas config caller) where
  __ := polled
  passed _ other := .inl (mem_otherArenas.mpr other)

theorem Invariant.quiet (inv : system.Invariant config) : system.Quiet config := by
  intro entry mem actor _
  have gone := inv.returned entry mem
  split
  next own => exact (gone.own actor own).2
  next own =>
    intro runs
    exact gone.others actor own runs.mayRun

variable [DecidableEq Header]

theorem finish_calls (caller : Caller Actor Thread) (endpoint : Endpoint) :
    (system.finish config caller endpoint).calls = update system.calls caller .outside := by
  cases caller with
  | actor actor | application thread => rfl

theorem finish_returned (caller : Caller Actor Thread) (endpoint : Endpoint) :
    (system.finish config caller endpoint).returned = (caller, endpoint) :: system.returned := by
  cases caller with
  | actor actor | application thread => rfl

theorem Frames.finish (caller : Caller Actor Thread) (endpoint : Endpoint) :
    system.Frames (system.finish config caller endpoint) := by
  cases caller with
  | actor actor =>
    have frames : system.Frames (system.setArena actor
        ((system.arenas actor).markCalled (config.header endpoint))) :=
      .setArena fun _ _ => RecvActorArena.markCalled_settled _
    exact ⟨frames.blank, frames.settled⟩
  | application thread => exact ⟨fun _ => id, fun _ _ _ => .rfl⟩

variable {endpoint : Endpoint}

theorem Quiesced.finish (quiesced : system.Quiesced config caller (config.header endpoint)) :
    (system.finish config caller endpoint).Gone caller (config.header endpoint) := by
  obtain ⟨blank, quiet⟩ := quiesced
  have frames : system.Frames (system.finish config caller endpoint) := .finish caller endpoint
  constructor
  · exact frames.blank _ blank
  · intro actor same
    subst same
    have last := quiet actor (config.listed actor)
    rw [if_pos rfl] at last
    simp only [System.finish, System.setCall, System.setArena, update_self]
    exact RecvActorArena.markCalled_spent last
  · intro actor other
    have free := quiet actor (config.listed actor)
    rw [if_neg other] at free
    exact (frames.settled actor _ blank).mayRun free

theorem Invariant.finish (inv : system.Invariant config)
    (quiesced : system.Quiesced config caller (config.header endpoint)) :
    (system.finish config caller endpoint).Invariant config := by
  apply inv.follow (.finish caller endpoint)
  · intro other
    rw [finish_calls]
    by_cases own : other = caller
    · right
      subst own
      simp only [update_self]
      trivial
    · left
      exact update_of_ne own _ _
  · intro entry mem
    rw [finish_returned] at mem
    cases mem with
    | head => exact .inr quiesced.finish
    | tail _ before => exact .inl before

variable [DecidableEq Endpoint]

theorem Invariant.callStep (inv : system.Invariant config)
    (may : system.Allowed config (.call caller : Action Actor Thread Header Endpoint))
    (went : system.callStep config caller = some next) : next.Invariant config := by
  have sound := inv.sound caller
  cases pc : system.calls caller with
  | outside =>
    simp only [System.callStep, pc, reduceCtorEq] at went
  | closing endpoint =>
    simp only [System.callStep, pc] at went
    simp only [Allowed, returnsAtOnce, pc] at may
    by_cases closed : system.epStatus endpoint = .kToClose
    · rw [if_pos closed] at went may
      cases went
      exact inv.finish may
    · rw [if_neg closed] at went
      split at went <;> cases went
      all_goals exact inv.setCall .setStatus rfl rfl trivial
  | choosing endpoint remaining =>
    cases remaining with simp only [System.callStep, pc] at went
    | nil =>
      cases went
      exact inv.setCall .refl rfl rfl trivial
    | cons sub rest =>
      simp only [Allowed, returnsAtOnce, pc] at may
      by_cases same : sub = endpoint
      · rw [if_pos same] at went
        cases went
        exact inv.setCall .refl rfl rfl trivial
      · rw [if_neg same] at went may
        by_cases alive : isAlive (system.epStatus sub)
        · rw [if_pos alive] at went may
          cases went
          exact inv.finish may
        · rw [if_neg alive] at went
          cases went
          exact inv.setCall .refl rfl rfl trivial
  | shutting endpoint =>
    simp only [System.callStep, pc] at went
    simp only [Allowed, returnsAtOnce, pc] at may
    by_cases alive : isAlive (system.epStatus endpoint)
    · rw [if_pos alive] at went
      cases went
      exact inv.setCall .setStatus rfl rfl trivial
    · rw [if_neg alive] at went may
      cases went
      exact inv.finish may
  | loadingDecode endpoint | loadingHandler endpoint decode =>
    simp only [System.callStep, pc] at went
    cases went
    exact inv.setCall .refl rfl rfl trivial
  | storingDecode endpoint decode handler =>
    simp only [System.callStep, pc] at went
    cases went
    have frames : system.Frames { system with
        decodeTemplate := update system.decodeTemplate (config.header endpoint)
          .blank } := .storeDecode _
    exact inv.setCall frames rfl rfl trivial
  | storingHandler endpoint decode handler =>
    simp only [System.callStep, pc] at went
    cases went
    exact inv.setCall (.storeHandler _) rfl rfl (update_self ..)
  | testing endpoint decode handler =>
    simp only [System.callStep, pc] at went
    simp only [Allowed, returnsAtOnce, pc] at may
    by_cases swapped : decode ≠ system.decodeTemplate (config.header endpoint)
        ∨ handler ≠ system.messageHandler (config.header endpoint)
    · rw [if_pos swapped] at went may
      cases delivery : system.inDelivery caller with
      | true =>
        simp only [delivery, if_true] at went may
        cases went
        exact inv.finish may
      | false =>
        simp only [delivery, Bool.false_eq_true, if_false] at went
        cases went
        rw [pc] at sound
        exact inv.setCall .refl rfl rfl (Sampled.start sound delivery)
    · rw [if_neg swapped] at went may
      cases went
      exact inv.finish may
  | sampling endpoint remaining =>
    rw [pc] at sound
    cases remaining with simp only [System.callStep, pc] at went
    | cons actor rest =>
      cases went
      exact inv.setCall (.setArena fun _ _ => RecvActorArena.sample_settled) rfl rfl
        (Sampled.sample sound)
    | nil =>
      cases went
      exact inv.setCall .refl rfl rfl (Sampled.poll sound)
  | polling endpoint remaining =>
    rw [pc] at sound
    cases remaining with simp only [System.callStep, pc] at went
    | cons actor rest =>
      by_cases same :
          (system.arenas actor).actorRcuCounter = (system.arenas actor).actorCounter
      · rw [if_pos same] at went
        cases went
        exact inv.setCall .refl rfl rfl (Polled.again sound)
      · rw [if_neg same] at went
        cases went
        exact inv.setCall .refl rfl rfl (Polled.pass sound same)
    | nil =>
      cases went
      exact inv.finish (Polled.quiesced sound)
  | pausing remaining | resuming remaining =>
    cases remaining with simp only [System.callStep, pc] at went
    | cons actor rest =>
      cases went
      exact inv.setCall (.setArena fun _ _ => RecvActorArena.setRunning_settled _) rfl rfl
        trivial
    | nil =>
      cases went
      exact inv.setCall .refl rfl rfl trivial
  | pauseSampling actor rest =>
    simp only [System.callStep, pc] at went
    cases went
    exact inv.setCall (.setArena fun _ _ => RecvActorArena.sample_settled) rfl rfl trivial
  | pausePolling remaining =>
    cases remaining with simp only [System.callStep, pc] at went
    | cons actor rest =>
      by_cases same :
          (system.arenas actor).actorRcuCounter = (system.arenas actor).actorCounter
      · rw [if_pos same] at went
        cases went
        exact inv.setCall .refl rfl rfl trivial
      · rw [if_neg same] at went
        cases went
        exact inv.setCall .refl rfl rfl trivial
    | nil =>
      cases went
      exact inv.setCall .refl rfl rfl trivial

theorem Invariant.step (inv : system.Invariant config)
    {action : Action Actor Thread Header Endpoint} (may : system.Allowed config action)
    (went : system.step config action = some next) : next.Invariant config := by
  cases action with
  | actor actor action =>
    simp only [System.step, ite_none_right_eq_some, map_eq_some_iff] at went
    obtain ⟨_, arena, moved, rfl⟩ := went
    have frames : system.Frames (system.setArena actor arena) :=
      .setArena fun _ blank => RecvActorArena.step_settled blank moved
    exact inv.follow frames (fun _ => .inl rfl) (fun _ mem => .inl mem)
  | enter caller call =>
    simp only [System.step, ite_none_right_eq_some, some.injEq] at went
    obtain ⟨_, rfl⟩ := went
    cases call <;> exact inv.setCall .refl rfl rfl trivial
  | call caller => exact inv.callStep may went
  | errorEvent endpoint =>
    simp only [System.step] at went
    split at went <;> cases went
    · exact inv.follow .setStatus (fun _ => .inl rfl) (fun _ mem => .inl mem)
    · exact inv

/-- After `Close()` or `Shutdown()` has returned, the original `OnMessage` neither starts nor
runs in another thread, in every run in which the calls that do not wait have nothing to wait
for. -/
theorem close_quiesces {actions : List (Action Actor Thread Header Endpoint)}
    (allowed : Guarded (step config) (fun system action => system.Allowed config action)
      established actions) (ran : execute (step config) established actions = some system) :
    system.Quiet config :=
  (invariant_of_guarded
    (fun (invariant : Invariant config _) allowed stepped => invariant.step allowed stepped)
    (Invariant.established config) allowed ran).quiet

end

local instance two : NeZero 2 := ⟨by decide⟩

def twoActors : Config (Fin 2) Unit Unit where
  actorAreaList := [0, 1]
  listed := by decide
  header := id
  isSingleton := fun _ => false
  subEndpoints := fun _ => [()]

def firstMessage : List (Action (Fin 2) Unit Unit Unit) :=
  [.actor 0 (.receive ()), .actor 0 .deliverBegin, .actor 0 (.loadHandler 3), .actor 0 .onMessage]

/-- `Close()` up to the test whether `UninstallHandler` changed anything, that included. -/
def uninstalling (caller : Caller (Fin 2) Unit) : List (Action (Fin 2) Unit Unit Unit) :=
  .enter caller (.close ()) :: List.replicate 6 (.call caller)

/-- `Close()` on a thread of the application waits for the actor that delivers, which hands out
two messages more meanwhile; what arrives later goes to the blank handler. -/
def waitingClose : List (Action (Fin 2) Unit Unit Unit) :=
  firstMessage ++ uninstalling (.application ()) ++ List.replicate 5 (.call (.application ()))
    ++ [.actor 0 .onMessageReturns, .actor 0 .onMessage, .actor 0 .onMessageReturns,
      .actor 0 .onMessage, .actor 0 .onMessageReturns, .actor 0 .leaveLoop,
      .actor 0 .deliverEnd, .actor 0 .countPass, .actor 1 .countPass]
    ++ List.replicate 3 (.call (.application ()))
    ++ [.actor 0 (.receive ()), .actor 0 .deliverBegin, .actor 0 (.loadHandler 1),
      .actor 0 .onMessage]

theorem close_quiesces_waiting :
    ∃ system, execute (step twoActors) established waitingClose = some system ∧
      (system.returned = [(.application (), ())] ∧
        (system.arenas 0).pc = .inMessage () .blank 0 false) ∧ system.Quiet twoActors := by
  obtain ⟨system, ran, checked⟩ :
      ∃ system, execute (step twoActors) established waitingClose = some system ∧
        system.returned = [(.application (), ())] ∧
          (system.arenas 0).pc = .inMessage () .blank 0 false :=
    execute_check (by decide +kernel)
  exact ⟨system, ran, checked, close_quiesces (by decide +kernel) ran⟩

/-- `Close()` inside `OnMessage` returns at once, and the loop that delivers keeps the handler
it loaded. -/
theorem closed_inside_message_goes_on :
    ∃ system : System (Fin 2) Unit Unit Unit, execute (step twoActors) established
        (firstMessage ++ uninstalling (.actor 0)
          ++ [.actor 0 .onMessageReturns, .actor 0 .onMessage]) = some system ∧
      system.returned = [(.actor 0, ())] ∧ ¬system.Quiet twoActors :=
  execute_check (by decide +kernel)

end System

end AdkAaf.Adk.IoEngine.Quiescence
