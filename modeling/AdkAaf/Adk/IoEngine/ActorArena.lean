import Mathlib.Logic.Function.Basic

/-! One receive actor of `io_engine/io_thread.cpp` and the arena in which `DriveEngine` watches
it. Each action is one access to memory that other threads read or write: the pass counter,
`is_running`, and the handler of the endpoint header whose messages are delivered.

`DoDeliverMessage` loads `message_handler` once and hands it one message after another; how many
of them are complete in the buffer is fixed when the loop starts, and a cork or the answer of
the application may end it earlier. -/

set_option autoImplicit false

namespace AdkAaf.Adk.IoEngine.Quiescence

open Option

/-- The handler or the decode template of a header: the one of the application, or the blank
one of the engine. -/
inductive Installed where
  | original
  | blank
  deriving DecidableEq

/-- `left` counts the complete messages behind the current position of the loop. `called`
records that a call made inside this `OnMessage` closed an endpoint of its header. -/
inductive ActorPC (Header : Type) where
  | idle
  | beginning (header : Header)
  | delivering (header : Header)
  | looping (header : Header) (handler : Installed) (left : Nat)
  | inMessage (header : Header) (handler : Installed) (left : Nat) (called : Bool)
  deriving DecidableEq

structure RecvActorArena (Header : Type) where
  pc : ActorPC Header := .idle
  isRunning : Bool := true
  actorCounter : UInt64 := 0
  actorRcuCounter : UInt64 := 0

inductive ActorAction (Header : Type) where
  | receive (header : Header)
  | deliverBegin
  | loadHandler (messages : Nat)
  | onMessage
  | onMessageReturns
  | leaveLoop
  | deliverEnd
  | countPass

variable {Header : Type}

namespace ActorPC

def isDelivering : ActorPC Header → Bool
  | .idle | .beginning _ => false
  | .delivering _ | .looping _ _ _ | .inMessage _ _ _ _ => true

/-- The application can only call the engine on an actor in one of its callbacks. -/
def inCallback : ActorPC Header → Bool
  | .idle | .inMessage _ _ _ _ => true
  | .beginning _ | .delivering _ | .looping _ _ _ => false

def Holds (header : Header) : ActorPC Header → Prop
  | .looping own .original _ => own = header
  | .inMessage own .original _ _ => own = header
  | _ => False

def MayRun (header : Header) : ActorPC Header → Prop
  | .looping own .original (_ + 1) => own = header
  | .inMessage own .original _ _ => own = header
  | _ => False

def WillStart (header : Header) : ActorPC Header → Prop
  | .looping own .original (_ + 1) => own = header
  | .inMessage own .original (_ + 1) _ => own = header
  | _ => False

def Runs (header : Header) : ActorPC Header → Prop
  | .inMessage own .original _ _ => own = header
  | _ => False

def RunsElsewhere (header : Header) : ActorPC Header → Prop
  | .inMessage own .original _ false => own = header
  | _ => False

instance MayRun.decidable [DecidableEq Header] (header : Header) :
    DecidablePred (MayRun header)
  | .looping _ .original (_ + 1) | .inMessage _ .original _ _ => by
    unfold MayRun
    infer_instance
  | .idle | .beginning _ | .delivering _ | .looping _ .original 0 | .looping _ .blank _
  | .inMessage _ .blank _ _ => isFalse id

instance WillStart.decidable [DecidableEq Header] (header : Header) :
    DecidablePred (WillStart header)
  | .looping _ .original (_ + 1) | .inMessage _ .original (_ + 1) _ => by
    unfold WillStart
    infer_instance
  | .idle | .beginning _ | .delivering _ | .looping _ .original 0 | .looping _ .blank _
  | .inMessage _ .original 0 _ | .inMessage _ .blank _ _ => isFalse id

instance Runs.decidable [DecidableEq Header] (header : Header) : DecidablePred (Runs header)
  | .inMessage _ .original _ _ => by
    unfold Runs
    infer_instance
  | .idle | .beginning _ | .delivering _ | .looping _ _ _ | .inMessage _ .blank _ _ =>
    isFalse id

instance RunsElsewhere.decidable [DecidableEq Header] (header : Header) :
    DecidablePred (RunsElsewhere header)
  | .inMessage _ .original _ false => by
    unfold RunsElsewhere
    infer_instance
  | .idle | .beginning _ | .delivering _ | .looping _ _ _ | .inMessage _ .original _ true
  | .inMessage _ .blank _ _ => isFalse id

variable {header : Header} {pc : ActorPC Header}

theorem MayRun.holds (mayRun : pc.MayRun header) : pc.Holds header := by
  cases pc with
  | idle | beginning _ | delivering _ => exact mayRun.elim
  | looping own handler left =>
    cases handler with
    | original =>
      cases left with
      | zero => exact mayRun.elim
      | succ left => exact mayRun
    | blank => exact mayRun.elim
  | inMessage own handler left called =>
    cases handler with
    | original => exact mayRun
    | blank => exact mayRun.elim

theorem WillStart.mayRun (willStart : pc.WillStart header) : pc.MayRun header := by
  cases pc with
  | idle | beginning _ | delivering _ => exact willStart.elim
  | looping own handler left | inMessage own handler left called =>
    cases handler with
    | original =>
      cases left with
      | zero => exact willStart.elim
      | succ left => exact willStart
    | blank => exact willStart.elim

theorem Runs.mayRun (runs : pc.Runs header) : pc.MayRun header := by
  cases pc with
  | inMessage own handler left called =>
    cases handler with
    | original => exact runs
    | blank => exact runs.elim
  | _ => exact runs.elim

theorem RunsElsewhere.mayRun (runs : pc.RunsElsewhere header) : pc.MayRun header := by
  cases pc with
  | inMessage own handler left called =>
    cases handler with
    | original =>
      cases called with
      | false => exact runs
      | true => exact runs.elim
    | blank => exact runs.elim
  | _ => exact runs.elim

theorem Holds.isDelivering (holds : pc.Holds header) : pc.isDelivering = true := by
  cases pc with
  | idle | beginning _ | delivering _ => exact holds.elim
  | looping _ _ _ | inMessage _ _ _ _ => rfl

section

variable [DecidableEq Header]

def markCalled (header : Header) : ActorPC Header → ActorPC Header
  | .inMessage own handler left called =>
    .inMessage own handler left (called || decide (own = header))
  | pc => pc

variable {own : Header}

@[simp] theorem markCalled_holds : (pc.markCalled own).Holds header ↔ pc.Holds header := by
  cases pc with
  | inMessage _ handler _ _ => cases handler <;> rfl
  | _ => rfl

@[simp] theorem markCalled_mayRun : (pc.markCalled own).MayRun header ↔ pc.MayRun header := by
  cases pc with
  | inMessage _ handler _ _ => cases handler <;> rfl
  | _ => rfl

@[simp] theorem markCalled_willStart :
    (pc.markCalled own).WillStart header ↔ pc.WillStart header := by
  cases pc with
  | inMessage _ handler left _ => cases handler <;> cases left <;> rfl
  | _ => rfl

theorem RunsElsewhere.of_markCalled (runs : (pc.markCalled own).RunsElsewhere header) :
    pc.RunsElsewhere header := by
  cases pc with
  | inMessage _ handler _ called =>
    cases handler with
    | blank => exact runs.elim
    | original =>
      cases called with
      | true => exact runs.elim
      | false => exact runs.mayRun
  | _ => exact runs.elim

theorem not_runsElsewhere_markCalled : ¬(pc.markCalled header).RunsElsewhere header := by
  intro runs
  cases pc with
  | inMessage own handler left called =>
    cases handler with
    | blank => exact runs.elim
    | original =>
      have same : own = header := runs.mayRun
      simp only [markCalled, same, decide_true, Bool.or_true] at runs
      exact runs
  | _ => exact runs.elim

end

end ActorPC

namespace RecvActorArena

/-- `message_deliver_begin` spins while the actor is paused and counts each turn;
`message_handler` is read for every loop of a delivery. -/
def step (messageHandler : Header → Installed) (arena : RecvActorArena Header) :
    ActorAction Header → Option (RecvActorArena Header)
  | .receive header =>
    match arena.pc with
    | .idle => some { arena with pc := .beginning header }
    | _ => none
  | .deliverBegin =>
    match arena.pc with
    | .beginning header =>
      if arena.isRunning then
        some { arena with pc := .delivering header }
      else
        some { arena with actorCounter := arena.actorCounter + 1 }
    | _ => none
  | .loadHandler messages =>
    match arena.pc with
    | .delivering header =>
      some { arena with pc := .looping header (messageHandler header) messages }
    | _ => none
  | .onMessage =>
    match arena.pc with
    | .looping header handler (left + 1) =>
      some { arena with pc := .inMessage header handler left false }
    | _ => none
  | .onMessageReturns =>
    match arena.pc with
    | .inMessage header handler left _ =>
      some { arena with pc := .looping header handler left }
    | _ => none
  | .leaveLoop =>
    match arena.pc with
    | .looping header _ _ => some { arena with pc := .delivering header }
    | _ => none
  | .deliverEnd =>
    match arena.pc with
    | .delivering _ => some { arena with pc := .idle }
    | _ => none
  | .countPass =>
    match arena.pc with
    | .idle => some { arena with actorCounter := arena.actorCounter + 1 }
    | _ => none

def sample (arena : RecvActorArena Header) : RecvActorArena Header :=
  { arena with actorRcuCounter := arena.actorCounter }

def setRunning (arena : RecvActorArena Header) (isRunning : Bool) : RecvActorArena Header :=
  { arena with isRunning := isRunning }

def markCalled [DecidableEq Header] (arena : RecvActorArena Header) (header : Header) :
    RecvActorArena Header :=
  { arena with pc := arena.pc.markCalled header }

/-- The counter moved since it was sampled only if the original handler was given up. -/
def Graced (header : Header) (arena : RecvActorArena Header) : Prop :=
  arena.actorRcuCounter = arena.actorCounter ∨ ¬arena.pc.Holds header

/-- After a call that returned inside its own `OnMessage` of the header. -/
def Spent (header : Header) (arena : RecvActorArena Header) : Prop :=
  ¬arena.pc.WillStart header ∧ ¬arena.pc.RunsElsewhere header

/-- What no step of the actor, nor of those that watch it, undoes once the handler of the header
is the blank one. -/
structure Settled (header : Header) (arena next : RecvActorArena Header) : Prop where
  holds : ¬arena.pc.Holds header → ¬next.pc.Holds header
  mayRun : ¬arena.pc.MayRun header → ¬next.pc.MayRun header
  spent : arena.Spent header → next.Spent header
  graced : arena.Graced header → next.Graced header

variable {arena : RecvActorArena Header}

variable {header : Header}

theorem Settled.rfl : arena.Settled header arena where
  holds := id
  mayRun := id
  spent := id
  graced := id

theorem Graced.of_not_holds (gone : ¬arena.pc.Holds header) : arena.Graced header :=
  .inr gone

theorem Spent.of_not_mayRun (gone : ¬arena.pc.MayRun header) : arena.Spent header :=
  ⟨fun willStart => gone willStart.mayRun, fun runs => gone runs.mayRun⟩

variable {next : RecvActorArena Header}

theorem Settled.of_not_holds (gone : ¬next.pc.Holds header) : arena.Settled header next where
  holds _ := gone
  mayRun _ mayRun := gone mayRun.holds
  spent _ := .of_not_mayRun fun mayRun => gone mayRun.holds
  graced _ := .of_not_holds gone

theorem step_settled {messageHandler : Header → Installed} {action : ActorAction Header}
    (blank : messageHandler header = .blank)
    (went : arena.step messageHandler action = some next) : arena.Settled header next := by
  obtain ⟨pc, isRunning, counter, rcu⟩ := arena
  cases action with
  | deliverBegin =>
    cases pc <;> simp only [step, reduceCtorEq] at went
    cases isRunning with
    | true =>
      simp only [if_true] at went
      cases went
      exact .of_not_holds id
    | false =>
      simp only [Bool.false_eq_true, if_false] at went
      cases went
      exact .of_not_holds id
  | loadHandler messages =>
    cases pc <;> simp only [step, reduceCtorEq, some.injEq] at went
    next own =>
      subst went
      apply Settled.of_not_holds
      intro holds
      cases loaded : messageHandler own with simp only [loaded] at holds
      | blank => exact holds
      | original =>
        have same : own = header := holds
        rw [same, blank] at loaded
        cases loaded
  | onMessage =>
    cases pc <;> simp only [step, reduceCtorEq] at went
    next own handler left =>
      cases left with
      | zero => cases went
      | succ left =>
        simp only [some.injEq] at went
        subst went
        cases handler with
        | blank => exact .of_not_holds id
        | original =>
          by_cases same : own = header
          · constructor
            · intro gone
              exact absurd same gone
            · intro gone
              exact absurd same gone
            · intro spent
              exact absurd same spent.1
            · exact id
          · exact .of_not_holds same
  | onMessageReturns =>
    cases pc <;> simp only [step, reduceCtorEq, some.injEq] at went
    next own handler left called =>
      subst went
      cases handler with
      | blank => exact .of_not_holds id
      | original =>
        by_cases same : own = header
        · constructor
          · exact id
          · intro gone
            exact absurd same gone
          · intro spent
            cases left with
            | zero => exact ⟨id, id⟩
            | succ left => exact absurd same spent.1
          · exact id
        · exact .of_not_holds same
  | _ =>
    cases pc <;> simp only [step, reduceCtorEq] at went
    cases went
    exact .of_not_holds id

theorem sample_settled : arena.Settled header arena.sample where
  holds := id
  mayRun := id
  spent := id
  graced _ := .inl rfl

theorem setRunning_settled (isRunning : Bool) :
    arena.Settled header (arena.setRunning isRunning) where
  holds := id
  mayRun := id
  spent := id
  graced := id

section

variable [DecidableEq Header]

theorem markCalled_settled (own : Header) : arena.Settled header (arena.markCalled own) where
  holds gone := fun holds => gone (ActorPC.markCalled_holds.mp holds)
  mayRun gone := fun mayRun => gone (ActorPC.markCalled_mayRun.mp mayRun)
  spent spent := ⟨fun willStart => spent.1 (ActorPC.markCalled_willStart.mp willStart),
    fun runs => spent.2 runs.of_markCalled⟩
  graced graced := graced.imp id fun gone holds => gone (ActorPC.markCalled_holds.mp holds)

theorem markCalled_spent (last : ¬arena.pc.WillStart header) :
    (arena.markCalled header).Spent header :=
  ⟨fun willStart => last (ActorPC.markCalled_willStart.mp willStart),
    ActorPC.not_runsElsewhere_markCalled⟩

end

end RecvActorArena

end AdkAaf.Adk.IoEngine.Quiescence
