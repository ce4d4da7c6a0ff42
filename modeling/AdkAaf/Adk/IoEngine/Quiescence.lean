import AdkAaf.Adk.IoEngine.ActorArena
import AdkAaf.Adk.IoEngine.Reconnect

/-! `Endpoint::Close()` and `Endpoint::Shutdown()` against the receive actors. Both swap the
handlers of the endpoint header for the blank ones (`UninstallHandler`) and then wait until every
other actor has moved its counter (`RxActorRCU`); `Pause` and `Resume` use the same counters.

`endpoint_header->lock` and `actor_area_lock_` are left out, so that the steps of two calls may
also mix where the code keeps them apart. The engine runs throughout. -/

set_option autoImplicit false

namespace AdkAaf.Adk.IoEngine.Quiescence

open Function

/-- `ep_status_ < EpStatus::kToClose`. -/
def isAlive : EpStatus → Bool
  | .kInit | .kRunning => true
  | .kToClose | .kInvalid => false

/-- A call is made in a callback on a receive actor, or on a thread of the application. -/
inductive Caller (Actor Thread : Type) where
  | actor (actor : Actor)
  | application (thread : Thread)
  deriving DecidableEq

structure Config (Actor Header Endpoint : Type) where
  actorAreaList : List Actor
  listed : ∀ actor, actor ∈ actorAreaList
  header : Endpoint → Header
  isSingleton : Header → Bool
  subEndpoints : Header → List Endpoint

inductive Call (Endpoint : Type) where
  | close (endpoint : Endpoint)
  | shutdown (endpoint : Endpoint)
  | pause
  | resume

inductive CallPC (Actor Endpoint : Type) where
  | outside
  | closing (endpoint : Endpoint)
  | choosing (endpoint : Endpoint) (remaining : List Endpoint)
  | shutting (endpoint : Endpoint)
  | loadingDecode (endpoint : Endpoint)
  | loadingHandler (endpoint : Endpoint) (decode : Installed)
  | storingDecode (endpoint : Endpoint) (decode handler : Installed)
  | storingHandler (endpoint : Endpoint) (decode handler : Installed)
  | testing (endpoint : Endpoint) (decode handler : Installed)
  | sampling (endpoint : Endpoint) (remaining : List Actor)
  | polling (endpoint : Endpoint) (remaining : List Actor)
  | pausing (remaining : List Actor)
  | pauseSampling (actor : Actor) (remaining : List Actor)
  | pausePolling (remaining : List Actor)
  | resuming (remaining : List Actor)
  deriving DecidableEq

/-- `returned` records which calls of `Close()` and `Shutdown()` returned to whom. -/
structure System (Actor Thread Header Endpoint : Type) where
  epStatus : Endpoint → EpStatus
  decodeTemplate : Header → Installed
  messageHandler : Header → Installed
  arenas : Actor → RecvActorArena Header
  calls : Caller Actor Thread → CallPC Actor Endpoint
  returned : List (Caller Actor Thread × Endpoint) := []

def established {Actor Thread Header Endpoint : Type} : System Actor Thread Header Endpoint where
  epStatus := fun _ => .kRunning
  decodeTemplate := fun _ => .original
  messageHandler := fun _ => .original
  arenas := fun _ => {}
  calls := fun _ => .outside

inductive Action (Actor Thread Header Endpoint : Type) where
  | actor (actor : Actor) (action : ActorAction Header)
  | enter (caller : Caller Actor Thread) (call : Call Endpoint)
  | call (caller : Caller Actor Thread)
  | errorEvent (endpoint : Endpoint)

variable {Actor Thread Header Endpoint : Type}

namespace System

section

variable [DecidableEq Actor] [DecidableEq Thread] [DecidableEq Header] [DecidableEq Endpoint]
  (config : Config Actor Header Endpoint) (system : System Actor Thread Header Endpoint)

def setArena (actor : Actor) (arena : RecvActorArena Header) :
    System Actor Thread Header Endpoint :=
  { system with arenas := update system.arenas actor arena }

variable (caller : Caller Actor Thread) (endpoint : Endpoint)

def setCall (pc : CallPC Actor Endpoint) : System Actor Thread Header Endpoint :=
  { system with calls := update system.calls caller pc }

def setStatus (status : EpStatus) : System Actor Thread Header Endpoint :=
  { system with epStatus := update system.epStatus endpoint status }

/-- `IOActor::current_actor_arena()->delivering`, where there is an arena. -/
def inDelivery : Caller Actor Thread → Bool
  | .actor actor => (system.arenas actor).pc.isDelivering
  | .application _ => false

def mayCall : Caller Actor Thread → Bool
  | .actor actor => (system.arenas actor).pc.inCallback
  | .application _ => true

def otherArenas : List Actor :=
  config.actorAreaList.filter fun actor => caller ≠ .actor actor

def finish : System Actor Thread Header Endpoint :=
  let returning := { system with returned := (caller, endpoint) :: system.returned }
  match caller with
  | .actor actor =>
    (returning.setArena actor
      ((system.arenas actor).markCalled (config.header endpoint))).setCall caller .outside
  | .application _ => returning.setCall caller .outside

def enter : Call Endpoint → System Actor Thread Header Endpoint
  | .close endpoint => system.setCall caller (.closing endpoint)
  | .shutdown endpoint => system.setCall caller (.shutting endpoint)
  | .pause => system.setCall caller (.pausing config.actorAreaList)
  | .resume => system.setCall caller (.resuming config.actorAreaList)

/-- `Close()`, `Shutdown()`, `UninstallHandler()`, `RxActorRCU()`, `PauseRxActor()` and
`ResumeRxActor()`. -/
def callStep : Option (System Actor Thread Header Endpoint) :=
  match system.calls caller with
  | .outside => none
  | .closing endpoint =>
    if system.epStatus endpoint = .kToClose then
      some (system.finish config caller endpoint)
    else if config.isSingleton (config.header endpoint) then
      some ((system.setStatus endpoint .kToClose).setCall caller
        (.choosing endpoint (config.subEndpoints (config.header endpoint))))
    else
      some ((system.setStatus endpoint .kToClose).setCall caller (.loadingDecode endpoint))
  | .choosing endpoint [] => some (system.setCall caller (.loadingDecode endpoint))
  | .choosing endpoint (sub :: rest) =>
    if sub = endpoint then
      some (system.setCall caller (.choosing endpoint rest))
    else if isAlive (system.epStatus sub) then
      some (system.finish config caller endpoint)
    else
      some (system.setCall caller (.choosing endpoint rest))
  | .shutting endpoint =>
    if isAlive (system.epStatus endpoint) then
      some ((system.setStatus endpoint .kInvalid).setCall caller (.loadingDecode endpoint))
    else
      some (system.finish config caller endpoint)
  | .loadingDecode endpoint =>
    some (system.setCall caller
      (.loadingHandler endpoint (system.decodeTemplate (config.header endpoint))))
  | .loadingHandler endpoint decode =>
    some (system.setCall caller
      (.storingDecode endpoint decode (system.messageHandler (config.header endpoint))))
  | .storingDecode endpoint decode handler => some
      ({ system with
        decodeTemplate := update system.decodeTemplate (config.header endpoint)
          .blank }.setCall caller (.storingHandler endpoint decode handler))
  | .storingHandler endpoint decode handler => some
      ({ system with
        messageHandler := update system.messageHandler (config.header endpoint)
          .blank }.setCall caller (.testing endpoint decode handler))
  | .testing endpoint decode handler =>
    if decode ≠ system.decodeTemplate (config.header endpoint)
        ∨ handler ≠ system.messageHandler (config.header endpoint) then
      if system.inDelivery caller then
        some (system.finish config caller endpoint)
      else
        some (system.setCall caller (.sampling endpoint (otherArenas config caller)))
    else
      some (system.finish config caller endpoint)
  | .sampling endpoint (actor :: rest) =>
    some ((system.setArena actor (system.arenas actor).sample).setCall caller
      (.sampling endpoint rest))
  | .sampling endpoint [] =>
    some (system.setCall caller (.polling endpoint (otherArenas config caller)))
  | .polling endpoint (actor :: rest) =>
    if (system.arenas actor).actorRcuCounter = (system.arenas actor).actorCounter then
      some (system.setCall caller (.polling endpoint (otherArenas config caller)))
    else
      some (system.setCall caller (.polling endpoint rest))
  | .polling endpoint [] => some (system.finish config caller endpoint)
  | .pausing (actor :: rest) =>
    some ((system.setArena actor ((system.arenas actor).setRunning false)).setCall caller
      (.pauseSampling actor rest))
  | .pauseSampling actor rest =>
    some ((system.setArena actor (system.arenas actor).sample).setCall caller (.pausing rest))
  | .pausing [] => some (system.setCall caller (.pausePolling (otherArenas config caller)))
  | .pausePolling (actor :: rest) =>
    if (system.arenas actor).actorRcuCounter = (system.arenas actor).actorCounter then
      some (system.setCall caller (.pausePolling (otherArenas config caller)))
    else
      some (system.setCall caller (.pausePolling rest))
  | .pausePolling [] | .resuming [] => some (system.setCall caller .outside)
  | .resuming (actor :: rest) =>
    some ((system.setArena actor ((system.arenas actor).setRunning true)).setCall caller
      (.resuming rest))

/-- An actor goes on only when the call made in its callback has returned. -/
def step (config : Config Actor Header Endpoint) (system : System Actor Thread Header Endpoint) :
    Action Actor Thread Header Endpoint → Option (System Actor Thread Header Endpoint)
  | .actor actor action =>
    if system.calls (.actor actor) = .outside then
      ((system.arenas actor).step system.messageHandler action).map (system.setArena actor)
    else
      none
  | .enter caller call =>
    if system.calls caller = .outside ∧ system.mayCall caller then
      some (system.enter config caller call)
    else
      none
  | .call caller => system.callStep config caller
  | .errorEvent endpoint =>
    if isAlive (system.epStatus endpoint) then
      some (system.setStatus endpoint .kInvalid)
    else
      some system

end

section

variable [DecidableEq Actor] [DecidableEq Thread] (config : Config Actor Header Endpoint)
  (system : System Actor Thread Header Endpoint)

/-- The original `OnMessage` of no endpoint whose call returned runs, but for the one that the
call was made from. -/
def Quiet : Prop :=
  ∀ entry ∈ system.returned, ∀ actor ∈ config.actorAreaList,
    if entry.1 = .actor actor then
      ¬(system.arenas actor).pc.RunsElsewhere (config.header entry.2)
    else
      ¬(system.arenas actor).pc.Runs (config.header entry.2)

/-- The handler is swapped, no other actor has messages left for the original one, and behind
the message that the caller is called from there is none either. -/
def Quiesced (caller : Caller Actor Thread) (header : Header) : Prop :=
  system.messageHandler header = .blank ∧
    ∀ actor ∈ config.actorAreaList,
      if caller = .actor actor then
        ¬(system.arenas actor).pc.WillStart header
      else
        ¬(system.arenas actor).pc.MayRun header

variable [DecidableEq Endpoint]

/-- The call is about to return without having waited for an actor: the endpoint was closed or
invalid before, another endpoint of its connection is alive, the handlers were blank before, or
the caller is itself in a delivery. -/
def returnsAtOnce (caller : Caller Actor Thread) : Option Endpoint :=
  match system.calls caller with
  | .closing endpoint => if system.epStatus endpoint = .kToClose then some endpoint else none
  | .choosing endpoint (sub :: _) =>
    if sub = endpoint then
      none
    else if isAlive (system.epStatus sub) then
      some endpoint
    else
      none
  | .shutting endpoint =>
    if isAlive (system.epStatus endpoint) then none else some endpoint
  | .testing endpoint decode handler =>
    if decode ≠ system.decodeTemplate (config.header endpoint)
        ∨ handler ≠ system.messageHandler (config.header endpoint) then
      if system.inDelivery caller then some endpoint else none
    else
      some endpoint
  | _ => none

def Allowed : Action Actor Thread Header Endpoint → Prop
  | .call caller =>
    match system.returnsAtOnce config caller with
    | some endpoint => system.Quiesced config caller (config.header endpoint)
    | none => True
  | .actor _ _ | .enter _ _ | .errorEvent _ => True

variable [DecidableEq Header]

instance (caller : Caller Actor Thread) (header : Header) :
    Decidable (system.Quiesced config caller header) := by
  unfold Quiesced
  infer_instance

instance : Decidable (system.Quiet config) := by
  unfold Quiet
  infer_instance

instance Allowed.decidable :
    ∀ action : Action Actor Thread Header Endpoint, Decidable (system.Allowed config action)
  | .call caller =>
    let waitless : Decidable (match system.returnsAtOnce config caller with
        | some endpoint => system.Quiesced config caller (config.header endpoint)
        | none => True) :=
      match system.returnsAtOnce config caller with
      | some _ => inferInstance
      | none => isTrue trivial
    waitless
  | .actor _ _ | .enter _ _ | .errorEvent _ => isTrue trivial

end

end System

end AdkAaf.Adk.IoEngine.Quiescence
