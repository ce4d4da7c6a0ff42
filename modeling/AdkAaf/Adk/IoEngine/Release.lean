import AdkAaf.Adk.IoEngine.TxRelease
import AdkAaf.Adk.IoEngine.RxRelease
import AdkAaf.Lib.SharedCounter
import Mathlib.Data.Fintype.Sum
import Mathlib.Tactic.DeriveFintype

/-! Both directions of the endpoints, the counters of the epoll sets and the control actor:
when `is_release` recognises an endpoint as released.

The send direction of each endpoint is a `TxSchedule` of its own. `dispatch1` counts what is put
into an epoll set and `dispatch2` what is taken out of it; the latter is incremented by the epoll
thread and, where the endpoint was in the set already, by the actor, each by a load and a
store. -/

set_option autoImplicit false
set_option linter.unusedSectionVars false

namespace AdkAaf.Adk.IoEngine.Release

open Lib Function

/-- Who increments `dispatch2`; the registrar is the control actor. -/
inductive Party (Actor : Type) where
  | registrar
  | actor (actor : Actor)
  | epoll
  deriving DecidableEq, Fintype

/-- Where the node of an endpoint in `heartbeat_monitor_` is. -/
inductive Heartbeat where
  | registering
  | monitored
  | left
  deriving DecidableEq

structure Engine (Actor Thread Endpoint : Type) where
  tx : Endpoint → TxSchedule.State Thread
  rx : RxSchedule.State Actor Thread Endpoint
  txDispatch1 : Endpoint → Nat
  txDispatch2 : Endpoint → SharedCounter (Party Unit)
  rxDispatch1 : Endpoint → Nat
  rxDispatch2 : Endpoint → SharedCounter (Party Actor)
  phyStatus : Endpoint → PhyStatus
  heartbeat : Endpoint → Heartbeat

structure Config (Endpoint : Type) [Fintype Endpoint] where
  tx : TxSchedule.Config
  rx : RxSchedule.Config Endpoint

/-- `tx` and `rx` are steps of one direction, `txDispatch2` and `rxDispatch2` the load or the
store of an increment. -/
inductive Action (Actor Thread Endpoint : Type) where
  | tx (endpoint : Endpoint) (action : TxSchedule.Action Thread)
  | rx (action : RxSchedule.Action Actor Thread Endpoint)
  | txDispatch2 (endpoint : Endpoint) (party : Party Unit)
  | rxDispatch2 (endpoint : Endpoint) (party : Party Actor)
  | setToDelete (endpoint : Endpoint)
  | diagnoseHeartbeat (endpoint : Endpoint) (dropped : Bool)

variable {Actor Thread Endpoint : Type}

def txParty : TxSchedule.Action Thread → Option (Party Unit)
  | .pop _ | .elementAt | .sent _ | .again | .failed | .push _ | .onTxEndpointIdle
  | .onTxEndpointBlock _ | .dropTxEndpoint | .actor => some (.actor ())
  | .ePollWait _ | .epoll | .readPipe => some .epoll
  | _ => none

def rxParty : RxSchedule.Action Actor Thread Endpoint → Option (Party Actor)
  | .pop actor _ | .received actor | .setRxCork actor _ | .delivered actor | .again actor
  | .failed actor _ | .push actor _ | .onRxEndpointBlock actor | .ePollAddR actor _
  | .dropRxEndpoint actor | .actor actor => some (.actor actor)
  | .ePollWait _ _ | .dispatchRxEndpoint _ | .toDeliverEvent _ | .epoll | .readPipe => some .epoll
  | .regRxEndpoint _ _ _ | .doDeliverEvent _ => some .registrar
  | _ => none

def txAdds : TxSchedule.Action Thread → Bool
  | .onTxEndpointBlock _ => true
  | _ => false

/-- `EPollAddW` fails, or `EPollDel` is called. -/
def txDeletes (state : TxSchedule.State Thread) : TxSchedule.Action Thread → Option (Party Unit)
  | .onTxEndpointBlock memory =>
    if state.inEpoll || !memory then some (.actor ()) else none
  | .epoll =>
    match state.epoll with
    | .ePollDel | .ePollDelDropped => some .epoll
    | _ => none
  | .readPipe => if state.inEpoll then some .epoll else none
  | _ => none

def rxAdds (state : RxSchedule.State Actor Thread Endpoint) :
    RxSchedule.Action Actor Thread Endpoint → Option Endpoint
  | .regRxEndpoint endpoint hasHandler _ =>
    if state.reg endpoint = .ePollAddR ∧ hasHandler = true then some endpoint else none
  | .ePollAddR actor _ =>
    match state.actors actor with
    | .ePollAddR endpoint => some endpoint
    | _ => none
  | _ => none

/-- `EPollAddR` fails, or `EPollDel` is called. -/
def rxDeletes (state : RxSchedule.State Actor Thread Endpoint) :
    RxSchedule.Action Actor Thread Endpoint → Option (Endpoint × Party Actor)
  | .regRxEndpoint endpoint hasHandler memory =>
    if state.reg endpoint = .ePollAddR ∧ hasHandler = true ∧
        (state.inEpoll endpoint || !memory) = true then
      some (endpoint, .registrar)
    else
      none
  | .ePollAddR actor memory =>
    match state.actors actor with
    | .ePollAddR endpoint =>
      if state.inEpoll endpoint || !memory then some (endpoint, .actor actor) else none
    | _ => none
  | .epoll =>
    match state.epoll with
    | .ePollDel endpoint | .ePollDelDropped endpoint => some (endpoint, .epoll)
    | _ => none
  | .readPipe =>
    match state.deletePipe with
    | [] => none
    | endpoint :: _ => if state.inEpoll endpoint then some (endpoint, .epoll) else none
  | _ => none

namespace Engine

variable [DecidableEq Actor] [DecidableEq Thread] [DecidableEq Endpoint] [Fintype Endpoint]

variable (config : Config Endpoint) (engine : Engine Actor Thread Endpoint)

/-- `++tx_dispatch1_nr` or the begin of `++tx_dispatch2_nr`. -/
def countTx (endpoint : Endpoint) (adds : Bool) (deletes : Option (Party Unit)) :
    Engine Actor Thread Endpoint :=
  { engine with
    txDispatch1 := update engine.txDispatch1 endpoint
      (engine.txDispatch1 endpoint + if adds then 1 else 0)
    txDispatch2 := match deletes with
      | none => engine.txDispatch2
      | some party => update engine.txDispatch2 endpoint
          ((engine.txDispatch2 endpoint).start party) }

def countRx (adds : Option Endpoint) (deletes : Option (Endpoint × Party Actor)) :
    Engine Actor Thread Endpoint :=
  { engine with
    rxDispatch1 := match adds with
      | none => engine.rxDispatch1
      | some endpoint => update engine.rxDispatch1 endpoint
          (engine.rxDispatch1 endpoint + 1)
    rxDispatch2 := match deletes with
      | none => engine.rxDispatch2
      | some (endpoint, party) => update engine.rxDispatch2 endpoint
          ((engine.rxDispatch2 endpoint).start party) }

/-- A step of the send direction. An actor or an epoll thread that increments a counter does
nothing else before. -/
def stepTx (endpoint : Endpoint) (action : TxSchedule.Action Thread) :
    Option (Engine Actor Thread Endpoint) :=
  if ∀ party, txParty action = some party →
      (engine.txDispatch2 endpoint).threads party = .outside then
    (TxSchedule.step config.tx (engine.tx endpoint) action).map fun next =>
      { engine with tx := update engine.tx endpoint next }.countTx endpoint
        (txAdds action) (txDeletes (engine.tx endpoint) action)
  else
    none

def stepRx (action : RxSchedule.Action Actor Thread Endpoint) :
    Option (Engine Actor Thread Endpoint) :=
  if ∀ party, rxParty action = some party →
      ∀ endpoint, (engine.rxDispatch2 endpoint).threads party = .outside then
    (RxSchedule.step config.rx engine.rx action).map fun next =>
      { engine with rx := next }.countRx (rxAdds engine.rx action) (rxDeletes engine.rx action)
  else
    none

/-- `EPollAddR` fails in `RegRxEndpoint`. -/
def regFails (endpoint : Endpoint) (hasHandler memory : Bool) : Prop :=
  engine.rx.reg endpoint = .ePollAddR ∧ hasHandler = true ∧
    (engine.rx.inEpoll endpoint || !memory) = true

instance (engine : Engine Actor Thread Endpoint) (endpoint : Endpoint)
    (hasHandler memory : Bool) : Decidable (engine.regFails endpoint hasHandler memory) :=
  inferInstanceAs (Decidable (_ ∧ _))

/-- The control actor in `RegEndpoint`, behind `RegTxEndpoint`. -/
def regEndpoint (endpoint : Endpoint) (hasHandler memory : Bool) :
    Option (Engine Actor Thread Endpoint) :=
  if (engine.tx endpoint).reg = .done then
    (engine.stepRx config (.regRxEndpoint endpoint hasHandler memory)).map fun next =>
      if engine.regFails endpoint hasHandler memory then
        { next with
          tx := update next.tx endpoint (next.tx endpoint).dropTxEndpoint
          phyStatus := update next.phyStatus endpoint .kRelease
          heartbeat := update next.heartbeat endpoint .left }
      else if next.rx.reg endpoint = .done then
        { next with heartbeat := update next.heartbeat endpoint .monitored }
      else
        next
  else
    none

def doDeliverEvent (config : Config Endpoint) (engine : Engine Actor Thread Endpoint)
    (endpoint : Endpoint) : Option (Engine Actor Thread Endpoint) :=
  (engine.stepRx config (.doDeliverEvent endpoint)).map fun next =>
    { next with phyStatus := update next.phyStatus endpoint .kRelease }

def setToDelete (engine : Engine Actor Thread Endpoint) (endpoint : Endpoint) :
    Engine Actor Thread Endpoint :=
  { engine with
    phyStatus := update engine.phyStatus endpoint
      (match engine.phyStatus endpoint with
      | .kConnecting | .kEstablished => .kToDelete
      | status => status)
    tx := update engine.tx endpoint { engine.tx endpoint with txValid := false }
    rx := engine.rx.setToDelete endpoint }

/-- A node of `heartbeat_monitor_`; `dropped` when the endpoint was dropped a moment ago, or when
a timeout is to be delivered and is not. -/
def diagnoseHeartbeat (endpoint : Endpoint) (dropped : Bool) :
    Option (Engine Actor Thread Endpoint) :=
  if engine.heartbeat endpoint = .monitored then
    if dropped ∨ engine.phyStatus endpoint ≠ .kEstablished then
      some { engine with
        phyStatus := update engine.phyStatus endpoint .kRelease
        heartbeat := update engine.heartbeat endpoint .left }
    else
      some engine
  else
    none

end Engine

variable [DecidableEq Actor] [DecidableEq Thread] [DecidableEq Endpoint] [Fintype Endpoint]

def step (config : Config Endpoint) (engine : Engine Actor Thread Endpoint) :
    Action Actor Thread Endpoint → Option (Engine Actor Thread Endpoint)
  | .tx endpoint action => engine.stepTx config endpoint action
  | .rx (.regRxEndpoint endpoint hasHandler memory) =>
    engine.regEndpoint config endpoint hasHandler memory
  | .rx (.doDeliverEvent endpoint) => engine.doDeliverEvent config endpoint
  | .rx action => engine.stepRx config action
  | .txDispatch2 endpoint party =>
    ((engine.txDispatch2 endpoint).next party).map fun counter =>
      { engine with txDispatch2 := update engine.txDispatch2 endpoint counter }
  | .rxDispatch2 endpoint party =>
    ((engine.rxDispatch2 endpoint).next party).map fun counter =>
      { engine with rxDispatch2 := update engine.rxDispatch2 endpoint counter }
  | .setToDelete endpoint => some (engine.setToDelete endpoint)
  | .diagnoseHeartbeat endpoint dropped => engine.diagnoseHeartbeat endpoint dropped

def initial (size : Nat) (pos : Actor → Nat → Int) (buffer : Actor → Nat → Endpoint) :
    Engine Actor Thread Endpoint where
  tx := fun _ => {}
  rx := RxSchedule.initial size pos buffer
  txDispatch1 := fun _ => 0
  txDispatch2 := fun _ => {}
  rxDispatch1 := fun _ => 0
  rxDispatch2 := fun _ => {}
  phyStatus := fun _ => .kEstablished
  heartbeat := fun _ => .registering

def Engine.isRelease (engine : Engine Actor Thread Endpoint) (endpoint : Endpoint) : Bool :=
  (engine.tx endpoint).txStatus = .kRelease &&
    (engine.txDispatch2 endpoint).value = engine.txDispatch1 endpoint &&
    engine.rx.rxStatus endpoint = .kRelease &&
    (engine.rxDispatch2 endpoint).value = engine.rxDispatch1 endpoint &&
    engine.phyStatus endpoint = .kRelease

/-- Somebody has to do with the endpoint: with one of its directions, with a counter, or with
its heartbeat. -/
def Engine.Attended (engine : Engine Actor Thread Endpoint) (endpoint : Endpoint) : Prop :=
  (engine.tx endpoint).Attended ∨ engine.rx.Attended endpoint ∨
    (∃ party, (engine.txDispatch2 endpoint).threads party ≠ .outside) ∨
    (∃ party, (engine.rxDispatch2 endpoint).threads party ≠ .outside) ∨
    engine.heartbeat endpoint ≠ .left

/-- No thread stores that an endpoint is released while another is about to store that it is
blocked or polled, registration fails only for an endpoint that has nothing to send, no event is
dropped, and no two threads increment a counter at once. -/
def Allowed (engine : Engine Actor Thread Endpoint) : Action Actor Thread Endpoint → Prop
  | .tx endpoint action => TxSchedule.Allowed (engine.tx endpoint) action
  | .rx action =>
    RxSchedule.ReleaseAllowed engine.rx action ∧
      match action with
      | .regRxEndpoint endpoint hasHandler memory =>
        engine.regFails endpoint hasHandler memory →
          (engine.tx endpoint).txStatus = .kIdle ∨ (engine.tx endpoint).txStatus = .kRelease
      | _ => True
  | .txDispatch2 endpoint party => (engine.txDispatch2 endpoint).Alone party
  | .rxDispatch2 endpoint party => (engine.rxDispatch2 endpoint).Alone party
  | .setToDelete _ | .diagnoseHeartbeat _ _ => True

end AdkAaf.Adk.IoEngine.Release
