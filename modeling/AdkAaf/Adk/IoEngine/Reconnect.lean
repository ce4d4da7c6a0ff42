import AdkAaf.Adk.IoEngine.TxStream
import AdkAaf.Adk.IoEngine.Deliver

/-! `TcpEndpoint::Reconnect`, and what the new connection starts with. -/

set_option autoImplicit false

namespace AdkAaf.Adk.IoEngine

open Lib List

inductive TxStatus where
  | kInit
  | kIdle
  | kActive
  | kBlock
  | kRelease
  deriving DecidableEq

inductive RxStatus where
  | kInit
  | kActive
  | kPolling
  | kRelease
  deriving DecidableEq

inductive PhyStatus where
  | kConnecting
  | kEstablished
  | kToDelete
  | kRelease
  | kStatusMax
  deriving DecidableEq

inductive EpStatus where
  | kInit
  | kRunning
  | kToClose
  | kInvalid
  deriving DecidableEq

inductive EpRxCorkStat where
  | kRxCorkNot
  | kRxCorkPre
  | kRxCorkSet
  | kRxCorkLck
  deriving DecidableEq

/-- An endpoint and its header. `releaseAlert` is that of the queue, `chained` that the
endpoint is in `sub_endpoints`, and in front of it where it is no singleton. -/
structure TcpEndpoint where
  tx : EndpointHeader
  txStatus : TxStatus
  txValid : Bool
  txSchTime : Nat
  releaseAlert : Bool
  rx : DeliverMessage
  rxStatus : RxStatus
  rxValid : Bool
  rxSchTime : Nat
  rxCorkStt : EpRxCorkStat
  phyStatus : PhyStatus
  epStatus : EpStatus
  isSingleton : Bool
  chained : Bool
  verify : Bool
  remoteIp : String
  remotePort : Nat

def kInvalidPort : Nat := 0

inductive ErrorCode where
  | kFailure (info : Option String)
  | kNoMemory

namespace TcpEndpoint

def checkReconnect (endpoint : TcpEndpoint) (remoteIp : String) (remotePort : Nat) :
    Except ErrorCode Unit :=
  if remoteIp = "" ∨ remotePort = kInvalidPort then
    .error (.kFailure (some "remote address is invalid"))
  else if !endpoint.verify then
    .error (.kFailure (some "endpoint is invalid"))
  else if endpoint.phyStatus ≠ .kRelease then
    .error (.kFailure (some "endpoint status invalid"))
  else if endpoint.isSingleton ∧
      (remoteIp ≠ endpoint.remoteIp ∨ remotePort ≠ endpoint.remotePort) then
    .error (.kFailure (some "singleton endpoint not support to reconnect another destination"))
  else if !endpoint.chained then
    .error (.kFailure (some "endpoint is invalid"))
  else if endpoint.epStatus = .kToClose then
    .error (.kFailure (some "endpoint is closed"))
  else
    .ok ()

/-- A queue with a release alert is replaced, and its messages are deleted. The counters of
bytes and messages are those of the new connection. -/
def renewQueue (endpoint : TcpEndpoint) : TcpEndpoint :=
  let queue := if endpoint.releaseAlert then [] else endpoint.tx.txMessageQueue
  { endpoint with
    releaseAlert := false
    tx := { endpoint.tx with
      txMessageQueue := queue, socket := [], released := [], pushed := queue } }

/-- `Reconnect`, where the loop that waits for the actors to drop the endpoint has ended.
`created` is whether there is memory for a new queue, `opened` whether `CreateITcpEndpoint`
succeeds. -/
def reconnect (endpoint : TcpEndpoint) (remoteIp : String) (remotePort : Nat)
    (created opened : Bool) : Except ErrorCode TcpEndpoint := do
  endpoint.checkReconnect remoteIp remotePort
  if endpoint.releaseAlert && !created then
    throw .kNoMemory
  let endpoint := endpoint.renewQueue
  if !opened then
    throw (.kFailure none)
  return { endpoint with
    epStatus := .kInit
    txStatus := .kInit
    txValid := true
    txSchTime := 0
    rxStatus := .kInit
    rxValid := true
    rxSchTime := 0
    rxCorkStt := .kRxCorkNot
    phyStatus := .kConnecting }

end TcpEndpoint

section Handed

variable {answer : List (List UInt8) → List UInt8 → HandlerResult}
  {lengthOf : Option (List (List UInt8) → List UInt8 → Int)}

end Handed

section Sent

variable {config : TxQueueConfig} {header : EndpointHeader}

variable {header : EndpointHeader}

end Sent

section Reconnects

variable {config : TxQueueConfig} {endpoint after : TcpEndpoint} {remoteIp : String}
  {remotePort : Nat} {created opened : Bool}

theorem reconnect_inv (ran : endpoint.reconnect remoteIp remotePort created opened = .ok after) :
    after.tx = endpoint.renewQueue.tx ∧ after.rx = endpoint.rx := by
  rw [TcpEndpoint.reconnect] at ran
  cases checked : endpoint.checkReconnect remoteIp remotePort with rw [checked] at ran
  | error code => cases ran
  | ok _ =>
    change (if _ then _ else _) = _ at ran
    split at ran
    next => cases ran
    next =>
      split at ran <;> cases ran
      exact ⟨rfl, rfl⟩

theorem reconnect_placed (between : endpoint.tx.txConsumeFlag = 0)
    (ran : endpoint.reconnect remoteIp remotePort created opened = .ok after) :
    after.tx.Placed := by
  obtain ⟨tx, _⟩ := reconnect_inv ran
  rw [tx]
  refine ⟨rfl, ?_⟩
  change Inside endpoint.tx.txConsumeFlag _
  rw [between]
  exact inside_zero _

/-- The send side of an endpoint whose earlier connections all broke between two messages. -/
inductive Connected (config : TxQueueConfig) : EndpointHeader → Prop
  | init : Connected config {}
  | step {header next : EndpointHeader} {action : Action} (before : Connected config header)
      (stepped : step config header action = some next) : Connected config next
  | reconnect {endpoint after : TcpEndpoint} {remoteIp : String} {remotePort : Nat}
      {created opened : Bool} (before : Connected config endpoint.tx)
      (between : endpoint.tx.txConsumeFlag = 0)
      (ran : endpoint.reconnect remoteIp remotePort created opened = .ok after) :
      Connected config after.tx

theorem Connected.placed {header : EndpointHeader} (connected : Connected config header) :
    header.Placed := by
  induction connected with
  | init => exact ⟨rfl, rfl⟩
  | step before went placed => exact step_placed placed went
  | reconnect before between ran placed => exact reconnect_placed between ran

theorem Connected.run {header final : EndpointHeader} {acts : List Action}
    (connected : Connected config header)
    (ran : execute (IoEngine.step config) header acts = some final) : Connected config final :=
  invariant_of_execute .step connected ran

end Reconnects

end AdkAaf.Adk.IoEngine
