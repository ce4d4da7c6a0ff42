import AdkAaf.Adk.IoEngine.Reconnect

/-! How an endpoint comes to the send actor and leaves it: `SendMessage` and `UnregTxEndpoint`
of any number of threads, `RegTxEndpoint`, `ActorThread` and `TxEpollThread`, where each access
to what they share is a step.

There is one endpoint, and of a queue of endpoints only how often it is in there. Which way the
actor takes because of the clock or of other endpoints is left open, and so is what `Send`
answers. -/

set_option autoImplicit false

namespace AdkAaf.Adk.IoEngine.TxSchedule

inductive Slot (Thread : Type) where
  | reserved (thread : Thread)
  | posted
  deriving DecidableEq

inductive ActorQueue where
  | activeEndpoints
  | activeEps
  | activeEps0
  | activeEps1
  deriving DecidableEq

inductive DriveMode where
  | kPoller
  | kReactor

structure Config where
  queueSize : Nat
  lowLatency : Bool
  driveMode : DriveMode

inductive IdlePc where
  | lock
  | setTxIdle
  | readHead
  | readTail (head : Nat)
  | atomicSetTxActive
  | addJob
  | unlock
  deriving DecidableEq

inductive ThreadPc where
  | outside
  | post
  | readStatus
  | atomicSetTxActive
  | addJob
  | atomicSetTxRelease
  | readBlock
  | writePipe
  deriving DecidableEq

inductive RegPc where
  | readHead
  | readTail (head : Nat)
  | setTxActive
  | addJob
  | idle (pc : IdlePc)
  | done
  deriving DecidableEq

/-- `result` is never `kDrop`. -/
inductive ActorPc where
  | away
  | popped (queue : ActorQueue)
  | send (queue : ActorQueue)
  | returned (queue : ActorQueue) (result : IoResult)
  | ePollAddW (queue : ActorQueue)
  | setTxBlock
  | idle (pc : IdlePc)
  deriving DecidableEq

inductive EpollPc where
  | wait
  | event (error : Bool)
  | addJob
  | ePollDel
  | ePollDelDropped
  | dropTxEndpoint
  deriving DecidableEq

/-- `released` notes that a thread has released the endpoint, or has taken it out of the
epoll set to release it. -/
structure State (Thread : Type) where
  txStatus : TxStatus := .kInit
  txStatusLock : Bool := false
  txValid : Bool := true
  releaseAlert : Bool := false
  head : Nat := 0
  txMessageQueue : List (Slot Thread) := []
  queues : ActorQueue → Nat := fun _ => 0
  inEpoll : Bool := false
  deletePipe : Nat := 0
  isRunning : Bool := true
  threads : Thread → ThreadPc := fun _ => .outside
  reg : RegPc := .readHead
  actor : ActorPc := .away
  epoll : EpollPc := .wait
  released : Bool := false

inductive Action (Thread : Type) where
  | sendMessage (thread : Thread)
  | unregTxEndpoint (thread : Thread)
  | next (thread : Thread)
  | returns (thread : Thread)
  | regTxEndpoint
  | pop (queue : ActorQueue)
  | elementAt
  | sent (count : Nat)
  | again
  | failed
  | push (queue : ActorQueue)
  | onTxEndpointIdle
  | onTxEndpointBlock (memory : Bool)
  | dropTxEndpoint
  | actor
  | ePollWait (error : Bool)
  | epoll
  | readPipe
  | close
  | stop

namespace State

variable {Thread : Type} [DecidableEq Thread]

variable (config : Config) (state : State Thread)

def addJob : State Thread :=
  { state with
    queues := fun queue => state.queues queue + if queue = .activeEndpoints then 1 else 0 }

def dropTxEndpoint : State Thread :=
  { state with txStatus := .kRelease, releaseAlert := true, released := true }

def setThread (thread : Thread) (pc : ThreadPc) : State Thread :=
  { state with threads := fun other => if other = thread then pc else state.threads other }

def tail : Nat := state.head + state.txMessageQueue.length

def onTxEndpointIdle : IdlePc → State Thread × Option IdlePc
  | .lock => ({ state with txStatusLock := true }, some .setTxIdle)
  | .setTxIdle => ({ state with txStatus := .kIdle }, some .readHead)
  | .readHead => (state, some (.readTail state.head))
  | .readTail head => (state, some (if state.tail = head then .unlock else .atomicSetTxActive))
  | .atomicSetTxActive =>
    if state.txStatus = .kIdle then
      ({ state with txStatus := .kActive }, some .addJob)
    else
      (state, some .unlock)
  | .addJob => (state.addJob, some .unlock)
  | .unlock => ({ state with txStatusLock := false }, none)

/-- The push of `SendMessage`, which does not wait. -/
def sendMessage (thread : Thread) : Option (State Thread) :=
  if state.threads thread = .outside then
    if state.releaseAlert ∨ config.queueSize ≤ state.txMessageQueue.length then
      some state
    else
      some ({ state with
        txMessageQueue := state.txMessageQueue ++ [Slot.reserved thread] }.setThread thread .post)
  else
    none

def unregTxEndpoint (thread : Thread) : Option (State Thread) :=
  if state.threads thread = .outside then
    if state.txStatusLock then some state
    else some (state.setThread thread .atomicSetTxRelease)
  else
    none

def post (thread : Thread) : State Thread :=
  { state with
    txMessageQueue := state.txMessageQueue.map fun slot =>
      if slot = .reserved thread then .posted else slot }

def threadNext (thread : Thread) : Option (State Thread) :=
  match state.threads thread with
  | .outside => none
  | .post => some ((state.post thread).setThread thread .readStatus)
  | .readStatus =>
    some (state.setThread thread
      (if state.txStatus = .kIdle then .atomicSetTxActive else .outside))
  | .atomicSetTxActive =>
    if state.txStatus = .kIdle then
      some ({ state with txStatus := .kActive }.setThread thread .addJob)
    else
      some (state.setThread thread .outside)
  | .addJob => some (state.addJob.setThread thread .outside)
  | .atomicSetTxRelease =>
    if state.txStatus = .kIdle then
      some ({ state with txStatus := .kRelease, released := true }.setThread thread .outside)
    else
      some (state.setThread thread .readBlock)
  | .readBlock =>
    some (state.setThread thread
      (if state.txStatus = .kBlock then .writePipe else .outside))
  | .writePipe =>
    some ({ state with deletePipe := state.deletePipe + 1 }.setThread thread .outside)

def threadReturns (thread : Thread) : Option (State Thread) :=
  if state.threads thread = .writePipe then some (state.setThread thread .outside) else none

def regTxEndpoint : Option (State Thread) :=
  match state.reg with
  | .readHead => some { state with reg := .readTail state.head }
  | .readTail head =>
    some { state with reg := if state.tail = head then .idle .lock else .setTxActive }
  | .setTxActive => some { state with txStatus := .kActive, reg := .addJob }
  | .addJob => some { state.addJob with reg := .done }
  | .idle pc =>
    match state.onTxEndpointIdle pc with
    | (state, some pc) => some { state with reg := .idle pc }
    | (state, none) => some { state with reg := .done }
  | .done => none

def pop (queue : ActorQueue) : Option (State Thread) :=
  if state.actor = .away ∧ state.queues queue ≠ 0 then
    some { state with
      actor := .popped queue
      queues := fun other => state.queues other - if other = queue then 1 else 0 }
  else
    none

def elementAt : Option (State Thread) :=
  match state.actor with
  | .popped queue =>
    match state.txMessageQueue with
    | .posted :: _ => some { state with actor := .send queue }
    | _ => some { state with actor := .returned queue .kActive1 }
  | _ => none

/-- So many messages are recycled, because they are sent or because the handler drops them. -/
def sent (count : Nat) : Option (State Thread) :=
  match state.actor with
  | .send queue =>
    if (∀ slot ∈ state.txMessageQueue.take count, slot = .posted) ∧
        count ≤ state.txMessageQueue.length ∧ count ≤ kTxBatchSize then
      some { state with
        head := state.head + count
        txMessageQueue := state.txMessageQueue.drop count
        actor := .returned queue .kActive0 }
    else
      none
  | _ => none

def again : Option (State Thread) :=
  match state.actor with
  | .send queue =>
    match config.driveMode with
    | .kPoller => some { state with actor := .ePollAddW queue }
    | .kReactor => some { state with actor := .returned queue .kActive0 }
  | _ => none

def failed : Option (State Thread) :=
  match state.actor with
  | .send _ => some { state.dropTxEndpoint with actor := .away }
  | _ => none

def mayPush :
    ActorQueue → IoResult → ActorQueue → Bool
  | .activeEps, .kActive0, .activeEps => true
  | .activeEps, .kActive1, .activeEps => config.lowLatency && state.txValid
  | .activeEps, .kActive1, .activeEps0 => true
  | .activeEps0, .kActive0, .activeEps => true
  | .activeEps0, .kActive0, .activeEps0 => true
  | .activeEps0, .kActive1, .activeEps0 => true
  | .activeEps0, .kActive1, .activeEps1 => true
  | .activeEndpoints, _, .activeEps => true
  | .activeEndpoints, _, .activeEps0 => true
  | .activeEps1, .kActive0, .activeEps => true
  | .activeEps1, .kActive0, .activeEps0 => true
  | .activeEps1, .kActive1, .activeEps1 => true
  | _, _, _ => false

def push (queue : ActorQueue) : Option (State Thread) :=
  match state.actor with
  | .returned origin result =>
    if state.mayPush config origin result queue then
      some { state with
        actor := .away
        queues := fun other => state.queues other + if other = queue then 1 else 0 }
    else
      none
  | _ => none

/-- An endpoint that is closed, or any when the actor has been stopped. -/
def mayDrop : Bool :=
  match state.actor with
  | .popped queue =>
    !state.isRunning || !state.txValid && (queue = .activeEps0 || queue = .activeEps1)
  | .returned .activeEps .kActive1 => config.lowLatency && !state.txValid
  | _ => false

def actorDrops : Option (State Thread) :=
  if state.mayDrop config then some { state.dropTxEndpoint with actor := .away } else none

/-- The endpoint has been idle in `active_eps_1` for some time. -/
def becomesIdle : Option (State Thread) :=
  if state.actor = .returned .activeEps1 .kActive1 then
    some { state with actor := .idle .lock }
  else
    none

/-- `EPollAddW` fails when the endpoint is in the set, or has no memory. -/
def ePollAddW (state : State Thread) (memory : Bool) : Option (State Thread) :=
  match state.actor with
  | .ePollAddW queue =>
    if state.inEpoll || !memory then
      some { state with actor := .returned queue .kActive0 }
    else
      some { state with inEpoll := true, actor := .setTxBlock }
  | _ => none

def actorNext : Option (State Thread) :=
  match state.actor with
  | .setTxBlock => some { state with txStatus := .kBlock, actor := .away }
  | .idle pc =>
    match state.onTxEndpointIdle pc with
    | (state, some pc) => some { state with actor := .idle pc }
    | (state, none) => some { state with actor := .away }
  | _ => none

def ePollWait (error : Bool) : Option (State Thread) :=
  if state.epoll = .wait ∧ state.inEpoll then some { state with epoll := .event error } else none

def epollNext : Option (State Thread) :=
  match state.epoll with
  | .wait => none
  | .event true => some { state.dropTxEndpoint with epoll := .ePollDelDropped }
  | .event false => some { state with txStatus := .kActive, epoll := .addJob }
  | .addJob => some { state.addJob with epoll := .ePollDel }
  | .ePollDel | .ePollDelDropped => some { state with inEpoll := false, epoll := .wait }
  | .dropTxEndpoint => some { state.dropTxEndpoint with epoll := .wait }

/-- `DropPollingEndpoint` -/
def readPipe : Option (State Thread) :=
  if state.epoll = .wait ∧ state.deletePipe ≠ 0 then
    let state := { state with deletePipe := state.deletePipe - 1 }
    if state.inEpoll then
      some { state with inEpoll := false, released := true, epoll := .dropTxEndpoint }
    else
      some state
  else
    none

end State

variable {Thread : Type} [DecidableEq Thread]

def step (config : Config) (state : State Thread) : Action Thread → Option (State Thread)
  | .sendMessage thread => state.sendMessage config thread
  | .unregTxEndpoint thread => state.unregTxEndpoint thread
  | .next thread => state.threadNext thread
  | .returns thread => state.threadReturns thread
  | .regTxEndpoint => state.regTxEndpoint
  | .pop queue => state.pop queue
  | .elementAt => state.elementAt
  | .sent count => state.sent count
  | .again => state.again config
  | .failed => state.failed
  | .push queue => state.push config queue
  | .onTxEndpointIdle => state.becomesIdle
  | .onTxEndpointBlock memory => state.ePollAddW memory
  | .dropTxEndpoint => state.actorDrops config
  | .actor => state.actorNext
  | .ePollWait error => state.ePollWait error
  | .epoll => state.epollNext
  | .readPipe => state.readPipe
  | .close => some { state with txValid := false }
  | .stop => some { state with isRunning := false }

end AdkAaf.Adk.IoEngine.TxSchedule
