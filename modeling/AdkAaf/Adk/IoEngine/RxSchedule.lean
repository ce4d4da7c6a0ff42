import AdkAaf.Adk.IoEngine.TxSchedule
import AdkAaf.Adk.QueueVariant.Spsc
import Mathlib.Data.Fintype.Card

/-! How endpoints come to the receive actors and leave them: `RegRxEndpoint`, `RxEpollThread`,
`ActorThread` of any number of actors, `SetRxCork` and `SetRxUncork`, and the threads that close
endpoints, where each access to what they share is a step.

The queue of jobs of an actor is an `SPSCQueue`; each thread in `AddJob` keeps the entry that
`SP_AllocEntry` gave it. Which actor is picked, which way the actor takes because of the clock
and what `Recv` answers are left open. -/

set_option autoImplicit false

namespace AdkAaf.Adk.IoEngine.RxSchedule

open QueueVariant Function
open TxSchedule (ActorQueue)

structure Config (Endpoint : Type) [Fintype Endpoint] where
  size : Nat
  sizeValid : Ring.SizeValid size
  capacity : Fintype.card Endpoint ≤ size
  lowLatency : Bool

/-- What `AddJob` does next; `slot` is that of the entry. -/
inductive AddJobPc (Actor : Type) where
  | setRxActive (actor : Actor)
  | allocEntry (actor : Actor)
  | write (actor : Actor) (slot : Nat)
  | loadPos (actor : Actor) (slot : Nat)
  | storePos (actor : Actor) (slot : Nat) (pos : Int)
  deriving DecidableEq

inductive ThreadPc (Actor Endpoint : Type) where
  | outside
  | addJob (endpoint : Endpoint) (pc : AddJobPc Actor)
  | setRxRelease (endpoint : Endpoint)
  | writePipe (endpoint : Endpoint)
  deriving DecidableEq

inductive EpollPc (Actor Endpoint : Type) where
  | wait
  | event (endpoint : Endpoint) (error : Bool)
  | addJob (endpoint : Endpoint) (pc : AddJobPc Actor)
  | ePollDel (endpoint : Endpoint)
  | ePollDelDropped (endpoint : Endpoint)
  | dropRxEndpoint (endpoint : Endpoint)
  deriving DecidableEq

inductive ActorPc (Endpoint : Type) where
  | away
  | popping
  | popped (queue : ActorQueue) (endpoint : Endpoint)
  | delivering (queue : ActorQueue) (endpoint : Endpoint)
  | storePre (queue : ActorQueue) (endpoint corked : Endpoint)
  | storeSet (endpoint : Endpoint)
  | returned (queue : ActorQueue) (endpoint : Endpoint) (result : IoResult)
  | ePollAddR (endpoint : Endpoint)
  | setRxPolling (endpoint : Endpoint)
  deriving DecidableEq

inductive RegPc where
  | ePollAddR
  | setRxPolling
  | done
  deriving DecidableEq

/-- `released` notes that a thread has released the endpoint, or has taken it from where it was
to release it. -/
structure State (Actor Thread Endpoint : Type) where
  rings : Actor → QueueVariant.Ring Endpoint
  locals : Actor → ActorQueue → List Endpoint
  actors : Actor → ActorPc Endpoint
  threads : Thread → ThreadPc Actor Endpoint
  epoll : EpollPc Actor Endpoint
  reg : Endpoint → RegPc
  inEpoll : Endpoint → Bool
  rxCork : Endpoint → EpRxCorkStat
  rxStatus : Endpoint → RxStatus
  rxValid : Endpoint → Bool
  deletePipe : List Endpoint
  asyncEvents : List Endpoint
  released : Endpoint → Bool

inductive Action (Actor Thread Endpoint : Type) where
  | regRxEndpoint (endpoint : Endpoint) (hasHandler memory : Bool)
  | pop (actor : Actor) (queue : ActorQueue)
  | received (actor : Actor)
  | setRxCork (actor : Actor) (endpoint : Endpoint)
  | delivered (actor : Actor)
  | again (actor : Actor)
  | failed (actor : Actor) (room : Bool)
  | push (actor : Actor) (queue : ActorQueue)
  | onRxEndpointBlock (actor : Actor)
  | ePollAddR (actor : Actor) (memory : Bool)
  | dropRxEndpoint (actor : Actor)
  | actor (actor : Actor)
  | setRxUncork (thread : Thread) (endpoint : Endpoint) (actor : Actor)
  | checkAndSetRxCorkLck (thread : Thread) (endpoint : Endpoint)
  | unregRxEndpoint (thread : Thread) (endpoint : Endpoint)
  | thread (thread : Thread)
  | ePollWait (endpoint : Endpoint) (error : Bool)
  | dispatchRxEndpoint (actor : Actor)
  | toDeliverEvent (room : Bool)
  | epoll
  | readPipe
  | setToDelete (endpoint : Endpoint)
  | doDeliverEvent (endpoint : Endpoint)

def initial {Actor Thread Endpoint : Type} (size : Nat) (pos : Actor → Nat → Int)
    (buffer : Actor → Nat → Endpoint) : State Actor Thread Endpoint where
  rings := fun actor => Ring.create size (pos actor) (buffer actor)
  locals := fun _ _ => []
  actors := fun _ => .away
  threads := fun _ => .outside
  epoll := .wait
  reg := fun _ => .ePollAddR
  inEpoll := fun _ => false
  rxCork := fun _ => .kRxCorkNot
  rxStatus := fun _ => .kInit
  rxValid := fun _ => true
  deletePipe := []
  asyncEvents := []
  released := fun _ => false

variable {Actor Thread Endpoint : Type}

namespace State

section

variable [DecidableEq Actor] [DecidableEq Thread] [DecidableEq Endpoint]
  (state : State Actor Thread Endpoint)

def setRing (actor : Actor) (ring : QueueVariant.Ring Endpoint) : State Actor Thread Endpoint :=
  { state with rings := update state.rings actor ring }

def setLocal (actor : Actor) (queue : ActorQueue) (endpoints : List Endpoint) :
    State Actor Thread Endpoint :=
  { state with
    locals := update state.locals actor
      (update (state.locals actor) queue endpoints) }

def setActor (actor : Actor) (pc : ActorPc Endpoint) : State Actor Thread Endpoint :=
  { state with actors := update state.actors actor pc }

variable (thread : Thread) (endpoint : Endpoint)

def setThread (pc : ThreadPc Actor Endpoint) : State Actor Thread Endpoint :=
  { state with threads := update state.threads thread pc }

def setEpoll (pc : EpollPc Actor Endpoint) : State Actor Thread Endpoint :=
  { state with epoll := pc }

def setReg (pc : RegPc) : State Actor Thread Endpoint :=
  { state with reg := update state.reg endpoint pc }

def setInEpoll (inEpoll : Bool) : State Actor Thread Endpoint :=
  { state with inEpoll := update state.inEpoll endpoint inEpoll }

def setCork (cork : EpRxCorkStat) : State Actor Thread Endpoint :=
  { state with rxCork := update state.rxCork endpoint cork }

def setStatus (status : RxStatus) : State Actor Thread Endpoint :=
  { state with rxStatus := update state.rxStatus endpoint status }

def release : State Actor Thread Endpoint :=
  { state with released := update state.released endpoint true }

def setRxRelease : State Actor Thread Endpoint :=
  (state.setCork endpoint .kRxCorkLck).setStatus endpoint .kRelease

def dropRxEndpoint : State Actor Thread Endpoint :=
  (state.release endpoint).setRxRelease endpoint

/-- `ToDeliverEvent`, which fails when the queue of events has no room. -/
def toDeliverEvent (room : Bool) : State Actor Thread Endpoint :=
  { state.release endpoint with
    asyncEvents := if room then endpoint :: state.asyncEvents else state.asyncEvents }

/-- The next access of `AddJob`, and where it is then. A queue that is full is an assertion;
without assertions the endpoint is not pushed. -/
def addJob (size : Nat) (endpoint : Endpoint) :
    AddJobPc Actor → State Actor Thread Endpoint × Option (AddJobPc Actor)
  | .setRxActive actor => (state.setStatus endpoint .kActive, some (.allocEntry actor))
  | .allocEntry actor =>
    let slot := Ring.slot size (state.rings actor).tail
    if (state.rings actor).pos slot > 0 then
      (state, none)
    else
      (state, some (.write actor slot))
  | .write actor slot =>
    let ring := state.rings actor
    (state.setRing actor { ring with buffer := update ring.buffer slot endpoint },
      some (.loadPos actor slot))
  | .loadPos actor slot =>
    (state, some (.storePos actor slot ((state.rings actor).pos slot)))
  | .storePos actor slot pos =>
    let ring := state.rings actor
    (state.setRing actor { ring with
      pos := update ring.pos slot (size - pos)
      tail := ring.tail + 1
      contents := ring.contents ++ [endpoint] }, none)

def regRxEndpoint (hasHandler memory : Bool) : Option (State Actor Thread Endpoint) :=
  match state.reg endpoint with
  | .ePollAddR =>
    if hasHandler && !state.inEpoll endpoint && memory then
      some ((state.setInEpoll endpoint true).setReg endpoint .setRxPolling)
    else
      some ((state.dropRxEndpoint endpoint).setReg endpoint .done)
  | .setRxPolling => some ((state.setStatus endpoint .kPolling).setReg endpoint .done)
  | .done => none

def pop (actor : Actor) (queue : ActorQueue) : Option (State Actor Thread Endpoint) :=
  if state.actors actor = .away then
    match queue with
    | .activeEndpoints =>
      some ((state.setRing actor (state.rings actor).startPop).setActor actor .popping)
    | queue =>
      match state.locals actor queue with
      | [] => none
      | endpoint :: rest =>
        some ((state.setLocal actor queue rest).setActor actor (.popped queue endpoint))
  else
    none

/-- `Recv` read something; what is complete is delivered. -/
def received (actor : Actor) : Option (State Actor Thread Endpoint) :=
  match state.actors actor with
  | .popped queue endpoint => some (state.setActor actor (.delivering queue endpoint))
  | _ => none

/-- `SetRxCorkPre` inside `OnMessage`, up to its check. -/
def setRxCork (actor : Actor) (corked : Endpoint) : Option (State Actor Thread Endpoint) :=
  match state.actors actor with
  | .delivering queue endpoint =>
    if state.rxCork corked = .kRxCorkLck then some state
    else some (state.setActor actor (.storePre queue endpoint corked))
  | _ => none

def delivered (actor : Actor) : Option (State Actor Thread Endpoint) :=
  match state.actors actor with
  | .delivering queue endpoint =>
    if state.rxCork endpoint = .kRxCorkPre then
      some (state.setActor actor (.storeSet endpoint))
    else
      some (state.setActor actor (.returned queue endpoint .kActive0))
  | _ => none

def again (actor : Actor) : Option (State Actor Thread Endpoint) :=
  match state.actors actor with
  | .popped queue endpoint => some (state.setActor actor (.returned queue endpoint .kActive1))
  | _ => none

def failed (actor : Actor) (room : Bool) : Option (State Actor Thread Endpoint) :=
  match state.actors actor with
  | .popped _ endpoint => some ((state.toDeliverEvent endpoint room).setActor actor .away)
  | _ => none

def mayPush (lowLatency valid : Bool) : ActorQueue → IoResult → ActorQueue → Bool
  | .activeEps, .kActive0, .activeEps => true
  | .activeEps, .kActive1, .activeEps => lowLatency && valid
  | .activeEps, .kActive1, .activeEps0 => true
  | .activeEps0, .kActive0, .activeEps => true
  | .activeEps0, .kActive0, .activeEps0 => true
  | .activeEps0, .kActive1, .activeEps0 => true
  | .activeEps0, .kActive1, .activeEps1 => true
  | .activeEndpoints, _, .activeEps => true
  | .activeEndpoints, _, .activeEps0 => true
  | .activeEps1, .kActive0, .activeEps => true
  | .activeEps1, .kActive0, .activeEps0 => true
  | .activeEps1, .kActive1, .activeEps1 => true
  | _, _, _ => false

def push (lowLatency : Bool) (actor : Actor) (queue : ActorQueue) :
    Option (State Actor Thread Endpoint) :=
  match state.actors actor with
  | .returned origin endpoint result =>
    if mayPush lowLatency (state.rxValid endpoint) origin result queue then
      some ((state.setLocal actor queue (state.locals actor queue ++ [endpoint])).setActor actor
        .away)
    else
      none
  | _ => none

def onRxEndpointBlock (actor : Actor) : Option (State Actor Thread Endpoint) :=
  match state.actors actor with
  | .returned .activeEps1 endpoint .kActive1 =>
    some (state.setActor actor (.ePollAddR endpoint))
  | _ => none

/-- `EPollAddR` fails when the endpoint is in the set, or has no memory. -/
def ePollAddR (actor : Actor) (memory : Bool) : Option (State Actor Thread Endpoint) :=
  match state.actors actor with
  | .ePollAddR endpoint =>
    if state.inEpoll endpoint || !memory then
      some ((state.setLocal actor .activeEps1
        (state.locals actor .activeEps1 ++ [endpoint])).setActor actor .away)
    else
      some ((state.setInEpoll endpoint true).setActor actor (.setRxPolling endpoint))
  | _ => none

def actorDrops (lowLatency : Bool) (actor : Actor) : Option (State Actor Thread Endpoint) :=
  match state.actors actor with
  | .popped .activeEps0 endpoint | .popped .activeEps1 endpoint =>
    if state.rxValid endpoint then none
    else some ((state.dropRxEndpoint endpoint).setActor actor .away)
  | .returned .activeEps endpoint .kActive1 =>
    if lowLatency && !state.rxValid endpoint then
      some ((state.dropRxEndpoint endpoint).setActor actor .away)
    else
      none
  | _ => none

def actorNext (size : Nat) (actor : Actor) : Option (State Actor Thread Endpoint) :=
  match state.actors actor with
  | .popping =>
    match Ring.stepPop size (state.rings actor) with
    | none => none
    | some (ring, .running) => some (state.setRing actor ring)
    | some (ring, .kQueueEmpty) => some ((state.setRing actor ring).setActor actor .away)
    | some (ring, .kSuccess endpoint) =>
      some ((state.setRing actor ring).setActor actor (.popped .activeEndpoints endpoint))
  | .storePre queue endpoint corked =>
    some ((state.setCork corked .kRxCorkPre).setActor actor (.delivering queue endpoint))
  | .storeSet endpoint => some ((state.setCork endpoint .kRxCorkSet).setActor actor .away)
  | .setRxPolling endpoint => some ((state.setStatus endpoint .kPolling).setActor actor .away)
  | _ => none

def setRxUncork (actor : Actor) : Option (State Actor Thread Endpoint) :=
  if state.threads thread = .outside then
    if state.rxCork endpoint = .kRxCorkSet then
      some ((state.setCork endpoint .kRxCorkNot).setThread thread
        (.addJob endpoint (.setRxActive actor)))
    else
      some state
  else
    none

def checkAndSetRxCorkLck : Option (State Actor Thread Endpoint) :=
  if state.threads thread = .outside then
    if state.rxCork endpoint = .kRxCorkSet then
      some (((state.setCork endpoint .kRxCorkLck).release endpoint).setThread thread
        (.setRxRelease endpoint))
    else
      some state
  else
    none

def unregRxEndpoint : Option (State Actor Thread Endpoint) :=
  if state.threads thread = .outside then
    if state.rxStatus endpoint = .kPolling then
      some (state.setThread thread (.writePipe endpoint))
    else
      some state
  else
    none

def threadNext (size : Nat) (thread : Thread) : Option (State Actor Thread Endpoint) :=
  match state.threads thread with
  | .outside => none
  | .addJob endpoint pc =>
    match state.addJob size endpoint pc with
    | (state, some pc) => some (state.setThread thread (.addJob endpoint pc))
    | (state, none) => some (state.setThread thread .outside)
  | .setRxRelease endpoint => some ((state.setRxRelease endpoint).setThread thread .outside)
  | .writePipe endpoint =>
    some ({ state with deletePipe := state.deletePipe ++ [endpoint] }.setThread thread .outside)

def ePollWait (error : Bool) : Option (State Actor Thread Endpoint) :=
  if state.epoll = .wait ∧ state.inEpoll endpoint then
    some (state.setEpoll (.event endpoint error))
  else
    none

def dispatchRxEndpoint (actor : Actor) : Option (State Actor Thread Endpoint) :=
  match state.epoll with
  | .event endpoint false => some (state.setEpoll (.addJob endpoint (.setRxActive actor)))
  | _ => none

def epollDropped (room : Bool) : Option (State Actor Thread Endpoint) :=
  match state.epoll with
  | .event endpoint true =>
    some ((state.toDeliverEvent endpoint room).setEpoll (.ePollDelDropped endpoint))
  | _ => none

def epollNext (size : Nat) : Option (State Actor Thread Endpoint) :=
  match state.epoll with
  | .wait | .event _ _ => none
  | .addJob endpoint pc =>
    match state.addJob size endpoint pc with
    | (state, some pc) => some (state.setEpoll (.addJob endpoint pc))
    | (state, none) => some (state.setEpoll (.ePollDel endpoint))
  | .ePollDel endpoint | .ePollDelDropped endpoint =>
    some ((state.setInEpoll endpoint false).setEpoll .wait)
  | .dropRxEndpoint endpoint => some ((state.setRxRelease endpoint).setEpoll .wait)

/-- `DropPollingEndpoint` -/
def readPipe : Option (State Actor Thread Endpoint) :=
  if state.epoll = .wait then
    match state.deletePipe with
    | [] => none
    | endpoint :: rest =>
      if state.inEpoll endpoint then
        some ((({ state with deletePipe := rest }.setInEpoll endpoint false).release
          endpoint).setEpoll (.dropRxEndpoint endpoint))
      else
        some { state with deletePipe := rest }
  else
    none

def setToDelete : State Actor Thread Endpoint :=
  { state with rxValid := update state.rxValid endpoint false }

def doDeliverEvent : Option (State Actor Thread Endpoint) :=
  if endpoint ∈ state.asyncEvents then
    some ({ state with asyncEvents := state.asyncEvents.erase endpoint }.setRxRelease endpoint)
  else
    none

end

end State

variable [DecidableEq Actor] [DecidableEq Thread] [DecidableEq Endpoint] [Fintype Endpoint]

def step (config : Config Endpoint) (state : State Actor Thread Endpoint) :
    Action Actor Thread Endpoint → Option (State Actor Thread Endpoint)
  | .regRxEndpoint endpoint hasHandler memory => state.regRxEndpoint endpoint hasHandler memory
  | .pop actor queue => state.pop actor queue
  | .received actor => state.received actor
  | .setRxCork actor endpoint => state.setRxCork actor endpoint
  | .delivered actor => state.delivered actor
  | .again actor => state.again actor
  | .failed actor room => state.failed actor room
  | .push actor queue => state.push config.lowLatency actor queue
  | .onRxEndpointBlock actor => state.onRxEndpointBlock actor
  | .ePollAddR actor memory => state.ePollAddR actor memory
  | .dropRxEndpoint actor => state.actorDrops config.lowLatency actor
  | .actor actor => state.actorNext config.size actor
  | .setRxUncork thread endpoint actor => state.setRxUncork thread endpoint actor
  | .checkAndSetRxCorkLck thread endpoint => state.checkAndSetRxCorkLck thread endpoint
  | .unregRxEndpoint thread endpoint => state.unregRxEndpoint thread endpoint
  | .thread thread => state.threadNext config.size thread
  | .ePollWait endpoint error => state.ePollWait endpoint error
  | .dispatchRxEndpoint actor => state.dispatchRxEndpoint actor
  | .toDeliverEvent room => state.epollDropped room
  | .epoll => state.epollNext config.size
  | .readPipe => state.readPipe
  | .setToDelete endpoint => some (state.setToDelete endpoint)
  | .doDeliverEvent endpoint => state.doDeliverEvent endpoint

end AdkAaf.Adk.IoEngine.RxSchedule
