import AdkAaf.Lib.Transition
import Mathlib.Algebra.Group.Nat.Defs

/-! The advanced follower. The agent posts every entry to a trial ring and to a
realtime ring; the trial process runs the application on an entry first, and the
realtime process delivers an entry once `flr_launch_->nr_shm_processed_sqn` has
passed it. The trial process may die between any two statements of
`PollingMessage`; the realtime process then steps over the entry that killed it,
if there is one, and forks a new trial process.

A ring is the list of entries posted to it and the number of entries freed. The
processes are interleaved statement by statement. -/

set_option autoImplicit false

namespace AdkAaf.Sharding.TrialFollower

inductive ShmMsgType where
  | amiRxMsg
  | amiEvent
  | shardingPost
  deriving DecidableEq

/-- An entry of the rx rings. `totalOrderSqn` is what `ShmRxMessage` has at that
offset; in an event these are bytes of something else. -/
structure RxEntry (Body : Type) where
  msgType : ShmMsgType
  totalOrderSqn : UInt64
  body : Body
  deriving DecidableEq

/-- What a `ContEntry*` refers to: a position of the ring and the entry there. -/
structure ContEntry (Body : Type) where
  index : Nat
  content : RxEntry Body
  deriving DecidableEq

structure RxRing (Body : Type) where
  posted : List (RxEntry Body) := []
  head : Nat := 0

inductive RingName where
  | trial
  | realtime
  deriving DecidableEq

structure FlrProxyLaunchShm where
  nrMsgDeliverdSqn : UInt64 := 0
  nrMsgProcessedSqn : UInt64 := 0
  nrShmProcessedSqn : UInt64 := 0

inductive TrialPC (Body : Type) where
  | tryWaitEntry
  | storeDeliverdSqn (entry : ContEntry Body)
  | deliverMessage (entry : ContEntry Body)
  | storeProcessedSqn (entry : ContEntry Body)
  | deliveEvent (entry : ContEntry Body)
  | countShmProcessed (entry : ContEntry Body)
  | storeShmProcessedSqn (entry : ContEntry Body)
  | freeEntry (entry : ContEntry Body)

/-- A trial process: its local `rx_cont_shm`, its `ctx_data.nr_shm_processed_sqn`
and its program counter. -/
structure Trial (Body : Type) where
  rxContShm : RingName
  nrShmProcessedSqn : UInt64
  pc : TrialPC Body := .tryWaitEntry

/-- The two callers of `OnTrialError`. -/
inductive ErrorCaller where
  | waitTrialProcess
  | checkAndFixTrial
  deriving DecidableEq

/-- The statement of the realtime process that comes next, in `PollingMessage`
or in the functions it calls. -/
inductive RealtimePC (Body : Type) where
  | tryWaitEntry
  | waitTrialProcess (entry : ContEntry Body)
  | isTrialAlive (entry : ContEntry Body)
  | deliver (entry : ContEntry Body)
  | countShmProcessed
  | freeEntry
  | checkAndFixTrial
  | onTrialError (caller : ErrorCaller)
  | skipRealtime (caller : ErrorCaller)
  | skipTrial (caller : ErrorCaller) (totalOrderSqn : UInt64)
  | startTrialProcess (caller : ErrorCaller)
  deriving DecidableEq

structure Realtime (Body : Type) where
  nrShmProcessedSqn : UInt64 := 0
  pc : RealtimePC Body := .tryWaitEntry

/-- A call of `StartTrialProcess`: the counter the child inherits, the ring its
`rx_cont_shm` names, and the index of the entry it will read there next. -/
structure TrialStart where
  nrShmProcessedSqn : UInt64
  rxContShm : RingName
  nextIndex : Nat
  deriving DecidableEq

/-- `posting` is the second half of a post under `rx_spinlock_`. `completed` are
the entries some trial process has finished handling, `delivered` those the
realtime process has given to the application. -/
structure System (Body : Type) where
  posting : Option (RingName × RxEntry Body) := none
  trialRing : RxRing Body := {}
  realtimeRing : RxRing Body := {}
  flrLaunch : FlrProxyLaunchShm := {}
  trial : Option (Trial Body) := none
  realtime : Realtime Body := {}
  completed : List (ContEntry Body) := []
  delivered : List (ContEntry Body) := []
  started : List TrialStart := []

inductive Action (Body : Type) where
  | postFirst (entry : RxEntry Body)
  | postSecond
  | trialStep
  | trialDies
  | realtimeStep

section Steps

variable {Body : Type}

def RxRing.tryWaitEntry (ring : RxRing Body) : Option (ContEntry Body) :=
  ring.posted[ring.head]?.map fun content => ⟨ring.head, content⟩

def RxRing.postEntry (ring : RxRing Body) (entry : RxEntry Body) : RxRing Body :=
  { ring with posted := ring.posted ++ [entry] }

def RxRing.freeEntry (ring : RxRing Body) : RxRing Body :=
  { ring with head := ring.head + 1 }

namespace System

def ring (system : System Body) : RingName → RxRing Body
  | .trial => system.trialRing
  | .realtime => system.realtimeRing

def setRing (system : System Body) (name : RingName) (ring : RxRing Body) : System Body :=
  match name with
  | .trial => { system with trialRing := ring }
  | .realtime => { system with realtimeRing := ring }

def setTrialPC (system : System Body) (trial : Trial Body) (pc : TrialPC Body) : System Body :=
  { system with trial := some { trial with pc := pc } }

def setRealtimePC (system : System Body) (pc : RealtimePC Body) : System Body :=
  { system with realtime := { system.realtime with pc := pc } }

/-- `DeliverFlrMessage` posts to the trial ring first, `PushEvent` and
`ShardingPost` to the realtime ring. -/
def postOrder : ShmMsgType → RingName × RingName
  | .amiRxMsg => (.trial, .realtime)
  | .amiEvent | .shardingPost => (.realtime, .trial)

def postFirst (system : System Body) (entry : RxEntry Body) : Option (System Body) :=
  match system.posting with
  | some _ => none
  | none =>
    let (first, second) := postOrder entry.msgType
    some { system.setRing first ((system.ring first).postEntry entry) with
      posting := some (second, entry) }

def postSecond (system : System Body) : Option (System Body) :=
  match system.posting with
  | none => none
  | some (second, entry) =>
    some { system.setRing second ((system.ring second).postEntry entry) with posting := none }

def trialStep (system : System Body) : Option (System Body) :=
  match system.trial with
  | none => none
  | some trial =>
    match trial.pc with
    | .tryWaitEntry =>
      (system.ring trial.rxContShm).tryWaitEntry.map fun entry =>
        match entry.content.msgType with
        | .amiRxMsg => system.setTrialPC trial (.storeDeliverdSqn entry)
        | .amiEvent | .shardingPost => system.setTrialPC trial (.deliveEvent entry)
    | .storeDeliverdSqn entry => some
        { system.setTrialPC trial (.deliverMessage entry) with
          flrLaunch :=
            { system.flrLaunch with nrMsgDeliverdSqn := entry.content.totalOrderSqn } }
    | .deliverMessage entry => some
        { system.setTrialPC trial (.storeProcessedSqn entry) with
          completed := system.completed ++ [entry] }
    | .storeProcessedSqn entry => some
        { system.setTrialPC trial (.countShmProcessed entry) with
          flrLaunch :=
            { system.flrLaunch with nrMsgProcessedSqn := entry.content.totalOrderSqn } }
    | .deliveEvent entry => some
        { system.setTrialPC trial (.countShmProcessed entry) with
          completed := system.completed ++ [entry] }
    | .countShmProcessed entry => some
        (system.setTrialPC { trial with nrShmProcessedSqn := trial.nrShmProcessedSqn + 1 }
          (.storeShmProcessedSqn entry))
    | .storeShmProcessedSqn entry => some
        { system.setTrialPC trial (.freeEntry entry) with
          flrLaunch :=
            { system.flrLaunch with nrShmProcessedSqn := trial.nrShmProcessedSqn } }
    | .freeEntry _ => some
        ((system.setTrialPC trial .tryWaitEntry).setRing trial.rxContShm
          (system.ring trial.rxContShm).freeEntry)

def trialDies (system : System Body) : Option (System Body) :=
  match system.trial with
  | none => none
  | some _ => some { system with trial := none }

/-- The child returns into `PollingMessage`. Behind `WaitTrialProcess` the local
`rx_cont_shm` is read again and names the trial ring; behind `CheckAndFixTrial`
the loop goes on with the parent's value. -/
def childRing : ErrorCaller → RingName
  | .waitTrialProcess => .trial
  | .checkAndFixTrial => .realtime

def startTrialProcess (system : System Body) (rxContShm : RingName) : System Body :=
  { system with
    trial := some
      { rxContShm := rxContShm, nrShmProcessedSqn := system.realtime.nrShmProcessedSqn }
    started := system.started ++
      [{ nrShmProcessedSqn := system.realtime.nrShmProcessedSqn
         rxContShm := rxContShm
         nextIndex := (system.ring rxContShm).head }] }

def realtimeStep (system : System Body) : Option (System Body) :=
  match system.realtime.pc with
  | .tryWaitEntry =>
    match system.realtimeRing.tryWaitEntry with
    | some entry => some (system.setRealtimePC (.waitTrialProcess entry))
    | none => some (system.setRealtimePC .checkAndFixTrial)
  | .waitTrialProcess entry =>
    if system.realtime.nrShmProcessedSqn ≥ system.flrLaunch.nrShmProcessedSqn then
      some (system.setRealtimePC (.isTrialAlive entry))
    else
      some (system.setRealtimePC (.deliver entry))
  | .isTrialAlive entry =>
    if system.trial.isSome then
      some (system.setRealtimePC (.waitTrialProcess entry))
    -- a dead trial stores nothing more, so reading the counter again is one step with this
    else if system.realtime.nrShmProcessedSqn < system.flrLaunch.nrShmProcessedSqn then
      some (system.setRealtimePC (.deliver entry))
    else
      some (system.setRealtimePC (.onTrialError .waitTrialProcess))
  | .deliver entry => some
      { system.setRealtimePC .countShmProcessed with delivered := system.delivered ++ [entry] }
  | .countShmProcessed => some
      { system with
        realtime :=
          { nrShmProcessedSqn := system.realtime.nrShmProcessedSqn + 1, pc := .freeEntry } }
  | .freeEntry => some
      { system.setRealtimePC .tryWaitEntry with realtimeRing := system.realtimeRing.freeEntry }
  | .checkAndFixTrial =>
    if system.trial.isSome then
      some (system.setRealtimePC .tryWaitEntry)
    else if system.realtime.nrShmProcessedSqn < system.flrLaunch.nrShmProcessedSqn then
      some (system.setRealtimePC .tryWaitEntry)
    else
      some (system.setRealtimePC (.onTrialError .checkAndFixTrial))
  | .onTrialError caller =>
    if system.flrLaunch.nrMsgProcessedSqn ≠ system.flrLaunch.nrMsgDeliverdSqn then
      some (system.setRealtimePC (.skipRealtime caller))
    else
      some (system.setRealtimePC (.startTrialProcess caller))
  | .skipRealtime caller =>
    system.realtimeRing.tryWaitEntry.map fun entry =>
      { system.setRealtimePC (.skipTrial caller entry.content.totalOrderSqn) with
        realtimeRing := system.realtimeRing.freeEntry }
  -- no trial is alive here, so the stores behind this `WaitEntry` are one step with it
  | .skipTrial caller totalOrderSqn =>
    system.trialRing.tryWaitEntry.map fun _ =>
      { system with
        trialRing := system.trialRing.freeEntry
        flrLaunch :=
          { system.flrLaunch with
            nrMsgProcessedSqn := totalOrderSqn
            nrShmProcessedSqn := system.realtime.nrShmProcessedSqn + 1 }
        realtime :=
          { nrShmProcessedSqn := system.realtime.nrShmProcessedSqn + 1
            pc := .startTrialProcess caller } }
  | .startTrialProcess caller => some
      ((system.setRealtimePC .tryWaitEntry).startTrialProcess (childRing caller))

def step (system : System Body) : Action Body → Option (System Body)
  | .postFirst entry => system.postFirst entry
  | .postSecond => system.postSecond
  | .trialStep => system.trialStep
  | .trialDies => system.trialDies
  | .realtimeStep => system.realtimeStep

/-- `Init` starts the first trial process before the loop is entered, so the
child reads `rx_cont_shm` behind `TrialFlush`. -/
def initial : System Body :=
  ({} : System Body).startTrialProcess .trial

end System

end Steps

end AdkAaf.Sharding.TrialFollower
