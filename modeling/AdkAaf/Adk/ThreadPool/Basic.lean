import AdkAaf.Adk.ArchGeneric
import AdkAaf.Lib.Transition

/-! `ThreadPool` (`adk/src/thread_pool.cpp`): a dispatcher hands the jobs that were scheduled to
services, each a worker thread with two bounded queues. A step is what one thread does up to
its next access to a queue or a flag that it shares with another thread.

Every `Init` of a job succeeds, and `Stop` is not called. -/

set_option autoImplicit false

namespace AdkAaf.Adk.ThreadPool

abbrev Job := Nat

/-- `nrMaxThr` is `none` for `ADK_THREAD_POOL_UNLIMITED`. The setters assert that the
numbers are positive. -/
structure Settings where
  nrInitThr : Nat
  nrMaxThr : Option Nat
  nrMaxCcJobs : Nat
  workerReapNrounds : Nat
  nrInitThr_pos : 0 < nrInitThr
  nrMaxThr_pos : ∀ number ∈ nrMaxThr, 0 < number
  nrMaxCcJobs_pos : 0 < nrMaxCcJobs
  nrMaxCcJobs_lt : nrMaxCcJobs < 2 ^ 31
  workerReapNrounds_pos : 0 < workerReapNrounds

namespace Settings

variable (settings : Settings)

def ccJobPerSrv : Nat :=
  match settings.nrMaxThr with
  | none => 8
  | some number =>
    let jobs := settings.nrMaxCcJobs / number
    if jobs > 0 then jobs else 8

/-- The difference is one of `uint32_t`. -/
def dispatchThreshold : UInt32 := settings.ccJobPerSrv.toUInt32 - 2

def slots (size : Nat) : Nat := (roundToPowerOf2 size.toUInt32).toNat

def serviceSlots : Nat := slots settings.ccJobPerSrv

def unlimited : Bool := settings.nrMaxThr.isNone

end Settings

def push (slots : Nat) (queue : List Job) (job : Job) : List Job :=
  if queue.length < slots then queue ++ [job] else queue

inductive WorkerPc where
  | loop
  | pop
  | examine (job : Job)
  | running (job : Job)
  | finished
  | pushIdle (job : Job)
  | pushJob (job : Job)
  | drain
  | drainPush (job : Job)
  | stopped
  deriving DecidableEq

def WorkerPc.hands : WorkerPc → List Job
  | .examine job | .running job | .pushIdle job | .pushJob job | .drainPush job => [job]
  | .loop | .pop | .finished | .drain | .stopped => []

/-- What a job answers: whether its delay is over, and then how `Run` returns. -/
inductive Answer where
  | delay
  | run
  | done
  | idle
  | resched

structure Service where
  jobQueue : List Job := []
  idleQueue : List Job := []
  isRunning : Bool := true
  oneShotDone : Bool := false
  nrJobProcessed : UInt32 := 0
  worker : WorkerPc := .loop

namespace Service

variable (service : Service)

def jobs : List Job :=
  service.jobQueue ++ (service.idleQueue ++ service.worker.hands)

def work (settings : Settings) (service : Service) (answer : Answer) : Option Service :=
  match service.worker with
  | .loop =>
    some { service with worker := if service.isRunning then .pop else .stopped }
  | .pop =>
    match service.jobQueue with
    | [] => some { service with worker := .drain, nrJobProcessed := 0 }
    | job :: rest => some { service with jobQueue := rest, worker := .examine job }
  | .examine job =>
    match answer with
    | .delay => some { service with worker := .pushIdle job }
    | .run => some { service with worker := .running job }
    | .done | .idle | .resched => none
  | .running job =>
    match answer with
    | .done =>
      some { service with
        worker := .finished
        nrJobProcessed := service.nrJobProcessed + 1 }
    | .idle => some { service with worker := .pushIdle job }
    | .resched => some { service with worker := .pushJob job }
    | .delay | .run => none
  | .finished =>
    some { service with
      oneShotDone := settings.unlimited || service.oneShotDone
      worker := .loop }
  | .pushIdle job =>
    some { service with
      idleQueue := push settings.serviceSlots service.idleQueue job
      worker := .loop }
  | .pushJob job =>
    let pushed :=
      { service with jobQueue := push settings.serviceSlots service.jobQueue job }
    if service.nrJobProcessed + 1 = 128 then
      some { pushed with worker := .drain, nrJobProcessed := 0 }
    else
      some { pushed with worker := .loop, nrJobProcessed := service.nrJobProcessed + 1 }
  | .drain =>
    match service.idleQueue with
    | [] => some { service with worker := .loop }
    | job :: rest => some { service with idleQueue := rest, worker := .drainPush job }
  | .drainPush job =>
    some { service with
      jobQueue := push settings.serviceSlots service.jobQueue job
      worker := .drain }
  | .stopped => none

def target : Option (List Job) :=
  match service.worker with
  | .pushIdle _ => some service.idleQueue
  | .pushJob _ | .drainPush _ => some service.jobQueue
  | _ => none

def Room (settings : Settings) (service : Service) : Prop :=
  ∀ queue ∈ service.target, queue.length < settings.serviceSlots

def Leaves : Prop :=
  service.worker = .loop → service.isRunning = false → service.jobs = []

instance (settings : Settings) (service : Service) : Decidable (service.Room settings) :=
  inferInstanceAs (Decidable (∀ queue ∈ service.target, _))

instance (service : Service) : Decidable service.Leaves :=
  inferInstanceAs (Decidable (_ → _ → _))

def done (service : Service) (answer : Answer) : Option Job :=
  match service.worker, answer with
  | .running job, .done => some job
  | _, _ => none

end Service

/-- What the dispatcher does next. `load` and `loadIdle` read the lengths of the queues of a
service, `scan` its flag in `NewService`, `reapScan` the flag of a service to be reaped. -/
inductive DispatcherPc where
  | round
  | load (index total minLoad minService : Nat)
  | loadIdle (index jobLoad total minLoad minService : Nat)
  | pushLeast (index : Nat)
  | newService
  | pushNew (index : Nat)
  | scan (index : Nat)
  | reuse (index : Nat)
  | idle
  | reapScan (index : Nat) (reaps : List Nat)
  | reap (reaps : List Nat)
  | join (index : Nat) (reaps : List Nat)
  deriving DecidableEq

/-- `accepted` are the jobs that were scheduled, `finished` those that have returned
`kDone`. -/
structure Pool where
  services : List Service
  dispatchQueue : List Job := []
  newJob : Option Job := none
  dispatcher : DispatcherPc := .round
  idleCounter : Nat := 0
  accepted : List Job := []
  finished : List Job := []

namespace Pool

variable (settings : Settings) (pool : Pool)

def update (index : Nat) (service : Service) : Pool :=
  { pool with services := pool.services.set index service }

def decideLoad (total minLoad minService : Nat) : DispatcherPc :=
  if total ≥ pool.services.length * 4 then .newService
  else if minLoad < settings.dispatchThreshold.toNat then .pushLeast minService
  else .idle

def dispatch : Option Pool :=
  let withJob : DispatcherPc := if settings.unlimited then .scan 0 else .load 0 0 (2 ^ 32 - 1) 0
  match pool.dispatcher with
  | .round =>
    match pool.newJob, pool.dispatchQueue with
    | some _, _ => some { pool with dispatcher := withJob }
    | none, job :: rest =>
      some { pool with dispatchQueue := rest, newJob := some job, dispatcher := withJob }
    | none, [] => some { pool with dispatcher := .idle }
  | .load index total minLoad minService =>
    match pool.services[index]? with
    | some service =>
      some { pool with
        dispatcher := .loadIdle index service.jobQueue.length total minLoad minService }
    | none =>
      some { pool with dispatcher := pool.decideLoad settings total minLoad minService }
  | .loadIdle index jobLoad total minLoad minService =>
    (pool.services[index]?).map fun service =>
      let load := jobLoad + service.idleQueue.length
      { pool with
        dispatcher :=
          if load < minLoad then .load (index + 1) (total + load) load index
          else .load (index + 1) (total + load) minLoad minService }
  | .pushLeast index =>
    match pool.services[index]?, pool.newJob with
    | some service, some job =>
      if service.jobQueue.length < settings.serviceSlots then
        some { pool.update index { service with jobQueue := service.jobQueue ++ [job] } with
          newJob := none
          idleCounter := 0
          dispatcher := .round }
      else
        some { pool with dispatcher := .idle }
    | _, _ => none
  | .newService =>
    some { pool with
      services := pool.services ++ [{}]
      dispatcher := .pushNew pool.services.length }
  | .pushNew index =>
    match pool.services[index]?, pool.newJob with
    | some service, some job =>
      some { pool.update index
          { service with jobQueue := push settings.serviceSlots service.jobQueue job } with
        newJob := none
        idleCounter := if settings.unlimited then pool.idleCounter else 0
        dispatcher := .round }
    | _, _ => none
  | .scan index =>
    match pool.services[index]? with
    | some service =>
      some { pool with
        dispatcher := if service.oneShotDone then .reuse index else .scan (index + 1) }
    | none => some { pool with dispatcher := .newService }
  | .reuse index =>
    (pool.services[index]?).bind fun service =>
      let taken := { service with oneShotDone := false }
      if service.isRunning then
        some { pool.update index taken with dispatcher := .pushNew index }
      else if service.worker = .stopped then
        some { pool.update index
            { taken with isRunning := true, worker := .loop, nrJobProcessed := 0 } with
          dispatcher := .pushNew index }
      else
        none
  | .idle =>
    if pool.idleCounter + 1 = settings.workerReapNrounds then
      some { pool with idleCounter := 0, dispatcher := .reapScan 0 [] }
    else
      some { pool with idleCounter := pool.idleCounter + 1, dispatcher := .round }
  | .reapScan index reaps =>
    match pool.services[index]? with
    | some service =>
      let reaped := service.oneShotDone && service.isRunning &&
        decide (pool.services.length - reaps.length > settings.nrInitThr)
      some { pool with
        dispatcher := .reapScan (index + 1) (if reaped then reaps ++ [index] else reaps) }
    | none => some { pool with dispatcher := .reap reaps }
  | .reap reaps =>
    match reaps with
    | [] => some { pool with dispatcher := .round }
    | index :: rest =>
      (pool.services[index]?).map fun service =>
        { pool.update index { service with isRunning := false } with
          dispatcher := .join index rest }
  | .join index rest =>
    (pool.services[index]?).bind fun service =>
      if service.worker = .stopped then some { pool with dispatcher := .reap rest } else none

inductive Action where
  | schedule (job : Job)
  | dispatch
  | work (index : Nat) (answer : Answer)

def start : Pool where
  services := List.replicate settings.nrInitThr { oneShotDone := true }

def step : Action → Option Pool
  | .schedule job =>
    if pool.dispatchQueue.length < Settings.slots settings.nrMaxCcJobs then
      some { pool with
        dispatchQueue := pool.dispatchQueue ++ [job]
        accepted := job :: pool.accepted }
    else
      none
  | .dispatch => pool.dispatch settings
  | .work index answer =>
    (pool.services[index]?).bind fun service =>
      (service.work settings answer).map fun next =>
        { pool.update index next with
          finished := (service.done answer).toList ++ pool.finished }

def isWorking (service : Service) : Bool := service.worker ≠ .stopped

def places : List Job :=
  pool.dispatchQueue ++ (pool.newJob.toList ++
    (pool.services.filter isWorking).flatMap Service.jobs)

def nrWorkers : Nat := pool.services.countP isWorking

structure Safe (settings : Settings) (pool : Pool) : Prop where
  conserved : ∀ job ∈ pool.accepted, job ∉ pool.finished → pool.places.count job = 1
  once : ∀ job ∈ pool.finished, job ∉ pool.places
  alone : ∀ (first second : Nat) (service other : Service) job,
    pool.services[first]? = some service → pool.services[second]? = some other →
    service.worker = .running job → other.worker = .running job → first = second
  limit : ∀ number ∈ settings.nrMaxThr, pool.nrWorkers ≤ max settings.nrInitThr number

/-- The service the dispatcher pushes to next, by its load. -/
def least : Option Nat :=
  match pool.dispatcher with
  | .pushLeast index => some index
  | _ => none

/-- No job is given to a service that was reaped, and no service is added to as many workers
as are allowed. -/
def MayDispatch (most : Nat) : Prop :=
  (∀ index ∈ pool.least, ∀ service ∈ pool.services[index]?, service.isRunning = true) ∧
    (pool.dispatcher = .newService → pool.nrWorkers < most)

/-- Each job is scheduled once. With a limit, further, no worker pushes to a full queue or
stops with a job left. -/
def Allowed : Action → Prop
  | .schedule job => job ∉ pool.accepted
  | .dispatch => ∀ number ∈ settings.nrMaxThr, pool.MayDispatch (max settings.nrInitThr number)
  | .work index _ =>
    settings.unlimited = false → ∀ service ∈ pool.services[index]?,
      service.Room settings ∧ service.Leaves

instance (most : Nat) (pool : Pool) : Decidable (pool.MayDispatch most) :=
  inferInstanceAs (Decidable ((∀ index ∈ pool.least, _) ∧ (_ → _)))

instance (settings : Settings) (pool : Pool) : ∀ action, Decidable (pool.Allowed settings action)
  | .schedule _ => inferInstanceAs (Decidable (¬ _))
  | .dispatch => inferInstanceAs (Decidable (∀ number ∈ settings.nrMaxThr, _))
  | .work index _ =>
    inferInstanceAs (Decidable (_ → ∀ service ∈ pool.services[index]?, _ ∧ _))

end Pool

end AdkAaf.Adk.ThreadPool
