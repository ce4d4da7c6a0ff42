import AdkAaf.Lib.RingWindow
import AdkAaf.Lib.Transition

/-! The task scheduling of `RecordDataTracker` (`record_data_tracker.cpp`): calls of
`AsyncRead*` create tasks, the worker threads of `Run` take them from a waiting list,
read the messages that the index files show and put subscriptions back.

What is protected by `task_mutex_` is one step; `pre_mutex_` is held over several steps
of `MovePreTask`. Results of the file system, of the callbacks and of the watch service
come with the action. A task is an object of `tasks`, addressed by its number there, as
`std::shared_ptr` keeps it alive; `delivered` is history, with the number of complete
index entries at the moment of each call. -/

set_option autoImplicit false

namespace AdkAaf.Recorder.RecordDataTracker

open Function

def kMostRecent : Nat := 0

/-- `sizeof(OrdinalIndex)`, the size of a `std::fpos`. -/
def ordinalIndexSize : Nat := 16

def getMsgSqn (indexFileSize : Nat) : Nat := indexFileSize / ordinalIndexSize

structure Delivery where
  sqn : Nat
  entries : Nat
  deriving DecidableEq

/-- A task with the begin it was created with, kept as history. -/
structure Task where
  id : Int32
  file : Nat
  begin : Nat
  beginSqn : Nat
  endSqn : Nat
  lastReadTime : Nat := 0
  isRunning : Bool := true
  delivered : List Delivery := []
  deriving DecidableEq

/-- A call of `AsyncRead*` that has drawn its id. -/
structure Reading where
  id : Int32
  file : Nat
  begin : Nat
  endSqn : Nat

inductive Pc where
  | idle
  | moving
  | popping
  | taken (task : Nat)
  | sizing (task : Nat)
  | looping (task curMsgSqn endMsgSqn : Nat)
  | fetching (task curMsgSqn endMsgSqn : Nat)
  | calling (task curMsgSqn endMsgSqn : Nat)
  | again (task : Nat)
  | watching (task : Nat)
  | completing (task : Nat)
  | removing (task : Nat)
  deriving DecidableEq

def Pc.task : Pc → Option Nat
  | .idle | .moving | .popping => none
  | .taken task | .sizing task | .looping task _ _ | .fetching task _ _ | .calling task _ _
  | .again task | .watching task | .completing task | .removing task => some task

inductive WatchPc where
  | idle
  | moving
  | finding
  | signalling (task : Nat) (id : Int32)
  deriving DecidableEq

inductive Caller where
  | worker (worker : Nat)
  | watcher

/-- The caller that holds `pre_mutex_` in `MovePreTask`, and what it has not moved yet. -/
structure Mover where
  caller : Caller
  tasks : List (Int32 × Nat)
  ids : List Int32

structure State where
  running : Bool := true
  asyncReadCount : Int32 := 0
  tasks : List Task := []
  pending : List Reading := []
  preAsyncTasksMap : List (Int32 × Nat) := []
  preWaitAsyncTaskIds : List Int32 := []
  preMutex : Option Mover := none
  asyncTasksMap : Int32 → Option Nat := fun _ => none
  waitAsyncTaskIds : List Int32 := []
  watchAsyncTaskIds : Int32 → Bool := fun _ => false
  stopping : List Int32 := []
  indexFileSize : Nat → Nat
  workers : List Pc
  watcher : WatchPc := .idle

inductive Outcome where
  | success
  | failure
  | exception
  deriving DecidableEq

inductive WatchEvent where
  | modify
  | delete

inductive Action where
  | grow (file bytes : Nat)
  | stop
  | asyncRead (file begin endSqn : Nat)
  | abandonRead (reading : Nat)
  | addTask (reading : Nat)
  | stopPre (id : Int32)
  | stopTask (id : Int32)
  | getTask (worker : Nat)
  | onWatch
  | movePreTask
  | find (id : Int32)
  | signal (event : WatchEvent)
  | work (worker : Nat) (outcome : Outcome) (now : Nat)

/-- `kWatchTimeoutSec` in nanoseconds, and whether a completion handler is registered. -/
structure Config where
  watchTimeout : Nat
  hasOnComplete : Bool

section Steps

variable (config : Config) (state : State)

def lastMsgSqn (task : Task) : Nat := getMsgSqn (state.indexFileSize task.file)

def setPc (worker : Nat) (pc : Pc) : State := { state with workers := state.workers.set worker pc }

def setTask (number : Nat) (task : Task) : State :=
  { state with tasks := state.tasks.set number task }

def eraseTask (id : Int32) : State :=
  { state with asyncTasksMap := update state.asyncTasksMap id none }

def eraseWatch (id : Int32) : State :=
  { state with watchAsyncTaskIds := update state.watchAsyncTaskIds id false }

def pushWait (id : Int32) : State :=
  { state with waitAsyncTaskIds := state.waitAsyncTaskIds ++ [id] }

def asyncRead (file begin endSqn : Nat) : State :=
  if state.running = false ∨ begin = kMostRecent ∨ (endSqn ≠ kMostRecent ∧ begin ≥ endSqn) then
    state
  else
    let id := state.asyncReadCount + 1
    { state with
      asyncReadCount := id
      pending := state.pending ++ [{ id, file, begin, endSqn }] }

/-- The task is inserted under its id unless the map has one, the id is appended in any case. -/
def addTask (number : Nat) (reading : Reading) : State :=
  { state with
    pending := state.pending.eraseIdx number
    tasks := state.tasks ++
      [{ id := reading.id, file := reading.file, begin := reading.begin,
         beginSqn := reading.begin, endSqn := reading.endSqn }]
    preAsyncTasksMap :=
      if state.preAsyncTasksMap.any (·.1 = reading.id) then
        state.preAsyncTasksMap
      else
        state.preAsyncTasksMap ++ [(reading.id, state.tasks.length)]
    preWaitAsyncTaskIds := state.preWaitAsyncTaskIds ++ [reading.id] }

def stopPre (id : Int32) : State :=
  if state.preAsyncTasksMap.any (·.1 = id) then
    { state with
      preAsyncTasksMap := state.preAsyncTasksMap.filter (·.1 ≠ id)
      preWaitAsyncTaskIds := state.preWaitAsyncTaskIds.erase id
      stopping := id :: state.stopping }
  else
    { state with stopping := id :: state.stopping }

def stopTask (id : Int32) : State :=
  let stopped : State := { eraseWatch state id with
    stopping := state.stopping.erase id
    waitAsyncTaskIds := state.waitAsyncTaskIds.erase id }
  match state.asyncTasksMap id with
  | none => stopped
  | some number =>
    match state.tasks[number]? with
    | none => eraseTask stopped id
    | some task => eraseTask (setTask stopped number { task with isRunning := false }) id

def lockPreMutex (caller : Caller) : State :=
  { state with
    preMutex := some {
      caller, tasks := state.preAsyncTasksMap, ids := state.preWaitAsyncTaskIds } }

/-- One turn of the loops of `MovePreTask`, or its end. -/
def movePreTask (mover : Mover) : State :=
  match mover.tasks, mover.ids with
  | (id, number) :: rest, _ =>
    { state with
      asyncTasksMap := update state.asyncTasksMap id (some number)
      preMutex := some { mover with tasks := rest } }
  | [], id :: rest =>
    { pushWait state id with preMutex := some { mover with ids := rest } }
  | [], [] =>
    let moved : State :=
      { state with preAsyncTasksMap := [], preWaitAsyncTaskIds := [], preMutex := none }
    match mover.caller with
    | .worker worker => setPc moved worker .popping
    | .watcher => { moved with watcher := .finding }

def popTask (worker : Nat) : State :=
  match state.waitAsyncTaskIds with
  | [] => setPc state worker .idle
  | id :: rest =>
    let popped := { state with waitAsyncTaskIds := rest }
    match state.asyncTasksMap id with
    | none => setPc popped worker .idle
    | some number => setPc popped worker (.taken number)

/-- The timing of a subscription; a task with an end is read at once. -/
def pollTask (worker number : Nat) (task : Task) (now : Nat) : State :=
  if task.endSqn = kMostRecent then
    if now ≤ task.lastReadTime then
      setPc state worker (.removing number)
    else if now - task.lastReadTime < config.watchTimeout then
      setPc (pushWait state task.id) worker .idle
    else
      setPc state worker (.sizing number)
  else
    setPc state worker (.sizing number)

/-- `Run` after `kTryAgain`: a subscription goes to its watch, any other task is retried. -/
def tryAgain (worker number : Nat) (task : Task) : State :=
  setPc state worker (if task.endSqn = kMostRecent then .again number else .sizing number)

def sizeIndex (worker number : Nat) (task : Task) : State :=
  let last := lastMsgSqn state task
  if last ≤ task.beginSqn - 1 then
    tryAgain state worker number task
  else
    let endMsgSqn :=
      if task.endSqn ≠ kMostRecent ∧ task.endSqn ≤ last then task.endSqn - 1 else last
    setPc state worker (.looping number task.beginSqn endMsgSqn)

/-- The head of the loop of `ReadHisMessage`, or what follows it. -/
def loopHead (worker number : Nat) (task : Task) (curMsgSqn endMsgSqn : Nat) : State :=
  if curMsgSqn ≤ endMsgSqn then
    if task.isRunning then
      setPc state worker (.fetching number curMsgSqn endMsgSqn)
    else
      setPc state worker (.removing number)
  else if task.endSqn = kMostRecent ∨ endMsgSqn < task.endSqn - 1 then
    let advanced := if endMsgSqn ≥ task.beginSqn then { task with beginSqn := endMsgSqn + 1 } else task
    tryAgain (setTask state number advanced) worker number task
  else
    setPc state worker (.completing number)

def deliver (worker number : Nat) (task : Task) (curMsgSqn endMsgSqn : Nat) : State :=
  setPc
    (setTask state number { task with
      delivered := task.delivered ++ [{ sqn := curMsgSqn, entries := lastMsgSqn state task }] })
    worker (.calling number curMsgSqn endMsgSqn)

/-- A subscription is put back, after its first turn by way of a watch. -/
def putBack (worker number : Nat) (task : Task) (now : Nat) : State :=
  if (state.asyncTasksMap task.id).isNone then
    setPc (eraseWatch state task.id) worker .idle
  else
    let read := setTask state number { task with lastReadTime := now }
    if state.watchAsyncTaskIds task.id then
      setPc (pushWait read task.id) worker .idle
    else
      setPc read worker (.watching number)

def addWatch (worker : Nat) (task : Task) (outcome : Outcome) : State :=
  match outcome with
  | .success =>
    setPc (pushWait { state with
      watchAsyncTaskIds := update state.watchAsyncTaskIds task.id true } task.id)
      worker .idle
  | .failure => setPc (eraseTask state task.id) worker .idle
  | .exception => setPc state worker .idle

def workTask (worker : Nat) (outcome : Outcome) (now : Nat) (pc : Pc) (number : Nat) (task : Task) :
    Option State :=
  match pc with
  | .idle | .moving | .popping => none
  | .taken _ => some (pollTask config state worker number task now)
  | .sizing _ =>
    match outcome with
    | .success => some (sizeIndex state worker number task)
    | _ => some (setPc state worker (.removing number))
  | .looping _ curMsgSqn endMsgSqn =>
    some (loopHead state worker number task curMsgSqn endMsgSqn)
  -- `ReadOneMsgIndex` and `ReadOneAppMessage`
  | .fetching _ curMsgSqn endMsgSqn =>
    match outcome with
    | .success => some (deliver state worker number task curMsgSqn endMsgSqn)
    | _ => some (setPc state worker (.removing number))
  -- an exception of the callback is caught in `Run`, which leaves the task as it is
  | .calling _ curMsgSqn endMsgSqn =>
    match outcome with
    | .success => some (setPc state worker (.looping number (curMsgSqn + 1) endMsgSqn))
    | .failure => some (setPc state worker (.removing number))
    | .exception => some (setPc state worker .idle)
  | .again _ => some (putBack state worker number task now)
  | .watching _ => some (addWatch state worker task outcome)
  | .completing _ =>
    if config.hasOnComplete ∧ outcome ≠ .exception then
      some (setPc state worker (.removing number))
    else
      some (setPc state worker .idle)
  | .removing _ => some (setPc (eraseWatch (eraseTask state task.id) task.id) worker .idle)

def work (worker : Nat) (outcome : Outcome) (now : Nat) : Option State :=
  (state.workers[worker]?).bind fun pc =>
    if pc = .popping then
      some (popTask state worker)
    else
      pc.task.bind fun number =>
        (state.tasks[number]?).bind fun task =>
          workTask config state worker outcome now pc number task

/-- `OnWatch` looks the task up and lets go of `task_mutex_` before it acts. -/
def findTask (id : Int32) : State :=
  match state.asyncTasksMap id with
  | none => { eraseWatch state id with watcher := .idle }
  | some number => { state with watcher := .signalling number id }

def signalTask (event : WatchEvent) (number : Nat) (id : Int32) : State :=
  match event with
  | .modify =>
    match state.tasks[number]? with
    | none => { state with watcher := .idle }
    | some task => { setTask state number { task with lastReadTime := 0 } with watcher := .idle }
  | .delete => { eraseWatch state id with watcher := .idle }

def step : Action → Option State
  | .grow file bytes =>
    some { state with
      indexFileSize :=
        update state.indexFileSize file (state.indexFileSize file + bytes) }
  | .stop => some { state with running := false }
  | .asyncRead file begin endSqn => some (asyncRead state file begin endSqn)
  | .abandonRead reading => some { state with pending := state.pending.eraseIdx reading }
  | .addTask number =>
    if state.preMutex.isNone then
      (state.pending[number]?).map (addTask state number)
    else
      none
  | .stopPre id => if state.preMutex.isNone then some (stopPre state id) else none
  | .stopTask id => if id ∈ state.stopping then some (stopTask state id) else none
  | .getTask worker =>
    if state.running ∧ state.preMutex.isNone ∧ state.workers[worker]? = some .idle then
      some (setPc (lockPreMutex state (.worker worker)) worker .moving)
    else
      none
  | .onWatch =>
    if state.preMutex.isNone ∧ state.watcher = .idle then
      some { lockPreMutex state .watcher with watcher := .moving }
    else
      none
  | .movePreTask => state.preMutex.map (movePreTask state)
  | .find id => if state.watcher = .finding then some (findTask state id) else none
  | .signal event =>
    match state.watcher with
    | .signalling number id => some (signalTask state event number id)
    | _ => none
  | .work worker outcome now => work config state worker outcome now

end Steps

def initialState (workers : Nat) (indexFileSize : Nat → Nat) : State :=
  { workers := List.replicate workers .idle, indexFileSize }

structure Task.InOrder (task : Task) : Prop where
  consecutive : task.delivered.map (·.sqn) = List.range' task.begin task.delivered.length
  beforeEnd : task.endSqn ≠ kMostRecent → ∀ call ∈ task.delivered, call.sqn < task.endSqn
  indexed : ∀ call ∈ task.delivered, call.sqn ≤ call.entries

structure ExactlyOnce (state : State) : Prop where
  inOrder : ∀ task ∈ state.tasks, task.InOrder
  alone : ∀ (first second number cur endMsg otherCur otherEnd : Nat),
    state.workers[first]? = some (.calling number cur endMsg) →
    state.workers[second]? = some (.calling number otherCur otherEnd) → first = second

/-- How often an id stands in the waiting lists; while `MovePreTask` runs, the ids it has
still to move count for the list it empties. -/
def queued (state : State) (id : Int32) : Nat :=
  (match state.preMutex with
    | none => state.preWaitAsyncTaskIds
    | some mover => mover.ids).count id + state.waitAsyncTaskIds.count id

def Pc.holds (tasks : List Task) (id : Int32) (pc : Pc) : Nat :=
  match pc.task.bind fun number => tasks[number]? with
  | none => 0
  | some task => if task.id = id then 1 else 0

/-- The id belongs to a task that is waiting, known or being worked on. -/
def inUse (state : State) (id : Int32) : Bool :=
  0 < queued state id + Lib.extent (Pc.holds state.tasks id) state.workers ||
    (state.asyncTasksMap id).isSome || state.preAsyncTasksMap.any (·.1 = id)

/-- The id that the call drew from `async_read_count_` is free. -/
def FreshId (state : State) : Action → Prop
  | .addTask number => ∀ reading ∈ state.pending[number]?, inUse state reading.id = false
  | _ => True

instance (state : State) (action : Action) : Decidable (FreshId state action) :=
  match action with
  | .addTask number =>
    inferInstanceAs (Decidable (∀ reading ∈ state.pending[number]?,
      inUse state reading.id = false))
  | .grow _ _ | .stop | .asyncRead _ _ _ | .abandonRead _ | .stopPre _ | .stopTask _
  | .getTask _ | .onWatch | .movePreTask | .find _ | .signal _ | .work _ _ _ =>
    inferInstanceAs (Decidable True)

end AdkAaf.Recorder.RecordDataTracker
