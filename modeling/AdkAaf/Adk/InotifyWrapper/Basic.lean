import AdkAaf.Lib.Transition
import Mathlib.Data.List.AList

/-! The registry of `Inotify` (`adk/src/inotify_wrapper.cpp`): tasks are added and
removed under a mutex, and the working thread calls them from a copy of the table
that it refreshes when the table has changed. The kernel is asked for a watch on
each path.

The mask the kernel holds for a watch is left out: a batch may hold events of
any kind. -/

set_option autoImplicit false

namespace AdkAaf.Adk.InotifyWrapper

open Function

inductive ErrorCode where
  | success
  | failure
  | duplicatedOption

inductive InotifyEvent where
  | inModify
  | inDelete
  deriving DecidableEq

namespace InotifyEvent

/-- `IN_MODIFY`, and `IN_DELETE_SELF | IN_DELETE`. -/
def mask : InotifyEvent → UInt32
  | inModify => 0x2
  | inDelete => 0x600

def all : List InotifyEvent := [inModify, inDelete]

theorem mem_all (event : InotifyEvent) : event ∈ all := by
  cases event <;> decide

end InotifyEvent

/-- A task is known by its address; the flag that it is finished is shared between
the table and its copy. -/
structure WatchTask where
  address : Nat
  pathName : String
  watchName : String
  isCallOnce : Bool
  deriving DecidableEq

abbrev WatchEvents := InotifyEvent → Option (List WatchTask)

abbrev OnWatchMap := AList fun _ : Nat => WatchEvents

namespace WatchEvents

def empty : WatchEvents := fun _ => none

def isEmpty (events : WatchEvents) : Bool :=
  InotifyEvent.all.all fun event => (events event).isNone

end WatchEvents

/-! ## The kernel

A path that is watched keeps its id; an id is not given twice. -/

structure Kernel where
  watches : AList fun _ : String => Nat := ∅
  fresh : Nat := 1

namespace Kernel

def addWatch (kernel : Kernel) (path : String) (fails : Bool) : Option (Nat × Kernel) :=
  if fails then
    none
  else
    match kernel.watches.lookup path with
    | some wd => some (wd, kernel)
    | none =>
      some (kernel.fresh,
        { watches := kernel.watches.insert path kernel.fresh, fresh := kernel.fresh + 1 })

def rmWatch (kernel : Kernel) (wd : Nat) (fails : Bool) : Option Kernel :=
  if fails then
    none
  else
    (kernel.watches.entries.find? (·.2 = wd)).map fun watch =>
      { kernel with watches := kernel.watches.erase watch.1 }

end Kernel

structure Registration where
  task : WatchTask
  event : InotifyEvent

/-- `cache` is the copy of the working thread, `live` the tasks that were added and
neither removed nor finished. -/
structure Inotify where
  pathEvents : String → Option UInt32 := fun _ => none
  pathWatchId : String → Option Nat := fun _ => none
  watchIdPath : Nat → Option String := fun _ => none
  onWatch : OnWatchMap := ∅
  watchIsUpdate : Bool := false
  cache : OnWatchMap := ∅
  isFinished : Nat → Bool := fun _ => false
  allocated : Nat := 0
  kernel : Kernel := {}
  live : List Registration := []

structure Event where
  wd : Nat
  mask : UInt32

namespace Inotify

def watchEvents (map : OnWatchMap) (wd : Nat) : WatchEvents :=
  (map.lookup wd).getD .empty

def setTasks (map : OnWatchMap) (wd : Nat) (event : InotifyEvent) (tasks : List WatchTask) :
    OnWatchMap :=
  map.insert wd (update (watchEvents map wd) event (some tasks))

def tasksAt (map : OnWatchMap) (wd : Nat) (event : InotifyEvent) : List WatchTask :=
  (watchEvents map wd event).getD []

variable (inotify : Inotify) (path : String)

def newTask (watchName : String) (isCallOnce : Bool) : WatchTask :=
  { address := inotify.allocated
    pathName := path
    watchName := watchName
    isCallOnce := isCallOnce }

def added (task : WatchTask) (event : InotifyEvent) : Inotify :=
  { inotify with
    watchIsUpdate := true
    allocated := inotify.allocated + 1
    live := inotify.live ++ [⟨task, event⟩] }

/-- `fails` tells whether `inotify_add_watch` fails, should it be called. -/
def addWatch (inotify : Inotify) (path : String) (event : InotifyEvent) (watchName : String)
    (isCallOnce fails : Bool) : ErrorCode × Inotify :=
  let task := inotify.newTask path watchName isCallOnce
  match inotify.pathEvents path with
  | none =>
    match inotify.kernel.addWatch path fails with
    | none => (.failure, inotify)
    | some (wd, kernel) =>
      (.success,
        { inotify with
          pathEvents := update inotify.pathEvents path (some event.mask)
          pathWatchId := update inotify.pathWatchId path (some wd)
          watchIdPath := update inotify.watchIdPath wd (some path)
          onWatch := inotify.onWatch.insert wd
            (update WatchEvents.empty event (some [task]))
          kernel := kernel }.added task event)
  | some events =>
    if events &&& event.mask = 0 then
      match inotify.kernel.addWatch path fails with
      | none => (.failure, inotify)
      | some (wd, kernel) =>
        -- `insert` keeps a list that is there
        let tasks := (watchEvents inotify.onWatch wd event).getD [task]
        (.success,
          { inotify with
            pathEvents := update inotify.pathEvents path (some (events ||| event.mask))
            onWatch := setTasks inotify.onWatch wd event tasks
            kernel := kernel }.added task event)
    else
      let wd := (inotify.pathWatchId path).getD 0
      let tasks := tasksAt inotify.onWatch wd event
      if tasks.any (·.watchName = watchName) then
        (.duplicatedOption, inotify)
      else
        (.success,
          { inotify with
            pathWatchId := update inotify.pathWatchId path (some wd)
            onWatch := setTasks inotify.onWatch wd event (tasks ++ [task]) }.added task event)

def forget (wd : Nat) : Inotify :=
  { inotify with
    pathEvents := update inotify.pathEvents path none
    pathWatchId := update inotify.pathWatchId path none
    watchIdPath := update inotify.watchIdPath wd none }

def named (event : InotifyEvent) (watchName : String) (registration : Registration) : Bool :=
  registration.task.pathName = path ∧ registration.event = event ∧
    registration.task.watchName = watchName

def removed (event : InotifyEvent) (watchName : String) : Inotify :=
  { inotify with
    watchIsUpdate := true
    live := inotify.live.eraseP (named path event watchName) }

def someTasks (tasks : List WatchTask) : Option (List WatchTask) :=
  if tasks = [] then none else some tasks

def removeWatch (event : InotifyEvent) (watchName : String) (fails : Bool) : ErrorCode × Inotify :=
  match inotify.pathWatchId path with
  | none => (.failure, inotify)
  | some wd =>
    match inotify.onWatch.lookup wd with
    | none => (.failure, inotify)
    | some events =>
      match events event with
      | none => (.failure, inotify)
      | some tasks =>
        if tasks.any (·.watchName = watchName) then
          let events : WatchEvents := update events event
            (someTasks (tasks.eraseP (·.watchName = watchName)))
          let erased := { inotify with onWatch := inotify.onWatch.insert wd events }
          if events.isEmpty then
            match inotify.kernel.rmWatch wd fails with
            | none => (.failure, erased)
            | some kernel =>
              (.success,
                ({ erased with
                  kernel := kernel
                  onWatch := erased.onWatch.erase wd }.forget
                    ((inotify.watchIdPath wd).getD "") wd).removed path event watchName)
          else
            (.success, erased.removed path event watchName)
        else
          (.failure, inotify)

structure Dispatch where
  isFinished : Nat → Bool
  calls : List (Nat × Nat) := []
  hasTaskFinished : Bool := false

/-- The callback answers with success or not, at the event with the given place. -/
def ends (answer : Nat → Nat → Bool) (place : Nat) (task : WatchTask) : Bool :=
  !answer task.address place || task.isCallOnce

def callTask (answer : Nat → Nat → Bool) (place : Nat) (dispatch : Dispatch) (task : WatchTask) :
    Dispatch :=
  if dispatch.isFinished task.address then
    dispatch
  else
    { isFinished :=
        if ends answer place task then update dispatch.isFinished task.address true
        else dispatch.isFinished
      calls := dispatch.calls ++ [(task.address, place)]
      hasTaskFinished := dispatch.hasTaskFinished || ends answer place task }

def dueTasks (map : OnWatchMap) (event : Event) : List WatchTask :=
  InotifyEvent.all.flatMap fun kind =>
    if kind.mask &&& event.mask = 0 then [] else tasksAt map event.wd kind

def dispatchEvents (answer : Nat → Nat → Bool) (map : OnWatchMap) :
    Nat → List Event → Dispatch → Dispatch
  | _, [], dispatch => dispatch
  | place, event :: rest, dispatch =>
    dispatchEvents answer map (place + 1) rest
      ((dueTasks map event).foldl (callTask answer place) dispatch)

def cleanEvents (isFinished : Nat → Bool) (events : WatchEvents) : WatchEvents := fun event =>
  (events event).bind fun tasks => someTasks (tasks.filter fun task => !isFinished task.address)

/-- The clean-up of one watch. The id it cancels when no task is left is that of
the last event of the batch. -/
def cleanWatch (last : Nat) (fails : Bool) (inotify : Inotify) (wd : Nat) : Inotify :=
  let events := cleanEvents inotify.isFinished (watchEvents inotify.onWatch wd)
  if events.isEmpty then
    { inotify with
      kernel := (inotify.kernel.rmWatch last fails).getD inotify.kernel
      onWatch := inotify.onWatch.erase wd }.forget ((inotify.watchIdPath last).getD "") last
  else
    { inotify with onWatch := inotify.onWatch.insert wd events }

def refreshed : Inotify :=
  if inotify.watchIsUpdate then
    { inotify with cache := inotify.onWatch, watchIsUpdate := false }
  else
    inotify

def dispatched (batch : List Event) (answer : Nat → Nat → Bool) : Dispatch :=
  dispatchEvents answer inotify.refreshed.cache 0 batch { isFinished := inotify.isFinished }

def handleEvents (batch : List Event) (answer : Nat → Nat → Bool) (fails : Bool) : Inotify :=
  match batch.getLast? with
  | none => inotify
  | some last =>
    let dispatch := inotify.dispatched batch answer
    let called :=
      { inotify.refreshed with
        isFinished := dispatch.isFinished
        live := inotify.live.filter fun registration =>
          !dispatch.isFinished registration.task.address }
    if dispatch.hasTaskFinished then
      called.onWatch.keys.foldl (cleanWatch last.wd fails) { called with watchIsUpdate := true }
    else
      called

inductive Action where
  | addWatch (path : String) (event : InotifyEvent) (watchName : String)
      (isCallOnce fails : Bool)
  | removeWatch (path : String) (event : InotifyEvent) (watchName : String) (fails : Bool)
  | handleEvents (batch : List Event) (answer : Nat → Nat → Bool) (fails : Bool)

def run : Action → ErrorCode × Inotify
  | .addWatch path event watchName isCallOnce fails =>
    inotify.addWatch path event watchName isCallOnce fails
  | .removeWatch path event watchName fails => inotify.removeWatch path event watchName fails
  | .handleEvents batch answer fails => (.success, inotify.handleEvents batch answer fails)

def step (action : Action) : Option Inotify := some (inotify.run action).2

def Due (batch : List Event) (registration : Registration) (place : Nat) : Prop :=
  ∃ event, batch[place]? = some event ∧
    inotify.pathWatchId registration.task.pathName = some event.wd ∧
    registration.event.mask &&& event.mask ≠ 0

def Over (batch : List Event) (answer : Nat → Nat → Bool) (registration : Registration)
    (place : Nat) : Prop :=
  ∃ earlier < place, inotify.Due batch registration earlier ∧
    ends answer earlier registration.task = true

structure Consistent (inotify : Inotify) : Prop where
  inverse : ∀ path wd,
    inotify.pathWatchId path = some wd ↔ inotify.watchIdPath wd = some path
  watched : ∀ wd, wd ∈ inotify.onWatch ↔ (inotify.watchIdPath wd).isSome
  events : ∀ path, (inotify.pathEvents path).isSome ↔ (inotify.pathWatchId path).isSome
  /-- A task is listed once, under the id of its path and its own event. -/
  listed : ∀ registration ∈ inotify.live, ∃ wd,
    inotify.pathWatchId registration.task.pathName = some wd ∧
      ∀ other event, (tasksAt inotify.onWatch other event).count registration.task =
        if other = wd ∧ event = registration.event then 1 else 0
  /-- The kernel watches exactly the paths that have a task. -/
  kernel : ∀ path wd,
    inotify.kernel.watches.lookup path = some wd ↔ inotify.pathWatchId path = some wd
  needed : ∀ path, (inotify.pathWatchId path).isSome ↔
    ∃ registration ∈ inotify.live, registration.task.pathName = path

/-- A task that is not over is called once for an event it waits for, and at no
other event. -/
def CallsDue (batch : List Event) (answer : Nat → Nat → Bool) : Prop :=
  ∀ registration ∈ inotify.live, ∀ place,
    (inotify.Due batch registration place ∧ ¬ inotify.Over batch answer registration place →
      (inotify.dispatched batch answer).calls.count (registration.task.address, place) = 1) ∧
    (¬ inotify.Due batch registration place ∨ inotify.Over batch answer registration place →
      (inotify.dispatched batch answer).calls.count (registration.task.address, place) = 0)

/-- The task is still there behind the batch: it is not called, or each call
succeeds and it is to be called again. -/
def Survives (wd : Nat) (batch : List Event) (answer : Nat → Nat → Bool) (event : InotifyEvent)
    (task : WatchTask) : Prop :=
  ∀ placed ∈ batch.zipIdx, placed.1.wd = wd → event.mask &&& placed.1.mask ≠ 0 →
    ends answer placed.2 task = false

/-- `inotify_rm_watch` does not fail, and every watch but that of the last event of
a batch keeps a task. -/
def Allowed : Action → Prop
  | .addWatch _ _ _ _ _ => True
  | .removeWatch _ _ _ fails => fails = false
  | .handleEvents batch answer fails =>
    fails = false ∧ ∀ last ∈ batch.getLast?, ∀ wd ∈ inotify.onWatch.keys, wd ≠ last.wd →
      ∃ event ∈ InotifyEvent.all, ∃ task ∈ tasksAt inotify.onWatch wd event,
        Survives wd batch answer event task

instance (wd : Nat) (batch : List Event) (answer : Nat → Nat → Bool) (event : InotifyEvent)
    (task : WatchTask) : Decidable (Survives wd batch answer event task) :=
  inferInstanceAs (Decidable (∀ placed ∈ batch.zipIdx, _ → _ → _))

instance (inotify : Inotify) : ∀ action, Decidable (inotify.Allowed action)
  | .addWatch _ _ _ _ _ => inferInstanceAs (Decidable True)
  | .removeWatch _ _ _ _ => inferInstanceAs (Decidable (_ = _))
  | .handleEvents _ _ _ => inferInstanceAs (Decidable (_ = _ ∧ ∀ last ∈ List.getLast? _, _))

structure Safe (inotify : Inotify) : Prop where
  consistent : inotify.Consistent
  /-- A call that returns an error changes nothing. -/
  unchanged : ∀ action, inotify.Allowed action → (inotify.run action).1 ≠ .success →
    (inotify.run action).2 = inotify
  called : ∀ batch answer, inotify.CallsDue batch answer

end Inotify

end AdkAaf.Adk.InotifyWrapper
