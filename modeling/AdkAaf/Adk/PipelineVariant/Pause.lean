import AdkAaf.Lib.Token
import AdkAaf.Lib.Transition
import Mathlib.Data.Fintype.Basic

/-! A stage of `adk/include/adk/pipeline_variant.h` with a running thread of its own: the
producers that forward to it, the loop of its worker, and one thread that calls `Pause()` and
`Resume()`.

Each action is one access to memory that the threads share. The input queue is the list of
what was posted to it; `MPSCQueue` reserves a place before the message is posted and posts in
the order of the places. A message is its `stats.order`, which in an ordered stage is the
number the entrance gave it. `Idle()` returns; what its exceptions do to an ordered stage is in
the model of the ring. -/

set_option autoImplicit false

namespace AdkAaf.Adk.PipelineVariant.Pausing

open Function

/-- `prev_connectors` has every connector by which a producer forwards. A stage with at most one
is `is_sp`: it pushes as one producer of an `SPSCQueue`, unless it is ordered. The size is that of
a queue whose block holds its entries. -/
structure Config (Producer Connector : Type) where
  isOrdered : Bool
  queueSize : Nat
  prevConnectors : List Connector
  connector : Producer → Connector
  connected : ∀ producer, connector producer ∈ prevConnectors
  single : isOrdered = false → prevConnectors.length ≤ 1 → ∀ first second : Producer, first = second

/-- What `callptr` of a connector points to: `Pre_Message_UnOrdered` or `Pre_Message_Ordered`,
or `Pre_Message_Paused`. -/
inductive CallPtr where
  | preMessage
  | preMessagePaused

inductive ProducerPC where
  | outside
  | calling (message : Nat)
  | allocating (message : Nat)
  | posting (message : Nat)
  | counting (message : Nat)
  | storingDrops (message drops : Nat)
  deriving DecidableEq

inductive WorkerPC where
  | looking
  | handling (message : Nat)
  | countingDrop
  | storingDrops (drops : Nat)
  | freeing
  | raisingIdle
  | idling
  deriving DecidableEq

inductive ControlPC (Connector : Type) where
  | accepting
  | pausing (remaining : List Connector)
  | sampling
  | paused
  | resuming (remaining : List Connector)
  deriving DecidableEq

/-- The last five fields record what the code does not keep: everything that was forwarded,
what `Message()` was called with, what was refused with `kQueueFull`, the calls of `Message()`
that threw, and whether anything was posted since the worker last looked at the queue. -/
structure System (Producer Connector : Type) where
  callptr : Connector → CallPtr
  isIdle : Bool
  dropMsgs : Nat
  reserved : List Producer
  queue : List Nat
  head : Nat
  producers : Producer → ProducerPC
  worker : WorkerPC
  control : ControlPC Connector
  forwarded : List Nat := []
  processed : List Nat := []
  refused : List Nat := []
  thrown : Nat := 0
  postedSinceLook : Bool := false

/-- A stage after `Start()`. -/
def start {Producer Connector : Type} : System Producer Connector where
  callptr := fun _ => .preMessage
  isIdle := false
  dropMsgs := 0
  reserved := []
  queue := []
  head := 1
  producers := fun _ => .outside
  worker := .looking
  control := .accepting

/-- `threw` is the outcome of `Message()`, where that is what ends. -/
inductive Action (Producer : Type) where
  | forward (producer : Producer) (message : Nat)
  | producer (producer : Producer)
  | worker (threw : Bool)
  | pause
  | resume
  | control

variable {Producer Connector : Type}

def WorkerPC.held : WorkerPC → Nat
  | .handling _ | .countingDrop | .storingDrops _ | .freeing => 1
  | .looking | .raisingIdle | .idling => 0

namespace System

section

variable (config : Config Producer Connector) (system : System Producer Connector)

def HasRoom (message : Nat) : Prop :=
  if config.isOrdered then
    message < system.head - system.worker.held + config.queueSize
  else
    system.reserved.length + system.queue.length + system.worker.held < config.queueSize

instance (message : Nat) : Decidable (system.HasRoom config message) := by
  unfold HasRoom
  infer_instance

/-- `WaitEntry`, or `RecorderWaitEntry`, which waits for the number at the head. -/
def waitEntry : Option (Nat × System Producer Connector) :=
  if config.isOrdered then
    if system.head ∈ system.queue then
      some (system.head,
        { system with queue := system.queue.erase system.head, head := system.head + 1 })
    else
      none
  else
    match system.queue with
    | [] => none
    | message :: rest => some (message, { system with queue := rest })

def workerStep (threw : Bool) : System Producer Connector :=
  match system.worker with
  | .looking =>
    match system.waitEntry config with
    | some (message, taken) =>
      { taken with worker := .handling message, postedSinceLook := false }
    | none => { system with worker := .raisingIdle, postedSinceLook := false }
  | .handling message =>
    { system with
      processed := system.processed ++ [message]
      worker := if threw then .countingDrop else .freeing }
  | .countingDrop => { system with worker := .storingDrops system.dropMsgs }
  | .storingDrops drops =>
    { system with dropMsgs := drops + 1, thrown := system.thrown + 1, worker := .freeing }
  | .freeing => { system with worker := .looking }
  | .raisingIdle => { system with isIdle := true, worker := .idling }
  | .idling => { system with isIdle := false, worker := .looking }

/-- `Pause()` and `Resume()` after their first assignment. -/
def controlStep [DecidableEq Connector] : Option (System Producer Connector) :=
  match system.control with
  | .accepting | .paused => none
  | .pausing (connector :: rest) => some
      { system with
        callptr := update system.callptr connector .preMessagePaused
        control := .pausing rest }
  | .pausing [] => some { system with control := .sampling }
  | .sampling => some (if system.isIdle then { system with control := .paused } else system)
  | .resuming (connector :: rest) => some
      { system with
        callptr := update system.callptr connector .preMessage
        control := .resuming rest }
  | .resuming [] => some { system with control := .accepting }

variable [DecidableEq Producer]

def setProducer (producer : Producer) (pc : ProducerPC) : System Producer Connector :=
  { system with producers := update system.producers producer pc }

omit config in
@[simp] theorem setProducer_self (producer : Producer) (pc : ProducerPC) :
    (system.setProducer producer pc).producers producer = pc := by
  simp [setProducer, update_self]

omit config in
theorem setProducer_of_ne {producer other : Producer} (apart : other ≠ producer)
    (pc : ProducerPC) :
    (system.setProducer producer pc).producers other = system.producers other := by
  simp [setProducer, update_of_ne apart]

/-- `Forward` of a connector, up to the end of the push. -/
def producerStep (producer : Producer) : Option (System Producer Connector) :=
  match system.producers producer with
  | .outside => none
  | .calling message =>
    match system.callptr (config.connector producer) with
    | .preMessage => some (system.setProducer producer (.allocating message))
    | .preMessagePaused => some (system.setProducer producer (.counting message))
  | .allocating message =>
    if system.HasRoom config message then
      some ({ system with
        reserved := if config.isOrdered then system.reserved
          else system.reserved ++ [producer] }.setProducer producer (.posting message))
    else
      some system
  | .posting message =>
    let posted := { system with
      queue := system.queue ++ [message]
      postedSinceLook := true }.setProducer producer .outside
    if config.isOrdered then
      some posted
    else if system.reserved.head? = some producer then
      some { posted with reserved := system.reserved.tail }
    else
      some system
  | .counting message =>
    some (system.setProducer producer (.storingDrops message system.dropMsgs))
  | .storingDrops message drops => some
      ({ system with dropMsgs := drops + 1, refused := system.refused ++ [message] }.setProducer
        producer .outside)

end

variable [DecidableEq Producer] [DecidableEq Connector]

def step (config : Config Producer Connector) (system : System Producer Connector) :
    Action Producer → Option (System Producer Connector)
  | .forward producer message =>
    if system.producers producer = .outside ∧ 1 ≤ message ∧ message ∉ system.forwarded then
      some ({ system with forwarded := system.forwarded ++ [message] }.setProducer producer
        (.calling message))
    else
      none
  | .producer producer => system.producerStep config producer
  | .worker threw => some (system.workerStep config threw)
  | .pause =>
    match system.control with
    | .accepting => some { system with control := .pausing config.prevConnectors }
    | .paused => some system
    | .pausing _ | .sampling | .resuming _ => none
  | .resume =>
    match system.control with
    | .accepting | .paused => some { system with control := .resuming config.prevConnectors }
    | .pausing _ | .sampling | .resuming _ => none
  | .control => system.controlStep

end System

end AdkAaf.Adk.PipelineVariant.Pausing
