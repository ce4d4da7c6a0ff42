import AdkAaf.Adk.LockFreeMsgQueue.Mpsc.Fifo
import AdkAaf.Lib.Token

/-! The ordered stages of `adk/include/adk/pipeline_variant.h` and the calls of `SPSCQueue`
behind them, in `adk/include/adk/lock_free_msg_queue.h`. An entrance numbers what it
forwards, the workers push into the ring of the ordered stage by that number, and the thread
of the stage takes a slot when the sign bit of its `pos` is set.

Each action is one access to memory that the threads share. The input queue of a worker is
the list of what was forwarded to it. A worker in the context of the entrance takes its steps
while the entrance waits, which is one of the orders that are allowed here. -/

set_option autoImplicit false

namespace AdkAaf.Adk.PipelineVariant

open Function

structure MsgStatus where
  order : UInt64

structure QueuePayload (Data : Type) where
  stats : MsgStatus
  data : Data

/-- The buffer of an entry is uninitialised memory until a payload is written. -/
structure Entry (Data : Type) where
  pos : UInt64 := 0
  buffer : Option (QueuePayload Data) := none

/-- What the ordered calls use of `SPSCQueue` and of its header. -/
structure SPSCQueue (Data : Type) where
  head : UInt64
  release : UInt64
  reserveThreshold : UInt64
  entries : UInt64 → Entry Data

/-- The configured size of the queue, and what each worker makes of a message. -/
structure Config (Worker In Out : Type) where
  queueSize : UInt64
  work : Worker → In → Out

variable {Worker In Out : Type}

namespace Config

variable (config : Config Worker In Out)

def rounded : UInt32 := roundToPowerOf2 config.queueSize.toUInt32

def size : UInt64 := config.rounded.toUInt64

def mask : UInt64 := (config.rounded - 1).toUInt64

def getInQueueIndex (index : UInt64) : UInt64 :=
  index &&& config.mask

/-- `Create` makes entries, and neither their size for such payloads nor that of their block
wraps around. -/
def Fits (config : Config Worker In Out) (payloadSize : UInt32) : Prop :=
  config.rounded ≠ 0 ∧ LockFreeMsgQueue.Mpsc.Fits payloadSize config.queueSize.toUInt32

instance (config : Config Worker In Out) (payloadSize : UInt32) :
    Decidable (config.Fits payloadSize) := inferInstanceAs (Decidable (_ ∧ _))

end Config

/-- `pos & (1ul << 63)` -/
def Filled (pos : UInt64) : Prop := pos &&& ((1 : UInt64) <<< 63) ≠ 0

instance (pos : UInt64) : Decidable (Filled pos) := inferInstanceAs (Decidable (_ ≠ _))

/-- Where a worker stands between `Message` of one input and that of the next. -/
inductive WorkerPC (Data : Type) where
  | receiving
  | comparing (load : QueuePayload Data)
  | loadingRelease (load : QueuePayload Data)
  | storingThreshold (load : QueuePayload Data) (threshold : UInt64)
  | recomparing (load : QueuePayload Data)
  | writing (load : QueuePayload Data) (entry : UInt64)
  | posting (load : QueuePayload Data) (entry : UInt64)

inductive StagePC where
  | waiting
  | handing (entry : UInt64)
  | idling (entry : UInt64)
  | negating (entry : UInt64)
  | storingPos (entry : UInt64) (pos : UInt64)
  | releasing
  deriving DecidableEq

/-- The last three fields record what the code does not keep: everything the entrance
forwarded, the pushed messages whose entries were not freed, and what `Message` of the
ordered stage was called with. -/
structure System (Worker In Out : Type) where
  order : UInt64
  inputs : Worker → List (QueuePayload In)
  workers : Worker → WorkerPC Out
  queue : SPSCQueue Out
  stage : StagePC
  forwarded : List (Worker × In) := []
  pushed : List (QueuePayload Out) := []
  handed : List Out := []

/-- The cursors start at `QUEUE_CURSOR_INIT_VALUE`. -/
def created (config : Config Worker In Out) : System Worker In Out where
  order := 1
  inputs _ := []
  workers _ := .receiving
  queue := {
    head := 1
    release := 1
    reserveThreshold := config.size
    entries := fun _ => {} }
  stage := .waiting

/-- `Create`. Otherwise `InitEntries` writes behind the block, or the stage reads there for want
of an entry, and there is no queue to speak of. -/
def create (config : Config Worker In Out) (payloadSize : UInt32) :
    Option (System Worker In Out) :=
  if config.Fits payloadSize then some (created config) else none

inductive Action (Worker In : Type) where
  | forward (worker : Worker) (data : In)
  | worker (worker : Worker)
  | stage
  | idle (threw : Bool)

section

variable [DecidableEq Worker] (config : Config Worker In Out) (system : System Worker In Out)

namespace System

variable (worker : Worker)

def forward (data : In) : System Worker In Out :=
  { system with
    order := system.order + 1
    inputs := update system.inputs worker
      (system.inputs worker ++ [⟨⟨system.order⟩, data⟩])
    forwarded := system.forwarded ++ [(worker, data)] }

def setWorker (pc : WorkerPC Out) : System Worker In Out :=
  { system with workers := update system.workers worker pc }

def setEntry (entry : UInt64) (content : Entry Out) : System Worker In Out :=
  { system with
    queue := { system.queue with
      entries := update system.queue.entries entry content } }

def receive (input : QueuePayload In) (rest : List (QueuePayload In)) : System Worker In Out :=
  { system with inputs := update system.inputs worker rest }.setWorker worker
    (.comparing ⟨input.stats, config.work worker input.data⟩)

def postEntry (load : QueuePayload Out) (entry : UInt64) : System Worker In Out :=
  { system.setEntry entry { system.queue.entries entry with pos := -load.stats.order } with
    pushed := system.pushed ++ [load] }.setWorker worker .receiving

def freeEntry (entry pos : UInt64) : System Worker In Out :=
  { system.setEntry entry { system.queue.entries entry with pos } with
    pushed := system.pushed.filter fun load =>
      config.getInQueueIndex load.stats.order ≠ entry
    stage := .releasing }

/-- `Message` of a worker forwards one message; `Pre_Message_Ordered` repeats `ReorderPush`
until there is room. -/
def workerStep : Option (System Worker In Out) :=
  match system.workers worker with
  | .receiving =>
    match system.inputs worker with
    | [] => none
    | input :: rest => some (system.receive config worker input rest)
  | .comparing load =>
    if load.stats.order ≥ system.queue.reserveThreshold then
      some (system.setWorker worker (.loadingRelease load))
    else
      some (system.setWorker worker
        (.writing load (config.getInQueueIndex load.stats.order)))
  | .loadingRelease load => some (system.setWorker worker
      (.storingThreshold load (system.queue.release + config.size)))
  | .storingThreshold load threshold => some
      ({ system with
        queue := { system.queue with reserveThreshold := threshold } }.setWorker worker
          (.recomparing load))
  | .recomparing load =>
    if load.stats.order ≥ system.queue.reserveThreshold then
      some (system.setWorker worker (.comparing load))
    else
      some (system.setWorker worker
        (.writing load (config.getInQueueIndex load.stats.order)))
  | .writing load entry => some
      ((system.setEntry entry { system.queue.entries entry with buffer := some load }).setWorker
        worker (.posting load entry))
  | .posting load entry => some (system.postEntry worker load entry)

/-- `RecorderWaitEntry`, which yields the entry also when it is not filled, `Message` and
`RecorderFreeEntry`. -/
def stageStep : Option (System Worker In Out) :=
  match system.stage with
  | .waiting =>
    let entry := config.getInQueueIndex system.queue.head
    if Filled (system.queue.entries entry).pos then
      some { system with
        queue := { system.queue with head := system.queue.head + 1 }
        stage := .handing entry }
    else
      some { system with stage := .idling entry }
  | .handing entry => some { system with
      handed := system.handed ++ ((system.queue.entries entry).buffer.map (·.data)).toList
      stage := .negating entry }
  | .idling _ => none
  | .negating entry => some { system with
      stage := .storingPos entry (-(system.queue.entries entry).pos) }
  | .storingPos entry pos => some (system.freeEntry config entry pos)
  | .releasing => some { system with
      queue := { system.queue with release := system.queue.release + 1 }
      stage := .waiting }

/-- An `Idle()` that returns forgets the entry; after an exception the entry is freed. -/
def idleStep (threw : Bool) : Option (System Worker In Out) :=
  match system.stage with
  | .idling entry => some { system with stage := if threw then .negating entry else .waiting }
  | _ => none

end System

def step : Action Worker In → Option (System Worker In Out)
  | .forward worker data => some (system.forward worker data)
  | .worker worker => system.workerStep config worker
  | .stage => system.stageStep config
  | .idle threw => system.idleStep threw

end

namespace System

variable (config : Config Worker In Out) (system : System Worker In Out)

def expected : List Out :=
  system.forwarded.map fun sent => config.work sent.1 sent.2

/-- The messages come to the ordered stage as the entrance forwarded them. -/
def InOrder : Prop :=
  system.handed <+: system.expected config

def Intact : Prop :=
  ∀ load ∈ system.pushed, system.queue.entries (config.getInQueueIndex load.stats.order) =
    ⟨-load.stats.order, some load⟩

end System

end AdkAaf.Adk.PipelineVariant
