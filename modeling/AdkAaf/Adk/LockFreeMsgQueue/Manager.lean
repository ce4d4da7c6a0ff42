import AdkAaf.Adk.ArchGeneric
import AdkAaf.Lib.CharArray
import AdkAaf.Lib.RingWindow
import AdkAaf.Lib.Transition

/-! `MQManager` (`adk/src/lock_free_msg_queue.cpp`): a segment of shared memory holds a
table, the headers of at most 4160 queues and behind them their rings. Managers of several
processes are attached to the segment and make one call at a time; each keeps a map from
names to rows of its own.

Places are counted from the start of the segment. -/

set_option autoImplicit false

namespace AdkAaf.Adk.LockFreeMsgQueue

open Function

open Lib (charArray cString)

abbrev Name := List UInt8

def nameCopy (name : Name) : Name := charArray 256 (name.take 255)

/-- `Entry::CalcEntrySize`: the sum is one of 64 bits, which the macro casts. -/
def calcEntrySize (payloadSize : UInt32) : UInt32 :=
  roundToPowerOf2 (payloadSize.toUInt64 + 8).toUInt32

structure QueueMemoryHeader where
  queueName : Name
  entrySize : UInt32
  queueMask : UInt32
  queueSize : UInt32
  queueEntryOffset : UInt64

structure MPSCQueue where
  mqIndex : UInt32
  header : UInt64
  entries : UInt64
  entrySize : UInt32
  entryBits : Nat
  queueSize : UInt32
  queueMask : UInt32

structure MQManager where
  entryPayloadSize : UInt32
  queueHeaderSize : UInt32
  entrySize : UInt32
  nameToIndexMap : Name → Option UInt32 := fun _ => none
  lastIterate : UInt32 := 0

structure MQTable where
  mqNum : UInt32 := 0
  entryPayloadSize : UInt32
  queueHeaderSize : UInt32
  totalEntryNum : UInt32
  totalEntryNumUsed : UInt32 := 0
  headers : List QueueMemoryHeader := []

def maxSharedMsgQueues : UInt32 := 4096 + 64

/-- `ADK_PAGE_SIZE`; it is the largest of the three sizes a header has to hold. -/
def pageSize : UInt32 := 4096

namespace MQManager

def totalHeaderSize : UInt64 := (pageSize * (maxSharedMsgQueues + 1)).toUInt64

def totalQueueSize (entryPayloadSize queueSize extraSize : UInt32) : UInt64 :=
  (calcEntrySize entryPayloadSize).toUInt64 * queueSize.toUInt64 *
      maxSharedMsgQueues.toUInt64 +
    (calcEntrySize entryPayloadSize).toUInt64 * extraSize.toUInt64

def attach (table : MQTable) : MQManager where
  entryPayloadSize := table.entryPayloadSize
  queueHeaderSize := table.queueHeaderSize
  entrySize := calcEntrySize table.entryPayloadSize

def headerPlace (manager : MQManager) (index : UInt32) : UInt64 :=
  manager.queueHeaderSize.toUInt64 + (manager.queueHeaderSize * index).toUInt64

/-- The product is one of `uint32_t`. -/
def entriesPlace (manager : MQManager) (totalEntryNumUsed : UInt32) : UInt64 :=
  manager.queueHeaderSize.toUInt64 + (manager.queueHeaderSize * maxSharedMsgQueues).toUInt64 +
    (totalEntryNumUsed * manager.entrySize).toUInt64

end MQManager

def MPSCQueue.init (mqIndex : UInt32) (place : UInt64) (header : QueueMemoryHeader) :
    MPSCQueue where
  mqIndex := mqIndex
  header := place
  entries := place + header.queueEntryOffset
  entrySize := header.entrySize
  entryBits := getBits header.entrySize
  queueSize := header.queueSize
  queueMask := header.queueMask

namespace MQManager

variable (manager : MQManager) (table : MQTable)

/-- `AttachSharedMPSCQueue(index)`. -/
def attachIndex (index : UInt32) : Option MPSCQueue :=
  if index ≥ table.mqNum then
    none
  else
    (table.headers[index.toNat]?).map (MPSCQueue.init index (manager.headerPlace index))

def insertName (map : Name → Option UInt32) (row : QueueMemoryHeader × Nat) :
    Name → Option UInt32 :=
  let name := cString row.1.queueName
  if (map name).isSome then map else update map name (some row.2.toUInt32)

def iterate : MQManager :=
  { manager with
    nameToIndexMap :=
      (table.headers.zipIdx.drop manager.lastIterate.toNat).foldl insertName
        manager.nameToIndexMap
    lastIterate := table.mqNum }

/-- `AttachSharedMPSCQueue(name)`. -/
def attachName (name : Name) : Option MPSCQueue × MQManager :=
  match manager.nameToIndexMap name with
  | some index => (manager.attachIndex table index, manager)
  | none =>
    let iterated := manager.iterate table
    ((iterated.nameToIndexMap name).bind (iterated.attachIndex table), iterated)

def newHeader (name : Name) (blockNum : UInt32) :
    QueueMemoryHeader where
  queueName := nameCopy name
  entrySize := calcEntrySize manager.entryPayloadSize
  queueMask := blockNum - 1
  queueSize := blockNum
  queueEntryOffset :=
    manager.entriesPlace table.totalEntryNumUsed - manager.headerPlace table.mqNum

def Full (blockNum : UInt32) : Prop :=
  table.mqNum ≥ maxSharedMsgQueues ∨
    table.totalEntryNumUsed + blockNum > table.totalEntryNum

instance (table : MQTable) (blockNum : UInt32) : Decidable (Full table blockNum) :=
  inferInstanceAs (Decidable (_ ∨ _))

/-- `CreateSharedMPSCQueue`. -/
def createQueue (name : Name) (blockNum : UInt32) : Option MPSCQueue × MQTable :=
  match manager.nameToIndexMap name with
  | some index => (manager.attachIndex table index, table)
  | none =>
    let blockNum := roundToPowerOf2 blockNum
    if Full table blockNum then
      (none, table)
    else
      let header := manager.newHeader table name blockNum
      (some (MPSCQueue.init table.mqNum (manager.headerPlace table.mqNum) header),
        { table with
          headers := table.headers ++ [header]
          totalEntryNumUsed := table.totalEntryNumUsed + blockNum
          mqNum := table.mqNum + 1 })

end MQManager

/-- `size` is what `ShmFactory::Create` was asked for, `created` the queues that
`CreateSharedMPSCQueue` has returned, with the names they were asked for. -/
structure Segment where
  size : UInt64
  table : MQTable
  managers : Nat → Option MQManager
  created : List (Name × MPSCQueue) := []

namespace Segment

/-- `MQManager::Create`, which makes the first manager. -/
def create (entryPayloadSize queueSize extraSize : UInt32) : Option Segment :=
  let size := MQManager.totalHeaderSize +
    MQManager.totalQueueSize entryPayloadSize queueSize extraSize
  let table : MQTable :=
    { entryPayloadSize := entryPayloadSize
      queueHeaderSize := pageSize
      totalEntryNum := queueSize * maxSharedMsgQueues + extraSize }
  if size = 0 then
    none
  else
    some
      { size := size
        table := table
        managers := update (fun _ => none) 0 (some (MQManager.attach table)) }

inductive Action where
  | attach (id : Nat)
  | createQueue (id : Nat) (name : Name) (blockNum : UInt32)
  | attachIndex (id : Nat) (index : UInt32)
  | attachName (id : Nat) (name : Name)

variable (segment : Segment)

def step : Action → Option Segment
  | .attach id =>
    some { segment with
      managers := update segment.managers id (some (MQManager.attach segment.table)) }
  | .createQueue id name blockNum =>
    (segment.managers id).map fun manager =>
      let (queue, table) := manager.createQueue segment.table name blockNum
      { segment with
        table := table
        created := (queue.map fun queue => (name, queue)).toList ++ segment.created }
  | .attachIndex id _ => (segment.managers id).map fun _ => segment
  | .attachName id name =>
    (segment.managers id).map fun manager =>
      { segment with
        managers := update segment.managers id
          (some (manager.attachName segment.table name).2) }

/-- A new row is only asked for under a new name, which holds no zero byte, and neither the
counters nor the place of its ring wrap around. -/
def Allowed : Action → Prop
  | .createQueue id name blockNum =>
    ∀ manager ∈ segment.managers id, manager.nameToIndexMap name = none →
      name ∉ segment.table.headers.map (cString ·.queueName) ∧
        (segment.table.mqNum < maxSharedMsgQueues →
          segment.table.totalEntryNumUsed.toNat + (roundToPowerOf2 blockNum).toNat < 2 ^ 32 ∧
          (¬ MQManager.Full segment.table (roundToPowerOf2 blockNum) →
            segment.table.totalEntryNumUsed.toNat * manager.entrySize.toNat < 2 ^ 32 ∧
            name.length < 256 ∧ 0 ∉ name))
  | _ => True

instance (segment : Segment) : ∀ action, Decidable (segment.Allowed action)
  | .attach _ => inferInstanceAs (Decidable True)
  | .createQueue _ _ _ =>
    inferInstanceAs (Decidable (∀ manager ∈ Segment.managers _ _, _ → _ ∧ (_ → _ ∧ (_ → _))))
  | .attachIndex _ _ => inferInstanceAs (Decidable True)
  | .attachName _ _ => inferInstanceAs (Decidable True)

def ringSize (queue : MPSCQueue) : Nat := queue.queueSize.toNat * queue.entrySize.toNat

def queueAt (index : UInt32) : Option MPSCQueue :=
  (MQManager.attach segment.table).attachIndex segment.table index

structure Safe (segment : Segment) : Prop where
  /-- The rings lie behind the headers, in the segment. -/
  inside : ∀ index queue, segment.queueAt index = some queue →
    MQManager.totalHeaderSize.toNat ≤ queue.entries.toNat ∧
      queue.entries.toNat + ringSize queue ≤ segment.size.toNat
  apart : ∀ first second queue other, first ≠ second →
    segment.queueAt first = some queue → segment.queueAt second = some other →
    Lib.RangesApart queue.entries.toNat (ringSize queue) other.entries.toNat (ringSize other)
  /-- A queue that was created is the one of its name, in every manager. -/
  named : ∀ entry ∈ segment.created, ∀ id manager, segment.managers id = some manager →
    (manager.attachName segment.table entry.1).1 = some entry.2 ∧
      manager.attachIndex segment.table entry.2.mqIndex = some entry.2
  /-- A name that is there is not added again. -/
  existing : ∀ entry ∈ segment.created, ∀ id manager blockNum,
    segment.managers id = some manager → segment.Allowed (.createQueue id entry.1 blockNum) →
    manager.createQueue segment.table entry.1 blockNum = (some entry.2, segment.table)
  distinct : (segment.table.headers.map (cString ·.queueName)).Nodup

end Segment

end AdkAaf.Adk.LockFreeMsgQueue
