import AdkAaf.Adk.ShmContChannel.Basic
import AdkAaf.Lib.Transition

/-! Proxies and the agent of one sccl channel, interleaved statement by
statement. A proxy is known by the index of its write-ahead record; it may die
at any statement, and the agent then runs `FreeWAL` on its index before the
index is handed out again.

Besides the shared memory the state records the reservations in the order in
which their tails were published, and what the agent has received. -/

set_option autoImplicit false

namespace AdkAaf.Adk.Sccl

/-- The statement a proxy executes next. In `AllocBuffer` it carries the
requested length and, behind the load, the tail it has read. With a buffer in
hand it also carries the number of its reservation. -/
inductive ProxyPC where
  | idle
  | loadTail (length : UInt32)
  | loadHead (length : UInt32) (tail : Nat)
  | writeCursor (length : UInt32) (tail : Nat)
  | compareAndSwap (length : UInt32) (tail : Nat)
  | setEntry (length : UInt32) (tail : Nat)
  | publishTail (length : UInt32) (tail : Nat)
  | holding (length : UInt32) (cursor number : Nat)
  deriving DecidableEq

/-- The life of an index. `releasing` lies between the check and the store of
`FreeWAL`. -/
inductive Owner where
  | free
  | alive (pc : ProxyPC)
  | dead (pc : ProxyPC)
  | releasing (pc : ProxyPC)
  deriving DecidableEq

inductive Status where
  | acquired
  | posted (size : Nat)
  | released
  deriving DecidableEq

structure Reservation where
  index : Nat
  allocLen : Nat
  status : Status
  deriving DecidableEq

/-- The consumer between two calls, between the two halves of `TryWaitEntry`, or
with an entry it has not freed. -/
inductive ConsumerPC where
  | idle
  | examining
  | holding
  deriving DecidableEq

structure System where
  shm : Shm
  owners : Nat → Owner := fun _ => .free
  consumer : ConsumerPC := .idle
  history : List Reservation := []
  consumed : Nat := 0
  received : List (Nat × Nat) := []

inductive Action where
  | allocWAL (index : Nat)
  | allocBuffer (index : Nat) (length : UInt32)
  | proceed (index : Nat)
  | giveUp (index : Nat)
  | writeByte (index : Nat) (offset : Nat) (byte : UInt8)
  | postBuffer (index : Nat) (size : Nat)
  | die (index : Nat)
  | freeWAL (index : Nat)
  | releaseEntry (index : Nat)
  | tryWaitEntry
  | examineEntry
  | freeEntry

namespace System

variable (system : System)

def setOwner (index : Nat) (owner : Owner) : System :=
  { system with owners := Function.update system.owners index owner }

def setShm (shm : Shm) : System := { system with shm := shm }

def setStatus (number : Nat) (status : Status) : System :=
  { system with
    history := system.history.modify number fun reservation =>
      { reservation with status := status } }

/-- `IndexAllocator` hands out one of the indices that are not in use. -/
def allocWAL (index : Nat) : Option System :=
  if 1 ≤ index ∧ index ≤ kMaxProxySize ∧ system.owners index = .free then
    some (system.setOwner index (.alive .idle))
  else
    none

/-- `AllocBuffer` up to its loop; a request that is too long fails at once. -/
def allocBuffer (index : Nat) (length : UInt32) : Option System :=
  if system.owners index = .alive .idle ∧ allocLen length ≤ system.shm.maxMessageSize.toNat then
    some (system.setOwner index (.alive (.loadTail length)))
  else
    none

def proceed (index : Nat) : Option System :=
  let shm := system.shm
  let wal := shm.wals index
  match system.owners index with
  | .alive (.loadTail length) =>
    if isMixed shm.tail then
      some system
    else if wal.threshold < add64 shm.tail (allocLen length) then
      some (system.setOwner index (.alive (.loadHead length shm.tail)))
    else
      some (system.setOwner index (.alive (.writeCursor length shm.tail)))
  | .alive (.loadHead length tail) =>
    let threshold := add64 shm.head shm.memorySize.toNat
    let refreshed := system.setShm (shm.setWAL index { wal with threshold := threshold })
    if threshold < add64 tail (allocLen length) then
      some (refreshed.setOwner index (.alive .idle))
    else
      some (refreshed.setOwner index (.alive (.writeCursor length tail)))
  | .alive (.writeCursor length tail) =>
    some ((system.setShm (shm.setWAL index { wal with cursor := tail })).setOwner index
      (.alive (.compareAndSwap length tail)))
  | .alive (.compareAndSwap length tail) =>
    if shm.tail = tail then
      some ((system.setShm { shm with tail := mix index tail }).setOwner index
        (.alive (.setEntry length tail)))
    else
      some (system.setOwner index (.alive (.loadTail length)))
  | .alive (.setEntry length tail) =>
    some ((system.setShm (shm.setEntryWord tail (Entry.acquire index (allocLen length)))).setOwner
      index (.alive (.publishTail length tail)))
  | .alive (.publishTail length tail) =>
    some
      { (system.setShm { shm with tail := add64 tail (allocLen length) }).setOwner index
          (.alive (.holding length tail system.history.length)) with
        history := system.history ++ [⟨index, allocLen length, .acquired⟩] }
  | _ => none

/-- The loop ends without a buffer: the backoff is used up, or the connection to
the agent is gone. -/
def giveUp (index : Nat) : Option System :=
  match system.owners index with
  | .alive (.loadTail _) => some (system.setOwner index (.alive .idle))
  | _ => none

def writeByte (index offset : Nat) (byte : UInt8) : Option System :=
  match system.owners index with
  | .alive (.holding length cursor _) =>
    if offset < length.toNat then
      some (system.setShm
        { system.shm with
          memory := system.shm.memory.storeByte (system.shm.getEntry cursor + 8 + offset) byte })
    else
      none
  | _ => none

def postBuffer (index size : Nat) : Option System :=
  match system.owners index with
  | .alive (.holding _ cursor number) =>
    let word := system.shm.entryWord cursor
    if 0 < size ∧ size ≤ Entry.allocatedLength word then
      some (((system.setShm
        (system.shm.setEntryWord cursor (Entry.setBufferSize word size))).setOwner index
          (.alive .idle)).setStatus number (.posted size))
    else
      none
  | _ => none

def die (index : Nat) : Option System :=
  match system.owners index with
  | .alive pc => some (system.setOwner index (.dead pc))
  | _ => none

def freeWAL (index : Nat) : Option System :=
  let shm := system.shm
  let cursor := (shm.wals index).cursor
  match system.owners index with
  | .dead pc =>
    if index = unmixed shm.tail then
      some ((system.setShm { shm with tail := restore shm.tail }).setOwner index .free)
    else if shm.head ≤ cursor ∧ Entry.isAcquired (shm.entryWord cursor) index = true then
      some (system.setOwner index (.releasing pc))
    else
      some (system.setOwner index .free)
  | _ => none

def abandon : ProxyPC → System
  | .holding _ _ number => system.setStatus number .released
  | _ => system

def releaseEntry (index : Nat) : Option System :=
  let shm := system.shm
  let cursor := (shm.wals index).cursor
  match system.owners index with
  | .releasing pc =>
    some (((system.setShm
      (shm.setEntryWord cursor (Entry.release (shm.entryWord cursor)))).setOwner index
        .free).abandon pc)
  | _ => none

def tryWaitEntry : Option System :=
  let shm := system.shm.refreshThreshold
  match system.consumer with
  | .idle =>
    if shm.headThreshold ≤ shm.head then
      some (system.setShm shm)
    else
      some { system.setShm shm with consumer := .examining }
  | _ => none

def advanceHead : System :=
  { system with
    shm := system.shm.freeEntry
    consumer := .idle
    consumed := system.consumed + 1 }

/-- The rest of `TryWaitEntry`: a posted entry is returned, a released one is
freed and the call starts over, at any other one it returns `nullptr`. -/
def examineEntry : Option System :=
  let word := system.shm.entryWord system.shm.head
  match system.consumer with
  | .examining =>
    if 0 < Entry.bufferSize word then
      some { system with
        consumer := .holding
        received := system.received ++ [(system.shm.head, Entry.bufferSize word)] }
    else if Entry.index word = 0 then
      some system.advanceHead
    else
      some { system with consumer := .idle }
  | _ => none

def freeEntry : Option System :=
  match system.consumer with
  | .holding => some system.advanceHead
  | _ => none

def step : Action → Option System
  | .allocWAL index => system.allocWAL index
  | .allocBuffer index length => system.allocBuffer index length
  | .proceed index => system.proceed index
  | .giveUp index => system.giveUp index
  | .writeByte index offset byte => system.writeByte index offset byte
  | .postBuffer index size => system.postBuffer index size
  | .die index => system.die index
  | .freeWAL index => system.freeWAL index
  | .releaseEntry index => system.releaseEntry index
  | .tryWaitEntry => system.tryWaitEntry
  | .examineEntry => system.examineEntry
  | .freeEntry => system.freeEntry

end System

def Status.postedSize : Status → Option Nat
  | .posted size => some size
  | .acquired | .released => none

def position (history : List Reservation) (number : Nat) : Nat :=
  Lib.extent Reservation.allocLen (history.take number)

def postedEntries (history : List Reservation) (count : Nat) : List (Nat × Nat) :=
  (Lib.placements Reservation.allocLen 0 (history.take count)).filterMap fun placed =>
    placed.2.status.postedSize.map fun size => (placed.1, size)

def Owner.pc : Owner → ProxyPC
  | .free => .idle
  | .alive pc | .dead pc | .releasing pc => pc

/-- The owner has the buffer of this reservation in hand, or died with it and has
not been cleaned up. -/
def Owner.Holds (owner : Owner) (number : Nat) : Prop :=
  ∃ length cursor, owner.pc = .holding length cursor number

/-- The owner stands between the exchange of the tail and its publication. -/
def Owner.Reserving (owner : Owner) : Prop :=
  ∃ length tail, owner.pc = .setEntry length tail ∨ owner.pc = .publishTail length tail

def ConsumerPC.taken (consumed : Nat) : ConsumerPC → Nat
  | .idle | .examining => consumed
  | .holding => consumed + 1

def System.taken (system : System) : Nat := system.consumer.taken system.consumed

structure ChannelSafe (system : System) : Prop where
  /-- The agent has received the posted entries it has been through, in order. -/
  received : system.received = postedEntries system.history system.taken
  /-- It never passes an entry that is not posted or released. -/
  settled : ∀ reservation ∈ system.history.take system.taken, reservation.status ≠ .acquired
  /-- At the tail there is nothing more to receive. -/
  drained : restore system.shm.tail ≤ system.shm.head → system.history.length ≤ system.consumed
  /-- `TryWaitEntry` returns `nullptr` short of the tail only at an entry whose
  owner still holds it. -/
  waits : system.shm.head < restore system.shm.tail →
    Entry.bufferSize (system.shm.entryWord system.shm.head) = 0 →
    Entry.index (system.shm.entryWord system.shm.head) ≠ 0 →
    (system.owners (Entry.index (system.shm.entryWord system.shm.head))).Holds system.consumed
  /-- An index that has been freed holds no reservation. -/
  held : ∀ number reservation, system.history[number]? = some reservation →
    reservation.status = .acquired → (system.owners reservation.index).Holds number
  /-- An index that has been freed does not lock the tail. -/
  locked : isMixed system.shm.tail = true → (system.owners (unmixed system.shm.tail)).Reserving

end AdkAaf.Adk.Sccl
