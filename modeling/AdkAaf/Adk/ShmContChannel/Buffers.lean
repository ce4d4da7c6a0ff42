import AdkAaf.Adk.ShmContChannel.Recovery

/-! The channel without the rule that a proxy posts a buffer before it allocates
the next one: it may have any number of them in hand, fill and post them in any
order and with every size `SetBufferSize` accepts, and the agent may be started
again on the same memory. -/

set_option autoImplicit false

namespace AdkAaf.Adk.Sccl

open Function

/-- What `AllocBuffer` has returned: the length it was asked for, the tail it has
replaced, and the number of the entry. -/
structure Buffer where
  length : UInt32
  cursor : Nat
  number : Nat
  deriving DecidableEq

/-- `lengths` are the lengths of the entries in the order in which their tails
were published, `posts` the numbers and sizes that were posted. -/
structure Channel where
  shm : Shm
  owners : Nat → Owner := fun _ => .free
  buffers : Nat → List Buffer := fun _ => []
  consumer : ConsumerPC := .idle
  lengths : List Nat := []
  consumed : Nat := 0
  posts : List (Nat × Nat) := []

def Owner.isAlive : Owner → Bool
  | .alive _ => true
  | .free | .dead _ | .releasing _ => false

namespace Channel

inductive Action where
  | allocWAL (index : Nat)
  | allocBuffer (index : Nat) (length : UInt32)
  | proceed (index : Nat)
  | giveUp (index : Nat)
  | writeByte (index place offset : Nat) (byte : UInt8)
  | postBuffer (index place size : Nat)
  | die (index : Nat)
  | freeWAL (index : Nat)
  | releaseEntry (index : Nat)
  | tryWaitEntry
  | examineEntry
  | freeEntry
  | restart

variable (channel : Channel)

def system : System :=
  { shm := channel.shm
    owners := channel.owners
    consumer := channel.consumer
    consumed := channel.consumed }

def run (operation : System → Option System) : Option Channel :=
  (operation channel.system).map fun next =>
    { channel with
      shm := next.shm
      owners := next.owners
      consumer := next.consumer
      consumed := next.consumed }

/-- A statement of the loop of `AllocBuffer`; the publication of the tail returns
the buffer. -/
def proceed (channel : Channel) (index : Nat) : Option Channel :=
  match channel.owners index with
  | .alive (.publishTail length tail) =>
    some
      { channel with
        shm := { channel.shm with tail := add64 tail (allocLen length) }
        owners := update channel.owners index (.alive .idle)
        buffers := update channel.buffers index
          (⟨length, tail, channel.lengths.length⟩ :: channel.buffers index)
        lengths := channel.lengths ++ [allocLen length] }
  | _ => channel.run (·.proceed index)

def writeByte (index place offset : Nat) (byte : UInt8) : Option Channel :=
  match (channel.buffers index)[place]? with
  | some buffer =>
    if offset < buffer.length.toNat then
      some { channel with
        shm := { channel.shm with
          memory := channel.shm.memory.storeByte
            (channel.shm.getEntry buffer.cursor + 8 + offset) byte } }
    else
      none
  | none => none

def postBuffer (index place size : Nat) : Option Channel :=
  match (channel.buffers index)[place]? with
  | some buffer =>
    let word := channel.shm.entryWord buffer.cursor
    if Entry.bufferSize word = 0 ∧ size ≤ kMaxLength ∧ size ≤ Entry.allocatedLength word then
      some { channel with
        shm := channel.shm.setEntryWord buffer.cursor (Entry.setBufferSize word size)
        buffers := update channel.buffers index
          ((channel.buffers index).eraseIdx place)
        posts := (buffer.number, size) :: channel.posts }
    else
      none
  | none => none

def die (channel : Channel) (index : Nat) : Option Channel :=
  (channel.run (·.die index)).map fun next =>
    { next with buffers := update next.buffers index [] }

/-- The cursors move down by a multiple of the ring size. What lies before the new
head counts as entries of a word each. -/
def restart : Channel :=
  let rollbackHead := channel.shm.rollbackHead
  let gone := rollbackHead / 8
  { shm := channel.shm.recover
    owners := fun index =>
      if (channel.owners index).isAlive then channel.owners index else .free
    buffers := fun index => (channel.buffers index).map fun buffer =>
      { buffer with
        cursor := buffer.cursor - (channel.shm.head - rollbackHead)
        number := buffer.number - channel.consumed + gone }
    consumer := .idle
    lengths := List.replicate gone 8 ++ channel.lengths.drop channel.consumed
    consumed := gone
    posts := (channel.posts.filter fun post => channel.consumed ≤ post.1).map fun post =>
      (post.1 - channel.consumed + gone, post.2) }

def step : Action → Option Channel
  | .allocWAL index => channel.run (·.allocWAL index)
  | .allocBuffer index length => channel.run (·.allocBuffer index length)
  | .proceed index => channel.proceed index
  | .giveUp index => channel.run (·.giveUp index)
  | .writeByte index place offset byte => channel.writeByte index place offset byte
  | .postBuffer index place size => channel.postBuffer index place size
  | .die index => channel.die index
  | .freeWAL index => channel.run (·.freeWAL index)
  | .releaseEntry index => channel.run (·.releaseEntry index)
  | .tryWaitEntry => channel.run (·.tryWaitEntry)
  | .examineEntry => channel.run (·.examineEntry)
  | .freeEntry => channel.run (·.freeEntry)
  | .restart => some channel.restart

def cursorAt (number : Nat) : Nat := (channel.lengths.take number).sum

/-- The entries from the head to the tail, and the buffers among them, lie apart
in the memory behind the header. -/
structure MemoryLaidOut (channel : Channel) : Prop where
  head : channel.shm.head = channel.cursorAt channel.consumed
  tail : restore channel.shm.tail = channel.lengths.sum
  /-- The region of a buffer is that of an entry between head and tail. -/
  entry : ∀ index, ∀ buffer ∈ channel.buffers index,
    channel.consumed ≤ buffer.number ∧
      channel.lengths[buffer.number]? = some (allocLen buffer.length) ∧
      buffer.cursor = channel.cursorAt buffer.number
  starts : ∀ index, ∀ buffer ∈ channel.buffers index,
    channel.shm.getEntry buffer.cursor = buffer.cursor % channel.shm.memorySize.toNat
  covers : ∀ index, ∀ buffer ∈ channel.buffers index,
    8 + buffer.length.toNat ≤ allocLen buffer.length
  inside : ∀ index, ∀ buffer ∈ channel.buffers index,
    channel.shm.getEntry buffer.cursor + allocLen buffer.length ≤
      channel.shm.memorySize.toNat + channel.shm.maxMessageSize.toNat
  apart : ∀ first second length length', channel.consumed ≤ first → channel.consumed ≤ second →
    first ≠ second → channel.lengths[first]? = some length →
    channel.lengths[second]? = some length' →
    Lib.RangesApart (channel.shm.getEntry (channel.cursorAt first)) length
      (channel.shm.getEntry (channel.cursorAt second)) length'

/-- At an entry that has been posted `TryWaitEntry` does not return `nullptr`: it
finds the tail not reached, and returns the entry or frees it and starts over. -/
structure PostedConsumable (channel : Channel) : Prop where
  found : ∀ size, (channel.consumed, size) ∈ channel.posts → channel.consumer = .idle →
    ∃ next, channel.step .tryWaitEntry = some next ∧ next.consumer = .examining
  taken : ∀ size, (channel.consumed, size) ∈ channel.posts → channel.consumer = .examining →
    ∃ next, channel.step .examineEntry = some next ∧
      (next.consumer = .holding ∨ next.consumed = channel.consumed + 1)

/-- No requested length wraps around, the tail stays below the bits of the index,
when `FreeWAL` stores a release its check still holds, and no proxy is alive when
the agent is started again. -/
def Allowed : Action → Prop
  | .allocBuffer _ length => length.toNat + 15 < 2 ^ 32
  | .proceed index => (channel.owners index).StaysBelow
  | .releaseEntry index =>
    channel.shm.head ≤ (channel.shm.wals index).cursor ∧
      Entry.isAcquired (channel.shm.entryWord (channel.shm.wals index).cursor) index = true
  | .restart => ∀ index ≤ kMaxProxySize, (channel.owners index).isAlive = false
  | _ => True

instance (channel : Channel) : ∀ action, Decidable (channel.Allowed action)
  | .allocBuffer _ _ => inferInstanceAs (Decidable (_ < _))
  | .proceed _ => inferInstanceAs (Decidable (Owner.StaysBelow _))
  | .releaseEntry _ => inferInstanceAs (Decidable (_ ∧ _))
  | .restart => inferInstanceAs (Decidable (∀ index ≤ kMaxProxySize, _))
  | .allocWAL _ | .giveUp _ | .writeByte _ _ _ _ | .postBuffer _ _ _ | .die _ | .freeWAL _
  | .tryWaitEntry | .examineEntry | .freeEntry => inferInstanceAs (Decidable True)

def Action.postsNothing : Action → Bool
  | .postBuffer _ _ size => size == 0
  | _ => false

def AllowedPost (action : Action) : Prop :=
  channel.Allowed action ∧ action.postsNothing = false

instance (channel : Channel) : DecidablePred channel.AllowedPost :=
  fun action => inferInstanceAs (Decidable (channel.Allowed action ∧ _))

end Channel

end AdkAaf.Adk.Sccl
