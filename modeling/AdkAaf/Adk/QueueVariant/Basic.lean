import AdkAaf.Lib.Transition
import Mathlib.Algebra.Group.Int.Defs
import Mathlib.Algebra.Group.Nat.Defs
import Mathlib.Data.List.Nodup

/-! `QueueBase` of `adk/include/adk/lock_free_queue_variant.h` for several producers and
several consumers. The field `pos` of a slot says whose turn it is: `queue_size - i` for
the producer of index `i`, `i` for its consumer.

Each action is one access to memory that the threads share. The two sides run the same
code with different cursors, so that a role selects what differs. Indices are `uint64_t`
and positions `int64_t`, both modelled without a bound. -/

set_option autoImplicit false

namespace AdkAaf.Adk.QueueVariant

open Function

/-- `Create` rounds the size of a queue to a power of two that is at least two. -/
structure Config where
  exponent : Nat
  positive : 1 ≤ exponent
  small : exponent ≤ 31

namespace Config

variable (config : Config)

def queueSize : Nat := 2 ^ config.exponent

def getInQueueIndex (index : Nat) : Nat := index &&& (config.queueSize - 1)

def firstIndex : Nat := (config.queueSize * 2) % 2 ^ 32

def initEntries (slot : Nat) : Int := -((config.queueSize : Int) + slot)

theorem queueSize_pos : 0 < config.queueSize := Nat.two_pow_pos _

/-- The size of the block, a sum and a product of `uint32_t` behind a header of one page. -/
def totalSize (entrySize : UInt32) : Nat :=
  (4096 + config.queueSize * entrySize.toNat) % 2 ^ 32

/-- Every entry lies in the block. -/
def HoldsEntries (entrySize : UInt32) : Prop :=
  ∀ slot < config.queueSize,
    4096 + (slot + 1) * entrySize.toNat ≤ config.totalSize entrySize

instance (config : Config) (entrySize : UInt32) : Decidable (config.HoldsEntries entrySize) :=
  inferInstanceAs (Decidable (∀ slot < config.queueSize, _))

end Config

inductive Role where
  | producer
  | consumer
  deriving DecidableEq

variable (config : Config)

/-- The slot is at its turn for the index: the test of `MP_AllocEntry` and
`MP_TryAllocEntry`, and that of `MC_WaitEntry` and `MC_TryWaitEntry`. -/
def Ready : Role → Nat → Int → Prop
  | .producer, index, pos => index + pos = config.queueSize
  | .consumer, index, pos => index = pos

instance (config : Config) : ∀ role index pos, Decidable (Ready config role index pos)
  | .producer, _, _ => inferInstanceAs (Decidable (_ = _))
  | .consumer, _, _ => inferInstanceAs (Decidable (_ = _))

def postPos (pos : Int) : Int := config.queueSize - pos

def freePos (pos : Int) : Int := -pos

def handOver : Role → Int → Int
  | .producer, pos => postPos config pos
  | .consumer, pos => freePos pos

inductive ReturnCode where
  | kSuccess
  | kWouldblock
  | kQueueFull
  | kQueueEmpty
  deriving DecidableEq

def refusal : Role → ReturnCode
  | .producer => .kQueueFull
  | .consumer => .kQueueEmpty

/-- Where a thread stands. `waiting` and `alerting` are the loop of the blocking calls,
`loading` up to `swapping` that of the calls that try, and the last two are the load and
the store of `pos` with which the slot is passed on. -/
inductive Pc where
  | idle
  | waiting (index : Nat)
  | alerting (index : Nat)
  | loading
  | checking (index : Nat)
  | rechecking (index : Nat)
  | swapping (index : Nat)
  | accessing (index : Nat)
  | accessed (index : Nat)
  | storing (index : Nat) (pos : Int)
  deriving DecidableEq

/-- The thread, what its last call returned and, as a history variable, whether the slot
of the cursor was at another turn at some moment of that call. -/
structure Thread where
  pc : Pc := .idle
  returned : Option ReturnCode := none
  sawRefused : Bool := false

structure Actor where
  role : Role
  id : Nat
  deriving DecidableEq

/-- As history variables the indices that were handed out, what was written or read under
an index, and the indices that were passed on, each by role. -/
structure State (Value : Type) where
  pos : Nat → Int
  buffer : Nat → Value
  cursor : Role → Nat
  releaseAlert : Bool := false
  threads : Actor → Thread := fun _ => {}
  granted : Role → List Nat := fun _ => []
  accesses : Role → List (Nat × Value) := fun _ => []
  handed : Role → List Nat := fun _ => []

inductive Action (Value : Type) where
  | mpAllocEntry (id : Nat)
  | mpTryAllocEntry (id : Nat)
  | mcWaitEntry (id : Nat)
  | mcTryWaitEntry (id : Nat)
  | continue (actor : Actor)
  | write (id : Nat) (value : Value)
  | read (id : Nat)
  | alert

section Steps

variable {Value : Type} (config : Config) (state : State Value)

def initialState (buffer : Nat → Value) : State Value :=
  { pos := config.initEntries, buffer, cursor := fun _ => config.firstIndex }

/-- `Create`, where nothing stops `InitEntries` when it writes behind the block: then there is
no queue to speak of. -/
def create (entrySize : UInt32) (buffer : Nat → Value) : Option (State Value) :=
  if config.HoldsEntries entrySize then some (initialState config buffer) else none

def Refused (role : Role) : Prop :=
  ¬Ready config role (state.cursor role)
    (state.pos (config.getInQueueIndex (state.cursor role)))

instance (role : Role) : Decidable (Refused config state role) := inferInstanceAs (Decidable (¬_))

/-- Bring the history variable of the running calls up to date. -/
def observe : State Value :=
  { state with
    threads := fun actor =>
      let thread := state.threads actor
      if thread.pc = .idle then
        thread
      else
        { thread with sawRefused := thread.sawRefused || decide (Refused config state actor.role) } }

variable (actor : Actor)

def setThread (thread : Thread) : State Value :=
  { state with threads := update state.threads actor thread }

def setPc (actor : Actor) (pc : Pc) : State Value :=
  setThread state actor { state.threads actor with pc }

def exit (code : ReturnCode) (pc : Pc) : State Value :=
  setThread state actor { state.threads actor with pc, returned := some code }

def grant (role : Role) : State Value :=
  { state with
    cursor := update state.cursor role (state.cursor role + 1)
    granted := update state.granted role (state.granted role ++ [state.cursor role]) }

/-- Begin a call that takes its index with a fetch-and-add and waits for its turn. -/
def startWait : State Value :=
  setThread (grant state actor.role) actor { pc := .waiting (state.cursor actor.role) }

def startTry : State Value := setThread state actor { pc := .loading }

def storePos (role : Role) (index : Nat) (pos : Int) : State Value :=
  let slot := config.getInQueueIndex index
  { state with
    pos := update state.pos slot (handOver config role pos)
    handed := update state.handed role (state.handed role ++ [index]) }

/-- The next access of a thread to shared memory, but for the element itself. -/
def stepThread : Option (State Value) :=
  let role := actor.role
  match (state.threads actor).pc with
  | .idle | .accessing _ => none
  | .waiting index =>
    if Ready config role index (state.pos (config.getInQueueIndex index)) then
      some (exit state actor .kSuccess (.accessing index))
    else
      some (setPc state actor (.alerting index))
  | .alerting index =>
    if state.releaseAlert then
      some (exit state actor .kWouldblock .idle)
    else
      some (setPc state actor (.waiting index))
  | .loading => some (setPc state actor (.checking (state.cursor role)))
  | .checking index =>
    if Ready config role index (state.pos (config.getInQueueIndex index)) then
      some (setPc state actor (.swapping index))
    else
      some (setPc state actor (.rechecking index))
  | .rechecking index =>
    if index = state.cursor role then
      some (exit state actor (refusal role) .idle)
    else
      some (setPc state actor .loading)
  | .swapping index =>
    if state.cursor role = index then
      some (exit (grant state role) actor .kSuccess (.accessing index))
    else
      some (setPc state actor .loading)
  | .accessed index =>
    let pos := state.pos (config.getInQueueIndex index)
    some (setPc state actor (.storing index pos))
  | .storing index pos =>
    some (setPc (storePos config state role index pos) actor .idle)

def recordAccess (role : Role) (index : Nat) (value : Value) : State Value :=
  { state with
    accesses := update state.accesses role (state.accesses role ++ [(index, value)]) }

def writeEntry (id : Nat) (index : Nat) (value : Value) : State Value :=
  let slot := config.getInQueueIndex index
  let written := { state with buffer := update state.buffer slot value }
  setPc (recordAccess written .producer index value) ⟨.producer, id⟩ (.accessed index)

def readEntry (id : Nat) (index : Nat) : State Value :=
  let value := state.buffer (config.getInQueueIndex index)
  setPc (recordAccess state .consumer index value) ⟨.consumer, id⟩ (.accessed index)

def startCall (started : State Value) : Option (State Value) :=
  if (state.threads actor).pc = .idle then some started else none

def move : Action Value → Option (State Value)
  | .mpAllocEntry id => startCall state ⟨.producer, id⟩ (startWait state ⟨.producer, id⟩)
  | .mpTryAllocEntry id => startCall state ⟨.producer, id⟩ (startTry state ⟨.producer, id⟩)
  | .mcWaitEntry id => startCall state ⟨.consumer, id⟩ (startWait state ⟨.consumer, id⟩)
  | .mcTryWaitEntry id => startCall state ⟨.consumer, id⟩ (startTry state ⟨.consumer, id⟩)
  | .continue actor => stepThread config state actor
  | .write id value =>
    match (state.threads ⟨.producer, id⟩).pc with
    | .accessing index => some (writeEntry config state id index value)
    | _ => none
  | .read id =>
    match (state.threads ⟨.consumer, id⟩).pc with
    | .accessing index => some (readEntry config state id index)
    | _ => none
  | .alert => some { state with releaseAlert := true }

def step (action : Action Value) : Option (State Value) :=
  (move config state action).map (observe config)

end Steps

end AdkAaf.Adk.QueueVariant
