import AdkAaf.Adk.ArchGeneric
import AdkAaf.Lib.RingWindow
import AdkAaf.Lib.Transition
import Mathlib.Algebra.Group.Int.Defs

/-! `ConstRateCtrl` of `adk/include/adk/token_buckets.h`: requests are granted by a
compare-and-swap on a running total, stamped with the clock and queued in
`rate_window_`, a `variant::MPSCQueue`, from which the worker thread of `RateControl`
releases them when their timespan is over.

Each action of a thread is one access to memory that the threads share; an entry of
the queue belongs to one thread until its `pos` is stored, so that filling it is one
action. `release_alert_` of the queue is never set. The clock of `GetRealTime` is a
component of the state that never decreases. -/

set_option autoImplicit false

namespace AdkAaf.Adk.ConstRateCtrl

open Function

def uint64 (value : Nat) : Nat := value % 2 ^ 64

def int64 (value : Int) : Int := value.bmod (2 ^ 64)

structure Config where
  rateLimit : UInt32
  timespan : UInt64

namespace Config

variable (config : Config)

/-- `QueueBase::Create` for `rate_limit` entries, and `capacity()`. -/
def queueSize : Nat := (roundToPowerOf2 (max config.rateLimit 2)).toNat

def getInQueueIndex (index : Nat) : Nat :=
  index &&& sizeMask config.queueSize

def firstIndex : Nat := uint32 (config.queueSize * 2)

end Config

structure RateNode where
  timepoint : Nat
  require : Nat
  deriving DecidableEq

inductive Pc where
  | idle
  | loading (require : Nat)
  | checking (require monotonicRequire : Nat)
  | refreshing (require monotonicRequire : Nat)
  | storing (require monotonicRequire released : Nat)
  | rechecking (require monotonicRequire : Nat)
  | swapping (require monotonicRequire : Nat)
  | allocating (require : Nat)
  | waiting (require index : Nat)
  | stamping (require index : Nat)
  | posting (require index : Nat)
  deriving DecidableEq

inductive FeedPc where
  | idle
  | waiting (realTime : Nat)
  | examining (realTime : Nat)
  | freeing (realTime require : Nat)
  | releasing (realTime require : Nat)
  deriving DecidableEq

inductive Stage where
  | allocated
  | stamped (timepoint : Nat)
  | posted (timepoint : Nat)

/-- An index of the queue that was handed out and not freed. -/
structure Ticket where
  thread : Nat
  require : Nat
  stage : Stage

/-- As history variables the tickets from `head` up to `tail`, the nodes that were
freed, and every acquisition with its timepoint. -/
structure State where
  required : Nat := 0
  releaseThrdhold : Nat := 0
  released : Nat := 0
  clock : Nat := 0
  tail : Nat
  head : Nat
  pos : Nat → Int
  buffer : Nat → RateNode
  threads : List Pc
  feeder : FeedPc := .idle
  window : List Ticket := []
  freed : List RateNode := []
  recorded : List RateNode := []

inductive Action where
  | tick (time : UInt64)
  | tryAcquire (thread : Nat) (require : UInt32)
  | continue (thread : Nat)
  | doPeriodFeed
  | feed

section Steps

variable (config : Config) (state : State)

/-- `CreateConstRateCtrl`, with `InitEntries` on a block that holds the given contents;
the queue reads other memory behind its last entry. -/
def create (threadCount : Nat) (memory : Nat → Int) (buffer : Nat → RateNode) : Option State :=
  if config.rateLimit = 0 then
    none
  else
    some {
      tail := config.firstIndex
      head := config.firstIndex
      pos := fun slot =>
        if slot < config.queueSize then -((config.queueSize : Int) + slot) else memory slot
      buffer
      threads := List.replicate threadCount .idle }

def exceeds (require monotonicRequire threshold : Nat) : Bool :=
  uint64 (threshold + config.rateLimit.toNat) < uint64 (monotonicRequire + require)

def setPc (thread : Nat) (pc : Pc) : State := { state with threads := state.threads.set thread pc }

def setTicket (thread require index : Nat) (stage : Stage) : State :=
  { state with window := state.window.set (index - state.head) { thread, require, stage } }

def allocEntry (thread require : Nat) : State :=
  setPc { state with
    tail := state.tail + 1
    window := state.window ++ [{ thread, require, stage := .allocated }] }
    thread (.waiting require state.tail)

def stampEntry (thread require index : Nat) : State :=
  let node : RateNode := { timepoint := state.clock, require }
  setPc
    (setTicket { state with
      buffer := update state.buffer (config.getInQueueIndex index) node
      recorded := state.recorded ++ [node] } thread require index (.stamped state.clock))
    thread (.posting require index)

def postEntry (thread require index : Nat) : State :=
  let slot := config.getInQueueIndex index
  setPc
    (setTicket { state with
      pos := update state.pos slot (int64 (config.queueSize - state.pos slot)) }
      thread require index (.posted (state.buffer slot).timepoint))
    thread .idle

def stepThread (thread : Nat) : Pc → Option State
  | .idle => none
  | .loading require => some (setPc state thread (.checking require state.required))
  | .checking require monotonicRequire =>
    if exceeds config require monotonicRequire state.releaseThrdhold then
      some (setPc state thread (.refreshing require monotonicRequire))
    else
      some (setPc state thread (.swapping require monotonicRequire))
  | .refreshing require monotonicRequire =>
    some (setPc state thread (.storing require monotonicRequire state.released))
  | .storing require monotonicRequire released =>
    some (setPc { state with releaseThrdhold := released } thread
      (.rechecking require monotonicRequire))
  | .rechecking require monotonicRequire =>
    if exceeds config require monotonicRequire state.releaseThrdhold then
      some (setPc state thread .idle)
    else
      some (setPc state thread (.swapping require monotonicRequire))
  | .swapping require monotonicRequire =>
    if state.required = monotonicRequire then
      some (setPc { state with required := uint64 (monotonicRequire + require) } thread
        (.allocating require))
    else
      some (setPc state thread (.loading require))
  | .allocating require => some (allocEntry state thread require)
  | .waiting require index =>
    if (index + state.pos (config.getInQueueIndex index)) % 2 ^ 64 = config.queueSize then
      some (setPc state thread (.stamping require index))
    else
      some state
  | .stamping require index => some (stampEntry config state thread require index)
  | .posting require index => some (postEntry config state thread require index)

def freeEntry : State :=
  let slot := config.getInQueueIndex state.head
  { state with
    pos := update state.pos slot (int64 (-state.pos slot))
    head := state.head + 1
    window := state.window.tail
    freed := state.freed ++ [state.buffer slot] }

def stepFeed : Option State :=
  match state.feeder with
  | .idle => none
  | .waiting realTime =>
    if state.pos (config.getInQueueIndex state.head) < 0 then
      some { state with feeder := .idle }
    else
      some { state with feeder := .examining realTime }
  | .examining realTime =>
    let node := state.buffer (config.getInQueueIndex state.head)
    if uint64 (node.timepoint + config.timespan.toNat) < realTime then
      some { state with feeder := .freeing realTime node.require }
    else
      some { state with feeder := .idle }
  | .freeing realTime require =>
    some { freeEntry config state with feeder := .releasing realTime require }
  | .releasing realTime require =>
    some { state with released := uint64 (state.released + require), feeder := .waiting realTime }

def step : Action → Option State
  | .tick time =>
    if state.clock ≤ time.toNat then some { state with clock := time.toNat } else none
  | .tryAcquire thread require =>
    if state.threads[thread]? = some .idle then
      some (setPc state thread (.loading require.toNat))
    else
      none
  | .continue thread => (state.threads[thread]?).bind (stepThread config state thread)
  -- the worker thread passes the time at which it calls
  | .doPeriodFeed =>
    if state.feeder = .idle then some { state with feeder := .waiting state.clock } else none
  | .feed => stepFeed config state

end Steps

variable (config : Config) (state : State)

def windowWeight (instant : Nat) (node : RateNode) : Nat :=
  if instant ≤ node.timepoint ∧ node.timepoint ≤ instant + config.timespan.toNat then
    node.require
  else
    0

def windowSum (instant : Nat) : Nat :=
  Lib.extent (windowWeight config instant) state.recorded

structure RateKept (config : Config) (state : State) : Prop where
  rate : ∀ instant, windowSum config state instant ≤ config.rateLimit.toNat
  capacity : state.tail - state.head ≤ config.queueSize

def Requires (_ : State) : Action → Prop
  | .tryAcquire _ require => 1 ≤ require.toNat
  | _ => True

instance (state : State) (action : Action) : Decidable (Requires state action) :=
  match action with
  | .tryAcquire _ require => inferInstanceAs (Decidable (1 ≤ require.toNat))
  | .tick _ | .continue _ | .doPeriodFeed | .feed => inferInstanceAs (Decidable True)

def PcFits : Pc → Prop
  | .swapping require monotonicRequire =>
    state.required = monotonicRequire → monotonicRequire + require < 2 ^ 64
  | .stamping _ _ => state.clock + config.timespan.toNat < 2 ^ 64
  | _ => True

def Fits : Action → Prop
  | .continue thread => ∀ pc ∈ state.threads[thread]?, PcFits config state pc
  | _ => True

instance (config : Config) (state : State) (pc : Pc) : Decidable (PcFits config state pc) :=
  match pc with
  | .swapping require monotonicRequire =>
    inferInstanceAs
      (Decidable (state.required = monotonicRequire → monotonicRequire + require < 2 ^ 64))
  | .stamping _ _ => inferInstanceAs (Decidable (state.clock + config.timespan.toNat < 2 ^ 64))
  | .idle | .loading _ | .checking _ _ | .refreshing _ _ | .storing _ _ _ | .rechecking _ _
  | .allocating _ | .waiting _ _ | .posting _ _ => inferInstanceAs (Decidable True)

instance (config : Config) (state : State) (action : Action) :
    Decidable (Fits config state action) :=
  match action with
  | .continue thread =>
    inferInstanceAs (Decidable (∀ pc ∈ state.threads[thread]?, PcFits config state pc))
  | .tick _ | .tryAcquire _ _ | .doPeriodFeed | .feed => inferInstanceAs (Decidable True)

end AdkAaf.Adk.ConstRateCtrl
