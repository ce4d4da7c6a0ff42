import AdkAaf.Adk.ArchGeneric
import AdkAaf.Lib.ByteMemory
import AdkAaf.Lib.RingLaps
import AdkAaf.Lib.Transition

/-! `StreamBuffer` of `adk/include/adk/lock_free_stream_buffer.h`: a ring of bytes behind
a prefix zone, into which the consumer copies the end of the ring when its data runs over
that end.

Each action of a side is one access to memory that both see: a byte, `tail_` or `head_`.
The cursors are `uint64_t` that only grow and are modelled as naturals; sums that the
source forms in `uint32_t` are cut to 32 bits. -/

set_option autoImplicit false

namespace AdkAaf.Adk.StreamBuffer

open Lib (Memory)

structure Config where
  bufferSize : Nat
  prefixSize : Nat

def init (bufferSize prefixSize : UInt32) : Config :=
  { bufferSize := (roundToPowerOf2 bufferSize).toNat
    prefixSize := (roundUp prefixSize).toNat }

namespace Config

variable (config : Config)

/-- The bytes of `memory_`, at whose address `prefixSize` the ring begins. -/
def blockSize : Nat := uint32 (config.prefixSize + config.bufferSize)

def offset (cursor : Nat) : Nat := cursor &&& sizeMask config.bufferSize

def pushAddress (tail length copied : Nat) : Nat :=
  let offset := config.offset tail
  if uint32 (offset + length) ≤ config.bufferSize then
    config.prefixSize + offset + copied
  else
    let copyLen1 := config.bufferSize - offset
    if copied < copyLen1 then
      config.prefixSize + offset + copied
    else
      config.prefixSize + (copied - copyLen1)

end Config

inductive ErrorCode where
  | kSuccess
  | kFailure

inductive ProducerPc where
  | idle
  | reloading (data : List UInt8)
  | copying (data : List UInt8) (copied : Nat)
  deriving DecidableEq

structure Producer where
  tailThreshold : Nat
  pc : ProducerPc := .idle
  returned : Option ErrorCode := none

inductive ConsumerPc where
  | idle
  | copying (dataLen copied : Nat)
  deriving DecidableEq

/-- The pair that `WaitBuffer` returns, less what has been freed of it. -/
structure View where
  address : Nat
  length : Nat

structure Consumer where
  waitingMore : Bool := false
  view : View
  pc : ConsumerPc := .idle

/-- As history variables the bytes of the successful pushes and the number of calls of
`WaitBuffer` that have returned. -/
structure State where
  memory : Memory
  head : Nat := 0
  tail : Nat := 0
  producer : Producer
  consumer : Consumer
  pushed : List UInt8 := []
  waits : Nat := 0

variable (config : Config) (state : State)

def initialState (memory : Memory) : State :=
  { memory
    producer := { tailThreshold := config.bufferSize }
    consumer := { view := { address := config.prefixSize, length := 0 } } }

inductive Action where
  | push (data : List UInt8)
  | producer
  | waitBuffer
  | consumer
  | freeBuffer (length : Nat)

def stepProducer : Option State :=
  match state.producer.pc with
  | .idle => none
  | .reloading data =>
    let threshold := state.head + config.bufferSize
    if state.tail + data.length > threshold then
      some { state with
        producer := { tailThreshold := threshold, pc := .idle, returned := some .kFailure } }
    else
      some { state with
        producer := { state.producer with tailThreshold := threshold, pc := .copying data 0 } }
  | .copying data copied =>
    match data[copied]? with
    | some byte =>
      let address := config.pushAddress state.tail data.length copied
      some { state with
        memory := state.memory.storeByte address byte
        producer := { state.producer with pc := .copying data (copied + 1) } }
    | none =>
      some { state with
        tail := state.tail + data.length
        producer := { state.producer with pc := .idle, returned := some .kSuccess }
        pushed := state.pushed ++ data }

def returnView (view : View) : State :=
  { state with
    consumer := { state.consumer with view := view, pc := .idle }
    waits := state.waits + 1 }

def waitBuffer : State :=
  let dataLen := uint32 (state.tail - state.head)
  let offset := config.offset state.head
  if uint32 (offset + dataLen) ≤ config.bufferSize then
    returnView state { address := config.prefixSize + offset, length := dataLen }
  else
    let leftLen := config.bufferSize - offset
    if state.consumer.waitingMore = true ∧ leftLen ≤ config.prefixSize then
      { state with consumer := { state.consumer with pc := .copying dataLen 0 } }
    else
      let waiting := { state with consumer := { state.consumer with waitingMore := true } }
      returnView waiting { address := config.prefixSize + offset, length := leftLen }

def stepConsumer : Option State :=
  let offset := config.offset state.head
  let leftLen := config.bufferSize - offset
  match state.consumer.pc with
  | .idle => none
  | .copying dataLen copied =>
    if copied < leftLen then
      let byte := state.memory (config.prefixSize + offset + copied)
      let address := config.prefixSize - leftLen + copied
      some { state with
        memory := state.memory.storeByte address byte
        consumer := { state.consumer with pc := .copying dataLen (copied + 1) } }
    else
      some (returnView state { address := config.prefixSize - leftLen, length := dataLen })

def step : Action → Option State
  | .push data =>
    if state.producer.pc = .idle ∧ data.length < 2 ^ 32 then
      let pc := if state.tail + data.length > state.producer.tailThreshold then
          .reloading data
        else
          .copying data 0
      some { state with producer := { state.producer with pc := pc, returned := none } }
    else
      none
  | .producer => stepProducer config state
  | .waitBuffer =>
    if state.consumer.pc = .idle then some (waitBuffer config state) else none
  | .consumer => stepConsumer config state
  | .freeBuffer length =>
    let view := state.consumer.view
    if state.consumer.pc = .idle ∧ length ≤ view.length then
      some { state with
        head := state.head + length
        consumer := { state.consumer with
          waitingMore := false
          view := { address := view.address + length, length := view.length - length } } }
    else
      none

def Config.Rounded : Prop :=
  config.bufferSize = 0 ∨ ∃ exponent ≤ 31, config.bufferSize = 2 ^ exponent

theorem init_rounded (bufferSize prefixSize : UInt32) : (init bufferSize prefixSize).Rounded := by
  unfold Config.Rounded
  simp only [init]
  by_cases pos : 1 ≤ bufferSize.toNat
  · by_cases bounded : bufferSize.toNat ≤ 2 ^ 31
    · obtain ⟨exponent, small, size, _⟩ := roundToPowerOf2_of_le pos bounded
      exact .inr ⟨exponent, small, size⟩
    · rw [roundToPowerOf2_of_gt (by omega)]
      exact .inl rfl
  · have zero : bufferSize = 0 := UInt32.toNat_inj.mp (show bufferSize.toNat = 0 by omega)
    rw [zero]
    exact .inl (by decide)

namespace Config.Rounded

variable {config : Config} (rounded : config.Rounded)

include rounded

theorem bufferSize_le : config.bufferSize ≤ 2 ^ 31 := by
  obtain zero | ⟨exponent, small, size⟩ := rounded
  · omega
  · rw [size]
    exact Nat.pow_le_pow_right (by decide) small

theorem offset_eq {cursor : Nat} (started : config.bufferSize = 0 → cursor = 0) :
    config.offset cursor = cursor % config.bufferSize := by
  obtain zero | ⟨exponent, small, size⟩ := rounded
  · rw [started zero, offset, Nat.zero_and, Nat.zero_mod]
  · exact and_sizeMask size small cursor

end Config.Rounded

end AdkAaf.Adk.StreamBuffer
