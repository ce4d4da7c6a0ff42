import AdkAaf.Lib.ByteMemory
import AdkAaf.Lib.Transition

/-! `ByteBuffer` of `adk/include/adk/spsc_byte_buffer.h` and
`adk/src/spsc_byte_buffer.cpp`: two buffers that a producer fills in turn and a
consumer empties behind it. Bytes that are appended and not validated move to the other
buffer when the producer renews.

Each action is one access to memory that both sides see: a byte, `used`,
`producer_index` or `consumer_index`. `AppendBytes` is its byte stores followed by the
move of `position_`; the owner of the producer may also store a byte anywhere behind
`ValidDataEnd()`, before or after it moves `position_`. The indices are `int32_t` that only grow and are modelled as
naturals; the producer's `total_`, which only its `remaining()` reads, is left out. -/

set_option autoImplicit false

namespace AdkAaf.Adk.ByteBuffer

open Function

open Lib (Memory)

inductive ProducerPc where
  | idle
  | renewing (nonBlock : Bool)
  | copying (copied : Nat)
  | publishing
  deriving DecidableEq

structure Producer where
  buffer : Nat := 0
  position : Nat := 0
  visibleBytes : Nat := 0
  pc : ProducerPc := .idle

inductive ConsumerPc where
  | idle
  | loadingUsed (producerIndex : Nat)
  | switching
  | reloading
  deriving DecidableEq

structure Consumer where
  buffer : Nat := 0
  position : Nat := 0
  total : Nat := 0
  pc : ConsumerPc := .idle

/-- The pool with its two sides. As history variables the bytes appended and not yet
validated or dropped, the bytes validated, and the bytes consumed. -/
structure State where
  buffers : Nat → Memory
  used : Nat → Nat := fun _ => 0
  producerIndex : Nat := 0
  consumerIndex : Nat := 0
  producer : Producer := {}
  consumer : Consumer := {}
  appended : List UInt8 := []
  validated : List UInt8 := []
  consumed : List UInt8 := []

def half (index : Nat) : Nat := index &&& 1

theorem half_eq (i : Nat) : half i = i % 2 := Nat.and_one_is_mod i

theorem half_succ_ne (index : Nat) : half (index + 1) ≠ half index := by
  rw [half_eq, half_eq]
  omega

inductive Action where
  | store (address : Nat) (byte : UInt8)
  | incPosition (delta : Nat)
  | incValidData (delta : Nat)
  | clear
  | renewBuffer (nonBlock : Bool)
  | producer
  | remaining
  | consumer
  | consumeBytes (bytes : Nat)

def setByte (state : State) (buffer address : Nat) (byte : UInt8) : State :=
  let memory := (state.buffers buffer).storeByte address byte
  { state with buffers := update state.buffers buffer memory }

/-- The steps of `RenewBuffer` after its call. -/
def stepProducer (state : State) : Option State :=
  let producer := state.producer
  let target := half (state.producerIndex + 1)
  match producer.pc with
  | .idle => none
  | .renewing nonBlock =>
    if state.producerIndex + 1 > state.consumerIndex + 1 then
      -- the consumer is still in the other buffer
      if nonBlock then
        some { state with producer := { producer with pc := .idle } }
      else
        some state
    else
      some { state with producer := { producer with pc := .copying 0 } }
  | .copying copied =>
    if copied < producer.position - producer.visibleBytes then
      let byte := state.buffers producer.buffer (producer.visibleBytes + copied)
      some { setByte state target copied byte with
        producer := { producer with pc := .copying (copied + 1) } }
    else
      some { state with
        used := update state.used target 0
        producer :=
          { buffer := target
            position := producer.position - producer.visibleBytes
            visibleBytes := 0
            pc := .publishing } }
  | .publishing =>
    some { state with
      producerIndex := state.producerIndex + 1
      producer := { producer with pc := .idle } }

/-- The steps of `UpdateBuffer` after its load of `producer_index`. -/
def stepConsumer (state : State) : Option State :=
  let consumer := state.consumer
  match consumer.pc with
  | .idle => none
  | .loadingUsed producerIndex =>
    let total := state.used consumer.buffer
    if producerIndex = state.consumerIndex then
      some { state with consumer := { consumer with total := total, pc := .idle } }
    else if total = consumer.position then
      some { state with
        consumer :=
          { buffer := half (state.consumerIndex + 1), position := 0, total := total
            pc := .switching } }
    else
      some { state with consumer := { consumer with total := total, pc := .idle } }
  | .switching =>
    some { state with
      consumerIndex := state.consumerIndex + 1
      consumer := { consumer with pc := .reloading } }
  | .reloading =>
    some { state with
      consumer := { consumer with total := state.used consumer.buffer, pc := .idle } }

def step (size : Nat) (state : State) (action : Action) : Option State :=
  let producer := state.producer
  let consumer := state.consumer
  match action with
  | .store address byte =>
    if producer.pc = .idle ∧ producer.visibleBytes ≤ address ∧ address < size then
      let written := setByte state producer.buffer address byte
      let memory := written.buffers producer.buffer
      some { written with appended := memory.slice producer.visibleBytes producer.position }
    else
      none
  | .incPosition delta =>
    if producer.pc = .idle ∧ producer.position + delta ≤ size then
      some { state with
        producer := { producer with position := producer.position + delta }
        appended := state.appended ++ (state.buffers producer.buffer).slice producer.position
          (producer.position + delta) }
    else
      none
  | .incValidData delta =>
    if producer.pc = .idle ∧ delta ≤ producer.position - producer.visibleBytes then
      some { state with
        used := update state.used producer.buffer (producer.visibleBytes + delta)
        producer := { producer with visibleBytes := producer.visibleBytes + delta }
        appended := state.appended.drop delta
        validated := state.validated ++ state.appended.take delta }
    else
      none
  | .clear =>
    if producer.pc = .idle then
      some { state with
        producer := { producer with position := producer.visibleBytes }
        appended := [] }
    else
      none
  | .renewBuffer nonBlock =>
    if producer.pc = .idle then
      some { state with producer := { producer with pc := .renewing nonBlock } }
    else
      none
  | .producer => stepProducer state
  | .remaining =>
    if consumer.pc = .idle then
      if consumer.total - consumer.position = 0 then
        some { state with
          consumer := { consumer with pc := .loadingUsed state.producerIndex } }
      else
        some state
    else
      none
  | .consumer => stepConsumer state
  | .consumeBytes bytes =>
    if consumer.pc = .idle ∧ bytes ≤ consumer.total - consumer.position then
      some { state with
        consumer := { consumer with position := consumer.position + bytes }
        consumed := state.consumed ++ (state.buffers consumer.buffer).slice consumer.position
          (consumer.position + bytes) }
    else
      none

def storeTarget (state : State) : Action → Option (Nat × Nat)
  | .store address _ => some (state.producer.buffer, address)
  | .producer =>
    match state.producer.pc with
    | .copying copied =>
      if copied < state.producer.position - state.producer.visibleBytes then
        some (half (state.producerIndex + 1), copied)
      else
        none
    | _ => none
  | _ => none

def initialState (buffers : Nat → Memory) : State := { buffers }

def view (state : State) : List UInt8 :=
  (state.buffers state.consumer.buffer).slice state.consumer.position state.consumer.total

end AdkAaf.Adk.ByteBuffer
