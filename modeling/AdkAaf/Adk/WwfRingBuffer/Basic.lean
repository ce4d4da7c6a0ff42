import Mathlib.Algebra.Group.Nat.Defs
import AdkAaf.Lib.Transition

/-! `WWFRingBuffer` of `adk/include/adk/writer_wait_free_ring_buffer.h` over the
`SeqLock` of `adk/include/adk/seq_lock.h`: a ring whose writer never waits and
overwrites slots that were not read, and a reader that detects this from the
sequence number of the slot.

Writer and reader are cut into single accesses to the shared header and slots; a
payload is stored and copied word by word. Cursors and sequence numbers have 64 bits
and are modelled as naturals, and `notify` is not touched by these operations. -/

set_option autoImplicit false

namespace AdkAaf.Adk.WwfRingBuffer

open Function

/-- A ring of `2 ^ sizeBits` entries whose payload has `words` words. -/
structure Ring where
  sizeBits : Nat
  words : Nat
  words_pos : 0 < words

namespace Ring

variable (ring : Ring)

def size : Nat := 2 ^ ring.sizeBits

def slotOf (index : Nat) : Nat := index &&& (ring.size - 1)

def loopOf (index : Nat) : Nat := index >>> ring.sizeBits

theorem size_pos : 0 < ring.size := Nat.two_pow_pos _

theorem slotOf_eq (i : Nat) : ring.slotOf i = i % ring.size :=
  Nat.and_two_pow_sub_one_eq_mod _ _

theorem loopOf_eq (i : Nat) : ring.loopOf i = i / ring.size :=
  Nat.shiftRight_eq_div_pow _ _

end Ring

inductive Mode where
  | read
  | tryRead

/-- How far the current `Write` has come: how many words are stored, or the entry
that waits for `WriteEnd` once `tail` has moved on. -/
inductive Stage (Word : Type) where
  | idle
  | storing (payload : List Word) (stored : Nat)
  | ending (payload : List Word) (slot : Nat)
  deriving DecidableEq

inductive Reader (Word : Type) where
  | idle
  | beginning (mode : Mode) (retry : Nat)
  | copying (mode : Mode) (start : Nat) (words : List Word)
  | accepting (words : List Word)
  | throwing (mode : Mode)

/-- A call that returned `kFailure`, with `head` and the number of completed writes at
that moment. -/
structure Failure where
  mode : Mode
  head : Nat
  completed : Nat

/-- The shared memory, the two parties, and as history variables the payloads of
completed writes, the payloads all of whose words were stored, and what the reader
returned. -/
structure State (Word : Type) where
  sequence : Nat → Nat
  buffer : Nat → Nat → Word
  tail : Nat
  head : Nat
  alive : Bool := true
  stage : Stage Word := .idle
  reader : Reader Word := .idle
  completed : List (List Word) := []
  stored : List (List Word) := []
  returned : List (List Word) := []
  failures : List Failure := []

variable {Word : Type}

def initialState (buffer : Nat → Nat → Word) : State Word where
  sequence := fun _ => 0
  buffer := buffer
  tail := 0
  head := 0

namespace State

def payloadAt (ring : Ring) (state : State Word) (slot : Nat) : List Word :=
  (List.range ring.words).map (state.buffer slot)

def setSequence (state : State Word) (slot value : Nat) : State Word :=
  { state with sequence := update state.sequence slot value }

def setWord (state : State Word) (slot word : Nat) (value : Word) : State Word :=
  let words := update (state.buffer slot) word value
  { state with buffer := update state.buffer slot words }

end State

inductive Action (Word : Type) where
  | write (payload : List Word)
  | writer
  | call (mode : Mode)
  | reader

variable (ring : Ring)

variable (state : State Word) (mode : Mode)

def beginWrite (payload : List Word) : State Word :=
  let slot := ring.slotOf state.tail
  { state.setSequence slot (state.sequence slot + 1) with stage := .storing payload 0 }

def stepWriter : Option (State Word) :=
  match state.stage with
  | .idle => none
  | .storing payload stored =>
    match payload[stored]? with
    | some word =>
      let next := { state.setWord (ring.slotOf state.tail) stored word with
        stage := .storing payload (stored + 1) }
      if stored + 1 = ring.words then
        some { next with stored := next.stored ++ [payload] }
      else
        some next
    | none =>
      some { state with
        tail := state.tail + 1
        stage := .ending payload (ring.slotOf state.tail) }
  | .ending payload slot =>
    some { state.setSequence slot (state.sequence slot + 1) with
      stage := .idle
      completed := state.completed ++ [payload] }

def fail : State Word :=
  { state with
    reader := .idle
    failures := state.failures ++ [⟨mode, state.head, state.completed.length⟩] }

def kRetryTime : Nat := 3

/-- The load of the sequence number: `ReadBegin` spins on an odd one, `TryReadBegin`
gives up after `kRetryTime` of them. -/
def stepBeginning (retry : Nat) : State Word :=
  let start := state.sequence (ring.slotOf state.head)
  if start % 2 = 1 then
    match mode with
    | .read => state
    | .tryRead =>
      if kRetryTime ≤ retry + 1 then
        fail state mode
      else
        { state with reader := .beginning mode (retry + 1) }
  else
    let lastLoop := ring.loopOf state.head + 1
    let realLoop := start / 2
    if lastLoop = realLoop then
      { state with reader := .copying mode start [] }
    else if realLoop < lastLoop then
      fail state mode
    else
      { state with reader := .throwing mode }

def stepReader : Option (State Word) :=
  match state.reader with
  | .idle => none
  | .beginning mode retry => some (stepBeginning ring state mode retry)
  | .copying mode start words =>
    let slot := ring.slotOf state.head
    if words.length < ring.words then
      some { state with
        reader := .copying mode start (words ++ [state.buffer slot words.length]) }
    else if start = state.sequence slot then
      some { state with reader := .accepting words }
    else
      some { state with reader := .throwing mode }
  | .accepting words =>
    some { state with
      head := state.head + 1
      reader := .idle
      returned := state.returned ++ [words] }
  -- `ThrowEntry`; `tail` is at least the ring size whenever an entry was overwritten
  | .throwing mode =>
    some { state with
      head := state.tail - ring.size + ring.size / 4
      reader := .beginning mode 0 }

def step : Action Word → Option (State Word)
  | .write payload =>
    if state.alive = true ∧ payload.length = ring.words then
      match state.stage with
      | .idle => some (beginWrite ring state payload)
      | _ => none
    else
      none
  | .writer => if state.alive = true then stepWriter ring state else none
  | .call mode =>
    match state.reader with
    | .idle => some { state with reader := .beginning mode 0 }
    | _ => none
  | .reader => stepReader ring state

end AdkAaf.Adk.WwfRingBuffer
