import AdkAaf.Lib.ByteMemory
import AdkAaf.Lib.Transition

/-! The buffer of a message that an endpoint receives into, of `message_impl.h`. The lengths are
`uint32_t`. A failed assertion and an access outside of the buffer leave no message. -/

set_option autoImplicit false

namespace AdkAaf.Adk.IoEngine

open Lib List

/-- `appData` is the memory from `app_data_` on. -/
structure MessageImpl where
  appData : Memory
  capacity : Nat
  consumeLen : Nat := 0
  dataLen : Nat := 0

namespace MessageImpl

/-- `data_len()`. -/
def unreadLen (message : MessageImpl) : Option Nat :=
  if message.consumeLen ≤ message.dataLen then
    some (message.dataLen - message.consumeLen)
  else
    none

/-- The `data_len()` bytes behind `data()`. -/
def unread (message : MessageImpl) : List UInt8 :=
  message.appData.slice message.consumeLen message.dataLen

def write (message : MessageImpl) (offset : Nat) (bytes : List UInt8) : Option MessageImpl :=
  if offset + bytes.length ≤ message.capacity then
    some { message with appData := message.appData.storeBytes offset bytes }
  else
    none

/-- `fresh` is what the memory of `NewMemory` holds. Without unread bytes the offsets stay. -/
def growSize (message : MessageImpl) (size : Nat) (fresh : Memory) : Option MessageImpl := do
  let msgSize ← message.unreadLen
  let capacity := (msgSize + size) % 2 ^ 32
  if 0 < msgSize then
    if message.consumeLen ≤ message.capacity then
      write ⟨fresh, capacity, 0, msgSize⟩ 0 message.unread
    else
      none
  else
    return { message with appData := fresh, capacity }

/-- The offset of the region that it returns, and the message. -/
def allocBuffer (message : MessageImpl) (bufferSize : Nat) (fresh : Memory) :
    Option (Nat × MessageImpl) := do
  if (message.dataLen + bufferSize) % 2 ^ 32 ≤ message.capacity then
    return (message.dataLen, message)
  else
    let msgSize ← message.unreadLen
    if message.capacity < msgSize then
      none
    else if bufferSize ≤ message.capacity - msgSize then
      if 0 < msgSize ∧ message.consumeLen ≤ message.capacity then
        let moved ← message.write 0 message.unread
        return (msgSize, { moved with consumeLen := 0, dataLen := msgSize })
      else
        none
    else
      let grown ← message.growSize bufferSize fresh
      return (msgSize, grown)

def postBuffer (message : MessageImpl) (postSize : Nat) : Option MessageImpl :=
  let dataLen := (message.dataLen + postSize) % 2 ^ 32
  if dataLen ≤ message.capacity then some { message with dataLen } else none

/-- `AllocBuffer` of a region, its bytes by the caller, and `PostBuffer` of `postSize` of them. -/
def receive (message : MessageImpl) (region : List UInt8) (postSize : Nat) (fresh : Memory) :
    Option MessageImpl := do
  let (offset, message) ← message.allocBuffer region.length fresh
  let message ← message.write offset region
  message.postBuffer postSize

def appendBuffer (message : MessageImpl) (buffer : List UInt8) (fresh : Memory) :
    Option MessageImpl := message.receive buffer buffer.length fresh

def setFollowUp (message : MessageImpl) (consumeLen : Nat) : MessageImpl :=
  { message with consumeLen := (message.consumeLen + consumeLen) % 2 ^ 32 }

def freeBuffer (message : MessageImpl) : MessageImpl :=
  { message with consumeLen := 0, dataLen := 0 }

inductive Operation where
  | receive (region : List UInt8) (postSize : Nat) (fresh : Memory)
  | appendBuffer (buffer : List UInt8) (fresh : Memory)
  | setFollowUp (consumeLen : Nat)
  | freeBuffer

def step (message : MessageImpl) : Operation → Option MessageImpl
  | .receive region postSize fresh => message.receive region postSize fresh
  | .appendBuffer buffer fresh => message.appendBuffer buffer fresh
  | .setFollowUp consumeLen => some (message.setFollowUp consumeLen)
  | .freeBuffer => some message.freeBuffer

/-- What an operation does to a queue of bytes. -/
def Operation.apply (queue : List UInt8) : Operation → List UInt8
  | receive region postSize _ => queue ++ region.take postSize
  | appendBuffer buffer _ => queue ++ buffer
  | setFollowUp consumeLen => queue.drop consumeLen
  | freeBuffer => []

/-- Behind consumed bytes alone there is space, and `uint32_t` holds the sum. -/
def Roomy (message : MessageImpl) (bufferSize : Nat) : Prop :=
  message.dataLen + bufferSize < 2 ^ 32 ∧ (message.consumeLen = message.dataLen →
    message.consumeLen = 0 ∨ message.dataLen + bufferSize ≤ message.capacity)

def Allowed (message : MessageImpl) : Operation → Prop
  | .receive region postSize _ => postSize ≤ region.length ∧ message.Roomy region.length
  | .appendBuffer buffer _ => message.Roomy buffer.length
  | .setFollowUp consumeLen => consumeLen ≤ message.unread.length
  | .freeBuffer => True

structure Holds (message : MessageImpl) (queue : List UInt8) : Prop where
  consumed : message.consumeLen ≤ message.dataLen
  within : message.dataLen ≤ message.capacity
  uint32 : message.capacity < 2 ^ 32
  unread : message.unread = queue

/-- The region that `AllocBuffer` returns is in the buffer and behind the unread bytes. -/
def Allocates (message : MessageImpl) (queue : List UInt8) (bufferSize : Nat) (fresh : Memory) :
    Prop :=
  ∃ offset after, message.allocBuffer bufferSize fresh = some (offset, after) ∧
    after.Holds queue ∧ offset = after.dataLen ∧ offset + bufferSize ≤ after.capacity

variable {message : MessageImpl} {queue : List UInt8}

theorem length_unread : message.unread.length = message.dataLen - message.consumeLen :=
  Memory.length_slice ..

section

variable (holds : message.Holds queue)
include holds

theorem Holds.moved {capacity : Nat} (fits : message.dataLen - message.consumeLen ≤ capacity)
    (uint32 : capacity < 2 ^ 32) (memory : Memory) :
    Holds ⟨memory.storeBytes 0 message.unread, capacity, 0, message.dataLen - message.consumeLen⟩
      queue := by
  refine ⟨Nat.zero_le _, fits, uint32, ?_⟩
  have stored := memory.slice_storeBytes 0 message.unread
  rw [Nat.zero_add, length_unread] at stored
  exact stored.trans holds.unread

theorem Holds.allocates {bufferSize : Nat} (roomy : message.Roomy bufferSize) (fresh : Memory) :
    message.Allocates queue bufferSize fresh := by
  obtain ⟨consumed, within, uint32, same⟩ := id holds
  obtain ⟨sum, roomy⟩ := roomy
  have length : message.unread.length = _ := length_unread
  have size : message.unreadLen = some (message.dataLen - message.consumeLen) := if_pos consumed
  rw [Allocates, allocBuffer, Nat.mod_eq_of_lt sum]
  split
  next room => exact ⟨_, _, rfl, holds, rfl, room⟩
  next full =>
    simp only [size, Option.bind_eq_bind, Option.bind_some]
    rw [if_neg (by omega)]
    split
    next moves =>
      rw [if_pos (by omega), write, if_pos (by omega)]
      exact ⟨_, _, rfl, holds.moved (by omega) uint32 _, rfl, by dsimp only; omega⟩
    next grows =>
      have small := Nat.mod_eq_of_lt
        (by omega : message.dataLen - message.consumeLen + bufferSize < 2 ^ 32)
      simp only [growSize, size, Option.bind_eq_bind, Option.bind_some, small]
      split
      next some =>
        rw [if_pos (by omega), write, if_pos (by dsimp only; omega)]
        exact ⟨_, _, rfl, holds.moved (Nat.le_add_right _ _) (by omega) _, rfl, Nat.le_refl _⟩
      next none =>
        have start : message.consumeLen = 0 ∧ message.dataLen = 0 := by omega
        refine ⟨_, _, rfl, ⟨consumed, ?_, ?_, ?_⟩, ?_, ?_⟩
        · exact start.2 ▸ Nat.zero_le _
        · show _ + _ < _
          omega
        · rw [← same]
          simp [MessageImpl.unread, start]
        · exact (Nat.eq_zero_of_not_pos none).trans start.2.symm
        · exact Nat.le_refl _

theorem receive_holds {region : List UInt8} {postSize : Nat} (post : postSize ≤ region.length)
    (roomy : message.Roomy region.length) (fresh : Memory) :
    ∃ next, message.receive region postSize fresh = some next ∧
      next.Holds (queue ++ region.take postSize) := by
  obtain ⟨_, after, allocated, ⟨consumed, within, uint32, same⟩, rfl, fits⟩ :=
    holds.allocates roomy fresh
  have sum : (after.dataLen + postSize) % 2 ^ 32 = after.dataLen + postSize :=
    Nat.mod_eq_of_lt (by omega)
  have room : after.dataLen + postSize ≤ after.capacity := by omega
  refine ⟨{ after with
    appData := after.appData.storeBytes after.dataLen region
    dataLen := after.dataLen + postSize }, ?_, ⟨Nat.le_add_right_of_le consumed, room, uint32, ?_⟩⟩
  · simp only [receive, allocated, write, postBuffer, Option.bind_eq_bind, Option.bind_some,
      if_pos fits, sum]
    exact if_pos room
  · have posted := Memory.take_slice (after.appData.storeBytes after.dataLen region)
      (Nat.le_add_right after.dataLen postSize) (Nat.add_le_add_left post after.dataLen)
    rw [Memory.slice_storeBytes, Nat.add_sub_cancel_left] at posted
    have kept : (after.appData.storeBytes after.dataLen region).slice after.consumeLen
        after.dataLen = queue :=
      (Memory.slice_congr (Memory.storeBytes_agreeOn _ _ (Nat.le_refl _))).trans same
    rw [← kept, posted]
    exact (Memory.slice_append _ consumed (Nat.le_add_right _ _)).symm

theorem step_holds {operation : Operation} (allowed : message.Allowed operation) :
    ∃ next, message.step operation = some next ∧ next.Holds (operation.apply queue) := by
  cases operation with
  | receive region postSize fresh => exact receive_holds holds allowed.1 allowed.2 fresh
  | appendBuffer buffer fresh =>
    have appended := receive_holds holds (Nat.le_refl _) allowed fresh
    rwa [take_length] at appended
  | setFollowUp consumeLen =>
    obtain ⟨consumed, within, uint32, same⟩ := holds
    have some := Nat.le_trans allowed length_unread.le
    have sum : (message.consumeLen + consumeLen) % 2 ^ 32 = message.consumeLen + consumeLen :=
      Nat.mod_eq_of_lt (by omega)
    refine ⟨_, rfl, ⟨?_, within, uint32, ?_⟩⟩
    · show (message.consumeLen + consumeLen) % 2 ^ 32 ≤ message.dataLen
      omega
    · have rest := message.appData.drop_slice (Nat.le_add_right message.consumeLen consumeLen)
        (by omega : _ ≤ message.dataLen)
      rw [Nat.add_sub_cancel_left] at rest
      rw [Operation.apply, ← same, unread, setFollowUp, sum]
      exact rest.symm
  | freeBuffer =>
    exact ⟨_, rfl, ⟨Nat.le_refl _, Nat.zero_le _, holds.uint32, Memory.slice_self _ _⟩⟩

theorem execute_holds (operations : List Operation)
    (guarded : Guarded step Allowed message operations) :
    ∃ final, execute step message operations = some final ∧
      final.Holds (operations.foldl Operation.apply queue) := by
  induction operations generalizing message queue with
  | nil => exact ⟨message, rfl, holds⟩
  | cons operation rest ih =>
    obtain ⟨next, went, holds⟩ := step_holds holds guarded.1
    obtain ⟨final, ran, holds⟩ := ih holds (guarded.cons went).2
    exact ⟨final, execute_cons.mpr ⟨next, went, ran⟩, holds⟩

end

/-- A message with space behind consumed bytes alone is a queue of bytes, and what `AllocBuffer`
returns is free. -/
theorem message_is_queue {capacity : Nat} (uint32 : capacity < 2 ^ 32) (memory : Memory)
    (operations : List Operation) (guarded : Guarded step Allowed ⟨memory, capacity, 0, 0⟩ operations) :
    ∃ final, execute step ⟨memory, capacity, 0, 0⟩ operations = some final ∧
      final.Holds (operations.foldl Operation.apply []) ∧
        ∀ bufferSize fresh, final.Roomy bufferSize →
          final.Allocates (operations.foldl Operation.apply []) bufferSize fresh := by
  obtain ⟨final, ran, holds⟩ := @execute_holds ⟨memory, capacity, 0, 0⟩ []
    ⟨Nat.le_refl _, Nat.zero_le _, uint32, Memory.slice_self _ _⟩ operations guarded
  exact ⟨final, ran, holds, fun _ fresh roomy => holds.allocates roomy fresh⟩

/-- The second operation moves the byte that is left into a larger buffer. -/
theorem grown_is_queue : ∃ final, execute step ⟨fun _ => 0, 2, 0, 0⟩
    [.receive [1, 2] 1 fun _ => 0, .appendBuffer [3, 4] fun _ => 0] = some final ∧
      final.unread = [1, 3, 4] := by
  refine (message_is_queue (by decide) _ _ ?_).imp fun _ run => ⟨run.1, run.2.1.unread⟩
  exact ⟨⟨by decide, by decide, fun _ => .inl rfl⟩, ⟨by decide, by decide⟩, trivial⟩

end MessageImpl

end AdkAaf.Adk.IoEngine
