import AdkAaf.Adk.IoEngine.Deliver
import AdkAaf.Adk.IoEngine.SendMessage

/-! The delivery loops of `io_thread.cpp` with what an application may do inside `OnMessage`:
keep the message (`forward_acquire`) and cork the endpoint (`SetRxCork`). The bytes of
`deliver_message` are those behind `consume_len`; the `int32_t` that its length is stored to is
explicit. -/

set_option autoImplicit false

namespace AdkAaf.Adk.IoEngine.Receiving

/-- `rx_cork_stt` of an endpoint that is not released. -/
inductive EpRxCorkStat where
  | kRxCorkNot
  | kRxCorkPre
  | kRxCorkSet
  deriving DecidableEq

structure Outcome where
  result : HandlerResult
  acquires : Bool := false
  corks : Bool := false

/-- The handlers of an endpoint. `MessageLength` sees the bytes only. -/
structure Handlers (App : Type) where
  onMessage : App → List UInt8 → App × Outcome
  messageLength : Option (List UInt8 → Int) := none

/-- An endpoint on its receive actor. `origAppData` is whether `orig_app_data` of the arena of
the thread is set, `inPlace` whether the message lies in the buffer that was received: `app_data_`
is that buffer, `capacity_` its length and `consume_len_` zero. The last three fields record what
the code does not keep: what `OnMessage` was called with, whether the loop was last left at the
check of the cork, and whether `forward_acquire` took a message for one in place that was not. -/
structure Receiver (App : Type) where
  app : App
  unread : List UInt8 := []
  dataMore : Int := 0
  rxCork : EpRxCorkStat := .kRxCorkNot
  origAppData : Bool := false
  inPlace : Bool := false
  calls : List (List UInt8) := []
  heldBack : Bool := false
  aborted : Bool := false

variable {App : Type}

namespace Receiver

/-- A call of `OnMessage` with `tail` behind the message. A message that is kept leaves a
substitute, which gets the tail unless `orig_app_data` is set. Then `forward_acquire` asserts that
the message is in place; where it is not, one of the assertions ends the process, or the message
gets the buffer of another one. -/
def onMessage (handlers : Handlers App) (receiver : Receiver App) (message tail : List UInt8) :
    Receiver App × HandlerResult :=
  match handlers.onMessage receiver.app message with
  | (app, outcome) =>
    ({ receiver with
        app
        calls := receiver.calls ++ [message]
        rxCork := if outcome.corks then .kRxCorkPre else receiver.rxCork
        unread := if outcome.acquires ∧ receiver.origAppData then [] else tail
        aborted := receiver.aborted ||
          (outcome.acquires && receiver.origAppData && !receiver.inPlace) },
      outcome.result)

section

variable {handlers : Handlers App} {receiver : Receiver App} {message tail : List UInt8}

theorem onMessage_unread_length_le :
    (receiver.onMessage handlers message tail).1.unread.length ≤ tail.length := by
  rw [onMessage]
  dsimp only
  split
  next => exact Nat.zero_le _
  next => exact .refl

@[simp] theorem onMessage_calls :
    (receiver.onMessage handlers message tail).1.calls = receiver.calls ++ [message] := rfl

@[simp] theorem onMessage_origAppData :
    (receiver.onMessage handlers message tail).1.origAppData = receiver.origAppData := rfl

@[simp] theorem onMessage_dataMore :
    (receiver.onMessage handlers message tail).1.dataMore = receiver.dataMore := rfl

@[simp] theorem onMessage_heldBack :
    (receiver.onMessage handlers message tail).1.heldBack = receiver.heldBack := rfl

theorem onMessage_unread (plain : receiver.origAppData = false) :
    (receiver.onMessage handlers message tail).1.unread = tail := by
  exact if_neg fun both => Bool.false_ne_true (plain.symm.trans both.2)

theorem onMessage_rxCork
    (noCork : ∀ app message, (handlers.onMessage app message).2.corks = false) :
    (receiver.onMessage handlers message tail).1.rxCork = receiver.rxCork := by
  rw [onMessage]
  dsimp only
  rw [noCork]
  rfl

end

/-- `DoDeliverMessage` without a decode template. -/
def doDeliverMessage (handlers : Handlers App) (receiver : Receiver App) : Receiver App :=
  match receiver.onMessage handlers receiver.unread [] with
  | (after, .kSuccess) => { after with unread := [], dataMore := 0 }
  | (after, .kFollowUp consumeLen dataMore) =>
    let left := receiver.unread.drop consumeLen
    let deliverLen := toInt32 receiver.unread.length
    let leftLen := toInt32 left.length
    if leftLen < deliverLen ∧ dataMore ≤ leftLen then
      if after.rxCork = .kRxCorkPre then
        { after with unread := left, dataMore, heldBack := true }
      else
        doDeliverMessage handlers { after with unread := left, dataMore }
    else
      { after with unread := left, dataMore }
  termination_by receiver.unread.length
  decreasing_by
    rename_i shorter _
    have dropped : left.length ≤ receiver.unread.length :=
      Nat.le_trans (Nat.le_of_eq List.length_drop) (Nat.sub_le _ _)
    refine Nat.lt_of_le_of_ne dropped fun same => ?_
    have less : toInt32 left.length < toInt32 receiver.unread.length := shorter.1
    rw [same] at less
    exact Int.lt_irrefl _ less

def doDeliverDecoded (messageLength : List UInt8 → Int) (handlers : Handlers App)
    (receiver : Receiver App) : Receiver App :=
  let effectiveDataLen := toInt32 receiver.unread.length
  let messageLen := messageLength receiver.unread
  if 0 < messageLen then
    if messageLen = effectiveDataLen then
      { (receiver.onMessage handlers receiver.unread []).1 with unread := [], dataMore := 0 }
    else if messageLen < effectiveDataLen then
      let after := (receiver.onMessage handlers (receiver.unread.take messageLen.toNat)
        (receiver.unread.drop messageLen.toNat)).1
      if after.rxCork = .kRxCorkPre then
        { after with heldBack := true }
      else
        doDeliverDecoded messageLength handlers after
    else
      { receiver with dataMore := toInt32 (messageLen - effectiveDataLen) }
  else if messageLen = 0 then
    { receiver with unread := [], dataMore := 0 }
  else
    receiver
  termination_by receiver.unread.length
  decreasing_by
    have bound := @toInt32_le receiver.unread.length
    refine Nat.lt_of_le_of_lt onMessage_unread_length_le ?_
    rw [List.length_drop]
    omega

def deliverMessage (handlers : Handlers App) (receiver : Receiver App) : Receiver App :=
  match handlers.messageLength with
  | none => doDeliverMessage handlers { receiver with heldBack := false }
  | some messageLength => doDeliverDecoded messageLength handlers { receiver with heldBack := false }

/-- `RecvAndDeliverMessage` of an endpoint that reads into the buffer of `deliver_message`, when
so many bytes were read, up to `set_rx_cork_from_pre`. -/
def recvAndDeliverMessage (handlers : Handlers App) (receiver : Receiver App)
    (bytes : List UInt8) : Receiver App :=
  let posted := { receiver with unread := receiver.unread ++ bytes }
  if receiver.dataMore ≤ bytes.length then
    posted.deliverMessage handlers
  else
    { posted with dataMore := receiver.dataMore - bytes.length }

def appendAndDeliver (messageLength : List UInt8 → Int) (handlers : Handlers App)
    (receiver : Receiver App) (buffer : List UInt8) : Receiver App :=
  doDeliverDecoded messageLength handlers
    { receiver with unread := receiver.unread ++ buffer, heldBack := false }

/-- `DeliverZcMessage` with a decode template. `push_message` sets `orig_app_data`, and only the
branch of a message with a tail calls `reset`. -/
def deliverZcMessage (messageLength : List UInt8 → Int) (handlers : Handlers App)
    (receiver : Receiver App) (buffer : List UInt8) : Receiver App :=
  if receiver.unread ≠ [] then
    receiver.appendAndDeliver messageLength handlers buffer
  else
    let pushed := { receiver with origAppData := true, inPlace := true }
    let messageLen := messageLength buffer
    if 0 < messageLen then
      if (buffer.length : Int) = messageLen then
        { (pushed.onMessage handlers buffer []).1 with
          unread := [], dataMore := 0, inPlace := false }
      else if messageLen < buffer.length then
        let after := (pushed.onMessage handlers (buffer.take messageLen.toNat) []).1
        { after with origAppData := false, inPlace := false }.appendAndDeliver messageLength handlers
          (buffer.drop messageLen.toNat)
      else
        { receiver with unread := buffer, dataMore := toInt32 (messageLen - buffer.length) }
    else if messageLen < 0 then
      { receiver with unread := buffer, dataMore := 0 }
    else
      receiver

end Receiver

end AdkAaf.Adk.IoEngine.Receiving
