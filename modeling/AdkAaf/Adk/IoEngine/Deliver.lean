import AdkAaf.Lib.Transition
import Mathlib.Algebra.Group.Nat.Defs

/-! The receive side of an endpoint of the io engine: what `RecvAndDeliverMessage` does with
the bytes it has read, for sockets that read into the buffer of `deliver_message`.

`OnMessage` and `MessageLength` of the application are functions on a state of its own. The
application does not cork the endpoint and does not keep a message that it was handed. -/

set_option autoImplicit false

namespace AdkAaf.Adk.IoEngine

/-- What `deliver_message` holds: the bytes that were not consumed and `data_more`. -/
structure DeliverMessage where
  unread : List UInt8 := []
  dataMore : Int := 0

/-- What `OnMessage` returns: `kFollowUp` with what it passed to `set_follow_up`, or
anything else. -/
inductive HandlerResult where
  | kFollowUp (consumeLen : Nat) (dataMore : Int)
  | kSuccess

structure Handlers (App : Type) where
  onMessage : App → List UInt8 → App × HandlerResult
  messageLength : Option (App → List UInt8 → App × Int) := none

variable {App : Type}

/-- `DoDeliverMessage` without a decode template. -/
def doDeliverMessage (onMessage : App → List UInt8 → App × HandlerResult) (app : App)
    (buffer : List UInt8) : App × DeliverMessage :=
  match onMessage app buffer with
  | (app, .kSuccess) => (app, {})
  | (app, .kFollowUp consumeLen dataMore) =>
    let left := buffer.drop consumeLen
    if left.length < buffer.length ∧ dataMore ≤ left.length then
      doDeliverMessage onMessage app left
    else
      (app, { unread := left, dataMore })
  termination_by buffer.length
  decreasing_by exact ‹_ ∧ _›.1

/-- `DoDeliverMessage` with a decode template. `dataMore` is left from before. -/
def doDeliverDecoded (onMessage : App → List UInt8 → App × HandlerResult)
    (messageLength : App → List UInt8 → App × Int) (dataMore : Int) (app : App)
    (buffer : List UInt8) : App × DeliverMessage :=
  match messageLength app buffer with
  | (app, messageLen) =>
    if 0 < messageLen then
      if messageLen = buffer.length then
        ((onMessage app buffer).1, {})
      else if messageLen < buffer.length ∧ 0 < buffer.length then
        doDeliverDecoded onMessage messageLength dataMore
          (onMessage app (buffer.take messageLen.toNat)).1 (buffer.drop messageLen.toNat)
      else
        (app, { unread := buffer, dataMore := messageLen - buffer.length })
    else if messageLen = 0 then
      (app, {})
    else
      (app, { unread := buffer, dataMore })
  termination_by buffer.length
  decreasing_by
    rw [List.length_drop]
    omega

def deliverMessage (handlers : Handlers App) (dataMore : Int) (app : App) (buffer : List UInt8) :
    App × DeliverMessage :=
  match handlers.messageLength with
  | none => doDeliverMessage handlers.onMessage app buffer
  | some messageLength => doDeliverDecoded handlers.onMessage messageLength dataMore app buffer

/-- `RecvAndDeliverMessage`, when so many bytes were read. -/
def recvAndDeliverMessage (handlers : Handlers App) (app : App) (message : DeliverMessage)
    (bytes : List UInt8) : App × DeliverMessage :=
  let buffer := message.unread ++ bytes
  if message.dataMore ≤ bytes.length then
    deliverMessage handlers message.dataMore app buffer
  else
    (app, { unread := buffer, dataMore := message.dataMore - bytes.length })

section Received

variable {handlers : Handlers App} {app : App} {message : DeliverMessage} {bytes : List UInt8}

theorem recvAndDeliverMessage_soon (soon : message.dataMore ≤ bytes.length) :
    recvAndDeliverMessage handlers app message bytes =
      deliverMessage handlers message.dataMore app (message.unread ++ bytes) :=
  if_pos soon

theorem recvAndDeliverMessage_late (late : ¬ message.dataMore ≤ bytes.length) :
    recvAndDeliverMessage handlers app message bytes =
      (app, { unread := message.unread ++ bytes, dataMore := message.dataMore - bytes.length }) :=
  if_neg late

end Received

end AdkAaf.Adk.IoEngine
