import AdkAaf.Adk.IoEngine.Deliver
import AdkAaf.Adk.IoEngine.SendMessage
import AdkAaf.Lib.Frames
import AdkAaf.Lib.LittleEndian

/-! The messages between two bridges as bytes, and how `TcpMessageHandler::OnMessage` finds them
again in what TCP delivers. -/

set_option autoImplicit false

namespace AdkAaf.AmiBridge.Framing

open Lib Lib.LittleEndian Lib.Frames Adk.IoEngine List

/-- `MsgType`, as far as it is sent over TCP. -/
inductive MsgType where
  | kPeerSync
  | kTcpAck
  | kAmiPacket

def MsgType.value : MsgType → Nat
  | .kPeerSync => 2
  | .kTcpAck => 3
  | .kAmiPacket => 4

/-- `padding` are bytes between two fields. `endpointInfo` ends with a zero byte. -/
structure PeerSync where
  padding : UInt32
  sessionId : UInt64
  recvPacketSqn : UInt64
  sendPacketSqn : UInt64
  epInfoSize : UInt32
  endpointInfo : List UInt8
  fits : 40 + endpointInfo.length < 2 ^ 32

structure TcpAck where
  padding : UInt32
  recvPacketSqn : UInt64

structure AmiPacket where
  compress : UInt32
  endpointId : UInt32
  transportId : UInt32
  partitionNo : UInt32
  padding : UInt32
  origDataLen : UInt32
  totalSqn : UInt64
  ancestorId : UInt64
  data : List UInt8
  fits : 48 + data.length < 2 ^ 32

inductive WireMsg where
  | kPeerSync (message : PeerSync)
  | kTcpAck (message : TcpAck)
  | kAmiPacket (packet : AmiPacket)

def WireMsg.type : WireMsg → MsgType
  | .kPeerSync _ => .kPeerSync
  | .kTcpAck _ => .kTcpAck
  | .kAmiPacket _ => .kAmiPacket

/-- `PeerSyncMsg::Size`, `sizeof(TcpAckMsg)` and `header_len`. -/
def MsgType.headerLen : MsgType → Nat
  | .kPeerSync => 40
  | .kTcpAck => 16
  | .kAmiPacket => 48

/-- The fields behind the type, in the order in which they are stored. -/
def WireMsg.fields : WireMsg → List UInt8
  | .kPeerSync message =>
    encode32 message.padding ++ (encode64 message.sessionId ++ (encode64 message.recvPacketSqn ++
      (encode64 message.sendPacketSqn ++ (encode32 message.epInfoSize ++
        encode 4 message.endpointInfo.length))))
  | .kTcpAck message => encode32 message.padding ++ encode64 message.recvPacketSqn
  | .kAmiPacket packet =>
    encode32 packet.compress ++ (encode32 packet.endpointId ++ (encode32 packet.transportId ++
      (encode32 packet.partitionNo ++ (encode32 packet.padding ++
        (encode 4 packet.data.length ++ (encode32 packet.origDataLen ++
          (encode64 packet.totalSqn ++ encode64 packet.ancestorId)))))))

def WireMsg.payload : WireMsg → List UInt8
  | .kPeerSync message => message.endpointInfo
  | .kTcpAck _ => []
  | .kAmiPacket packet => packet.data

def WireMsg.header (message : WireMsg) : List UInt8 := encode 4 message.type.value ++ message.fields

/-- What `SendMsg` is given, of `DirectSendMsg` for a packet. -/
def WireMsg.bytes (message : WireMsg) : List UInt8 := message.header ++ message.payload

/-- What `OnMessage` has handed to its handlers. `overread` notes that a field was read behind
the bytes that have come, `endless` that a packet of no length is handled again and again. -/
structure Dispatcher where
  dispatched : List (MsgType × List UInt8) := []
  overread : Bool := false
  isRunning : Bool := true
  endless : Bool := false

def field (bytes : List UInt8) (offset : Nat) : Nat := decode ((bytes.drop offset).take 4)

def msgType (bytes : List UInt8) : Option MsgType :=
  if field bytes 0 = 2 then some .kPeerSync
  else if field bytes 0 = 3 then some .kTcpAck
  else if field bytes 0 = 4 then some .kAmiPacket
  else none

/-- `total_len` of the message that is taken to start here. The sums are `uint32_t`. -/
def totalLen (memory : List UInt8) : MsgType → Nat
  | .kPeerSync => (40 + field memory 36) % 2 ^ 32
  | .kTcpAck => 16
  | .kAmiPacket => (48 + field memory 24) % 2 ^ 32

/-- How a message is measured: what is asked for if it is not all there, or its length. -/
def measure (left memory : List UInt8) : MsgType → Except Int Nat
  | .kPeerSync =>
    if left.length < totalLen memory .kPeerSync then .error (-1)
    else .ok (totalLen memory .kPeerSync)
  | .kTcpAck =>
    if left.length < totalLen memory .kTcpAck then .error (-1)
    else .ok (totalLen memory .kTcpAck)
  | .kAmiPacket =>
    if left.length < 48 then .error (-1)
    else if left.length < totalLen memory .kAmiPacket then
      .error (toInt32 (totalLen memory .kAmiPacket - left.length : Nat))
    else .ok (totalLen memory .kAmiPacket)

/-- The bytes up to the end of the length field of a message whose header is not waited for. -/
def unchecked : MsgType → Nat
  | .kPeerSync => 40
  | _ => 0

/-- The loop of `OnMessage`. `behind` is what the memory holds behind the bytes that have come,
`accepts` whether the handler of a message succeeds. -/
def loop (accepts : MsgType → List UInt8 → Bool) (behind : List UInt8) (app : Dispatcher)
    (recvLen : Nat) (left : List UInt8) : Dispatcher × HandlerResult :=
  if left = [] then
    (app, .kSuccess)
  else if left.length < 4 then
    (app, .kFollowUp recvLen (-1))
  else
    match msgType left with
    | none => ({ app with isRunning := false }, .kSuccess)
    | some type =>
      let app := { app with overread := app.overread || left.length < unchecked type }
      match measure left (left ++ behind) type with
      | .error dataMore => (app, .kFollowUp recvLen dataMore)
      | .ok total =>
        let app := { app with dispatched := app.dispatched ++ [(type, left.take total)] }
        if !accepts type (left.take total) then
          ({ app with isRunning := false }, .kSuccess)
        else if total = 0 then
          ({ app with endless := true }, .kSuccess)
        else
          loop accepts behind app (recvLen + total) (left.drop total)
  termination_by left.length
  decreasing_by
    rw [length_drop]
    have := length_pos_of_ne_nil ‹¬ left = []›
    omega

/-- `TcpMessageHandler`, where `behind` says what the memory holds behind a buffer. -/
def handlers (accepts : MsgType → List UInt8 → Bool) (behind : List UInt8 → List UInt8) :
    Handlers Dispatcher where
  onMessage app buffer := loop accepts (behind buffer) app 0 buffer

section Fields

variable {message : WireMsg} {left more behind : List UInt8}

theorem field_congr {bytes other : List UInt8} {offset : Nat}
    (same : bytes.take (offset + 4) = other.take (offset + 4)) :
    field bytes offset = field other offset := by
  have cut (list : List UInt8) :
      (list.drop offset).take 4 = (list.take (offset + 4)).drop offset := by
    rw [drop_take, Nat.add_sub_cancel_left]
  rw [field, field, cut, cut, same]

theorem length_header (message : WireMsg) : message.header.length = message.type.headerLen := by
  cases message <;> simp [WireMsg.header, WireMsg.fields, WireMsg.type, MsgType.headerLen]

theorem length_bytes (message : WireMsg) :
    message.bytes.length = message.type.headerLen + message.payload.length := by
  rw [WireMsg.bytes, length_append, length_header]

theorem headerLen_le (message : WireMsg) : message.type.headerLen ≤ message.bytes.length := by
  rw [length_bytes]
  exact Nat.le_add_right _ _

theorem headerLen_ge (type : MsgType) : 16 ≤ type.headerLen := by
  cases type <;> decide

theorem field_type (message : WireMsg) : field message.bytes 0 = message.type.value := by
  have first : message.bytes.take 4 = encode 4 message.type.value := by
    exact take_left' (length_encode 4 _)
  have small : message.type.value < 256 ^ 4 := by cases message.type <;> decide
  rw [field, drop_zero, first, decode_encode_of_lt small]

theorem field_append {front back : List UInt8} {off val : Nat}
    (before : front.length = off) :
    field (front ++ (encode 4 val ++ back)) off = decode (encode 4 val) := by
  rw [field, drop_left' before, take_left' (length_encode 4 val)]

theorem field_epInfoLen (message : PeerSync) :
    field (WireMsg.bytes (.kPeerSync message)) 36 = message.endpointInfo.length := by
  have fits := message.fits
  have small : message.endpointInfo.length < 256 ^ 4 := by omega
  have parts : WireMsg.bytes (.kPeerSync message) =
      (encode 4 MsgType.kPeerSync.value ++ encode32 message.padding ++ encode64 message.sessionId ++
        encode64 message.recvPacketSqn ++ encode64 message.sendPacketSqn ++
          encode32 message.epInfoSize) ++
        (encode 4 message.endpointInfo.length ++ message.endpointInfo) := by
    simp [WireMsg.bytes, WireMsg.header, WireMsg.fields, WireMsg.type, WireMsg.payload]
  rw [parts]
  exact (field_append (by simp)).trans (decode_encode_of_lt small)

theorem field_dataLen (packet : AmiPacket) :
    field (WireMsg.bytes (.kAmiPacket packet)) 24 = packet.data.length := by
  have fits := packet.fits
  have small : packet.data.length < 256 ^ 4 := by omega
  have parts : WireMsg.bytes (.kAmiPacket packet) =
      (encode 4 MsgType.kAmiPacket.value ++ encode32 packet.compress ++
        encode32 packet.endpointId ++
        encode32 packet.transportId ++ encode32 packet.partitionNo ++ encode32 packet.padding) ++
        (encode 4 packet.data.length ++ (encode32 packet.origDataLen ++
          (encode64 packet.totalSqn ++ (encode64 packet.ancestorId ++ packet.data)))) := by
    simp [WireMsg.bytes, WireMsg.header, WireMsg.fields, WireMsg.type, WireMsg.payload]
  rw [parts]
  exact (field_append (by simp)).trans (decode_encode_of_lt small)

theorem totalLen_eq {memory : List UInt8}
    (same : memory.take message.type.headerLen = message.bytes.take message.type.headerLen) :
    totalLen memory message.type = message.bytes.length := by
  have part {offset : Nat} (inside : offset + 4 ≤ message.type.headerLen) :
      field memory offset = field message.bytes offset := by
    apply field_congr
    have cut := congrArg (take (offset + 4)) same
    rw [take_take, take_take, Nat.min_eq_left inside] at cut
    exact cut
  rw [length_bytes]
  cases message with
  | kPeerSync message =>
    have fits := message.fits
    have length : field memory 36 = message.endpointInfo.length :=
      (part (Nat.le_refl 40)).trans (field_epInfoLen message)
    change (40 + field memory 36) % 2 ^ 32 = 40 + message.endpointInfo.length
    rw [length, Nat.mod_eq_of_lt fits]
  | kTcpAck message => rfl
  | kAmiPacket packet =>
    have fits := packet.fits
    have inside : 24 + 4 ≤ 48 := by decide
    have length : field memory 24 = packet.data.length := (part inside).trans (field_dataLen packet)
    change (48 + field memory 24) % 2 ^ 32 = 48 + packet.data.length
    rw [length, Nat.mod_eq_of_lt fits]

theorem take_of_comes {count : Nat} (comes : left <+: message.bytes ++ more)
    (there : count ≤ left.length) (inside : count ≤ message.bytes.length) :
    left.take count = message.bytes.take count := by
  obtain ⟨later, same⟩ := comes
  have cut := congrArg (take count) same
  rw [take_append_of_le_length there, take_append_of_le_length inside] at cut
  exact cut

section

variable (comes : left <+: message.bytes ++ more)
include comes

theorem msgType_eq (there : 4 ≤ left.length) : msgType left = some message.type := by
  have long := headerLen_ge message.type
  have inside := headerLen_le message
  have first : field left 0 = message.type.value :=
    (field_congr (take_of_comes comes there (by omega))).trans (field_type message)
  rw [msgType, first]
  cases message.type <;> rfl

theorem totalLen_of_comes (there : message.type.headerLen ≤ left.length) :
    totalLen (left ++ behind) message.type = message.bytes.length := by
  apply totalLen_eq
  rw [take_append_of_le_length there]
  exact take_of_comes comes there (headerLen_le message)

theorem measure_whole (whole : message.bytes.length ≤ left.length) :
    measure left (left ++ behind) message.type = .ok message.bytes.length := by
  have header := (headerLen_le message).trans whole
  have total : totalLen (left ++ behind) message.type = message.bytes.length :=
    totalLen_of_comes comes header
  have enough := Nat.not_lt_of_le whole
  cases message with
  | kPeerSync message =>
    change (if left.length < totalLen (left ++ behind) .kPeerSync then _ else _) = _
    rw [show totalLen (left ++ behind) .kPeerSync = _ from total, if_neg enough]
  | kTcpAck message =>
    change (if left.length < totalLen (left ++ behind) .kTcpAck then _ else _) = _
    rw [show totalLen (left ++ behind) .kTcpAck = _ from total, if_neg enough]
  | kAmiPacket packet =>
    have there : ¬ left.length < 48 := Nat.not_lt_of_le header
    change (if left.length < 48 then _
      else if left.length < totalLen (left ++ behind) .kAmiPacket then _ else _) = _
    rw [show totalLen (left ++ behind) .kAmiPacket = _ from total, if_neg there, if_neg enough]

end

def asks (message : WireMsg) (left : List UInt8) : Int :=
  match message with
  | .kAmiPacket _ =>
    if left.length < 48 then -1 else toInt32 (message.bytes.length - left.length : Nat)
  | _ => -1

theorem measure_part (comes : left <+: message.bytes ++ more)
    (part : left.length < message.bytes.length) (there : unchecked message.type ≤ left.length) :
    measure left (left ++ behind) message.type = .error (asks message left) := by
  cases message with
  | kPeerSync message =>
    have total : totalLen (left ++ behind) .kPeerSync = _ := totalLen_of_comes comes there
    change measure left (left ++ behind) .kPeerSync = _
    rw [measure, total, if_pos part]
    rfl
  | kTcpAck message =>
    exact if_pos part
  | kAmiPacket packet =>
    change measure left (left ++ behind) .kAmiPacket = _
    rw [measure, asks]
    split
    next => rfl
    next header =>
      have total : totalLen (left ++ behind) .kAmiPacket = _ :=
        totalLen_of_comes comes (Nat.le_of_not_lt header)
      rw [total, if_pos part]

end Fields

section Call

variable {accepts : MsgType → List UInt8 → Bool} {behind : List UInt8} {app : Dispatcher}
  {recvLen : Nat} {left tail : List UInt8} {message : WireMsg} {done rest : List WireMsg}

def WireMsg.frame (message : WireMsg) : MsgType × List UInt8 := (message.type, message.bytes)

def Dispatcher.dispatch (app : Dispatcher) (messages : List WireMsg) : Dispatcher :=
  { app with dispatched := app.dispatched ++ messages.map WireMsg.frame }

theorem dispatch_nil (app : Dispatcher) : app.dispatch [] = app := by
  rw [Dispatcher.dispatch, map_nil, append_nil]

theorem dispatch_append (app : Dispatcher) (messages more : List WireMsg) :
    (app.dispatch messages).dispatch more = app.dispatch (messages ++ more) := by
  rw [Dispatcher.dispatch, Dispatcher.dispatch, Dispatcher.dispatch, map_append,
    append_assoc]

/-- The bytes that have come end behind the type of a `PeerSyncMsg` and before its length. -/
def Short (rest : List WireMsg) (tail : List UInt8) : Prop :=
  ∃ message later, rest = .kPeerSync message :: later ∧ 4 ≤ tail.length ∧ tail.length < 40

def ending (recvLen : Nat) (rest : List WireMsg) (tail : List UInt8) : HandlerResult :=
  if tail = [] then .kSuccess
  else
    match rest with
    | [] => .kSuccess
    | message :: _ => .kFollowUp recvLen (asks message tail)

theorem ending_of_ne_nil (some : tail ≠ []) :
    ending recvLen rest tail =
      match rest with
      | [] => .kSuccess
      | message :: _ => .kFollowUp recvLen (asks message tail) :=
  if_neg some

theorem asks_of_short (few : tail.length < 48) : asks message tail = -1 := by
  cases message with
  | kAmiPacket packet => exact if_pos few
  | kPeerSync message | kTcpAck message => rfl

theorem loop_message {more : List UInt8} (comes : left <+: message.bytes ++ more)
    (whole : message.bytes.length ≤ left.length)
    (accepted : accepts message.type message.bytes = true) :
    loop accepts behind app recvLen left = loop accepts behind (app.dispatch [message])
      (recvLen + message.bytes.length) (left.drop message.bytes.length) := by
  have header := headerLen_ge message.type
  have long := headerLen_le message
  have some : ¬ left = [] := ne_nil_of_length_pos (by omega)
  have typed : ¬ left.length < 4 := by omega
  have checked : ¬ left.length < unchecked message.type := by
    have inside : unchecked message.type ≤ message.type.headerLen := by
      cases message.type <;> decide
    omega
  have taken : left.take message.bytes.length = message.bytes := by
    rw [take_of_comes comes whole .refl, take_length]
  rw [loop, if_neg some, if_neg typed, msgType_eq comes (by omega)]
  dsimp only
  rw [measure_whole comes whole]
  dsimp only
  rw [taken, accepted, decide_eq_false checked, Bool.or_false]
  rfl

section

variable (comes : tail <+: stream WireMsg.bytes rest)
  (inside : Inside WireMsg.bytes tail.length rest) (fine : ¬ Short rest tail)
include comes inside fine

theorem loop_tail : loop accepts behind app recvLen tail = (app, ending recvLen rest tail) := by
  rw [loop]
  split
  next none =>
    rw [none]
    rfl
  next some =>
    rw [ending_of_ne_nil some]
    cases rest with
    | nil => exact absurd (prefix_nil.mp comes) some
    | cons message later =>
      have part : tail.length < message.bytes.length := inside
      dsimp only
      split
      next few => rw [asks_of_short (by omega)]
      next typed =>
        have there : unchecked message.type ≤ tail.length := by
          cases message with
          | kPeerSync message =>
            exact Nat.le_of_not_lt fun short =>
              fine ⟨message, later, rfl, Nat.le_of_not_lt typed, short⟩
          | kTcpAck message | kAmiPacket packet => exact Nat.zero_le _
        rw [msgType_eq comes (Nat.le_of_not_lt typed)]
        dsimp only
        rw [measure_part comes part there]
        rw [decide_eq_false (Nat.not_lt_of_le there), Bool.or_false]

theorem loop_parsed (accepted : ∀ message ∈ done, accepts message.type message.bytes = true) :
    loop accepts behind app recvLen (stream WireMsg.bytes done ++ tail) =
      (app.dispatch done, ending (recvLen + (stream WireMsg.bytes done).length) rest tail) := by
  induction done generalizing app recvLen with
  | nil =>
    rw [dispatch_nil]
    exact loop_tail comes inside fine
  | cons message later ih =>
    rw [stream_cons, append_assoc]
    rw [loop_message prefix_rfl (by rw [length_append]; omega)
      (accepted message mem_cons_self), drop_left]
    rw [ih fun message mem => accepted message (mem_cons_of_mem _ mem)]
    rw [dispatch_append, length_append, Nat.add_assoc]
    rfl

end

theorem overread_loop (noted : app.overread = true) :
    (loop accepts behind app recvLen left).1.overread = true := by
  induction size : left.length using Nat.strongRecOn generalizing app recvLen left with
  | ind _ ih =>
    rw [loop]
    split
    next => exact noted
    next some =>
      split
      next => exact noted
      next =>
        split
        next => exact noted
        next type _ =>
          have read : (app.overread || decide (left.length < unchecked type)) = true := by
            rw [noted, Bool.true_or]
          split
          next => exact read
          next total _ =>
            split
            next => exact read
            next =>
              split
              next => exact read
              next pos =>
                have less : (left.drop total).length < left.length := by
                  rw [length_drop]
                  omega
                exact ih _ (size ▸ less) read rfl

theorem overread_of_short (comes : tail <+: stream WireMsg.bytes rest) (short : Short rest tail)
    (accepted : ∀ message ∈ done, accepts message.type message.bytes = true) :
    (loop accepts behind app recvLen (stream WireMsg.bytes done ++ tail)).1.overread = true := by
  induction done generalizing app recvLen with
  | nil =>
    obtain ⟨message, later, rfl, typed, few⟩ := short
    have some : ¬ tail = [] := ne_nil_of_length_pos (by omega)
    have read : (app.overread || decide (tail.length < unchecked (.kPeerSync))) = true := by
      rw [decide_eq_true (p := tail.length < unchecked .kPeerSync) few, Bool.or_true]
    change (loop accepts behind app recvLen tail).1.overread = true
    rw [loop, if_neg some, if_neg (Nat.not_lt_of_le typed), msgType_eq comes typed]
    dsimp only
    split
    next => exact read
    next =>
      split
      next => exact read
      next =>
        split
        next => exact read
        next => exact overread_loop read
  | cons message later ih =>
    rw [stream_cons, append_assoc]
    rw [loop_message prefix_rfl (by rw [length_append]; omega)
      (accepted message mem_cons_self), drop_left]
    exact ih fun message mem => accepted message (mem_cons_of_mem _ mem)

end Call

section Engine

variable {accepts : MsgType → List UInt8 → Bool} {behind : List UInt8 → List UInt8}
  {app : Dispatcher} {tail buffer : List UInt8} {done rest : List WireMsg}

def waiting (rest : List WireMsg) (tail : List UInt8) : DeliverMessage :=
  if tail = [] then {}
  else
    match rest with
    | [] => {}
    | message :: _ => { unread := tail, dataMore := asks message tail }

section

variable (comes : tail <+: stream WireMsg.bytes rest)
  (inside : Inside WireMsg.bytes tail.length rest) (fine : ¬ Short rest tail)
include comes inside fine

theorem doDeliverMessage_tail :
    doDeliverMessage (handlers accepts behind).onMessage app tail = (app, waiting rest tail) := by
  have answer : (handlers accepts behind).onMessage app tail = (app, ending 0 rest tail) :=
    loop_tail comes inside fine
  rw [doDeliverMessage, answer]
  by_cases none : tail = []
  · subst none
    rfl
  · cases rest with
    | nil => exact absurd (prefix_nil.mp comes) none
    | cons message later =>
      have ends : ending 0 (message :: later) tail = .kFollowUp 0 (asks message tail) :=
        if_neg none
      have waits : waiting (message :: later) tail =
          { unread := tail, dataMore := asks message tail } := if_neg none
      rw [ends, waits]
      dsimp only
      rw [drop_zero, if_neg fun shorter => Nat.lt_irrefl _ shorter.1]

theorem doDeliverMessage_parsed
    (accepted : ∀ message ∈ done, accepts message.type message.bytes = true)
    (received : buffer = stream WireMsg.bytes done ++ tail) :
    doDeliverMessage (handlers accepts behind).onMessage app buffer =
      (app.dispatch done, waiting rest tail) := by
  have answer : (handlers accepts behind).onMessage app buffer =
      (app.dispatch done, ending (0 + (stream WireMsg.bytes done).length) rest tail) := by
    rw [received]
    exact loop_parsed comes inside fine accepted
  rw [Nat.zero_add] at answer
  have later : doDeliverMessage (handlers accepts behind).onMessage (app.dispatch done) tail =
      (app.dispatch done, waiting rest tail) := doDeliverMessage_tail comes inside fine
  rw [doDeliverMessage, answer]
  by_cases none : tail = []
  · subst none
    rfl
  · cases rest with
    | nil => exact absurd (prefix_nil.mp comes) none
    | cons message rest =>
      have ends : ending (stream WireMsg.bytes done).length (message :: rest) tail =
          .kFollowUp (stream WireMsg.bytes done).length (asks message tail) := if_neg none
      have waits : waiting (message :: rest) tail =
          { unread := tail, dataMore := asks message tail } := if_neg none
      have left : buffer.drop (stream WireMsg.bytes done).length = tail := by
        rw [received, drop_left]
      rw [ends]
      dsimp only
      rw [left]
      split
      next => exact later
      next => rw [waits]

end

theorem overread_doDeliverMessage (noted : app.overread = true) :
    (doDeliverMessage (handlers accepts behind).onMessage app buffer).1.overread = true := by
  induction size : buffer.length using Nat.strongRecOn generalizing app buffer with
  | ind _ ih =>
    have kept : ((handlers accepts behind).onMessage app buffer).1.overread = true :=
      overread_loop noted
    rw [doDeliverMessage]
    split
    next after answer =>
      rw [answer] at kept
      exact kept
    next after consumeLen dataMore answer =>
      rw [answer] at kept
      dsimp only
      split
      next shorter => exact ih _ (size ▸ shorter.1) kept rfl
      next => exact kept

theorem doDeliverMessage_short (comes : tail <+: stream WireMsg.bytes rest)
    (short : Short rest tail)
    (accepted : ∀ message ∈ done, accepts message.type message.bytes = true)
    (received : buffer = stream WireMsg.bytes done ++ tail) :
    (doDeliverMessage (handlers accepts behind).onMessage app buffer).1.overread = true := by
  have read : ((handlers accepts behind).onMessage app buffer).1.overread = true := by
    rw [received]
    exact overread_of_short comes short accepted
  rw [doDeliverMessage]
  split
  next after answer =>
    rw [answer] at read
    exact read
  next after consumeLen dataMore answer =>
    rw [answer] at read
    dsimp only
    split
    next => exact overread_doDeliverMessage read
    next => exact read

end Engine

structure Receiving where
  app : Dispatcher := {}
  message : DeliverMessage := {}
  received : List UInt8 := []

/-- Some bytes that are read at once, and what the memory holds behind a buffer then. -/
structure Arrival where
  bytes : List UInt8
  behind : List UInt8 → List UInt8

def receive (accepts : MsgType → List UInt8 → Bool) (messages : List WireMsg)
    (connection : Receiving) (arrival : Arrival) : Option Receiving :=
  if arrival.bytes ≠ [] ∧
      connection.received ++ arrival.bytes <+: stream WireMsg.bytes messages then
    let delivered := recvAndDeliverMessage (handlers accepts arrival.behind) connection.app
      connection.message arrival.bytes
    some { app := delivered.1, message := delivered.2,
           received := connection.received ++ arrival.bytes }
  else
    none

/-- The messages that are complete are dispatched, and nothing else; the bytes behind them are
kept, and no more bytes are waited for than the next message has; no field was read behind what
has come. -/
def Framed (messages : List WireMsg) (connection : Receiving) : Prop :=
  ∃ done rest, Parsed WireMsg.bytes messages connection.received done rest
      connection.message.unread ∧
    connection.app = ({} : Dispatcher).dispatch done ∧
    (0 < connection.message.dataMore → ∃ packet later, rest = .kAmiPacket packet :: later ∧
      connection.message.dataMore ≤
        ((WireMsg.kAmiPacket packet).bytes.length - connection.message.unread.length : Nat))

/-- So many bytes end behind the type of a `PeerSyncMsg` and before the end of its header. -/
def EndsInPeerSync (messages : List WireMsg) (position : Nat) : Prop :=
  ∃ before message behind, messages = before ++ .kPeerSync message :: behind ∧
    (stream WireMsg.bytes before).length + 4 ≤ position ∧
      position < (stream WireMsg.bytes before).length + 40

section Connection

variable {accepts : MsgType → List UInt8 → Bool} {messages done rest : List WireMsg}
  {connection next : Receiving} {arrival : Arrival} {received tail : List UInt8}

theorem short_iff (parsed : Parsed WireMsg.bytes messages received done rest tail) :
    Short rest tail ↔ EndsInPeerSync messages received.length := by
  have length : received.length = (stream WireMsg.bytes done).length + tail.length := by
    rw [parsed.received, length_append]
  constructor
  · rintro ⟨message, later, rfl, typed, few⟩
    exact ⟨done, message, later, parsed.frames, by omega, by omega⟩
  · rintro ⟨before, message, behind, same, typed, few⟩
    have long : 40 ≤ (WireMsg.kPeerSync message).bytes.length := headerLen_le (.kPeerSync message)
    have inside : Inside WireMsg.bytes (received.length - (stream WireMsg.bytes before).length)
        (.kPeerSync message :: behind) := by
      change _ < (WireMsg.kPeerSync message).bytes.length
      omega
    obtain ⟨_, rest, off⟩ := parsed.inside.unique (parsed.frames.symm.trans same) inside
      (by omega)
    exact ⟨message, behind, rest, by omega, by omega⟩

theorem framed_initial (messages : List WireMsg) : Framed messages {} := by
  refine ⟨[], messages, ⟨rfl, rfl, nil_prefix, ?_⟩, rfl, ?_⟩
  · cases messages with
    | nil => rfl
    | cons message later =>
      have header := headerLen_ge message.type
      exact Nat.lt_of_lt_of_le (Nat.lt_of_lt_of_le (by decide) header) (headerLen_le message)
  · nofun

theorem waiting_asks (comes : tail <+: stream WireMsg.bytes rest)
    (more : 0 < (waiting rest tail).dataMore) :
    ∃ packet later, rest = .kAmiPacket packet :: later ∧ (waiting rest tail).dataMore ≤
      ((WireMsg.kAmiPacket packet).bytes.length - tail.length : Nat) := by
  by_cases none : tail = []
  · subst none
    cases more
  · cases rest with
    | nil => exact absurd (prefix_nil.mp comes) none
    | cons message later =>
      have waits : (waiting (message :: later) tail).dataMore = asks message tail :=
        congrArg DeliverMessage.dataMore (if_neg none)
      rw [waits] at more ⊢
      cases message with
      | kPeerSync message | kTcpAck message => cases more
      | kAmiPacket packet =>
        refine ⟨packet, later, rfl, ?_⟩
        rw [asks] at more ⊢
        split
        next few =>
          rw [if_pos few] at more
          cases more
        next => exact toInt32_le

theorem waiting_unread (comes : tail <+: stream WireMsg.bytes rest) :
    (waiting rest tail).unread = tail := by
  by_cases none : tail = []
  · subst none
    rfl
  · cases rest with
    | nil => exact absurd (prefix_nil.mp comes) none
    | cons message later => exact congrArg DeliverMessage.unread (if_neg none)

theorem framed_receive (accepted : ∀ message ∈ messages, accepts message.type message.bytes = true)
    (framed : Framed messages connection)
    (went : receive accepts messages connection arrival = some next) : Framed messages next ↔
      ¬ EndsInPeerSync messages (connection.received ++ arrival.bytes).length := by
  rw [receive] at went
  split at went
  next comes =>
    cases went
    obtain ⟨some, continues⟩ := comes
    obtain ⟨done, rest, parsed, dispatched, waits⟩ := framed
    have tailComes : connection.message.unread ++ arrival.bytes <+: stream WireMsg.bytes rest := by
      rw [parsed.frames, stream_append, parsed.received, append_assoc] at continues
      exact (prefix_append_right_inj _).mp continues
    obtain ⟨more, rest', tail, later⟩ := exists_parsed tailComes
    have whole := parsed.append later
    rw [← short_iff whole]
    by_cases soon : connection.message.dataMore ≤ arrival.bytes.length
    · rw [recvAndDeliverMessage_soon soon]
      have accept : ∀ message ∈ more, accepts message.type message.bytes = true := by
        intro message mem
        refine accepted message ?_
        rw [parsed.frames, later.frames]
        exact mem_append_right _ (mem_append_left _ mem)
      constructor
      · rintro ⟨_, _, _, clean, _⟩ short
        have read : (doDeliverMessage (handlers accepts arrival.behind).onMessage connection.app
            (connection.message.unread ++ arrival.bytes)).1.overread = true :=
          doDeliverMessage_short later.continues short accept later.received
        rw [deliverMessage] at clean
        dsimp only [handlers] at clean read
        rw [clean] at read
        cases read
      · intro fine
        have delivered : deliverMessage (handlers accepts arrival.behind)
            connection.message.dataMore connection.app
              (connection.message.unread ++ arrival.bytes) =
            (connection.app.dispatch more, waiting rest' tail) :=
          doDeliverMessage_parsed later.continues later.inside fine accept later.received
        rw [delivered]
        refine ⟨done ++ more, rest', ?_, ?_, ?_⟩
        · dsimp only
          rw [waiting_unread later.continues]
          exact whole
        · dsimp only
          rw [dispatched, dispatch_append]
        · dsimp only
          intro waited
          rw [waiting_unread later.continues]
          exact waiting_asks later.continues waited
    · rw [recvAndDeliverMessage_late soon]
      -- the packet that is waited for does not end in these bytes
      obtain ⟨packet, behind, rfl, few⟩ := waits (by omega)
      clear waits
      have less : connection.message.dataMore - arrival.bytes.length ≤
          ((WireMsg.kAmiPacket packet).bytes.length -
            (connection.message.unread ++ arrival.bytes).length : Nat) := by
        rw [length_append]
        omega
      have part : Inside WireMsg.bytes (connection.message.unread ++ arrival.bytes).length
          (.kAmiPacket packet :: behind) := by
        change _ < (WireMsg.kAmiPacket packet).bytes.length
        omega
      have level : (stream WireMsg.bytes []).length +
          (connection.message.unread ++ arrival.bytes).length =
            (stream WireMsg.bytes more).length + tail.length := by
        rw [later.received, length_append]
        exact Nat.zero_add _
      obtain ⟨none, same, _⟩ := part.unique later.frames later.inside level
      subst none same
      have received : connection.message.unread ++ arrival.bytes = tail := later.received
      subst received
      constructor
      · rintro _ ⟨message, later, other, _⟩
        cases other
      · intro _
        rw [append_nil] at whole
        refine ⟨done, .kAmiPacket packet :: behind, whole, dispatched, ?_⟩
        intro _
        exact ⟨packet, behind, rfl, less⟩
  next => cases went

variable {arrivals : List Arrival}

theorem exists_execute (nonempty : ∀ arrival ∈ arrivals, arrival.bytes ≠ [])
    (cuts : connection.received ++ (arrivals.map Arrival.bytes).flatten <+:
      stream WireMsg.bytes messages) :
    ∃ final, execute (receive accepts messages) connection arrivals = some final := by
  induction arrivals generalizing connection with
  | nil => exact ⟨connection, rfl⟩
  | cons arrival rest ih =>
    rw [map_cons, flatten_cons, ← append_assoc] at cuts
    have comes : arrival.bytes ≠ [] ∧
        connection.received ++ arrival.bytes <+: stream WireMsg.bytes messages :=
      ⟨nonempty arrival mem_cons_self, (prefix_append _ _).trans cuts⟩
    obtain ⟨next, went, received⟩ : ∃ next,
        receive accepts messages connection arrival = some next ∧
          next.received = connection.received ++ arrival.bytes :=
      ⟨_, if_pos comes, rfl⟩
    rw [← received] at cuts
    obtain ⟨final, finished⟩ :=
      ih (fun later mem => nonempty later (mem_cons_of_mem _ mem)) cuts
    exact ⟨final, execute_cons.mpr ⟨next, went, finished⟩⟩

theorem guarded_iff {final : Receiving}
    (ran : execute (receive accepts messages) connection arrivals = some final) :
    Guarded (receive accepts messages) (fun connection arrival =>
        ¬ EndsInPeerSync messages (connection.received ++ arrival.bytes).length)
        connection arrivals ↔
      ∀ first rest, arrivals = first ++ rest → first ≠ [] → ¬ EndsInPeerSync messages
        (connection.received ++ (first.map Arrival.bytes).flatten).length := by
  induction arrivals generalizing connection with
  | nil =>
    refine ⟨fun _ first rest same some => ?_, fun _ => trivial⟩
    exact absurd (append_eq_nil_iff.mp same.symm).1 some
  | cons arrival rest ih =>
    obtain ⟨next, went, finished⟩ := execute_cons.mp ran
    have received : next.received = connection.received ++ arrival.bytes := by
      rw [receive] at went
      split at went <;> cases went
      rfl
    rw [Guarded, went]
    dsimp only
    rw [ih finished, received]
    constructor
    · rintro ⟨here, later⟩ first others same some
      cases first with
      | nil => exact absurd rfl some
      | cons head first =>
        cases same
        rw [map_cons, flatten_cons, ← append_assoc]
        cases first with
        | nil =>
          rw [map_nil, flatten_nil, append_nil]
          exact here
        | cons second first => exact later _ others rfl (cons_ne_nil _ _)
    · intro all
      refine ⟨?_, fun first others same _ => ?_⟩
      · have one := all [arrival] rest rfl (cons_ne_nil _ _)
        rw [map_singleton, flatten_singleton] at one
        exact one
      · have more := all (arrival :: first) others (congrArg (arrival :: ·) same)
          (cons_ne_nil _ _)
        rw [map_cons, flatten_cons, ← append_assoc] at more
        exact more

/-- However the stream of the messages is cut, they are found again, if and only if no cut is
behind the type of a `PeerSyncMsg` and before the end of its header. -/
theorem framed_iff {arrivals : List Arrival}
    (accepted : ∀ message ∈ messages, accepts message.type message.bytes = true)
    (nonempty : ∀ arrival ∈ arrivals, arrival.bytes ≠ [])
    (cuts : (arrivals.map Arrival.bytes).flatten <+: stream WireMsg.bytes messages) :
    Always (receive accepts messages) (Framed messages) {} arrivals ↔
      ∀ first rest, arrivals = first ++ rest → first ≠ [] →
        ¬ EndsInPeerSync messages (first.map Arrival.bytes).flatten.length := by
  have start : ({} : Receiving).received ++ (arrivals.map Arrival.bytes).flatten <+:
      stream WireMsg.bytes messages := cuts
  obtain ⟨final, ran⟩ : ∃ final, execute (receive accepts messages) {} arrivals = some final :=
    exists_execute nonempty start
  rw [always_iff_guarded (framed_receive accepted) (framed_initial messages) ran, guarded_iff ran]
  rfl

def sync : WireMsg := .kPeerSync
  { padding := 0, sessionId := 5, recvPacketSqn := 0, sendPacketSqn := 0, epInfoSize := 0
    endpointInfo := [0], fits := by decide }

def ack : WireMsg := .kTcpAck { padding := 7, recvPacketSqn := 1 }

def packet : WireMsg := .kAmiPacket
  { compress := 0, endpointId := 3, transportId := 11, partitionNo := 1, padding := 0
    origDataLen := 2, totalSqn := 1, ancestorId := 4, data := [65, 66], fits := by decide }

/-- A `PeerSyncMsg` of 41 bytes, a packet of 50 and a `TcpAckMsg` of 16, cut in the first, in
the length field of the second and in the type of the third. -/
def cutBytes : List Arrival :=
  [⟨(stream WireMsg.bytes [sync, packet, ack]).take 40, fun _ => []⟩,
    ⟨((stream WireMsg.bytes [sync, packet, ack]).drop 40).take 27, fun _ => [9, 9]⟩,
    ⟨((stream WireMsg.bytes [sync, packet, ack]).drop 67).take 26, fun _ => []⟩,
    ⟨(stream WireMsg.bytes [sync, packet, ack]).drop 93, fun _ => []⟩]

theorem not_endsInPeerSync {position : Nat} (behind : 40 ≤ position) :
    ¬ EndsInPeerSync [sync, packet, ack] position := by
  rintro ⟨before, message, later, same, typed, few⟩
  cases before with
  | nil =>
    have start : (stream WireMsg.bytes []).length = 0 := rfl
    omega
  | cons first before =>
    have rest := (cons.inj same).2
    have mem : WireMsg.kPeerSync message ∈ [packet, ack] := by
      rw [rest]
      exact mem_append_right _ mem_cons_self
    rcases mem_cons.mp mem with other | mem
    · cases other
    · cases mem_singleton.mp mem

theorem framed_cutBytes :
    Always (receive (fun _ _ => true) [sync, packet, ack]) (Framed [sync, packet, ack]) {}
      cutBytes := by
  have nonempty : ∀ arrival ∈ cutBytes, arrival.bytes ≠ [] := by decide +kernel
  have whole : (cutBytes.map Arrival.bytes).flatten = stream WireMsg.bytes [sync, packet, ack] := by
    decide +kernel
  refine (framed_iff (fun _ _ => rfl) nonempty (whole ▸ prefix_rfl)).mpr ?_
  intro first rest same some
  apply not_endsInPeerSync
  cases first with
  | nil => exact absurd rfl some
  | cons head first =>
    have head : head.bytes.length = 40 := by
      rw [← (cons.inj same).1]
      decide +kernel
    rw [map_cons, flatten_cons, length_append]
    omega

/-- Eight bytes of a `PeerSyncMsg` come first. -/
theorem peerSync_measured_too_early : ¬ Always (receive (fun _ _ => true) [sync]) (Framed [sync]) {}
      [⟨sync.bytes.take 8, fun _ => []⟩, ⟨sync.bytes.drop 8, fun _ => []⟩] := by
  intro always
  have nonempty : ∀ arrival ∈ [Arrival.mk (sync.bytes.take 8) fun _ => [],
      ⟨sync.bytes.drop 8, fun _ => []⟩], arrival.bytes ≠ [] := by decide +kernel
  have whole : ([Arrival.mk (sync.bytes.take 8) fun _ => [],
      ⟨sync.bytes.drop 8, fun _ => []⟩].map Arrival.bytes).flatten =
        stream WireMsg.bytes [sync] := by decide +kernel
  have uncut := (framed_iff (fun _ _ => rfl) nonempty (whole ▸ prefix_rfl)).mp always
    [⟨sync.bytes.take 8, fun _ => []⟩] _ rfl (cons_ne_nil _ _)
  have eight : ([Arrival.mk (sync.bytes.take 8) fun _ => []].map Arrival.bytes).flatten.length =
      8 := by decide +kernel
  rw [eight] at uncut
  exact uncut ⟨[], _, [], rfl, by decide, by decide⟩

end Connection

end AdkAaf.AmiBridge.Framing
