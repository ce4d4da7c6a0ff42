import AdkAaf.Adk.IoEngine.SendMessage
import AdkAaf.AmiBridge.Payload

/-! A bridge that becomes leader and goes on with the session of the peer. What the peer has is
taken from the packets that were sent before and from the messages of AMI, what it lacks is read
from the recorder again. -/

set_option autoImplicit false

namespace AdkAaf.AmiBridge

open List

open Adk.IoEngine (toInt32 toInt32_of_small toInt32_bounds)

/-- The sending side of an `AmiBridge`. `recorder` has the message with the ordinal `n` at `n - 1`,
`fresh` is what `NewMessage` creates, `sent` are the packets that were passed to `SendMsg` on the
connection. -/
structure Sender where
  lib : CompressLib
  fresh : Message
  rxepMap : List RxEndpointStuff
  transportPartition : Nat → Int
  tcpPacketsQueue : List AmiMsgPacket
  otherQueue : List AmiMsgPacket
  amiRxQueue : List Message
  recorder : List Message
  amiRxMsgCnt : Nat
  amiRxErrCnt : Nat
  tcpTxPacketCnt : Nat
  lastRecvAckSeq : Nat
  recorderRetransmitNum : Nat
  recorderRetransmitBegin : Nat
  sent : List AmiMsgPacket := []

namespace Sender

variable (bridge : Sender) (message : Message)

def rxep : Option RxEndpointStuff :=
  bridge.rxepMap.find? (·.epId = message.endpointId)

/-- The packet of a message. That compressing fails is not considered here. -/
def amiMsgPacket (stuff : RxEndpointStuff) (message : Message) : AmiMsgPacket :=
  if stuff.toCompress then .ofCompressed message (bridge.lib.compress message.data)
  else .ofMessage message

/-- The first loop pops what the peer has of the queue. It gives what is left to pop, the length
that is counted down and the queue; `none` waits for a packet. -/
def popPackets : Nat → Int → List AmiMsgPacket → Option (Nat × Int × List AmiMsgPacket)
  | 0, queueLength, queue => some (0, queueLength, queue)
  | popNum + 1, queueLength, queue =>
    if 0 < queueLength then
      match queue with
      | [] => none
      | _ :: queue => popPackets popNum (queueLength - 1) queue
    else
      some (popNum + 1, queueLength, queue)

/-- The second loop takes messages of AMI; `none` waits for a message. -/
def popMessages : Nat → Sender → Option Sender
  | 0, bridge => some bridge
  | popNum + 1, bridge =>
    match bridge.amiRxQueue with
    | [] => none
    | message :: rest =>
      popMessages popNum
        { bridge with amiRxQueue := rest, amiRxMsgCnt := message.totalOrderSeqNum }

def align (recvPacketSqn : Nat) : Option Sender :=
  let popNum := toInt32 (recvPacketSqn - bridge.lastRecvAckSeq)
  let queueLength := toInt32 bridge.tcpPacketsQueue.length
  if popNum < 0 then
    some { bridge with
      recorderRetransmitBegin := (recvPacketSqn + 1) % 2 ^ 32
      recorderRetransmitNum := popNum.natAbs }
  else
    (popPackets popNum.toNat queueLength bridge.tcpPacketsQueue).bind
      fun (popNum, queueLength, queue) =>
        let bridge := { bridge with tcpPacketsQueue := queue }
        if queueLength = 0 then popMessages popNum bridge else some bridge

def handleSyncMsg (recvPacketSqn : Nat) : Option Sender :=
  (bridge.align recvPacketSqn).map fun bridge =>
    { bridge with tcpTxPacketCnt := recvPacketSqn, lastRecvAckSeq := recvPacketSqn }

/-- The recorded messages with the ordinals `begin`, …, `last - 1`. -/
def getRxHistMessage (first last : Nat) : List Message :=
  (bridge.recorder.take (last - 1)).drop (first - 1)

def onRxHistMessage : Sender :=
  match bridge.rxep message with
  | none => bridge
  | some stuff =>
    let packet := { bridge.amiMsgPacket stuff { bridge.fresh with data := message.data } with
      endpointId := message.endpointId
      transportId := message.transportId
      totalSqn := message.totalOrderSeqNum
      partitionNo := bridge.transportPartition message.transportId }
    { bridge with
      tcpPacketsQueue := bridge.tcpPacketsQueue ++ [packet]
      sent := bridge.sent ++ [packet]
      tcpTxPacketCnt := packet.totalSqn
      recorderRetransmitNum := (bridge.recorderRetransmitNum + 2 ^ 32 - 1) % 2 ^ 32 }

def resend (packet : AmiMsgPacket) : Sender :=
  { bridge with
    sent := bridge.sent ++ [packet]
    tcpPacketsQueue := bridge.tcpPacketsQueue ++ [packet]
    tcpTxPacketCnt := packet.totalSqn }

/-- What an earlier connection or `HandleSyncMsg` has left to be read again; the end is a sum of
two `uint32_t`. -/
def leftOver : List Message :=
  if 0 < bridge.recorderRetransmitNum then
    bridge.getRxHistMessage bridge.recorderRetransmitBegin
      ((bridge.recorderRetransmitBegin + bridge.recorderRetransmitNum) % 2 ^ 32)
  else []

def retransmitMsg : Sender :=
  let historyQueue := bridge.tcpPacketsQueue
  let bridge := { bridge with tcpPacketsQueue := bridge.otherQueue, otherQueue := [] }
  let bridge := bridge.leftOver.foldl onRxHistMessage bridge
  historyQueue.foldl resend bridge

/-- One round of the loop in `SendAmiMsg`, with the message of the entry that was taken. -/
def sendMessage : Sender :=
  match bridge.rxep message with
  | none => { bridge with amiRxErrCnt := bridge.amiRxErrCnt + 1 }
  | some stuff =>
    let packet := bridge.amiMsgPacket stuff message
    { bridge with
      amiRxMsgCnt := message.totalOrderSeqNum
      tcpPacketsQueue := bridge.tcpPacketsQueue ++ [packet]
      tcpTxPacketCnt := packet.totalSqn
      sent := bridge.sent ++ [packet] }

def sendAmiMsg : Sender :=
  bridge.amiRxQueue.foldl sendMessage { bridge with amiRxQueue := [] }

/-- A connection on which the peer has announced a number, after the messages `later` have come
from AMI as well. While `HandleSyncMsg` waits, nothing is sent. -/
def connect (recvPacketSqn : Nat) (later : List Message) : List AmiMsgPacket :=
  match handleSyncMsg { bridge with amiRxQueue := bridge.amiRxQueue ++ later, sent := [] }
      recvPacketSqn with
  | none => []
  | some bridge => bridge.retransmitMsg.sendAmiMsg.sent

/-- The messages of AMI are numbered and come from endpoints of the bridge. The packets that the
peer has not acknowledged are `acked + 1`, …, `cached`, messages up to `received` have come from
AMI, and those up to `recorded` are in the recorder. -/
structure Standing (bridge : Sender) (ami : Nat → Message)
    (acked cached received recorded : Nat) : Prop where
  numbered : ∀ number, (ami number).totalOrderSeqNum = number
  known : ∀ number, ∃ stuff, bridge.rxep (ami number) = some stuff
  lastAck : bridge.lastRecvAckSeq = acked
  unacked : bridge.tcpPacketsQueue.map (·.totalSqn) = range' (acked + 1) (cached - acked)
  amiRxQueue : bridge.amiRxQueue = (range' (cached + 1) (received - cached)).map ami
  recorder : bridge.recorder = (range' 1 recorded).map ami
  retransmitNum : bridge.recorderRetransmitNum ≤ 2 ^ 31
  cached_ge : acked ≤ cached
  received_ge : cached ≤ received
  recorded_ge : cached ≤ recorded

/-- However many messages still come, the packets of the connection are the next ones for the
peer. -/
def Continues (ami : Nat → Message) (received recvPacketSqn : Nat) : Prop :=
  ∀ more, (bridge.connect recvPacketSqn ((range' (received + 1) more).map ami)).map
      (·.totalSqn) =
    range' (recvPacketSqn + 1) (received + more - recvPacketSqn)

end Sender

section Loops

open Sender

variable {bridge : Sender}

theorem popPackets_eq (popNum : Nat) {queueLength : Int} {queue : List AmiMsgPacket}
    (enough : queueLength ≤ queue.length) :
    popPackets popNum queueLength queue = some (popNum - min popNum queueLength.toNat,
        queueLength - (min popNum queueLength.toNat : Nat),
        queue.drop (min popNum queueLength.toNat)) := by
  induction popNum generalizing queueLength queue with
  | zero => simp [popPackets]
  | succ popNum ih =>
    rw [popPackets.eq_def]
    dsimp only
    split
    next pos =>
      cases queue with
      | nil => exact absurd enough (Int.not_le.mpr pos)
      | cons packet queue =>
        dsimp only
        have fewer : min (popNum + 1) queueLength.toNat =
            min popNum (queueLength - 1).toNat + 1 := by omega
        rw [length_cons] at enough
        rw [ih (by omega), fewer, drop_succ_cons]
        congr 2
        · omega
        · congr 1
          omega
    next none =>
      have nothing : queueLength.toNat = 0 := Int.toNat_of_nonpos (Int.not_lt.mp none)
      simp [nothing]

variable {popNum : Nat}

theorem popMessages_enough (enough : popNum ≤ bridge.amiRxQueue.length) :
    ∃ count, popMessages popNum bridge = some { bridge with
      amiRxQueue := bridge.amiRxQueue.drop popNum, amiRxMsgCnt := count } := by
  induction popNum generalizing bridge with
  | zero => exact ⟨bridge.amiRxMsgCnt, rfl⟩
  | succ popNum ih =>
    rw [popMessages]
    cases queue : bridge.amiRxQueue with rw [queue] at enough
    | nil => exact absurd enough (Nat.not_succ_le_zero _)
    | cons message rest => exact ih (Nat.le_of_succ_le_succ enough)

theorem popMessages_waits (few : bridge.amiRxQueue.length < popNum) :
    popMessages popNum bridge = none := by
  induction popNum generalizing bridge with
  | zero => exact absurd few (Nat.not_lt_zero _)
  | succ popNum ih =>
    rw [popMessages]
    cases queue : bridge.amiRxQueue with
    | nil => rfl
    | cons message rest =>
      rw [queue] at few
      exact ih (Nat.lt_of_succ_lt_succ few)

structure Sends (bridge after : Sender) (numbers : List Nat) : Prop where
  rxepMap : after.rxepMap = bridge.rxepMap
  amiRxQueue : after.amiRxQueue = bridge.amiRxQueue
  sent : after.sent.map (·.totalSqn) = bridge.sent.map (·.totalSqn) ++ numbers

theorem Sends.trans {middle after : Sender} {first second : List Nat}
    (start : Sends bridge middle first) (rest : Sends middle after second) :
    Sends bridge after (first ++ second) where
  rxepMap := rest.rxepMap.trans start.rxepMap
  amiRxQueue := rest.amiRxQueue.trans start.amiRxQueue
  sent := by rw [rest.sent, start.sent, append_assoc]

theorem sends_foldl {Element : Type} {step : Sender → Element → Sender} {n : Element → Nat}
    {elements : List Element}
    (sends : ∀ element ∈ elements, ∀ before : Sender, before.rxepMap = bridge.rxepMap →
      Sends before (step before element) [n element]) :
    Sends bridge (elements.foldl step bridge) (elements.map n) := by
  induction elements generalizing bridge with
  | nil => exact ⟨rfl, rfl, (append_nil _).symm⟩
  | cons element rest ih =>
    have first := sends element mem_cons_self bridge rfl
    refine first.trans (ih ?_)
    intro later mem before same
    exact sends later (mem_cons_of_mem _ mem) before (same.trans first.rxepMap)

theorem totalSqn_amiMsgPacket (bridge : Sender) (stuff : RxEndpointStuff) (message : Message) :
    (bridge.amiMsgPacket stuff message).totalSqn = message.totalOrderSeqNum := by
  rw [amiMsgPacket]
  split <;> rfl

def Known (bridge : Sender) (message : Message) : Prop :=
  ∃ stuff, bridge.rxep message = some stuff

variable {message : Message}

theorem Known.mono {before : Sender} (known : Known bridge message)
    (same : before.rxepMap = bridge.rxepMap) : Known before message := by
  obtain ⟨stuff, found⟩ := known
  refine ⟨stuff, ?_⟩
  rw [rxep, same]
  exact found

theorem sends_onRxHistMessage (known : Known bridge message) :
    Sends bridge (bridge.onRxHistMessage message) [message.totalOrderSeqNum] := by
  obtain ⟨stuff, found⟩ := known
  rw [onRxHistMessage, found]
  exact ⟨rfl, rfl, map_append⟩

theorem sends_resend (packet : AmiMsgPacket) :
    Sends bridge (bridge.resend packet) [packet.totalSqn] :=
  ⟨rfl, rfl, map_append⟩

theorem sends_sendMessage (known : Known bridge message) :
    Sends bridge (bridge.sendMessage message) [message.totalOrderSeqNum] := by
  obtain ⟨stuff, found⟩ := known
  rw [sendMessage, found]
  refine ⟨rfl, rfl, ?_⟩
  rw [map_append, map_singleton, totalSqn_amiMsgPacket]

theorem sends_retransmitMsg (known : ∀ message ∈ bridge.leftOver, Known bridge message) :
    Sends bridge bridge.retransmitMsg
      (bridge.leftOver.map (·.totalOrderSeqNum) ++ bridge.tcpPacketsQueue.map (·.totalSqn)) := by
  let swapped := { bridge with tcpPacketsQueue := bridge.otherQueue, otherQueue := [] }
  have recorded : Sends swapped (bridge.leftOver.foldl onRxHistMessage swapped)
      (bridge.leftOver.map (·.totalOrderSeqNum)) := by
    apply sends_foldl
    intro message mem before same
    exact sends_onRxHistMessage ((known message mem).mono same)
  have history : Sends (bridge.leftOver.foldl onRxHistMessage swapped) bridge.retransmitMsg
      (bridge.tcpPacketsQueue.map (·.totalSqn)) := by
    apply sends_foldl
    intro packet _ before _
    exact sends_resend packet
  have both := recorded.trans history
  exact { both with }

theorem sent_of_aligned (known : ∀ message ∈ bridge.leftOver ++ bridge.amiRxQueue,
      Known bridge message) (connected : bridge.sent = []) :
    (bridge.retransmitMsg.sendAmiMsg.sent).map (·.totalSqn) =
      bridge.leftOver.map (·.totalOrderSeqNum) ++ (bridge.tcpPacketsQueue.map (·.totalSqn) ++
        bridge.amiRxQueue.map (·.totalOrderSeqNum)) := by
  have retransmitted := sends_retransmitMsg
    fun message mem => known message (mem_append_left _ mem)
  have sends : Sends { bridge.retransmitMsg with amiRxQueue := [] }
      bridge.retransmitMsg.sendAmiMsg (bridge.amiRxQueue.map (·.totalOrderSeqNum)) := by
    rw [sendAmiMsg, retransmitted.amiRxQueue]
    apply sends_foldl
    intro message mem before same
    exact sends_sendMessage
      ((known message (mem_append_right _ mem)).mono (same.trans retransmitted.rxepMap))
  rw [sends.sent, retransmitted.sent, connected, map_nil, nil_append, append_assoc]

end Loops

section RetransmitNum

open Sender

variable {bridge after : Sender}

theorem retransmitNum_popMessages {popNum : Nat} (went : popMessages popNum bridge = some after) :
    after.recorderRetransmitNum = bridge.recorderRetransmitNum := by
  induction popNum generalizing bridge with
  | zero =>
    cases went
    rfl
  | succ popNum ih =>
    rw [popMessages] at went
    split at went
    next => cases went
    next => exact (ih went :)

/-- `HandleSyncMsg` and `RetransmitMsg` keep `Standing.retransmitNum`. -/
theorem retransmitNum_handleSyncMsg {recvPacketSqn : Nat}
    (small : bridge.recorderRetransmitNum ≤ 2 ^ 31)
    (went : bridge.handleSyncMsg recvPacketSqn = some after) :
    after.recorderRetransmitNum ≤ 2 ^ 31 := by
  obtain ⟨aligned, aligns, rfl⟩ := Option.map_eq_some_iff.mp went
  rw [align] at aligns
  split at aligns
  next =>
    cases aligns
    have bounds := toInt32_bounds (recvPacketSqn - bridge.lastRecvAckSeq)
    dsimp only
    omega
  next =>
    obtain ⟨⟨popNum, queueLength, queue⟩, _, popped⟩ := Option.bind_eq_some_iff.mp aligns
    dsimp only at popped
    split at popped
    next => exact (retransmitNum_popMessages popped).trans_le small
    next =>
      cases popped
      exact small

theorem retransmitNum_foldl {messages : List Message}
    (enough : messages.length ≤ bridge.recorderRetransmitNum)
    (small : bridge.recorderRetransmitNum ≤ 2 ^ 31) :
    (messages.foldl onRxHistMessage bridge).recorderRetransmitNum ≤ 2 ^ 31 := by
  induction messages generalizing bridge with
  | nil => exact small
  | cons message rest ih =>
    rw [length_cons] at enough
    rw [foldl_cons, onRxHistMessage]
    split
    next => exact ih (Nat.le_of_succ_le enough) small
    next => exact ih (by dsimp only; omega) (by dsimp only; omega)

theorem retransmitNum_retransmitMsg (small : bridge.recorderRetransmitNum ≤ 2 ^ 31) :
    bridge.retransmitMsg.recorderRetransmitNum ≤ 2 ^ 31 := by
  have resent (packets : List AmiMsgPacket) (before : Sender) :
      (packets.foldl resend before).recorderRetransmitNum = before.recorderRetransmitNum := by
    induction packets generalizing before with
    | nil => rfl
    | cons packet rest ih => exact ih _
  rw [retransmitMsg, resent]
  refine retransmitNum_foldl ?_ small
  rw [leftOver]
  split
  next =>
    rw [getRxHistMessage, length_drop, length_take]
    dsimp only
    omega
  next => exact Nat.zero_le _

end RetransmitNum

section Alignment

open Sender

variable {bridge : Sender} {ami : Nat → Message} {acked cached received recorded : Nat}

theorem take_range' (first count most : Nat) :
    (range' first count).take most = range' first (min most count) := by
  by_cases short : count ≤ most
  · rw [take_range'_of_length_le short, Nat.min_eq_right short]
  · have long := Nat.le_of_not_le short
    rw [take_range'_of_length_ge long, Nat.min_eq_left long]

theorem getRxHistMessage_eq (recorder : bridge.recorder = (range' 1 recorded).map ami)
    (first last : Nat) : bridge.getRxHistMessage first last =
      (range' (1 + (first - 1)) (min (last - 1) recorded - (first - 1))).map ami := by
  rw [getRxHistMessage, recorder, ← map_take, ← map_drop, take_range',
    drop_range', Nat.mul_one]

theorem leftOver_eq (recorder : bridge.recorder = (range' 1 recorded).map ami) :
    ∃ first count, bridge.leftOver = (range' first count).map ami ∧
      count ≤ bridge.recorderRetransmitNum ∧ (bridge.recorderRetransmitNum ≠ 0 →
        first = 1 + (bridge.recorderRetransmitBegin - 1) ∧
        count = min ((bridge.recorderRetransmitBegin + bridge.recorderRetransmitNum) % 2 ^ 32 - 1)
          recorded - (bridge.recorderRetransmitBegin - 1)) := by
  rw [leftOver]
  split
  next =>
    refine ⟨_, _, getRxHistMessage_eq recorder _ _, ?_, fun _ => ⟨rfl, rfl⟩⟩
    omega
  next none => exact ⟨0, 0, rfl, Nat.zero_le _, fun some => absurd (Nat.pos_of_ne_zero some) none⟩

namespace Sender.Standing

theorem numbers (standing : Standing bridge ami acked cached received recorded)
    (numbers : List Nat) : (numbers.map ami).map (·.totalOrderSeqNum) = numbers := by
  rw [map_map]
  conv => rhs; rw [← map_id numbers]
  exact map_congr_left fun n _ => standing.numbered n

variable {first count : Nat}

section

variable (standing : Standing bridge ami acked cached received recorded)
include standing

theorem sent {aligned : Sender} {next left : Nat} {queue : List Nat}
    (rxepMap : aligned.rxepMap = bridge.rxepMap) (connected : aligned.sent = [])
    (leftOver : aligned.leftOver = (range' first count).map ami)
    (unacked : aligned.tcpPacketsQueue.map (·.totalSqn) = queue)
    (amiRxQueue : aligned.amiRxQueue = (range' next left).map ami) :
    aligned.retransmitMsg.sendAmiMsg.sent.map (·.totalSqn) =
      range' first count ++ (queue ++ range' next left) := by
  have known : ∀ message ∈ aligned.leftOver ++ aligned.amiRxQueue, Known aligned message := by
    intro message mem
    rw [leftOver, amiRxQueue, ← map_append] at mem
    obtain ⟨n, _, rfl⟩ := mem_map.mp mem
    have known : Known bridge (ami n) := standing.known n
    exact known.mono rxepMap
  rw [sent_of_aligned known connected, leftOver, unacked, amiRxQueue, standing.numbers,
    standing.numbers]

theorem arrived (more : Nat) : bridge.amiRxQueue ++ (range' (received + 1) more).map ami =
      (range' (cached + 1) (received + more - cached)).map ami := by
  have behind : received + 1 = cached + 1 + (received - cached) := by
    have ahead := standing.received_ge
    omega
  have length : received + more - cached = received - cached + more := by
    omega
  rw [standing.amiRxQueue, ← map_append, behind, range'_append_1, length]

theorem length : bridge.tcpPacketsQueue.length = cached - acked := by
  have numbers := congrArg List.length standing.unacked
  rwa [List.length_map, List.length_range'] at numbers

theorem queueLength : toInt32 bridge.tcpPacketsQueue.length = toInt32 (cached - acked) := by
  rw [standing.length, Int.ofNat_sub standing.cached_ge]

end

variable {recvPacketSqn popNum : Nat}

variable {popped more : Nat}

section

variable (standing : Standing bridge ami acked cached received recorded)
include standing

theorem connect_fast {last : Nat} (fast : toInt32 (recvPacketSqn - acked) = -popNum)
    (some : 0 < popNum) (begins : (recvPacketSqn + 1) % 2 ^ 32 = first)
    (ends : (first + popNum) % 2 ^ 32 = last) (more : Nat) :
    (bridge.connect recvPacketSqn ((range' (received + 1) more).map ami)).map (·.totalSqn) =
      range' (1 + (first - 1)) (min (last - 1) recorded - (first - 1)) ++
        (range' (acked + 1) (cached - acked) ++
          range' (cached + 1) (received + more - cached)) := by
  rw [connect, handleSyncMsg, align, standing.arrived more]
  rw [standing.lastAck, fast, if_pos (by omega), Int.natAbs_neg, Int.natAbs_natCast, begins]
  refine standing.sent rfl rfl ?_ standing.unacked rfl
  rw [leftOver]
  rw [if_pos some, ends]
  exact getRxHistMessage_eq standing.recorder first last

theorem connect_level {taken : Nat} {queueLength : Int}
    (level : toInt32 (recvPacketSqn - acked) = popNum)
    (length : toInt32 (cached - acked) = queueLength) (fits : queueLength ≤ (cached - acked : Nat))
    (pops : min popNum queueLength.toNat = popped)
    (takes : (if queueLength - popped = 0 then popNum - popped else 0) = taken)
    (leftOver : bridge.leftOver = (range' first count).map ami)
    (enough : taken ≤ received + more - cached) :
    (bridge.connect recvPacketSqn ((range' (received + 1) more).map ami)).map (·.totalSqn) =
      range' first count ++ (range' (acked + 1 + popped) (cached - acked - popped) ++
        range' (cached + 1 + taken) (received + more - cached - taken)) := by
  have queue : (bridge.tcpPacketsQueue.drop popped).map (·.totalSqn) =
      range' (acked + 1 + popped) (cached - acked - popped) := by
    rw [map_drop, standing.unacked, drop_range', Nat.mul_one]
  rw [← standing.lastAck] at level
  rw [connect, handleSyncMsg, align, standing.arrived more]
  rw [level, standing.queueLength, length, if_neg (by omega), Int.toNat_natCast,
    popPackets_eq popNum (by rw [standing.length]; exact fits), pops, Option.bind_some]
  dsimp only
  split at takes
  next empty =>
    rw [if_pos empty]
    subst taken
    have room : popNum - popped ≤
        ((range' (cached + 1) (received + more - cached)).map ami).length := by
      rw [List.length_map, List.length_range']
      exact enough
    obtain ⟨count, popped⟩ := @popMessages_enough { bridge with
      amiRxQueue := (range' (cached + 1) (received + more - cached)).map ami
      tcpPacketsQueue := bridge.tcpPacketsQueue.drop popped
      sent := [] } (popNum - popped) room
    rw [popped, Option.map_some]
    refine standing.sent rfl rfl leftOver queue ?_
    rw [← map_drop, drop_range', Nat.mul_one]
  next waits =>
    rw [if_neg waits]
    subst taken
    exact standing.sent rfl rfl leftOver queue rfl

theorem connect_waits {queueLength : Int} (level : toInt32 (recvPacketSqn - acked) = popNum)
    (length : toInt32 (cached - acked) = queueLength) (fits : queueLength ≤ (cached - acked : Nat))
    (pops : min popNum queueLength.toNat = popped) (empty : queueLength - popped = 0)
    (few : received + more - cached < popNum - popped) :
    bridge.connect recvPacketSqn ((range' (received + 1) more).map ami) = [] := by
  have room : ((range' (cached + 1) (received + more - cached)).map ami).length <
      popNum - popped := by
    rw [List.length_map, List.length_range']
    exact few
  rw [← standing.lastAck] at level
  rw [connect, handleSyncMsg, align, standing.arrived more]
  rw [level, standing.queueLength, length, if_neg (by omega), Int.toNat_natCast,
    popPackets_eq popNum (by rw [standing.length]; exact fits), pops, Option.bind_some]
  dsimp only
  rw [if_pos empty]
  have waits := @popMessages_waits { bridge with
    amiRxQueue := (range' (cached + 1) (received + more - cached)).map ami
    tcpPacketsQueue := bridge.tcpPacketsQueue.drop popped
    sent := [] } (popNum - popped) room
  rw [waits]
  rfl

end

end Sender.Standing

/-- When the packets of the connection are the right ones. Where the bridge has had more
acknowledged than the peer has, the numbers have to fit into the `uint32_t` of the range;
otherwise there must be nothing left from an earlier range, and the lengths fit into `int32_t`. -/
def Sender.Aligned (bridge : Sender) (acked cached recvPacketSqn : Nat) : Prop :=
  (recvPacketSqn < acked ∧ acked + 1 < 2 ^ 32 ∧ acked - recvPacketSqn ≤ 2 ^ 31) ∨
    (acked ≤ recvPacketSqn ∧ recvPacketSqn - acked < 2 ^ 31 ∧ bridge.leftOver = [] ∧
      (cached - acked < 2 ^ 31 ∨
        recvPacketSqn - acked ≤ (toInt32 ((cached : Int) - acked)).toNat))

variable {first next more total : Nat}

theorem range'_join {count : Nat} (behind : next = first + count) (length : total = count + more) :
    range' first count ++ range' next more = range' first total := by
  rw [behind, length, range'_append_1]

variable {recvPacketSqn : Nat}

theorem continues_of_fast (standing : Standing bridge ami acked cached received recorded)
    (lacks : recvPacketSqn < acked) (fits : acked + 1 < 2 ^ 32)
    (near : acked - recvPacketSqn ≤ 2 ^ 31) : bridge.Continues ami received recvPacketSqn := by
  intro more
  have cached_ge := standing.cached_ge
  have received_ge := standing.received_ge
  have recorded_ge := standing.recorded_ge
  have fast : toInt32 (recvPacketSqn - acked) = -(acked - recvPacketSqn : Nat) := by
    rw [toInt32_of_small (by omega) (by omega)]
    omega
  have begins : (recvPacketSqn + 1) % 2 ^ 32 = recvPacketSqn + 1 := Nat.mod_eq_of_lt (by omega)
  have ends : (recvPacketSqn + 1 + (acked - recvPacketSqn)) % 2 ^ 32 = acked + 1 := by
    omega
  have first : 1 + (recvPacketSqn + 1 - 1) = recvPacketSqn + 1 := by omega
  have rest : range' (acked + 1) (cached - acked) ++
      range' (cached + 1) (received + more - cached) =
        range' (acked + 1) (received + more - acked) := range'_join (by omega) (by omega)
  rw [standing.connect_fast fast (by omega) begins ends, first, rest]
  exact range'_join (by omega) (by omega)

theorem toInt32_length {length : Nat} : toInt32 length < 2 ^ 31 ∧ toInt32 length ≤ length ∧
      (length < 2 ^ 31 → toInt32 length = length) := by
  have bounds := toInt32_bounds length
  have short (small : length < 2 ^ 31) : toInt32 length = length :=
    toInt32_of_small (by omega) (by omega)
  refine ⟨bounds.2, ?_, short⟩
  by_cases small : length < 2 ^ 31
  · exact Int.le_of_eq (short small)
  · omega

theorem continues_of_level (standing : Standing bridge ami acked cached received recorded)
    (has : acked ≤ recvPacketSqn) (near : recvPacketSqn - acked < 2 ^ 31)
    (nothing : bridge.leftOver = []) (fits : cached - acked < 2 ^ 31 ∨
      recvPacketSqn - acked ≤ (toInt32 ((cached : Int) - acked)).toNat) :
    bridge.Continues ami received recvPacketSqn := by
  intro more
  have cached_ge := standing.cached_ge
  have received_ge := standing.received_ge
  have level : toInt32 (recvPacketSqn - acked) = (recvPacketSqn - acked : Nat) := by
    rw [toInt32_of_small (by omega) (by omega)]
    omega
  obtain ⟨_, queueLength_le, whole⟩ := @toInt32_length (cached - acked)
  rw [Int.ofNat_sub cached_ge] at queueLength_le whole
  generalize length : toInt32 ((cached : Int) - acked) = queueLength at *
  rw [← Int.ofNat_sub cached_ge] at queueLength_le whole
  generalize pops : min (recvPacketSqn - acked) queueLength.toNat = popped
  generalize takes : (if queueLength - popped = 0 then recvPacketSqn - acked - popped else 0) = taken
  -- messages are taken only after all the packets
  have next : acked + popped + taken = recvPacketSqn := by
    split at takes <;> omega
  have whole : popped = cached - acked ∨ taken = 0 := by
    split at takes
    next => omega
    next => exact .inr takes.symm
  by_cases enough : taken ≤ received + more - cached
  · have nothing : bridge.leftOver = (range' 0 0).map ami := nothing
    rw [standing.connect_level level length queueLength_le pops takes nothing enough]
    have rest : range' (acked + 1 + popped) (cached - acked - popped) ++
        range' (cached + 1 + taken) (received + more - cached - taken) =
          range' (recvPacketSqn + 1) (received + more - recvPacketSqn) := by
      cases whole with
      | inl all =>
        have none : cached - acked - popped = 0 := by omega
        have first : cached + 1 + taken = recvPacketSqn + 1 := by omega
        have count : received + more - cached - taken = received + more - recvPacketSqn := by
          omega
        rw [none, first, count]
        rfl
      | inr none =>
        have first : acked + 1 + popped = recvPacketSqn + 1 := by omega
        rw [none, first]
        exact range'_join (by omega) (by omega)
    exact rest
  · have nothing : received + more - recvPacketSqn = 0 := by omega
    have empty : queueLength - popped = 0 := by
      split at takes
      next empty => exact empty
      next => omega
    rw [standing.connect_waits level length queueLength_le pops empty (by omega), nothing]
    rfl

theorem range'_part (before : List Nat) {after : List Nat}
    (same : before ++ (range' next more ++ after) = range' first total) (some : 0 < more) :
    next = first + before.length := by
  have inside : before.length < total := by
    have length := congrArg List.length same
    simp only [List.length_append, List.length_range'] at length
    omega
  have entry := congrArg (fun numbers => numbers[before.length]?) same
  rw [getElem?_append_right .refl, Nat.sub_self,
    getElem?_append_left (by rw [List.length_range']; exact some),
    getElem?_range' some, getElem?_range' inside] at entry
  have equal := Option.some.inj entry
  omega

section

variable (standing : Standing bridge ami acked cached received recorded)
  (continues : bridge.Continues ami received recvPacketSqn)
include standing continues

theorem fast_of_continues (fast : toInt32 (recvPacketSqn - acked) < 0) :
    recvPacketSqn < acked ∧ acked + 1 < 2 ^ 32 ∧ acked - recvPacketSqn ≤ 2 ^ 31 := by
  have cached_ge := standing.cached_ge
  have received_ge := standing.received_ge
  obtain ⟨popNum, backs⟩ : ∃ popNum : Nat, toInt32 (recvPacketSqn - acked) = -popNum :=
    ⟨(toInt32 (recvPacketSqn - acked)).natAbs, by omega⟩
  generalize begins : (recvPacketSqn + 1) % 2 ^ 32 = first
  generalize ends : (first + popNum) % 2 ^ 32 = last
  -- enough messages to compare the numbers
  have sends := standing.connect_fast backs (by omega) begins ends (recvPacketSqn + 1)
  rw [continues (recvPacketSqn + 1)] at sends
  have lengths := congrArg List.length sends
  simp only [List.length_append, List.length_range'] at lengths
  have lacks : recvPacketSqn < acked := by
    have differ : recvPacketSqn ≠ acked := by
      intro same
      rw [same, Int.sub_self] at fast
      exact absurd fast (by decide)
    omega
  have starts : 1 + (first - 1) = recvPacketSqn + 1 := range'_part [] sends.symm (by omega)
  have near : -2 ^ 31 ≤ (recvPacketSqn : Int) - acked := by
    have wraps : toInt32 (recvPacketSqn - acked) = toInt32 (recvPacketSqn - acked + 2 ^ 32) := by
      exact (Int.add_bmod_right _ _).symm
    by_cases far : (recvPacketSqn : Int) - acked < -2 ^ 31
    · rw [wraps, toInt32_of_small (by omega) (by omega)] at fast
      omega
    · omega
  omega

theorem level_of_continues (level : 0 ≤ toInt32 (recvPacketSqn - acked)) :
    acked ≤ recvPacketSqn ∧ recvPacketSqn - acked < 2 ^ 31 ∧ bridge.leftOver = [] ∧
      (cached - acked < 2 ^ 31 ∨
        recvPacketSqn - acked ≤ (toInt32 ((cached : Int) - acked)).toNat) := by
  have cached_ge := standing.cached_ge
  have received_ge := standing.received_ge
  have bounds := toInt32_bounds (recvPacketSqn - acked)
  obtain ⟨popNum, pops⟩ : ∃ popNum : Nat, toInt32 (recvPacketSqn - acked) = popNum :=
    ⟨(toInt32 (recvPacketSqn - acked)).toNat, by omega⟩
  obtain ⟨queueLength_lt, queueLength_le, _⟩ := @toInt32_length (cached - acked)
  rw [Int.ofNat_sub cached_ge] at queueLength_lt queueLength_le
  generalize length : toInt32 ((cached : Int) - acked) = queueLength at *
  rw [← Int.ofNat_sub cached_ge] at queueLength_le
  obtain ⟨first, count, leftOver, count_le, _⟩ := leftOver_eq standing.recorder
  have count_le := count_le.trans standing.retransmitNum
  generalize poppedEq : min popNum queueLength.toNat = popped
  generalize takes : (if queueLength - popped = 0 then popNum - popped else 0) = taken
  have taken_le : taken ≤ popNum - popped := by
    split at takes <;> omega
  -- enough messages to compare the numbers
  have enough : taken ≤ received + (recvPacketSqn + 2 ^ 31) - cached := by omega
  have sends := standing.connect_level pops length queueLength_le poppedEq takes leftOver enough
  rw [continues (recvPacketSqn + 2 ^ 31)] at sends
  have lengths := congrArg List.length sends
  simp only [List.length_append, List.length_range'] at lengths
  have near : toInt32 (recvPacketSqn - acked) = (recvPacketSqn : Int) - acked := by
    apply toInt32_of_small
    all_goals omega
  have none : count = 0 ∧ recvPacketSqn = acked + popped + taken := by
    split at takes <;> omega
  rw [none.1] at leftOver
  refine ⟨by omega, by omega, leftOver, ?_⟩
  by_cases rest : 0 < cached - acked - popped
  · have starts := range'_part _ sends.symm rest
    omega
  · omega

end

/-- The packets that are sent on the connection are the next ones for the peer exactly if the
bridge is aligned. -/
theorem continues_iff (standing : Standing bridge ami acked cached received recorded)
    (recvPacketSqn : Nat) :
    bridge.Continues ami received recvPacketSqn ↔ bridge.Aligned acked cached recvPacketSqn := by
  constructor
  · intro continues
    by_cases fast : toInt32 (recvPacketSqn - acked) < 0
    · exact .inl (fast_of_continues standing continues fast)
    · exact .inr (level_of_continues standing continues (Int.not_lt.mp fast))
  · intro aligned
    cases aligned with
    | inl lacks =>
      obtain ⟨lacks, fits, near⟩ := lacks
      exact continues_of_fast standing lacks fits near
    | inr has =>
      obtain ⟨has, near, nothing, fits⟩ := has
      exact continues_of_level standing has near nothing fits

def quoteAt (number : Nat) : Message := { quoteMessage with totalOrderSeqNum := number }

/-- A leader that has had all its packets acknowledged, and what is left of an earlier range. -/
def quoteLeader (acked retransmitBegin retransmitNum : Nat) : Sender where
  lib := markLib
  fresh := { quoteMessage with ancestorId := 0, data := [] }
  rxepMap := [⟨3, "Quote", true⟩]
  transportPartition _ := 1
  tcpPacketsQueue := []
  otherQueue := []
  amiRxQueue := []
  recorder := (range' 1 acked).map quoteAt
  amiRxMsgCnt := acked
  amiRxErrCnt := 0
  tcpTxPacketCnt := acked
  lastRecvAckSeq := acked
  recorderRetransmitNum := retransmitNum
  recorderRetransmitBegin := retransmitBegin

theorem standing_quoteLeader (acked retransmitBegin : Nat) {retransmitNum : Nat}
    (le : retransmitNum ≤ 2 ^ 31) :
    (quoteLeader acked retransmitBegin retransmitNum).Standing quoteAt acked acked acked acked where
  numbered _ := rfl
  known _ := ⟨⟨3, "Quote", true⟩, rfl⟩
  lastAck := rfl
  unacked := by rw [Nat.sub_self]; rfl
  amiRxQueue := by rw [Nat.sub_self]; rfl
  recorder := rfl
  retransmitNum := le
  cached_ge := .refl
  received_ge := .refl
  recorded_ge := .refl

theorem continues_quoteLeader : (quoteLeader 5 0 0).Continues quoteAt 5 3 :=
  (continues_iff (standing_quoteLeader 5 0 (by decide)) 3).mpr (.inl (by decide))

/-- The number behind the one of the peer does not fit into `recorder_retransmit_begin_`, and the
message is not sent; a range of an earlier connection is sent once more. -/
theorem leader_breaks_off : ¬ (quoteLeader (2 ^ 32) 0 0).Continues quoteAt (2 ^ 32) (2 ^ 32 - 1) ∧
      ¬ (quoteLeader 2 1 1).Continues quoteAt 2 2 := by
  constructor
  · intro continues
    have fast : toInt32 ((2 ^ 32 - 1 : Nat) - (2 ^ 32 : Nat)) = -(1 : Nat) := by decide
    have sends := (standing_quoteLeader (2 ^ 32) 0 (Nat.zero_le _)).connect_fast fast
      (by decide) rfl rfl 0
    have lengths := congrArg List.length ((continues 0).symm.trans sends)
    simp only [List.length_append, List.length_range'] at lengths
    omega
  · intro continues
    exact absurd (continues 0) (by decide)

end Alignment

end AdkAaf.AmiBridge
