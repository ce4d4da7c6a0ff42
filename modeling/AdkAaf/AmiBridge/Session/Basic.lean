import AdkAaf.AmiBridge.Failover

/-! Two single-node leaders with a common session that lose their connection and make a new one.
One bridge sends what comes from its AMI, the other one hands it to its own AMI; the other
direction is the same with the bridges exchanged, and it shares none of these counters.

Each access to what threads share is a step. A message and its packet are given by their number.
`CheckEndpoints` succeeds, as both sides know the endpoints. -/

set_option autoImplicit false

namespace AdkAaf.AmiBridge.Session

open Adk.IoEngine (toInt32)

inductive TcpStatus where
  | kBroken
  | kConnecting
  | kConnected
  deriving DecidableEq

inductive Request where
  | peerSync
  | amiPacket (totalSqn : Nat)

inductive Reply where
  | peerSync (recvPacketSqn : Nat)
  | tcpAck (recvPacketSqn : Nat)

inductive RepMsg where
  | localSync
  | amiPacket (totalSqn : Nat)

/-- `OnRun` with `SyncLocalSession`, `SyncPeerSession` and `RetransmitMsg`; `recorder` has the
messages that are still to come from the recorder. -/
inductive RunPc where
  | onRun
  | join
  | close
  | syncLocalSession
  | connecting
  | syncPeerSession
  | waitPeerSync
  | swap
  | recorder (left : List Nat)
  | recorderSend (number : Nat) (left : List Nat)
  | history
  | resend (number : Nat)
  | push (number : Nat)

/-- `SendAmiMsg`. -/
inductive SendPc where
  | away
  | loop
  | waitEntry
  | push (number : Nat)
  | freeEntry (number : Nat)
  | send (number : Nat)
  deriving DecidableEq

/-- `TcpMessageHandler::OnMessage`; `handleSyncMsg` is at the loops of `HandleSyncMsg`. -/
inductive TcpPc where
  | idle
  | handleSyncMsg (recvPacketSqn : Nat) (popNum queueLength : Int)
  | finish
  | handleAckMsg (recvPacketSqn : Nat) (num : Int)
  deriving DecidableEq

/-- `received` is the number of the last message that came from AMI, and `popped` are the packets
that the TCP thread has taken from the queue. -/
structure SendSide where
  received : Nat := 0
  recorder : List Nat := []
  amiRxQueue : List Nat := []
  amiRxMsgCnt : Nat := 0
  tcpPacketsQueue : List Nat := []
  otherQueue : List Nat := []
  tcpTxPacketCnt : Nat := 0
  lastRecvAckSeq : Nat := 0
  recorderRetransmitNum : Nat := 0
  recorderRetransmitBegin : Nat := 0
  tcpStat : TcpStatus := .kBroken
  peerSyncFinish : Bool := false
  run : RunPc := .onRun
  send : SendPc := .away
  tcp : TcpPc := .idle
  popped : List Nat := []

inductive PeerRunPc where
  | onRun
  | join
  | close
  | syncLocalSession
  | waitLocalSync
  | connecting
  | syncPeerSession
  | sendPeerSync (amiTxMsgCnt : Nat)
  | waitPeerSync
  deriving DecidableEq

/-- `BridgeTierChannelHandler::OnMessage`. -/
inductive TierPc where
  | idle
  | newMessage (number : Nat)
  | count (number : Nat)

def TierPc.hands : TierPc → Bool
  | .newMessage _ => true
  | _ => false

/-- `SendAckMsg`. -/
inductive AckPc where
  | away
  | loop
  | read
  | send (amiTxMsgCnt : Nat)
  deriving DecidableEq

/-- `handed` are the messages that were given to AMI, and `unexpected` says whether a packet was
taken for a lost or a resent one. -/
structure ReceiveSide where
  tierQueue : List RepMsg := []
  tierRxPacketCnt : Nat := 0
  amiTxMsgCnt : Nat := 0
  localSyncFinish : Bool := false
  tcpStat : TcpStatus := .kBroken
  peerSyncFinish : Bool := false
  run : PeerRunPc := .onRun
  tier : TierPc := .idle
  ack : AckPc := .away
  handed : List Nat := []
  unexpected : Bool := false

/-- The two bridges and the connection, with what is in flight to each of them. -/
structure State where
  up : Bool := false
  toSender : List Reply := []
  toReceiver : List Request := []
  sender : SendSide := {}
  receiver : ReceiveSide := {}

/-- What becomes of a packet that is not refused: there may be no memory, the payload may not be
decompressed, and the partition may be zero. -/
inductive Outcome where
  | newMessageFails
  | decompressFails
  | partitionZero
  | sendMsg
  deriving DecidableEq

namespace State

variable (state : State)

def connect : Option State :=
  if state.sender.tcpStat = .kConnecting ∧ state.receiver.tcpStat = .kConnecting then
    some { state with
      up := true
      toSender := []
      toReceiver := []
      sender := { state.sender with tcpStat := .kConnected }
      receiver := { state.receiver with tcpStat := .kConnected } }
  else
    none

def breaks (toSender toReceiver : Nat) : State :=
  { state with
    up := false
    toSender := state.toSender.take toSender
    toReceiver := state.toReceiver.take toReceiver }

def sendRequest (request : Request) : List Request :=
  if state.up then state.toReceiver ++ [request] else state.toReceiver

def sendReply (reply : Reply) : List Reply :=
  if state.up then state.toSender ++ [reply] else state.toSender

def senderOnEvent : Option State :=
  if state.up then none
  else some { state with sender := { state.sender with tcpStat := .kBroken } }

def receiverOnEvent : Option State :=
  if state.up then none
  else some { state with receiver := { state.receiver with tcpStat := .kBroken } }

/-- `AmiBridge::OnMessage`; AMI numbers its messages one by one, and the recorder has them all. -/
def onMessage (state : State) : State :=
  let sender := state.sender
  { state with
    sender := { sender with
      received := sender.received + 1
      recorder := sender.recorder ++ [sender.received + 1]
      amiRxQueue := sender.amiRxQueue ++ [sender.received + 1] } }

/-- What `RetransmitMsg` reads from the recorder. -/
def leftOver (sender : SendSide) : List Nat :=
  if 0 < sender.recorderRetransmitNum then
    (sender.recorder.take ((sender.recorderRetransmitBegin + sender.recorderRetransmitNum) % 2 ^ 32 -
      1)).drop (sender.recorderRetransmitBegin - 1)
  else []

def runStep : Option State :=
  let sender := state.sender
  match sender.run with
  | .onRun =>
    if sender.tcpStat = .kBroken then some { state with sender := { sender with run := .join } }
    else none
  | .join =>
    if sender.send = .away then
      some { state with sender := { sender with peerSyncFinish := false, run := .close } }
    else none
  | .close =>
    -- a callback of the endpoint ends before `Close` returns
    if sender.tcp = .idle then
      some { state with
        up := false
        toSender := []
        sender := { sender with run := .syncLocalSession } }
    else none
  | .syncLocalSession => some { state with
      sender := { sender with
        peerSyncFinish := false
        tcpStat := .kConnecting
        run := .connecting } }
  | .connecting =>
    match sender.tcpStat with
    | .kConnecting => none
    | .kConnected => some { state with sender := { sender with run := .syncPeerSession } }
    | .kBroken => some { state with sender := { sender with run := .onRun } }
  | .syncPeerSession => some { state with
      toReceiver := state.sendRequest .peerSync
      sender := { sender with run := .waitPeerSync } }
  | .waitPeerSync =>
    if sender.peerSyncFinish ∧ sender.tcpStat = .kConnected then
      some { state with sender := { sender with run := .swap } }
    else if sender.tcpStat = .kConnected then none
    else some { state with sender := { sender with run := .onRun } }
  | .swap => some { state with
      sender := { sender with
        tcpPacketsQueue := sender.otherQueue
        otherQueue := sender.tcpPacketsQueue
        run := .recorder (leftOver sender) } }
  | .recorder [] => some { state with sender := { sender with run := .history } }
  | .recorder (number :: left) => some { state with
      sender := { sender with
        tcpPacketsQueue := sender.tcpPacketsQueue ++ [number]
        run := .recorderSend number left } }
  | .recorderSend number left => some { state with
      toReceiver := state.sendRequest (.amiPacket number)
      sender := { sender with
        tcpTxPacketCnt := number
        recorderRetransmitNum := (sender.recorderRetransmitNum + 2 ^ 32 - 1) % 2 ^ 32
        run := .recorder left } }
  | .history =>
    match sender.otherQueue with
    | [] => some { state with sender := { sender with run := .onRun, send := .loop } }
    | number :: queue =>
      some { state with sender := { sender with otherQueue := queue, run := .resend number } }
  | .resend number => some { state with
      toReceiver := state.sendRequest (.amiPacket number)
      sender := { sender with run := .push number } }
  | .push number => some { state with
      sender := { sender with
        tcpPacketsQueue := sender.tcpPacketsQueue ++ [number]
        tcpTxPacketCnt := number
        run := .history } }

def sendStep : Option State :=
  let sender := state.sender
  match sender.send with
  | .away => none
  | .loop =>
    if sender.tcpStat = .kConnected then
      some { state with sender := { sender with send := .waitEntry } }
    else
      some { state with sender := { sender with send := .away } }
  | .waitEntry =>
    match sender.amiRxQueue with
    | [] => some { state with sender := { sender with send := .loop } }
    | number :: _ => some { state with
        sender := { sender with amiRxMsgCnt := number, send := .push number } }
  | .push number => some { state with
      sender := { sender with
        tcpPacketsQueue := sender.tcpPacketsQueue ++ [number]
        send := .freeEntry number } }
  | .freeEntry number => some { state with
      sender := { sender with
        amiRxQueue := sender.amiRxQueue.tail
        tcpTxPacketCnt := number
        send := .send number } }
  | .send number => some { state with
      toReceiver := state.sendRequest (.amiPacket number)
      sender := { sender with send := .loop } }

/-- `Compress` throws, or `Send` finds the connection broken. -/
def sendFails : Option State :=
  let sender := state.sender
  match sender.send with
  | .push _ => some { state with sender := { sender with send := .away } }
  | .send _ =>
    if sender.tcpStat = .kConnected then none
    else some { state with sender := { sender with send := .away } }
  | _ => none

/-- The loops of `HandleSyncMsg`, and the breakpoints behind them. -/
def popDuplicate (sender : SendSide) (recvPacketSqn : Nat) (popNum queueLength : Int) :
    Option SendSide :=
  if 0 < popNum ∧ 0 < queueLength then
    match sender.tcpPacketsQueue with
    | [] => none
    | number :: queue => some { sender with
        tcpPacketsQueue := queue
        popped := sender.popped ++ [number]
        tcp := .handleSyncMsg recvPacketSqn (popNum - 1) (queueLength - 1) }
  else if 0 < popNum ∧ queueLength = 0 then
    match sender.amiRxQueue with
    | [] => none
    | number :: queue => some { sender with
        amiRxQueue := queue
        amiRxMsgCnt := number
        tcp := .handleSyncMsg recvPacketSqn (popNum - 1) queueLength }
  else
    some { sender with
      tcpTxPacketCnt := recvPacketSqn
      lastRecvAckSeq := recvPacketSqn
      tcp := .finish }

/-- Up to the loops of `HandleSyncMsg`; they are left out when the number is below the last one. -/
def handleSyncMsg (sender : SendSide) (recvPacketSqn : Nat) : SendSide :=
  let popNum := toInt32 (recvPacketSqn - sender.lastRecvAckSeq)
  let queueLength := toInt32 sender.tcpPacketsQueue.length
  if popNum < 0 then
    { sender with
      recorderRetransmitBegin := (recvPacketSqn + 1) % 2 ^ 32
      recorderRetransmitNum := popNum.natAbs
      tcp := .handleSyncMsg recvPacketSqn 0 queueLength }
  else
    { sender with tcp := .handleSyncMsg recvPacketSqn popNum queueLength }

/-- The loop of `HandleAckMsg`, and the number behind it. -/
def popAcknowledged (sender : SendSide) (recvPacketSqn : Nat) (num : Int) : Option SendSide :=
  if 0 < num then
    match sender.tcpPacketsQueue with
    | [] => none
    | number :: queue => some { sender with
        tcpPacketsQueue := queue
        popped := sender.popped ++ [number]
        tcp := .handleAckMsg recvPacketSqn (num - 1) }
  else
    some { sender with lastRecvAckSeq := recvPacketSqn, tcp := .idle }

def tcpStep : Option State :=
  let sender := state.sender
  match sender.tcp with
  | .idle =>
    match state.toSender with
    | [] => none
    | .peerSync recvPacketSqn :: rest => some { state with
        toSender := rest
        sender := handleSyncMsg sender recvPacketSqn }
    | .tcpAck recvPacketSqn :: rest => some { state with
        toSender := rest
        sender := { sender with
          tcp := .handleAckMsg recvPacketSqn
            (toInt32 (recvPacketSqn - sender.lastRecvAckSeq)) } }
  | .handleSyncMsg recvPacketSqn popNum queueLength =>
    (popDuplicate sender recvPacketSqn popNum queueLength).map fun sender =>
      { state with sender := sender }
  | .finish => some { state with
      sender := { sender with peerSyncFinish := true, tcp := .idle } }
  | .handleAckMsg recvPacketSqn num =>
    (popAcknowledged sender recvPacketSqn num).map fun sender =>
      { state with sender := sender }

def peerRunStep : Option State :=
  let receiver := state.receiver
  match receiver.run with
  | .onRun =>
    if receiver.tcpStat = .kBroken then
      some { state with receiver := { receiver with run := .join } }
    else none
  | .join =>
    if receiver.ack = .away then
      some { state with
        receiver := { receiver with
          localSyncFinish := false
          peerSyncFinish := false
          run := .close } }
    else none
  | .close => some { state with
      up := false
      toReceiver := []
      receiver := { receiver with run := .syncLocalSession } }
  | .syncLocalSession => some { state with
      receiver := { receiver with
        tierQueue := receiver.tierQueue ++ [.localSync]
        localSyncFinish := false
        run := .waitLocalSync } }
  | .waitLocalSync =>
    if receiver.localSyncFinish then
      some { state with
        receiver := { receiver with
          peerSyncFinish := false
          tcpStat := .kConnecting
          run := .connecting } }
    else none
  | .connecting =>
    match receiver.tcpStat with
    | .kConnecting => none
    | .kConnected => some { state with receiver := { receiver with run := .syncPeerSession } }
    | .kBroken => some { state with receiver := { receiver with run := .onRun } }
  | .syncPeerSession => some { state with
      receiver := { receiver with run := .sendPeerSync receiver.amiTxMsgCnt } }
  | .sendPeerSync amiTxMsgCnt => some { state with
      toSender := state.sendReply (.peerSync amiTxMsgCnt)
      receiver := { receiver with run := .waitPeerSync } }
  | .waitPeerSync =>
    if receiver.peerSyncFinish ∧ receiver.tcpStat = .kConnected then
      some { state with receiver := { receiver with run := .onRun, ack := .loop } }
    else if receiver.tcpStat = .kConnected then none
    else some { state with receiver := { receiver with run := .onRun } }

def peerTcpStep : Option State :=
  let receiver := state.receiver
  match state.toReceiver with
  | [] => none
  | .peerSync :: rest => some { state with
      toReceiver := rest
      receiver := { receiver with peerSyncFinish := true } }
  | .amiPacket totalSqn :: rest => some { state with
      toReceiver := rest
      receiver := { receiver with tierQueue := receiver.tierQueue ++ [.amiPacket totalSqn] } }

def tierStep (outcome : Outcome) : Option State :=
  let receiver := state.receiver
  match receiver.tier with
  | .idle =>
    match receiver.tierQueue with
    | [] => none
    | .localSync :: queue => some { state with
        receiver := { receiver with tierQueue := queue, localSyncFinish := true } }
    | .amiPacket totalSqn :: queue =>
      if totalSqn = receiver.tierRxPacketCnt + 1 then
        some { state with
          receiver := { receiver with
            tierQueue := queue
            tierRxPacketCnt := totalSqn
            tier := .newMessage totalSqn } }
      else
        some { state with receiver := { receiver with tierQueue := queue, unexpected := true } }
  | .newMessage number =>
    match outcome with
    | .sendMsg => some { state with
        receiver := { receiver with handed := receiver.handed ++ [number], tier := .count number } }
    | _ => some { state with receiver := { receiver with tier := .idle } }
  | .count number => some { state with
      receiver := { receiver with amiTxMsgCnt := number, tier := .idle } }

def ackStep : Option State :=
  let receiver := state.receiver
  match receiver.ack with
  | .away => none
  | .loop =>
    if receiver.tcpStat = .kConnected then
      some { state with receiver := { receiver with ack := .read } }
    else
      some { state with receiver := { receiver with ack := .away } }
  | .read => some { state with
      receiver := { receiver with ack := .send receiver.amiTxMsgCnt } }
  | .send amiTxMsgCnt => some { state with
      toSender := state.sendReply (.tcpAck amiTxMsgCnt)
      receiver := { receiver with ack := .loop } }

end State

inductive Action where
  | connect
  | breaks (toSender toReceiver : Nat)
  | senderOnEvent
  | receiverOnEvent
  | onMessage
  | run
  | send
  | sendFails
  | tcp
  | peerRun
  | peerTcp
  | tier (outcome : Outcome)
  | ack

namespace State

def step (state : State) : Action → Option State
  | .connect => state.connect
  | .breaks toSender toReceiver => some (state.breaks toSender toReceiver)
  | .senderOnEvent => state.senderOnEvent
  | .receiverOnEvent => state.receiverOnEvent
  | .onMessage => some state.onMessage
  | .run => state.runStep
  | .send => state.sendStep
  | .sendFails => state.sendFails
  | .tcp => state.tcpStep
  | .peerRun => state.peerRunStep
  | .peerTcp => state.peerTcpStep
  | .tier outcome => state.tierStep outcome
  | .ack => state.ackStep

/-- The session is shared and nothing has been sent, with a connection or without one. -/
def start (connected : Bool) : State :=
  if connected then
    { up := true
      sender := { tcpStat := .kConnected, send := .loop }
      receiver := { tcpStat := .kConnected, ack := .loop } }
  else {}

/-- The messages that were given to AMI are those up to a number, each one once and in their
order, no packet was unexpected, and what left the queue had been given to AMI. -/
structure Delivered (state : State) : Prop where
  handed : state.receiver.handed = List.range' 1 state.receiver.handed.length
  expected : state.receiver.unexpected = false
  popped : ∀ number ∈ state.sender.popped, number ∈ state.receiver.handed

/-- The number of a reply is near enough to be counted down. -/
def Near (sender : SendSide) : Reply → Prop
  | .peerSync recvPacketSqn =>
    recvPacketSqn = sender.lastRecvAckSeq ∨
      (recvPacketSqn : Int) - sender.lastRecvAckSeq ≤ toInt32 sender.tcpPacketsQueue.length
  | .tcpAck recvPacketSqn => (recvPacketSqn : Int) - sender.lastRecvAckSeq < 2 ^ 31

instance (sender : SendSide) : ∀ reply, Decidable (Near sender reply)
  | .peerSync recvPacketSqn => inferInstanceAs (Decidable
      (recvPacketSqn = sender.lastRecvAckSeq ∨
        (recvPacketSqn : Int) - sender.lastRecvAckSeq ≤ toInt32 sender.tcpPacketsQueue.length))
  | .tcpAck recvPacketSqn =>
    inferInstanceAs (Decidable ((recvPacketSqn : Int) - sender.lastRecvAckSeq < 2 ^ 31))

/-- No packet is given up, and the numbers that come back are near enough. -/
def Fits (state : State) : Action → Prop
  | .tcp => state.sender.tcp = .idle → ∀ reply ∈ state.toSender.head?, Near state.sender reply
  | .tier outcome => state.receiver.tier.hands = true → outcome = .sendMsg
  | _ => True

instance (state : State) : ∀ action, Decidable (state.Fits action)
  | .tcp => inferInstanceAs (Decidable (state.sender.tcp = .idle →
      ∀ reply ∈ state.toSender.head?, Near state.sender reply))
  | .tier outcome => inferInstanceAs (Decidable
      (state.receiver.tier.hands = true → outcome = .sendMsg))
  | .connect | .breaks _ _ | .senderOnEvent | .receiverOnEvent | .onMessage | .run | .send
  | .sendFails | .peerRun | .peerTcp | .ack => inferInstanceAs (Decidable True)

end State

end AdkAaf.AmiBridge.Session
