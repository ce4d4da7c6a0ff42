import AdkAaf.AmiBridge.Session.Basic
import AdkAaf.Lib.Consecutive

/-! What holds between two bridges while they send, break off and resume. Each bridge has an
invariant of its own; what connects them depends on how far the connection has come, which is
known from neither side alone. -/

set_option autoImplicit false

namespace AdkAaf.AmiBridge.Session

open Adk.IoEngine (toInt32)
open Lib

/-- In `RetransmitMsg`, behind the exchange of the queues. -/
def RunPc.retransmits : RunPc → Bool
  | .recorder _ => true
  | .recorderSend _ _ => true
  | .history => true
  | .resend _ => true
  | .push _ => true
  | _ => false

def RunPc.syncs : RunPc → Bool
  | .connecting => true
  | .syncPeerSession => true
  | .waitPeerSync => true
  | _ => false

def RunPc.hand : RunPc → List Nat
  | .resend number => [number]
  | .push number => [number]
  | _ => []

def RunPc.unsent : RunPc → Nat
  | .resend _ => 1
  | _ => 0

def SendPc.pushed : SendPc → Nat
  | .freeEntry _ => 1
  | _ => 0

def SendPc.unsent : SendPc → Nat
  | .freeEntry _ => 1
  | .send _ => 1
  | _ => 0

def TcpPc.syncs : TcpPc → Bool
  | .handleSyncMsg _ _ _ => true
  | .finish => true
  | _ => false

namespace SendSide

variable (sender : SendSide)

def low : Nat :=
  match sender.tcp with
  | .handleSyncMsg recvPacketSqn popNum _ => recvPacketSqn - popNum.toNat
  | .handleAckMsg recvPacketSqn num => recvPacketSqn - num.toNat
  | _ => sender.lastRecvAckSeq

/-- The packets up to this number will have been popped when the TCP thread is idle. -/
def target : Nat :=
  match sender.tcp with
  | .handleSyncMsg recvPacketSqn _ _ => recvPacketSqn
  | .handleAckMsg recvPacketSqn _ => recvPacketSqn
  | _ => sender.lastRecvAckSeq

def freed : Nat := sender.received - sender.amiRxQueue.length

def high : Nat := sender.freed + sender.send.pushed

def packets : List Nat :=
  sender.tcpPacketsQueue ++ (sender.run.hand ++ sender.otherQueue)

/-- The packets that have been pushed and are still to be sent on the connection. -/
def unsent (sender : SendSide) : Nat :=
  sender.otherQueue.length + sender.run.unsent + sender.send.unsent

def sent : Nat := sender.high - sender.unsent

def Taken : Prop :=
  match sender.send with
  | .push number => sender.amiRxQueue.head? = some number
  | .freeEntry number => sender.amiRxQueue.head? = some number
  | .send number => number = sender.freed ∧ 0 < number
  | _ => True

def Handler : Prop :=
  match sender.tcp with
  | .handleSyncMsg recvPacketSqn popNum queueLength =>
    0 ≤ popNum ∧ popNum ≤ recvPacketSqn ∧ (popNum = 0 ∨ popNum ≤ queueLength)
  | .handleAckMsg recvPacketSqn num => 0 ≤ num ∧ num ≤ recvPacketSqn
  | _ => True

/-- Where the threads can be at the same time; nothing comes from the recorder. -/
structure Places (sender : SendSide) : Prop where
  other : sender.run.retransmits = false → sender.otherQueue = []
  send : sender.send ≠ .away → sender.run = .onRun ∨ sender.run = .join
  swap : sender.run = .swap → sender.peerSyncFinish = true
  recorderRetransmitNum : sender.recorderRetransmitNum = 0
  recorder : ∀ left, sender.run = .recorder left → left = []
  recorderSend : ∀ number left, sender.run ≠ .recorderSend number left

structure Sound (sender : SendSide) : Prop where
  packets : Consecutive sender.low sender.high sender.packets
  popped : Consecutive 0 sender.low sender.popped
  amiRxQueue : Consecutive sender.freed sender.received sender.amiRxQueue
  taken : sender.Taken
  handler : sender.Handler
  places : sender.Places

/-- No `PeerSyncMsg` of the connection has been handled. -/
structure Unsynced (sender : SendSide) : Prop where
  peerSyncFinish : sender.peerSyncFinish = false
  send : sender.send = .away
  run : sender.run.retransmits = false

end SendSide

/-- From the connection until the `PeerSyncMsg` is sent. -/
def PeerRunPc.fresh : PeerRunPc → Bool
  | .connecting => true
  | .syncPeerSession => true
  | .sendPeerSync _ => true
  | _ => false

def PeerRunPc.closed : PeerRunPc → Bool
  | .syncLocalSession => true
  | .waitLocalSync => true
  | _ => false

def PeerRunPc.settled : PeerRunPc → Bool
  | .waitPeerSync => true
  | .onRun => true
  | _ => false

def RepMsg.packet : RepMsg → Option Nat
  | .localSync => none
  | .amiPacket totalSqn => some totalSqn

def Request.packet : Request → Option Nat
  | .peerSync => none
  | .amiPacket totalSqn => some totalSqn

def Reply.number : Reply → Nat
  | .peerSync recvPacketSqn => recvPacketSqn
  | .tcpAck recvPacketSqn => recvPacketSqn

def Reply.syncs : Reply → Bool
  | .peerSync _ => true
  | .tcpAck _ => false

namespace ReceiveSide

variable (receiver : ReceiveSide)

/-- What was counted, handed over and announced when the tier thread is at each place. -/
def Handing : Prop :=
  match receiver.tier with
  | .idle => receiver.amiTxMsgCnt = receiver.tierRxPacketCnt ∧
      Consecutive 0 receiver.tierRxPacketCnt receiver.handed
  | .newMessage number => receiver.tierRxPacketCnt = number ∧ receiver.amiTxMsgCnt + 1 = number ∧
      Consecutive 0 receiver.amiTxMsgCnt receiver.handed
  | .count number => receiver.tierRxPacketCnt = number ∧ receiver.amiTxMsgCnt + 1 = number ∧
      Consecutive 0 number receiver.handed

/-- The tier channel holds a `LocalSyncMsg` behind everything else, while it is waited for. -/
def Flush : Prop :=
  if receiver.run = .waitLocalSync then
    if receiver.localSyncFinish then receiver.tierQueue = [] ∧ receiver.tier = .idle
    else ∃ numbers : List Nat, receiver.tierQueue = numbers.map .amiPacket ++ [.localSync]
  else
    ∃ numbers : List Nat, receiver.tierQueue = numbers.map .amiPacket

structure Sound (receiver : ReceiveSide) : Prop where
  handing : receiver.Handing
  flush : receiver.Flush
  expected : receiver.unexpected = false
  ack : receiver.ack ≠ .away → receiver.run = .onRun ∨ receiver.run = .join

def reading : List Nat :=
  match receiver.ack with
  | .send amiTxMsgCnt => [amiTxMsgCnt]
  | _ => []

end ReceiveSide

/-- How far a connection has come: no `PeerSyncMsg` of the receiving bridge, one with a number, and
packets. -/
inductive Phase where
  | down
  | fresh
  | announced (recvPacketSqn : Nat)
  | sending

namespace State

def pending (state : State) : List Nat :=
  state.receiver.tierQueue.filterMap RepMsg.packet ++
    state.toReceiver.filterMap Request.packet

/-- The numbers on their way back, up to the one that is counted. -/
def replies (state : State) : List Nat :=
  state.sender.target ::
    (state.toSender.map Reply.number ++ state.receiver.reading ++ [state.receiver.amiTxMsgCnt])

structure Linked (state : State) : Prop where
  up : state.up = true
  sender : state.sender.tcpStat = .kConnected
  receiver : state.receiver.tcpStat = .kConnected

structure Fresh (state : State) : Prop extends Linked state where
  peer : state.receiver.run.fresh = true
  toSender : state.toSender = []
  tcp : state.sender.tcp = .idle
  peerSyncFinish : state.sender.peerSyncFinish = false
  run : state.sender.run.syncs = true

structure Announced (recvPacketSqn : Nat) (state : State) : Prop extends Linked state where
  peer : state.receiver.run.settled = true
  tier : state.receiver.tier = .idle
  amiTxMsgCnt : state.receiver.amiTxMsgCnt = recvPacketSqn
  pending : state.pending = []
  toSender : ∀ reply ∈ state.toSender, reply.number = recvPacketSqn
  reading : ∀ number ∈ state.receiver.reading, number = recvPacketSqn
  target : state.sender.tcp.syncs = true → state.sender.target = recvPacketSqn
  low : state.sender.peerSyncFinish = true → state.sender.low = recvPacketSqn
  run : state.sender.run.syncs = true ∨ state.sender.run = .swap

structure Sending (state : State) : Prop extends Linked state where
  peer : state.receiver.run.settled = true
  run : state.sender.run.retransmits = true ∨ state.sender.run = .onRun
  sent : Consecutive state.receiver.tierRxPacketCnt state.sender.sent state.pending

def Agreed (state : State) : Phase → Prop
  | .down => state.up = false
  | .fresh => state.Fresh
  | .announced recvPacketSqn => state.Announced recvPacketSqn
  | .sending => state.Sending

/-- At most one `PeerSyncMsg` of a connection is to be handled, and only the first reply is one. -/
structure SyncFirst (state : State) : Prop where
  tail : ∀ reply ∈ state.toSender.tail, reply.syncs = false
  head : (∃ reply ∈ state.toSender, reply.syncs = true) → state.sender.Unsynced
  handler : state.sender.tcp.syncs = true →
    state.sender.Unsynced ∧ ∀ reply ∈ state.toSender, reply.syncs = false

structure Quiet (state : State) : Prop where
  pending : state.pending = []
  tier : state.receiver.tier = .idle
  announces : ∀ number, state.receiver.run = .sendPeerSync number →
    number = state.receiver.amiTxMsgCnt

structure Closed (state : State) : Prop where
  up : state.up = false
  toSender : state.toSender = []
  tcp : state.sender.tcp = .idle

structure PeerClosed (state : State) : Prop where
  up : state.up = false
  toReceiver : state.toReceiver = []

structure Invariant (phase : Phase) (state : State) : Prop where
  sender : state.sender.Sound
  receiver : state.receiver.Sound
  closed : state.sender.run = .syncLocalSession → state.Closed
  connecting : state.sender.tcpStat = .kConnecting →
    state.Closed ∧ state.sender.run = .connecting ∧ state.sender.peerSyncFinish = false
  peerClosed : state.receiver.run.closed = true → state.PeerClosed
  peerConnecting : state.receiver.tcpStat = .kConnecting →
    state.PeerClosed ∧ state.receiver.run = .connecting
  syncFirst : state.SyncFirst
  ascending : state.replies.Pairwise (· ≤ ·)
  pending : ∃ upto, upto ≤ state.sender.high ∧
    Consecutive state.receiver.tierRxPacketCnt upto state.pending
  quiet : state.receiver.run.fresh = true → state.Quiet
  agreed : state.Agreed phase

variable {phase : Phase} {state : State}

theorem Invariant.severed (holds : Invariant phase state) :
    state.receiver.run.closed = true ∨ state.receiver.tcpStat = .kConnecting →
      state.PeerClosed
  | .inl run => holds.peerClosed run
  | .inr stat => (holds.peerConnecting stat).1

theorem Invariant.not_connecting {otherwise : Prop} (holds : Invariant phase state)
    (run : state.sender.run ≠ .connecting) (stat : state.sender.tcpStat = .kConnecting) :
    otherwise :=
  absurd (holds.connecting stat).2.1 run

end State

end AdkAaf.AmiBridge.Session
