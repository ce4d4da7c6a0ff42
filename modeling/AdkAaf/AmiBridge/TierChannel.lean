import AdkAaf.AmiBridge.Msg
import AdkAaf.Lib.Transition

/-! The receiving side of a bridge: the packets of the peer are replicated to the bridges of the
cluster, and what comes back from the tier channel is sent to AMI. -/

set_option autoImplicit false

namespace AdkAaf.AmiBridge

open Lib

structure TxEndpointStuff where
  epId : Nat
  epName : String
  toCompress : Bool
  isLoadbalance : Bool

/-- A rx endpoint of the peer and the tx endpoint of the same name. -/
structure PeerRxEndPointStuff extends EndpointInfo where
  localTxepStuff : Option TxEndpointStuff

/-- What was handed to `SendMsg`, and whether that succeeded. -/
structure Handed where
  epId : Nat
  partitionNo : Int
  data : List UInt8
  ancestorId : Nat
  persistentContext : Nat × Nat
  sent : Bool

/-- The receiving side of an `AmiBridge`. -/
structure Receiver where
  txepMap : List TxEndpointStuff
  txInfoMap : List (Nat × List Int)
  peerRxepMap : List PeerRxEndPointStuff := []
  localSessionId : Nat := 0
  peerSessionId : Nat := 0
  localSyncFinish : Bool := false
  peerSyncFinish : Bool := false
  tcpRxPacketCnt : Nat := 0
  tcpRxErrCnt : Nat := 0
  tcpRepPacketCnt : Nat := 0
  tierRxPacketCnt : Nat := 0
  amiTxMsgCnt : Nat := 0
  lastSendAckSeq : Nat := 0
  isRunning : Bool := true
  handed : List Handed := []

/-- Whether `NewMessage` has memory, what `Decompress` makes of a payload and the length of the
original, where `none` is an exception, and whether `SendMsg` succeeds. -/
structure Answers where
  newMessage : Bool := true
  decompress : List UInt8 → Nat → Option (List UInt8) := fun data _ => some data
  sendMsg : Bool := true

namespace Receiver

variable (bridge : Receiver) (message : PeerSyncMsg)

def stopAmiApp : Receiver := { bridge with isRunning := false }

def makePeerRxEndPointInfo : Receiver :=
  if message.epInfoSize ≠ 0 then bridge
  else
    -- `emplace` keeps the first of two endpoints with one identifier
    let emplace (peers : List PeerRxEndPointStuff) (info : EndpointInfo) :=
      if peers.any (·.epId = info.epId) then peers
      else peers ++
        [{ info with localTxepStuff := bridge.txepMap.find? (·.epName = info.epName) }]
    { bridge with peerRxepMap := (message.endpointInfo.getD []).foldl emplace [] }

/-- A peer endpoint whose partitions are looked up; only the first partition is. -/
def checkEndpoint (peer : PeerRxEndPointStuff) : Bool :=
  match peer.localTxepStuff with
  | none => false
  | some stuff =>
    match bridge.txInfoMap.find? (·.1 = stuff.epId) with
    | none => false
    | some (_, partitions) =>
      peer.partitions.length ≤ partitions.length &&
        match peer.partitions with
        | [] => true
        | partition :: _ => partitions.contains partition

def checkEndpoints : Bool :=
  message.epInfoSize = 0 && bridge.peerRxepMap.all bridge.checkEndpoint

def peerRxep (epId : Nat) : Option PeerRxEndPointStuff :=
  bridge.peerRxepMap.find? (·.epId = epId)

/-- The receiver's part of `HandleSyncMsg`, and what is replicated; false stops the bridge. -/
def handleSyncMsg : Receiver × Option RepMessage :=
  let bridge := bridge.makePeerRxEndPointInfo message
  if !bridge.checkEndpoints message then
    (bridge.stopAmiApp, none)
  else if bridge.peerSessionId ≠ message.sessionId then
    (bridge, some (.kPeerSync message))
  else
    ({ bridge with
      tcpRxPacketCnt := bridge.tierRxPacketCnt
      tcpRepPacketCnt := bridge.tierRxPacketCnt
      peerSyncFinish := true }, none)

/-- The packet that is replicated, where the partition is selected for some endpoints. -/
def selectPartition (stuff : TxEndpointStuff) (packet : AmiMsgPacket) (selected : Option Int) :
    AmiMsgPacket :=
  if stuff.isLoadbalance then { packet with partitionNo := selected.getD 0 } else packet

/-- `HandleAmiMsg`, where `selected` is what `SelectLoadBalancePartition` selects. An endpoint of
the peer without one here is not looked at: `CheckEndpoints` has refused it. -/
def handleAmiMsg (packet : AmiMsgPacket) (selected : Option Int) :
    Option (Receiver × Option RepMessage) :=
  match bridge.peerRxep packet.endpointId with
  | none => some ({ bridge with tcpRxErrCnt := bridge.tcpRxErrCnt + 1 }, none)
  | some peer =>
    match peer.localTxepStuff with
    | none => none
    | some stuff =>
      some ({ bridge with
        tcpRxPacketCnt := packet.totalSqn
        tcpRepPacketCnt := packet.totalSqn },
        some (.kAmiPacket (selectPartition stuff packet selected)))

def onPeerSync (isLeader : Bool) (message : PeerSyncMsg) : Receiver :=
  let bridge := if isLeader then bridge else bridge.makePeerRxEndPointInfo message
  { bridge with
    tcpRxErrCnt := 0
    tcpRxPacketCnt := message.sendPacketSqn
    tcpRepPacketCnt := message.sendPacketSqn
    tierRxPacketCnt := message.sendPacketSqn
    amiTxMsgCnt := message.sendPacketSqn
    lastSendAckSeq := message.sendPacketSqn
    peerSessionId := message.sessionId
    peerSyncFinish := true }

def unexpected (packet : AmiMsgPacket) : Prop :=
  packet.totalSqn ≠ (bridge.tierRxPacketCnt + 1) % 2 ^ 64

instance (bridge : Receiver) (packet : AmiMsgPacket) : Decidable (bridge.unexpected packet) :=
  inferInstanceAs (Decidable (_ ≠ _))

def payload (stuff : TxEndpointStuff) (answers : Answers) (packet : AmiMsgPacket) :
    Option (List UInt8) :=
  if stuff.toCompress then answers.decompress packet.data packet.origDataLen
  else some packet.data

/-- `OnMessage` for a packet. There is no result for an endpoint that is not in the map, which
is looked up without a check. -/
def onAmiPacket (packet : AmiMsgPacket) (answers : Answers) : Option Receiver :=
  if bridge.unexpected packet then
    some bridge.stopAmiApp
  else
    let bridge := { bridge with tierRxPacketCnt := packet.totalSqn }
    match (bridge.peerRxep packet.endpointId).bind (·.localTxepStuff) with
    | none => none
    | some stuff =>
      if !answers.newMessage then
        some bridge.stopAmiApp
      else
        match payload stuff answers packet with
        | none => some bridge
        | some data =>
          if packet.partitionNo = 0 then
            some bridge
          else
            some { bridge with
              handed := bridge.handed ++ [{
                epId := stuff.epId
                partitionNo := packet.partitionNo
                data
                ancestorId := packet.ancestorId
                persistentContext := (bridge.peerSessionId, packet.totalSqn)
                sent := answers.sendMsg }]
              amiTxMsgCnt := packet.totalSqn }

def onMessage (bridge : Receiver) (isLeader : Bool) (message : RepMessage) (answers : Answers) :
    Option Receiver :=
  match message with
  | .kLocalSync sessionId =>
    some { bridge with localSessionId := sessionId, localSyncFinish := true }
  | .kPeerSync message => some (bridge.onPeerSync isLeader message)
  | .kAmiPacket packet => bridge.onAmiPacket packet answers
  | .unknown => some bridge.stopAmiApp

/-- The `PeerSyncMsg` of `SyncPeerSession`, with what the sending side puts in. -/
def peerSyncMsg (tcpTxPacketCnt : Nat) (endpointInfo : Option (List EndpointInfo)) :
    PeerSyncMsg where
  sessionId := bridge.localSessionId
  recvPacketSqn := bridge.amiTxMsgCnt
  sendPacketSqn := tcpTxPacketCnt
  epInfoSize := 0
  endpointInfo

def tcpAckMsg : TcpAckMsg where
  recvPacketSqn := bridge.amiTxMsgCnt

def sendAckMsg : Receiver :=
  { bridge with lastSendAckSeq := bridge.amiTxMsgCnt }

/-- The receiver's part of `RecoveryBreakpoint`, with the number that it has found. -/
def recoveryBreakpoint (localSessionId peerSessionId lastMsgSeq : Nat) : Receiver :=
  { bridge with
    localSessionId
    peerSessionId
    tcpRxPacketCnt := lastMsgSeq
    tcpRepPacketCnt := lastMsgSeq
    tierRxPacketCnt := lastMsgSeq
    lastSendAckSeq := lastMsgSeq
    amiTxMsgCnt := lastMsgSeq }

end Receiver

inductive ReceiverAction where
  | recoveryBreakpoint (localSessionId peerSessionId lastMsgSeq : Nat)
  | handleSyncMsg (message : PeerSyncMsg)
  | handleAmiMsg (packet : AmiMsgPacket) (selected : Option Int)
  | onMessage (isLeader : Bool) (message : RepMessage) (answers : Answers)
  | sendAckMsg

namespace Receiver

variable (bridge : Receiver)

/-- A call of a handler. What is replicated is taken to come from the tier channel at any time,
as to a backup it does. -/
def step : ReceiverAction → Option Receiver
  | .recoveryBreakpoint localSessionId peerSessionId lastMsgSeq =>
    some (bridge.recoveryBreakpoint localSessionId peerSessionId lastMsgSeq)
  | .handleSyncMsg message => some (bridge.handleSyncMsg message).1
  | .handleAmiMsg packet selected => (bridge.handleAmiMsg packet selected).map Prod.fst
  | .onMessage isLeader message answers => bridge.onMessage isLeader message answers
  | .sendAckMsg => some bridge.sendAckMsg

/-- `PeerSyncMsg` and `TcpAckMsg` announce the number that the next packet is checked against,
and the packet behind it passes the check. -/
structure Announces (bridge : Receiver) : Prop where
  peerSync : ∀ tcpTxPacketCnt endpointInfo,
    (bridge.peerSyncMsg tcpTxPacketCnt endpointInfo).recvPacketSqn = bridge.tierRxPacketCnt
  tcpAck : bridge.tcpAckMsg.recvPacketSqn = bridge.tierRxPacketCnt
  passes : ∀ packet : AmiMsgPacket,
    packet.totalSqn = (bridge.tcpAckMsg.recvPacketSqn + 1) % 2 ^ 64 → ¬ bridge.unexpected packet

/-- A packet that is accepted and then given up: `NewMessage` or `Decompress` fails, or no
partition was selected. -/
def GivesUp (packet : AmiMsgPacket) (answers : Answers) : Prop :=
  ¬ bridge.unexpected packet ∧ ∃ stuff,
    (bridge.peerRxep packet.endpointId).bind (·.localTxepStuff) = some stuff ∧
      (answers.newMessage = false ∨ payload stuff answers packet = none ∨ packet.partitionNo = 0)

def Delivers : ReceiverAction → Prop
  | .onMessage _ (.kAmiPacket packet) answers => ¬ bridge.GivesUp packet answers
  | _ => True

end Receiver

section Announced

variable {bridge next final : Receiver} {packet : AmiMsgPacket} {answers : Answers}
  {action : ReceiverAction} {actions : List ReceiverAction}

theorem announces_iff : bridge.Announces ↔ bridge.amiTxMsgCnt = bridge.tierRxPacketCnt := by
  constructor
  · intro announces
    exact announces.tcpAck
  · intro level
    refine ⟨fun _ _ => level, level, ?_⟩
    intro packet resumed unexpected
    apply unexpected
    rw [← level]
    exact resumed

section

variable (announces : bridge.Announces)
include announces

theorem announces_onAmiPacket (handled : bridge.onAmiPacket packet answers = some next) :
    next.Announces ↔ ¬ bridge.GivesUp packet answers := by
  have level := announces_iff.mp announces
  rw [announces_iff]
  rw [Receiver.onAmiPacket] at handled
  split at handled
  next unexpected =>
    cases handled
    constructor
    · intro _ givesUp
      exact givesUp.1 unexpected
    · intro _
      exact level
  next expected =>
    have n : packet.totalSqn = (bridge.tierRxPacketCnt + 1) % 2 ^ 64 :=
      Classical.not_not.mp expected
    have behind : bridge.amiTxMsgCnt ≠ packet.totalSqn := by
      omega
    dsimp only at handled
    split at handled
    next => cases handled
    next stuff found =>
      have gives {reason : Prop} (failed : reason) (fails : reason → answers.newMessage = false ∨
            Receiver.payload stuff answers packet = none ∨ packet.partitionNo = 0) :
          bridge.GivesUp packet answers := ⟨expected, stuff, found, fails failed⟩
      split at handled
      next noMessage =>
        cases handled
        have failed : answers.newMessage = false := by
          cases created : answers.newMessage with
          | false => rfl
          | true => simp [created] at noMessage
        exact ⟨fun same => absurd same behind, fun kept => absurd (gives failed .inl) kept⟩
      next created =>
        split at handled
        next failed =>
          cases handled
          exact ⟨fun same => absurd same behind,
            fun kept => absurd (gives failed fun failed => .inr (.inl failed)) kept⟩
        next data made =>
          split at handled <;> cases handled
          next failed =>
            exact ⟨fun same => absurd same behind,
              fun kept => absurd (gives failed fun failed => .inr (.inr failed)) kept⟩
          next selected =>
            refine ⟨fun _ => ?_, fun _ => rfl⟩
            rintro ⟨_, other, foundOther, reasons⟩
            cases found.symm.trans foundOther
            rcases reasons with failed | failed | failed
            · rw [failed] at created
              exact created rfl
            · rw [made] at failed
              cases failed
            · exact selected failed

theorem announces_handleSyncMsg (message : PeerSyncMsg) :
    (bridge.handleSyncMsg message).1.Announces := by
  have level := announces_iff.mp announces
  rw [announces_iff]
  have made : (bridge.makePeerRxEndPointInfo message).amiTxMsgCnt =
      (bridge.makePeerRxEndPointInfo message).tierRxPacketCnt := by
    rw [Receiver.makePeerRxEndPointInfo]
    split <;> exact level
  rw [Receiver.handleSyncMsg]
  split
  next => exact made
  next =>
    split <;> exact made

theorem announces_handleAmiMsg {selected : Option Int} {replicated : Option RepMessage}
    (handled : bridge.handleAmiMsg packet selected = some (next, replicated)) : next.Announces := by
  have level := announces_iff.mp announces
  rw [announces_iff]
  rw [Receiver.handleAmiMsg] at handled
  split at handled
  next =>
    cases handled
    exact level
  next =>
    split at handled <;> cases handled
    exact level

theorem announces_step (went : bridge.step action = some next) :
    next.Announces ↔ bridge.Delivers action := by
  have level := announces_iff.mp announces
  cases action with
  | recoveryBreakpoint localSessionId peerSessionId lastMsgSeq =>
    cases went
    exact ⟨fun _ => trivial, fun _ => announces_iff.mpr rfl⟩
  | handleSyncMsg message =>
    cases went
    exact ⟨fun _ => trivial, fun _ => announces_handleSyncMsg announces message⟩
  | handleAmiMsg packet selected =>
    obtain ⟨⟨after, replicated⟩, handled, rfl⟩ := Option.map_eq_some_iff.mp went
    exact ⟨fun _ => trivial, fun _ => announces_handleAmiMsg announces handled⟩
  | onMessage isLeader message answers =>
    cases message with
    | kLocalSync sessionId | unknown =>
      cases went
      exact ⟨fun _ => trivial, fun _ => announces_iff.mpr level⟩
    | kPeerSync message =>
      cases went
      exact ⟨fun _ => trivial, fun _ => announces_iff.mpr rfl⟩
    | kAmiPacket packet => exact announces_onAmiPacket announces went
  | sendAckMsg =>
    cases went
    exact ⟨fun _ => trivial, fun _ => announces_iff.mpr level⟩

end

/-- A bridge announces the number that it expects in every state of a run, if and only if it
gives no packet up that it has accepted. -/
theorem announces_iff_delivers (start : bridge.Announces)
    (ran : execute Receiver.step bridge actions = some final) :
    Always Receiver.step Receiver.Announces bridge actions ↔
      Guarded Receiver.step Receiver.Delivers bridge actions :=
  always_iff_guarded announces_step start ran

def quoteBridge : Receiver where
  txepMap := [⟨7, "Quote", false, true⟩]
  txInfoMap := [(7, [1, 2])]

def quoteSync : PeerSyncMsg where
  sessionId := 5
  recvPacketSqn := 0
  sendPacketSqn := 0
  epInfoSize := 0
  endpointInfo := some [⟨3, "Quote", [1, 2]⟩]

def quotePacket (totalSqn : Nat) (partitionNo : Int) : AmiMsgPacket where
  compress := false
  endpointId := 3
  transportId := 11
  partitionNo
  dataLen := 1
  origDataLen := 1
  totalSqn
  ancestorId := 4
  data := [65]

def twoPackets : List ReceiverAction :=
  [.handleSyncMsg quoteSync, .onMessage true (.kPeerSync quoteSync) {},
    .handleAmiMsg (quotePacket 1 1) (some 2), .onMessage true (.kAmiPacket (quotePacket 1 2)) {},
    .sendAckMsg, .onMessage true (.kAmiPacket (quotePacket 2 1)) { sendMsg := false },
    .handleSyncMsg quoteSync]

theorem announces_after_two_packets :
    Always Receiver.step Receiver.Announces quoteBridge twoPackets := by
  have ran : execute Receiver.step quoteBridge twoPackets = some _ := rfl
  refine (announces_iff_delivers (announces_iff.mpr rfl) ran).mpr ?_
  refine ⟨trivial, trivial, trivial, ?_, trivial, ?_, trivial, trivial⟩
  all_goals
    rintro ⟨_, stuff, found, failed⟩
    cases found
    rcases failed with failed | failed | failed
    all_goals cases failed

/-- No partition was selected for the first packet. The bridge announces that it expects
packet 1, and stops when the packet comes again. -/
theorem given_up_packet_stops :
    ∃ final, execute Receiver.step quoteBridge [.handleSyncMsg quoteSync,
        .onMessage true (.kPeerSync quoteSync) {}, .handleAmiMsg (quotePacket 1 1) none,
        .onMessage true (.kAmiPacket (quotePacket 1 0)) {}, .handleSyncMsg quoteSync] =
          some final ∧ ¬ final.Announces ∧ final.tcpAckMsg = ⟨0⟩ ∧ final.isRunning = true ∧
      ∃ stopped, final.step (.onMessage true (.kAmiPacket (quotePacket 1 1)) {}) = some stopped ∧
        stopped.isRunning = false := by
  refine ⟨_, rfl, ?_, rfl, rfl, _, rfl, rfl⟩
  rw [announces_iff]
  decide

end Announced

end AdkAaf.AmiBridge
