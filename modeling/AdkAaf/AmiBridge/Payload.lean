import AdkAaf.AmiBridge.TierChannel

/-! What becomes of a message between the AMI of one bridge and the AMI of the other: the three
places that make a packet of it, and the receiving side that makes a message again. -/

set_option autoImplicit false

namespace AdkAaf.AmiBridge

open Option

structure RxEndpointStuff where
  epId : Nat
  epName : String
  toCompress : Bool

structure CompressLib where
  compress : List UInt8 → List UInt8
  decompress : List UInt8 → Nat → Option (List UInt8)
  inverse : ∀ data, decompress (compress data) data.length = some data

/-- How a packet comes to be sent: at first, from the queue of packets that were sent before, or
from the recorder, where the transport has this partition. -/
inductive SendPath where
  | sendAmiMsg
  | history
  | recorder (transportPartition : Int)

variable (lib : CompressLib) (fresh : Message)

/-- `Compressor::Compress`, which copies its buffer with an `int` index. -/
def compressBuffer (message : Message) : Option (List UInt8) :=
  let buffer := lib.compress message.data
  if buffer.length < 2 ^ 31 then some buffer else none

def makePacket (stuff : RxEndpointStuff) (message : Message) : Option AmiMsgPacket :=
  if stuff.toCompress then
    (compressBuffer lib message).map (AmiMsgPacket.ofCompressed message)
  else
    some (AmiMsgPacket.ofMessage message)

/-- The packet of `RetransmitMsg` for a message of the recorder. It is made of a copy, of which
`fresh` is what `NewMessage` creates. -/
def recorderPacket (stuff : RxEndpointStuff) (transportPartition : Int) (message : Message) :
    Option AmiMsgPacket :=
  let amiMsg := { fresh with data := message.data }
  (makePacket lib stuff amiMsg).map fun packet =>
    { packet with
      endpointId := message.endpointId
      transportId := message.transportId
      totalSqn := message.totalOrderSeqNum
      partitionNo := transportPartition }

def SendPath.packet (stuff : RxEndpointStuff) (message : Message) : SendPath → Option AmiMsgPacket
  | .sendAmiMsg => makePacket lib stuff message
  | .history => makePacket lib stuff message
  | .recorder transportPartition => recorderPacket lib fresh stuff transportPartition message

/-- The buffer that a packet is sent in has `total_len` bytes, and the header and the data are
copied to it. -/
def directSendMsg (packet : AmiMsgPacket) : Option AmiMsgPacket :=
  if AmiMsgPacket.headerLen + packet.dataLen ≤ packet.totalLen then some packet else none

/-- A packet comes over TCP, is replicated and comes from the tier channel. -/
def Receiver.deliver (bridge : Receiver) (packet : AmiMsgPacket) (selected : Option Int)
    (answers : Answers) : Option Receiver :=
  match bridge.handleAmiMsg packet selected with
  | some (bridge, some (.kAmiPacket packet)) => bridge.onAmiPacket packet answers
  | some (bridge, _) => some bridge
  | none => none

/-- A message of the one AMI and the bridge that it comes to. -/
structure Forwarding where
  lib : CompressLib
  fresh : Message
  rxepStuff : RxEndpointStuff
  path : SendPath
  message : Message
  bridge : Receiver
  peer : PeerRxEndPointStuff
  txepStuff : TxEndpointStuff
  selected : Option Int
  sendMsg : Bool

namespace Forwarding

def packet (forwarding : Forwarding) : Option AmiMsgPacket :=
  forwarding.path.packet forwarding.lib forwarding.fresh forwarding.rxepStuff forwarding.message

variable (forwarding : Forwarding)

def forward : Option Receiver :=
  (forwarding.packet.bind directSendMsg).bind fun packet =>
    forwarding.bridge.deliver packet forwarding.selected
      { decompress := forwarding.lib.decompress, sendMsg := forwarding.sendMsg }

def partitionNo (forwarding : Forwarding) : Int :=
  if forwarding.txepStuff.isLoadbalance then forwarding.selected.getD 0
  else
    match forwarding.path with
    | .recorder transportPartition => transportPartition
    | _ => forwarding.message.partitionNo

/-- The endpoint is one of those that were accepted with the `PeerSyncMsg`, the message is the
next one, and a partition is found for it. -/
structure Accepted (forwarding : Forwarding) : Prop where
  known : forwarding.bridge.peerRxep forwarding.message.endpointId = some forwarding.peer
  stuff : forwarding.peer.localTxepStuff = some forwarding.txepStuff
  next : forwarding.message.totalOrderSeqNum = (forwarding.bridge.tierRxPacketCnt + 1) % 2 ^ 64
  partition : forwarding.partitionNo ≠ 0

/-- The message that is handed to `SendMsg` is the one that came from AMI. -/
def Unchanged : Prop :=
  ∃ after handed, forwarding.forward = some after ∧
    after.handed = forwarding.bridge.handed ++ [handed] ∧
      handed.data = forwarding.message.data ∧
        handed.ancestorId = forwarding.message.ancestorId

/-- Both sides have the same setting, or compressing makes no difference to this message. -/
def Agrees : Prop :=
  forwarding.rxepStuff.toCompress = forwarding.txepStuff.toCompress ∨
    if forwarding.rxepStuff.toCompress then
      forwarding.lib.compress forwarding.message.data = forwarding.message.data
    else
      forwarding.lib.decompress forwarding.message.data forwarding.message.data.length =
        some forwarding.message.data

/-- The message keeps its `ancestor_id`: it does not come from the recorder, or has the one of
a message that was just created. -/
def KeepsAncestor : Prop :=
  match forwarding.path with
  | .recorder _ => forwarding.fresh.ancestorId = forwarding.message.ancestorId
  | _ => True

end Forwarding

section Packets

variable {lib : CompressLib} {stuff : RxEndpointStuff} {message : Message} {packet : AmiMsgPacket}

def sentData (lib : CompressLib) (stuff : RxEndpointStuff) (message : Message) : List UInt8 :=
  if stuff.toCompress then lib.compress message.data else message.data

/-- The lengths fit into the variables that they are computed in. -/
def LengthFits (lib : CompressLib) (stuff : RxEndpointStuff) (message : Message) : Prop :=
  if stuff.toCompress then (lib.compress message.data).length < 2 ^ 31
  else 48 + message.data.length < 2 ^ 32

instance (lib : CompressLib) (stuff : RxEndpointStuff) (message : Message) :
    Decidable (LengthFits lib stuff message) :=
  inferInstanceAs (Decidable (if stuff.toCompress then (lib.compress message.data).length < 2 ^ 31
    else 48 + message.data.length < 2 ^ 32))

structure MadeOf (lib : CompressLib) (stuff : RxEndpointStuff) (message : Message)
    (packet : AmiMsgPacket) : Prop where
  endpointId : packet.endpointId = message.endpointId
  totalSqn : packet.totalSqn = message.totalOrderSeqNum
  partitionNo : packet.partitionNo = message.partitionNo
  ancestorId : packet.ancestorId = message.ancestorId
  origDataLen : packet.origDataLen = message.data.length
  dataLen : packet.dataLen = (sentData lib stuff message).length
  data : packet.data = sentData lib stuff message

theorem makePacket_of_fits (fits : LengthFits lib stuff message) :
    ∃ packet, makePacket lib stuff message = some packet ∧ MadeOf lib stuff message packet := by
  rw [LengthFits] at fits
  cases compressed : stuff.toCompress with
  | true =>
    rw [if_pos compressed] at fits
    have sent : sentData lib stuff message = lib.compress message.data := if_pos compressed
    have length : (lib.compress message.data).length % 2 ^ 32 =
        (lib.compress message.data).length := Nat.mod_eq_of_lt (by omega)
    refine ⟨.ofCompressed message (lib.compress message.data), ?_, rfl, rfl, rfl, rfl, rfl, ?_, ?_⟩
    · rw [makePacket, if_pos compressed, compressBuffer]
      rw [if_pos fits, map_some]
    · rw [sent]
      exact length
    · exact sent.symm
  | false =>
    have sent : sentData lib stuff message = message.data := by
      rw [sentData, compressed]
      rfl
    refine ⟨.ofMessage message, ?_, rfl, rfl, rfl, rfl, rfl, ?_, sent.symm⟩
    · rw [makePacket, compressed]
      rfl
    · rw [sent]
      rfl

theorem directSendMsg_of_fits (fits : LengthFits lib stuff message)
    (length : packet.dataLen = (sentData lib stuff message).length) :
    directSendMsg packet = some packet := by
  have small : 48 + packet.dataLen < 2 ^ 32 := by
    rw [length, sentData]
    rw [LengthFits] at fits
    split
    next compressed =>
      rw [if_pos compressed] at fits
      omega
    next plain =>
      rw [if_neg plain] at fits
      exact fits
  have total : packet.totalLen = 48 + packet.dataLen := Nat.mod_eq_of_lt small
  rw [directSendMsg, total]
  exact if_pos .refl

theorem makePacket_of_not_fits (long : ¬ LengthFits lib stuff message) :
    makePacket lib stuff message = none ∨
      stuff.toCompress = false ∧ 2 ^ 32 ≤ 48 + message.data.length := by
  rw [LengthFits] at long
  cases compressed : stuff.toCompress with
  | true =>
    rw [if_pos compressed] at long
    refine .inl ?_
    rw [makePacket, if_pos compressed, compressBuffer]
    rw [if_neg long]
    rfl
  | false =>
    rw [compressed, if_neg Bool.false_ne_true] at long
    exact .inr ⟨rfl, Nat.le_of_not_lt long⟩

theorem directSendMsg_of_long (long : 2 ^ 32 ≤ 48 + packet.dataLen) :
    directSendMsg packet = none := by
  have wraps : packet.totalLen < 2 ^ 32 := Nat.mod_lt _ (by decide)
  rw [directSendMsg, if_neg]
  intro enough
  exact Nat.lt_irrefl _ (wraps.trans_le (long.trans enough))

end Packets

section Forward

variable {forwarding : Forwarding} {packet : AmiMsgPacket}

def Forwarding.source (forwarding : Forwarding) : Message :=
  match forwarding.path with
  | .recorder _ => { forwarding.fresh with data := forwarding.message.data }
  | _ => forwarding.message

theorem data_source (forwarding : Forwarding) :
    forwarding.source.data = forwarding.message.data := by
  rw [Forwarding.source]
  split <;> rfl

def Forwarding.readdress (forwarding : Forwarding) (packet : AmiMsgPacket) : AmiMsgPacket :=
  match forwarding.path with
  | .recorder transportPartition =>
    { packet with
      endpointId := forwarding.message.endpointId
      transportId := forwarding.message.transportId
      totalSqn := forwarding.message.totalOrderSeqNum
      partitionNo := transportPartition }
  | _ => packet

theorem packet_eq (forwarding : Forwarding) :
    forwarding.packet = (makePacket forwarding.lib forwarding.rxepStuff forwarding.source).map
      forwarding.readdress := by
  rw [Forwarding.packet, Forwarding.source]
  cases path : forwarding.path with
  | recorder transportPartition =>
    have same : forwarding.readdress = fun packet => { packet with
        endpointId := forwarding.message.endpointId
        transportId := forwarding.message.transportId
        totalSqn := forwarding.message.totalOrderSeqNum
        partitionNo := transportPartition } := by
      funext packet
      rw [Forwarding.readdress, path]
    rw [same]
    rfl
  | sendAmiMsg | history =>
    have same : forwarding.readdress = id := by
      funext packet
      rw [Forwarding.readdress, path]
      rfl
    rw [same, map_id]
    rfl

/-- What a packet of the message carries, whichever way it comes to be sent. -/
structure Carries (forwarding : Forwarding) (packet : AmiMsgPacket) : Prop where
  endpointId : packet.endpointId = forwarding.message.endpointId
  totalSqn : packet.totalSqn = forwarding.message.totalOrderSeqNum
  partitionNo : (if forwarding.txepStuff.isLoadbalance then forwarding.selected.getD 0
    else packet.partitionNo) = forwarding.partitionNo
  ancestorId : packet.ancestorId = forwarding.source.ancestorId
  origDataLen : packet.origDataLen = forwarding.message.data.length
  data : packet.data = sentData forwarding.lib forwarding.rxepStuff forwarding.message

theorem sentData_source (forwarding : Forwarding) :
    sentData forwarding.lib forwarding.rxepStuff forwarding.source =
      sentData forwarding.lib forwarding.rxepStuff forwarding.message := by
  rw [sentData, sentData, data_source]

theorem carries_readdress
    (made : MadeOf forwarding.lib forwarding.rxepStuff forwarding.source packet) :
    Carries forwarding (forwarding.readdress packet) := by
  have length := made.origDataLen.trans (congrArg List.length (data_source forwarding))
  have data := made.data.trans (sentData_source forwarding)
  have ancestor := made.ancestorId
  rw [Forwarding.readdress]
  cases path : forwarding.path with
  | recorder transportPartition =>
    refine ⟨rfl, rfl, ?_, ancestor, length, data⟩
    rw [Forwarding.partitionNo, path]
  | sendAmiMsg | history =>
    have source : forwarding.source = forwarding.message := by rw [Forwarding.source, path]
    rw [source] at made
    refine ⟨made.endpointId, made.totalSqn, ?_, ancestor, length, data⟩
    rw [Forwarding.partitionNo, path, ← made.partitionNo]

theorem selectPartition_fields (stuff : TxEndpointStuff) (packet : AmiMsgPacket)
    (selected : Option Int) (answers : Answers) :
    let replicated := Receiver.selectPartition stuff packet selected
    replicated.endpointId = packet.endpointId ∧ replicated.totalSqn = packet.totalSqn ∧
      replicated.ancestorId = packet.ancestorId ∧
      Receiver.payload stuff answers replicated = Receiver.payload stuff answers packet ∧
      replicated.partitionNo =
        if stuff.isLoadbalance then selected.getD 0 else packet.partitionNo := by
  intro replicated
  cases balanced : stuff.isLoadbalance with
  | true =>
    have same : replicated = { packet with partitionNo := selected.getD 0 } := if_pos balanced
    rw [same]
    exact ⟨rfl, rfl, rfl, rfl, rfl⟩
  | false =>
    have same : replicated = packet := if_neg (by rw [balanced]; decide)
    rw [same]
    exact ⟨rfl, rfl, rfl, rfl, rfl⟩

theorem deliver_handed (accepted : forwarding.Accepted) (carries : Carries forwarding packet)
    (answers : Answers) (created : answers.newMessage = true) :
    ∃ after, forwarding.bridge.deliver packet forwarding.selected answers = some after ∧
      match Receiver.payload forwarding.txepStuff answers packet with
      | none => after.handed = forwarding.bridge.handed
      | some data => ∃ handed, after.handed = forwarding.bridge.handed ++ [handed] ∧
          handed.data = data ∧ handed.ancestorId = packet.ancestorId := by
  obtain ⟨endpointId, totalSqn, ancestorId, payload, partitionNo⟩ :=
    selectPartition_fields forwarding.txepStuff packet forwarding.selected answers
  have handled : forwarding.bridge.handleAmiMsg packet forwarding.selected = some
      ({ forwarding.bridge with
        tcpRxPacketCnt := packet.totalSqn, tcpRepPacketCnt := packet.totalSqn },
        some (.kAmiPacket
          (Receiver.selectPartition forwarding.txepStuff packet forwarding.selected))) := by
    rw [Receiver.handleAmiMsg, carries.endpointId, accepted.known]
    dsimp only
    rw [accepted.stuff]
  rw [Receiver.deliver, handled]
  dsimp only
  generalize Receiver.selectPartition forwarding.txepStuff packet forwarding.selected =
    replicated at *
  rw [Receiver.onAmiPacket, if_neg]
  · have found : (Receiver.peerRxep { forwarding.bridge with
        tcpRxPacketCnt := packet.totalSqn, tcpRepPacketCnt := packet.totalSqn,
        tierRxPacketCnt := replicated.totalSqn } replicated.endpointId).bind
          (·.localTxepStuff) = some forwarding.txepStuff := by
      rw [endpointId, carries.endpointId]
      change (forwarding.bridge.peerRxep forwarding.message.endpointId).bind _ = _
      rw [accepted.known]
      exact accepted.stuff
    have selected : replicated.partitionNo ≠ 0 := by
      rw [partitionNo, carries.partitionNo]
      exact accepted.partition
    dsimp only
    rw [found]
    dsimp only
    rw [created, payload, if_neg (by decide)]
    cases made : Receiver.payload forwarding.txepStuff answers packet with
    | none => exact ⟨_, rfl, rfl⟩
    | some data =>
      dsimp only
      rw [if_neg selected]
      exact ⟨_, rfl, _, rfl, rfl, ancestorId⟩
  · intro unexpected
    apply unexpected
    rw [totalSqn, carries.totalSqn]
    exact accepted.next

theorem ancestorId_source (forwarding : Forwarding) :
    forwarding.source.ancestorId = forwarding.message.ancestorId ↔ forwarding.KeepsAncestor := by
  rw [Forwarding.source, Forwarding.KeepsAncestor]
  cases forwarding.path with
  | recorder transportPartition => exact .rfl
  | sendAmiMsg | history => exact ⟨fun _ => trivial, fun _ => rfl⟩

theorem dataLen_readdress (forwarding : Forwarding) (packet : AmiMsgPacket) :
    (forwarding.readdress packet).dataLen = packet.dataLen := by
  rw [Forwarding.readdress]
  cases forwarding.path with
  | recorder transportPartition | sendAmiMsg | history => rfl

theorem lengthFits_source (forwarding : Forwarding) :
    LengthFits forwarding.lib forwarding.rxepStuff forwarding.source ↔
      LengthFits forwarding.lib forwarding.rxepStuff forwarding.message := by
  rw [LengthFits, LengthFits, data_source]

theorem payload_iff (carries : Carries forwarding packet) :
    Receiver.payload forwarding.txepStuff
        { decompress := forwarding.lib.decompress, sendMsg := forwarding.sendMsg } packet =
      some forwarding.message.data ↔ forwarding.Agrees := by
  rw [Receiver.payload, carries.data, carries.origDataLen, Forwarding.Agrees, sentData]
  cases sending : forwarding.rxepStuff.toCompress with
  | true =>
    cases receiving : forwarding.txepStuff.toCompress with
    | true => exact ⟨fun _ => .inl rfl, fun _ => forwarding.lib.inverse _⟩
    | false =>
      constructor
      · intro same
        exact .inr (some.inj same)
      · intro agrees
        cases agrees with
        | inl equal => exact absurd equal (by decide)
        | inr same => exact congrArg some same
  | false =>
    cases receiving : forwarding.txepStuff.toCompress with
    | true =>
      constructor
      · intro same
        exact .inr same
      · intro agrees
        cases agrees with
        | inl equal => exact absurd equal (by decide)
        | inr same => exact same
    | false => exact ⟨fun _ => .inl rfl, fun _ => rfl⟩

theorem forward_of_fits (fits : LengthFits forwarding.lib forwarding.rxepStuff forwarding.message) :
    ∃ packet, Carries forwarding packet ∧
      forwarding.forward = forwarding.bridge.deliver packet forwarding.selected
        { decompress := forwarding.lib.decompress, sendMsg := forwarding.sendMsg } := by
  have fits := (lengthFits_source forwarding).mpr fits
  obtain ⟨packet, makes, made⟩ := makePacket_of_fits fits
  refine ⟨forwarding.readdress packet, carries_readdress made, ?_⟩
  have sends : directSendMsg (forwarding.readdress packet) = some (forwarding.readdress packet) :=
    directSendMsg_of_fits fits ((dataLen_readdress forwarding packet).trans made.dataLen)
  rw [Forwarding.forward, packet_eq, makes, map_some, bind_some, sends]
  rfl

theorem forward_of_not_fits
    (long : ¬ LengthFits forwarding.lib forwarding.rxepStuff forwarding.message) :
    forwarding.forward = none := by
  rw [Forwarding.forward, packet_eq]
  cases makePacket_of_not_fits (mt (lengthFits_source forwarding).mp long) with
  | inl fails =>
    rw [fails]
    rfl
  | inr wraps =>
    obtain ⟨plain, wraps⟩ := wraps
    have makes : makePacket forwarding.lib forwarding.rxepStuff forwarding.source =
        some (.ofMessage forwarding.source) := by
      rw [makePacket, plain]
      rfl
    have fails : directSendMsg (forwarding.readdress (.ofMessage forwarding.source)) = none := by
      apply directSendMsg_of_long
      rw [dataLen_readdress]
      exact wraps
    rw [makes, map_some, bind_some, fails]
    rfl

/-- A message of an accepted endpoint comes unchanged to the other AMI exactly if its lengths fit
into their variables, it keeps its `ancestor_id`, and both sides agree on compressing it. -/
theorem forwards_iff (accepted : forwarding.Accepted) :
    forwarding.Unchanged ↔ LengthFits forwarding.lib forwarding.rxepStuff forwarding.message ∧
        forwarding.KeepsAncestor ∧ forwarding.Agrees := by
  constructor
  · intro unchanged
    obtain ⟨after, handed, forwards, hands, data, ancestorId⟩ := unchanged
    have fits : LengthFits forwarding.lib forwarding.rxepStuff forwarding.message := by
      by_cases short : LengthFits forwarding.lib forwarding.rxepStuff forwarding.message
      · exact short
      · rw [forward_of_not_fits short] at forwards
        cases forwards
    obtain ⟨packet, carries, delivers⟩ := forward_of_fits fits
    obtain ⟨same, delivered, payload⟩ := deliver_handed accepted carries
      { decompress := forwarding.lib.decompress, sendMsg := forwarding.sendMsg } rfl
    rw [delivers, delivered] at forwards
    cases forwards
    refine ⟨fits, ?_⟩
    rw [← ancestorId_source, ← payload_iff carries, ← carries.ancestorId]
    split at payload
    next =>
      rw [hands] at payload
      exact absurd payload (by simp)
    next data' made =>
      obtain ⟨handed', hands', data'', ancestorId'⟩ := payload
      rw [hands] at hands'
      cases List.append_cancel_left hands'
      rw [made, ← ancestorId, ← ancestorId', ← data, ← data'']
      exact ⟨rfl, rfl⟩
  · intro conditions
    obtain ⟨fits, ancestor, agrees⟩ := conditions
    obtain ⟨packet, carries, delivers⟩ := forward_of_fits fits
    obtain ⟨after, delivered, payload⟩ := deliver_handed accepted carries
      { decompress := forwarding.lib.decompress, sendMsg := forwarding.sendMsg } rfl
    rw [(payload_iff carries).mpr agrees] at payload
    obtain ⟨handed, hands, data, ancestorId⟩ := payload
    refine ⟨after, handed, delivers.trans delivered, hands, data, ?_⟩
    rw [ancestorId, carries.ancestorId]
    exact (ancestorId_source forwarding).mpr ancestor

def markLib : CompressLib where
  compress data := 0 :: data
  decompress buffer _ := some buffer.tail
  inverse _ := rfl

def quoteMessage : Message where
  endpointId := 3
  transportId := 11
  partitionNo := 1
  totalOrderSeqNum := 1
  ancestorId := 9
  data := [65, 66]

def quoteForwarding (path : SendPath) (toCompress : Bool) : Forwarding where
  lib := markLib
  fresh := { quoteMessage with ancestorId := 0, data := [] }
  rxepStuff := ⟨3, "Quote", true⟩
  path
  message := quoteMessage
  bridge :=
    (({ quoteBridge with
      txepMap := [⟨7, "Quote", toCompress, true⟩] }.handleSyncMsg quoteSync).1.onPeerSync
        true quoteSync)
  peer := { epId := 3, epName := "Quote", partitions := [1, 2],
            localTxepStuff := some ⟨7, "Quote", toCompress, true⟩ }
  txepStuff := ⟨7, "Quote", toCompress, true⟩
  selected := some 1
  sendMsg := true

theorem forwards_compressed : (quoteForwarding .history true).Unchanged :=
  (forwards_iff ⟨rfl, rfl, rfl, by decide⟩).mpr ⟨by decide, trivial, .inl rfl⟩

/-- The sending side compresses and the other does not, and a message of the recorder has lost
its `ancestor_id`. -/
theorem forwards_changed :
    (quoteForwarding .sendAmiMsg false).Accepted ∧ ¬ (quoteForwarding .sendAmiMsg false).Unchanged ∧
      (quoteForwarding (.recorder 1) true).Accepted ∧
      ¬ (quoteForwarding (.recorder 1) true).Unchanged := by
  refine ⟨⟨rfl, rfl, rfl, by decide⟩, ?_, ⟨rfl, rfl, rfl, by decide⟩, ?_⟩
  · intro unchanged
    obtain ⟨_, _, forwards, hands, data, _⟩ := unchanged
    cases forwards
    cases hands
    exact absurd data (by decide)
  · intro unchanged
    obtain ⟨_, _, forwards, hands, _, ancestorId⟩ := unchanged
    cases forwards
    cases hands
    exact absurd ancestorId (by decide)

end Forward

end AdkAaf.AmiBridge
