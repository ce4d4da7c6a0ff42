import Mathlib.Algebra.Group.Nat.Defs

/-! The messages of the AMI bridge. Numbers of messages are 64 bits wide, identifiers and sizes
32 bits; what a sum or a difference of them is stored to is said where it is computed. -/

set_option autoImplicit false

namespace AdkAaf.AmiBridge

structure Message where
  endpointId : Nat
  transportId : Nat
  partitionNo : Int
  totalOrderSeqNum : Nat
  ancestorId : Nat
  data : List UInt8

structure EndpointInfo where
  epId : Nat
  epName : String
  partitions : List Int
  deriving DecidableEq

/-- `PeerSyncMsg`, of which `endpointInfo` is what `Property` makes of `ep_info_`; an old peer
does not send a property. -/
structure PeerSyncMsg where
  sessionId : Nat
  recvPacketSqn : Nat
  sendPacketSqn : Nat
  epInfoSize : Nat
  endpointInfo : Option (List EndpointInfo)

structure TcpAckMsg where
  recvPacketSqn : Nat

/-- `AmiMsgPacket`; `data` are the bytes of the message or of the compressed buffer. -/
structure AmiMsgPacket where
  compress : Bool
  endpointId : Nat
  transportId : Nat
  partitionNo : Int
  dataLen : Nat
  origDataLen : Nat
  totalSqn : Nat
  ancestorId : Nat
  data : List UInt8

namespace AmiMsgPacket

def headerLen : Nat := 48

/-- A sum of two `uint32_t`. -/
def totalLen (packet : AmiMsgPacket) : Nat := (headerLen + packet.dataLen) % 2 ^ 32

def ofMessage (message : Message) : AmiMsgPacket where
  compress := false
  endpointId := message.endpointId
  transportId := message.transportId
  partitionNo := message.partitionNo
  dataLen := message.data.length
  origDataLen := message.data.length
  totalSqn := message.totalOrderSeqNum
  ancestorId := message.ancestorId
  data := message.data

/-- The packet of a message and its compressed buffer, whose length is cut to 32 bits. -/
def ofCompressed (message : Message) (buffer : List UInt8) : AmiMsgPacket where
  compress := true
  endpointId := message.endpointId
  transportId := message.transportId
  partitionNo := message.partitionNo
  dataLen := buffer.length % 2 ^ 32
  origDataLen := message.data.length
  totalSqn := message.totalOrderSeqNum
  ancestorId := message.ancestorId
  data := buffer

end AmiMsgPacket

inductive RepMessage where
  | kLocalSync (sessionId : Nat)
  | kPeerSync (message : PeerSyncMsg)
  | kAmiPacket (packet : AmiMsgPacket)
  | unknown

end AdkAaf.AmiBridge
