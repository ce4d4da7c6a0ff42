import AdkAaf.Lib.LittleEndian
import Mathlib.Data.UInt

/-! The layout of a message record in the data file of a track: what
`RxMessageTrack::WriteMessage` and `TxMessageTrack::WriteMessage` write, and how
`RecordReader::ReadNextMessage` and `RecordDataTracker::ReadOneAppMessage` read it.

A file is a list of bytes, integers lie in it as in the memory of the machine, which is
little-endian. A `MessageHeader` is opaque, with a size that is a multiple of eight, and
is followed by the application data in a `Message`. Neither reader is given a `msg_prop`
to store, and the branches for it are left out. -/

set_option autoImplicit false

namespace AdkAaf.Recorder

open Lib.LittleEndian

/-- The sizes of what lies outside the recorder: `sizeof(MessageHeader)`,
`AMI_MAX_MESSAGE_SIZE_INTERNAL`, and how much application data the message buffer of a
reader has room for. -/
structure Sizes where
  messageHeader : Nat
  aligned : 8 ∣ messageHeader
  maxMessageSize : Nat
  room : Nat

/-- The loop of `CalCheckSum`: words of eight bytes, then single bytes. -/
def sumWords : List UInt8 → UInt64
  | b0 :: b1 :: b2 :: b3 :: b4 :: b5 :: b6 :: b7 :: rest =>
    decode64 [b0, b1, b2, b3, b4, b5, b6, b7] + sumWords rest
  | bytes => (bytes.map UInt8.toUInt64).sum

def calCheckSum (buffer : List UInt8) (rem : UInt32) : UInt32 :=
  (sumWords buffer + rem.toUInt64).toUInt32

structure ExMessageHeader where
  msgProp : UInt32
  pad1 : UInt32
  cStreamSqn : UInt64
  cTopicSqn : UInt64
  cEndpointSqn : UInt64
  amiUserContext0 : UInt64
  amiUserContext1 : UInt64
  recorderReceiveMsgTimeNs : UInt64

namespace ExMessageHeader

def size : Nat := 56

def bytes (header : ExMessageHeader) : List UInt8 :=
  encode32 header.msgProp ++ encode32 header.pad1 ++ encode64 header.cStreamSqn ++
    encode64 header.cTopicSqn ++ encode64 header.cEndpointSqn ++
    encode64 header.amiUserContext0 ++ encode64 header.amiUserContext1 ++
    encode64 header.recorderReceiveMsgTimeNs

def ofBytes (bytes : List UInt8) : ExMessageHeader where
  msgProp := decode32 (bytes.take 4)
  pad1 := decode32 ((bytes.drop 4).take 4)
  cStreamSqn := decode64 ((bytes.drop 8).take 8)
  cTopicSqn := decode64 ((bytes.drop 16).take 8)
  cEndpointSqn := decode64 ((bytes.drop 24).take 8)
  amiUserContext0 := decode64 ((bytes.drop 32).take 8)
  amiUserContext1 := decode64 ((bytes.drop 40).take 8)
  recorderReceiveMsgTimeNs := decode64 ((bytes.drop 48).take 8)

end ExMessageHeader

/-- `MsgRecord`, with the data that `app_data` points to. -/
structure MsgRecord (sizes : Sizes) where
  endpointId : UInt32
  transportId : UInt32
  streamSqn : UInt64
  topicSqn : UInt64
  appDataLen : UInt32
  msgHeader : List UInt8
  exMsgHeader : ExMessageHeader
  appData : List UInt8
  headerLength : msgHeader.length = sizes.messageHeader
  dataLength : appData.length = appDataLen.toNat

inductive Tag where
  | rx
  | tx
  deriving DecidableEq

/-- The stream of the data file, `crc_` and `cur_msgdata_filepos_`. -/
structure Writer where
  output : List UInt8 := []
  crc : UInt32 := 0
  curMsgdataFilepos : Nat := 0

namespace Writer

variable {sizes : Sizes} (writer : Writer)

def sputn (bytes : List UInt8) : Writer := { writer with output := writer.output ++ bytes }

/-- `MsgCRCCalFunc`, where `IsUseCRC()` holds. -/
def addCrc (useCrc : Bool) (bytes : List UInt8) : Writer :=
  if useCrc then { writer with crc := calCheckSum bytes writer.crc } else writer

def writeMsgEndpointId (useCrc : Bool) (record : MsgRecord sizes) : Writer :=
  (writer.sputn (encode32 record.endpointId)).addCrc useCrc (encode32 record.endpointId)

def writeMsgTransportId (useCrc : Bool) (record : MsgRecord sizes) : Writer :=
  (writer.sputn (encode32 record.transportId)).addCrc useCrc (encode32 record.transportId)

/-- `WriteAppMsg`; the checksum skips `ex_msg_header`. -/
def writeAppMsg (useCrc : Bool) (record : MsgRecord sizes) : Option Writer :=
  if sizes.maxMessageSize < record.appDataLen.toNat then
    none
  else
    let writer := writer.sputn (encode64 record.streamSqn ++ encode64 record.topicSqn)
    let writer := writer.sputn
      (encode32 record.appDataLen ++ record.msgHeader ++ record.exMsgHeader.bytes)
    let writer := writer.sputn record.appData
    let writer := writer.addCrc useCrc (encode64 record.streamSqn ++ encode64 record.topicSqn)
    let writer := writer.addCrc useCrc (encode32 record.appDataLen)
    let writer := writer.addCrc useCrc record.msgHeader
    some (writer.addCrc useCrc record.appData)

def getMessageFixLen (sizes : Sizes) : Tag → Nat
  | .rx => 4 * 2 + (8 + 8 + 4 + sizes.messageHeader + ExMessageHeader.size)
  | .tx => 8 + 8 + 4 + sizes.messageHeader + ExMessageHeader.size

def writeMessage (tag : Tag) (useCrc : Bool) (record : MsgRecord sizes) : Option Writer :=
  let fixLen := getMessageFixLen sizes tag + record.appDataLen.toNat
  let totalLen := if useCrc then fixLen + 4 else fixLen
  let writer := if useCrc then { writer with crc := 0 } else writer
  let identified :=
    match tag with
    | .rx => (writer.writeMsgEndpointId useCrc record).writeMsgTransportId useCrc record
    | .tx => writer
  (identified.writeAppMsg useCrc record).map fun writer =>
    let writer := if useCrc then writer.sputn (encode32 writer.crc) else writer
    { writer with curMsgdataFilepos := writer.curMsgdataFilepos + totalLen }

/-- Messages recorded one after the other, with the position each has in the index. -/
def writeMessages (tag : Tag) (useCrc : Bool) :
    Writer → List (MsgRecord sizes) → Option (Writer × List Nat)
  | writer, [] => some (writer, [])
  | writer, record :: rest =>
    (writer.writeMessage tag useCrc record).bind fun next =>
      (writeMessages tag useCrc next rest).map fun (final, positions) =>
        (final, writer.curMsgdataFilepos :: positions)

end Writer

/-- What a reader fills in of an `AmiMessage`. -/
structure AmiMessage where
  endpointId : UInt32 := 0
  transportId : UInt32 := 0
  streamSqn : UInt64 := 0
  topicSqn : UInt64 := 0
  appDataLen : UInt32 := 0
  msgHeader : List UInt8 := []
  msgProp : UInt32 := 0
  cStreamSqn : UInt64 := 0
  cTopicSqn : UInt64 := 0
  cEndpointSqn : UInt64 := 0
  amiPersistentContext0 : UInt64 := 0
  amiPersistentContext1 : UInt64 := 0
  recorderReceiveMsgTimeNs : UInt64 := 0
  appData : List UInt8 := []

def AmiMessage.setExMsgHeader (message : AmiMessage) (header : ExMessageHeader) : AmiMessage :=
  { message with
    cStreamSqn := header.cStreamSqn
    cTopicSqn := header.cTopicSqn
    cEndpointSqn := header.cEndpointSqn
    msgProp := header.msgProp
    amiPersistentContext0 := header.amiUserContext0
    amiPersistentContext1 := header.amiUserContext1
    recorderReceiveMsgTimeNs := header.recorderReceiveMsgTimeNs }

/-- The file ends, the length is above the maximum, the checksum differs, or the data
runs over the buffer of the reader. -/
inductive Failure where
  | eof
  | length
  | crc
  | overrun
  deriving DecidableEq

/-- The option of the file header, and `is_check_crc_`. -/
structure CrcMode where
  fileCrc : Bool
  isCheckCrc : Bool

/-- The words over which a reader computes the checksum after it has read a message. -/
def CrcMode.addMessage (mode : CrcMode) (message : AmiMessage) (crc : UInt32) : UInt32 :=
  if mode.isCheckCrc && mode.fileCrc then
    let crc := calCheckSum (encode64 message.streamSqn ++ encode64 message.topicSqn) crc
    let crc := calCheckSum (encode32 message.appDataLen) crc
    calCheckSum (message.msgHeader ++ message.appData) crc
  else
    crc

def CrcMode.addId (mode : CrcMode) (id crc : UInt32) : UInt32 :=
  if mode.isCheckCrc && mode.fileCrc then calCheckSum (encode32 id) crc else crc

/-- `RecordReader`: the rest of the data file behind its position, `crc_`, and the message
that is filled. -/
structure RecordReader where
  input : List UInt8
  crc : UInt32
  message : AmiMessage

namespace RecordReader

variable (mode : CrcMode) (reader : RecordReader)

def sgetn (count : Nat) : Except Failure (List UInt8 × RecordReader) :=
  if count ≤ reader.input.length then
    .ok (reader.input.take count, { reader with input := reader.input.drop count })
  else
    .error .eof

def readMsgEndpointId : Except Failure RecordReader := do
  let (bytes, reader) ← reader.sgetn 4
  let id := decode32 bytes
  return { reader with
    message := { reader.message with endpointId := id }
    crc := mode.addId id reader.crc }

def readMsgTransportId : Except Failure RecordReader := do
  let (bytes, reader) ← reader.sgetn 4
  let id := decode32 bytes
  return { reader with
    message := { reader.message with transportId := id }
    crc := mode.addId id reader.crc }

def readAppMsg (sizes : Sizes) (mode : CrcMode) (reader : RecordReader) :
    Except Failure RecordReader := do
  let (sqns, reader) ← reader.sgetn 16
  let (len, reader) ← reader.sgetn 4
  let appDataLen := decode32 len
  if sizes.maxMessageSize < appDataLen.toNat then
    throw .length
  let (header, reader) ← reader.sgetn sizes.messageHeader
  let (exHeader, reader) ← reader.sgetn ExMessageHeader.size
  if sizes.room < appDataLen.toNat then
    throw .overrun
  let (data, reader) ← reader.sgetn appDataLen.toNat
  let message := { reader.message with
    streamSqn := decode64 (sqns.take 8)
    topicSqn := decode64 (sqns.drop 8)
    appDataLen
    msgHeader := header
    appData := data }.setExMsgHeader (.ofBytes exHeader)
  return { reader with message, crc := mode.addMessage message reader.crc }

def checkCrc : Except Failure RecordReader := do
  let (bytes, reader) ← reader.sgetn 4
  if !mode.isCheckCrc then
    return reader
  if decode32 bytes ≠ reader.crc then
    throw .crc
  return { reader with crc := 0 }

def checkFileCrc : Except Failure RecordReader :=
  if mode.fileCrc then reader.checkCrc mode else .ok reader

/-- `ReadNextMessage<RxTag>`, and the general template for `TxTag`. -/
def readNextMessage (sizes : Sizes) (mode : CrcMode) (reader : RecordReader) :
    Tag → Except Failure RecordReader
  | .rx => do
      let reader := if mode.fileCrc then { reader with crc := 0 } else reader
      let reader ← reader.readMsgEndpointId mode
      let reader ← reader.readMsgTransportId mode
      let reader ← reader.readAppMsg sizes mode
      reader.checkFileCrc mode
  | .tx => do
      let reader := if mode.isCheckCrc && mode.fileCrc then { reader with crc := 0 } else reader
      let reader ← reader.readAppMsg sizes mode
      reader.checkFileCrc mode

def readMessages (sizes : Sizes) (mode : CrcMode) (tag : Tag) :
    Nat → RecordReader → Except Failure (List AmiMessage × RecordReader)
  | 0, reader => .ok ([], reader)
  | count + 1, reader => do
      let reader ← reader.readNextMessage sizes mode tag
      let (messages, final) ← readMessages sizes mode tag count reader
      return (reader.message :: messages, final)

end RecordReader

namespace RecordDataTracker

/-- `offset`, `crc` and the message of `ReadOneAppMessage`. -/
structure Cursor where
  offset : Nat
  crc : UInt32
  message : AmiMessage

def pread64 (file : List UInt8) (count offset : Nat) : Except Failure (List UInt8) :=
  if count ≤ (file.drop offset).length then .ok ((file.drop offset).take count) else .error .eof

def Cursor.next (file : List UInt8) (count : Nat) (cursor : Cursor) :
    Except Failure (List UInt8 × Cursor) := do
  let bytes ← pread64 file count cursor.offset
  return (bytes, { cursor with offset := cursor.offset + count })

def readEndPointId (file : List UInt8) (mode : CrcMode) (cursor : Cursor) :
    Except Failure Cursor := do
  let (bytes, cursor) ← cursor.next file 4
  let id := decode32 bytes
  return { cursor with
    message := { cursor.message with endpointId := id }
    crc := mode.addId id cursor.crc }

def readTransportId (file : List UInt8) (mode : CrcMode) (cursor : Cursor) :
    Except Failure Cursor := do
  let (bytes, cursor) ← cursor.next file 4
  let id := decode32 bytes
  return { cursor with
    message := { cursor.message with transportId := id }
    crc := mode.addId id cursor.crc }

def readOneAppMessageData (sizes : Sizes) (file : List UInt8) (mode : CrcMode) (cursor : Cursor) :
    Except Failure Cursor := do
  let (sqns, cursor) ← cursor.next file 16
  let (len, cursor) ← cursor.next file 4
  let appDataLen := decode32 len
  if sizes.maxMessageSize < appDataLen.toNat then
    throw .length
  let (header, cursor) ← cursor.next file sizes.messageHeader
  let (exHeader, cursor) ← cursor.next file ExMessageHeader.size
  if sizes.room < appDataLen.toNat then
    throw .overrun
  let (data, cursor) ← cursor.next file appDataLen.toNat
  let message := { cursor.message with
    streamSqn := decode64 (sqns.take 8)
    topicSqn := decode64 (sqns.drop 8)
    appDataLen
    msgHeader := header
    appData := data }.setExMsgHeader (.ofBytes exHeader)
  return { cursor with message, crc := mode.addMessage message cursor.crc }

/-- `CheckCRC`, which leaves the offset where it is. -/
def checkCrc (file : List UInt8) (mode : CrcMode) (cursor : Cursor) : Except Failure Cursor :=
  if mode.fileCrc && mode.isCheckCrc then do
    let bytes ← pread64 file 4 cursor.offset
    if decode32 bytes ≠ cursor.crc then
      throw .crc
    return { cursor with crc := 0 }
  else
    .ok cursor

def readOneAppMessage (sizes : Sizes) (file : List UInt8) (mode : CrcMode) (tag : Tag)
    (msgPos : Nat) (crc : UInt32) (message : AmiMessage) : Except Failure Cursor := do
  let cursor : Cursor := { offset := msgPos, crc, message }
  let cursor ←
    match tag with
    | .rx => (readEndPointId file mode cursor).bind (readTransportId file mode)
    | .tx => .ok cursor
  let cursor ← readOneAppMessageData sizes file mode cursor
  checkCrc file mode cursor

end RecordDataTracker

end AdkAaf.Recorder
