import AdkAaf.Recorder.RecordFormat

/-! The files of a track, and `RecoverIndexDataFiles()` of a recorder that was killed.

A data file is its bytes. An entry of an index file is an `OrdinalIndex` of sixteen bytes;
the file is the positions in its complete entries and the bytes behind the last of them.
System calls on the files succeed. -/

set_option autoImplicit false

namespace AdkAaf.Recorder

open Lib.LittleEndian

namespace OrdinalIndex

def valueSize : Nat := 16

def getMsgIndexPos (sqn : Nat) : Nat := (sqn - 1) * valueSize

def getMsgSqn (indexFilePos : Nat) : Nat := indexFilePos / valueSize

end OrdinalIndex

/-- `torn` is what lies behind the last complete entry. -/
structure IndexFile where
  entries : List Nat
  torn : List UInt8
  short : torn.length < OrdinalIndex.valueSize

namespace IndexFile

def empty : IndexFile where
  entries := []
  torn := []
  short := by decide

def ofEntries (entries : List Nat) : IndexFile where
  entries
  torn := []
  short := by decide

def size (file : IndexFile) : Nat := file.entries.length * OrdinalIndex.valueSize + file.torn.length

/-- `ftruncate` to so many entries; a longer file has zeros behind its old bytes. -/
def truncate (file : IndexFile) (count : Nat) : IndexFile :=
  if count ≤ file.entries.length then
    ofEntries (file.entries.take count)
  else
    let completed := decode ((file.torn ++ List.replicate 8 0).take 8)
    ofEntries (file.entries ++ completed :: List.replicate (count - file.entries.length - 1) 0)

theorem getMsgSqn_size (file : IndexFile) :
    OrdinalIndex.getMsgSqn file.size = file.entries.length := by
  have short := file.short
  rw [OrdinalIndex.getMsgSqn, size]
  rw [OrdinalIndex.valueSize] at short ⊢
  omega

theorem truncate_of_le {file : IndexFile} {count : Nat} (le : count ≤ file.entries.length) :
    file.truncate count = ofEntries (file.entries.take count) := if_pos le

@[simp] theorem entries_ofEntries (entries : List Nat) : (ofEntries entries).entries = entries :=
  rfl

end IndexFile

inductive KeyType where
  | transport
  | endpoint
  | stream
  deriving DecidableEq

structure Key where
  type : KeyType
  value : UInt32
  deriving DecidableEq

/-- What is fixed for a track: the sizes, its direction, the options of the data file and
of the reader, the length of the file header, and `stream_id` of a message header. -/
structure TrackSetup where
  sizes : Sizes
  tag : Tag
  mode : CrcMode
  headerLength : Nat
  streamId : List UInt8 → UInt32

/-- The directory of a track: its data file, the ordinal index and the files whose names
are those of key indexes of the track, which for a `TxMessageTrack` are by stream only. -/
structure Directory where
  msgdata : List UInt8
  index : IndexFile
  keyIndex : List (Key × IndexFile)

/-- The position of the file of an index buffer, and `next_msg_sqn_`. -/
structure IndexBuffer where
  position : Nat
  nextMsgSqn : Nat

/-- What a recovery restores; `last_msg_sqn_map_` is of a `RxMessageTrack`. -/
structure Track where
  recordedMsgCnt : Nat
  curMsgdataFilepos : Nat
  msgdataPosition : Nat
  ordinalIndex : IndexBuffer
  keyIndex : List (Key × IndexBuffer)
  lastMsgSqnMap : List (UInt32 × UInt64)

/-- `kFailure` of a recovery, or a message that runs over the buffer of the reader. -/
inductive RecoveryError where
  | failure
  | overrun

/-- How `ReadHistMessage` ends: with `kSuccess`, because it cannot seek to the first
message, or because it cannot read one. -/
inductive ReadOutcome where
  | success
  | seekFailed
  | unread (failure : Failure)
  deriving DecidableEq

namespace TrackSetup

variable (setup : TrackSetup)

def newReader : RecordReader where
  input := []
  crc := 0
  message := {}

def readMessageAt (msgdata : List UInt8) (pos : Nat) (reader : RecordReader) :
    Except Failure RecordReader :=
  { reader with input := msgdata.drop (setup.headerLength + pos) }.readNextMessage
    setup.sizes setup.mode setup.tag

/-- The loop of `ReadHistMessage` over `count` entries of a key index, with the messages
that the callback was given. -/
def readThrough (msgdata : List UInt8) :
    Nat → List Nat → RecordReader → List AmiMessage × ReadOutcome
  | 0, _, _ => ([], .success)
  | _ + 1, [], _ => ([], .unread .eof)
  | count + 1, pos :: rest, reader =>
    match setup.readMessageAt msgdata pos reader with
    | .error failure => ([], .unread failure)
    | .ok reader =>
      let (messages, outcome) := readThrough msgdata count rest reader
      (reader.message :: messages, outcome)

/-- `ReadHistMessage` by key, for the messages from `first` to before `last`. -/
def readHistMessageByKey (msgdata : List UInt8) (file : IndexFile) (first last : Nat) :
    List AmiMessage × ReadOutcome :=
  let entries := file.entries.drop (first - 1)
  match entries.head? with
  | none => ([], .unread .eof)
  | some pos =>
    if msgdata.length < setup.headerLength + pos then
      ([], .seekFailed)
    else
      setup.readThrough msgdata (last - first) entries newReader

def recordLength (message : AmiMessage) : Nat :=
  Writer.getMessageFixLen setup.sizes setup.tag + message.appDataLen.toNat +
    (if setup.mode.fileCrc then 4 else 0)

/-- `GetLastMessageLen`, for the message at a position of the ordinal index. -/
def getLastMessageLen (msgdata : List UInt8) (pos : Nat) : Except RecoveryError Nat :=
  if msgdata.length < setup.headerLength + pos then
    .error .failure
  else
    match setup.readMessageAt msgdata pos newReader with
    | .ok reader => .ok (setup.recordLength reader.message)
    | .error .overrun => .error .overrun
    | .error _ => .error .failure

def recoverIndexFile (file : IndexFile) : IndexBuffer :=
  let lastMsgSqn := OrdinalIndex.getMsgSqn file.size
  { position := OrdinalIndex.getMsgIndexPos (lastMsgSqn + 1), nextMsgSqn := lastMsgSqn }

def truncateIndexFile (file : IndexFile) (newLastMsgSqn : Nat) : IndexFile × IndexBuffer :=
  (file.truncate newLastMsgSqn,
    { position := OrdinalIndex.getMsgIndexPos (newLastMsgSqn + 1), nextMsgSqn := newLastMsgSqn })

/-- `kMsgToFreeQMaxLength`, from an index buffer of 2048 bytes. -/
def kMsgToFreeQMaxLength : Nat := 2048 / OrdinalIndex.valueSize

/-- A key index file after its recovery, with what is kept for a transport in
`last_msg_sqn_map_`. -/
structure RecoveredKey where
  file : IndexFile
  buffer : IndexBuffer
  lastMsgSqn : UInt64

/-- `RecoverKeyIndexFile`, and the block behind it in `RecoverIndexDataFiles` that reads
back the last messages of the key. Only the block for a `RxMessageTrack` fails on a wrong
checksum. -/
def recoverKeyIndexFile (msgdata : List UInt8) (file : IndexFile) :
    Except RecoveryError RecoveredKey :=
  let buffer := recoverIndexFile file
  let lastMsgSqn := buffer.nextMsgSqn
  if lastMsgSqn = 0 then
    .ok { file, buffer, lastMsgSqn := 0 }
  else
    let beginSqn :=
      if lastMsgSqn > kMsgToFreeQMaxLength then lastMsgSqn - kMsgToFreeQMaxLength else 1
    let (messages, outcome) := setup.readHistMessageByKey msgdata file beginSqn (lastMsgSqn + 1)
    if outcome = .unread .overrun then
      .error .overrun
    else if outcome = .unread .crc ∧ setup.tag = .rx then
      .error .failure
    else
      let newIndex := beginSqn - 1 + messages.length
      let topicSqn :=
        match messages.getLast? with
        | some message => message.topicSqn
        | none => UInt64.ofNat lastMsgSqn
      if lastMsgSqn = newIndex then
        .ok { file, buffer, lastMsgSqn := topicSqn }
      else
        let (file, buffer) := truncateIndexFile file newIndex
        .ok { file, buffer, lastMsgSqn := topicSqn }

def recoverKeyIndexFiles (msgdata : List UInt8) :
    List (Key × IndexFile) → Except RecoveryError (List (Key × RecoveredKey))
  | [] => .ok []
  | (key, file) :: rest => do
      let recovered ← setup.recoverKeyIndexFile msgdata file
      let others ← recoverKeyIndexFiles msgdata rest
      return (key, recovered) :: others

def recoverMsgdataFilepos (directory : Directory) (recordedMsgCnt : Nat) :
    Except RecoveryError Nat :=
  if recordedMsgCnt = 0 then
    .ok 0
  else
    match directory.index.entries[recordedMsgCnt - 1]? with
    | none => .error .failure
    | some pos => (setup.getLastMessageLen directory.msgdata pos).map (pos + ·)

def recoveredDirectory (directory : Directory) (msgdata : List UInt8)
    (keyIndex : List (Key × RecoveredKey)) : Directory :=
  { directory with
    msgdata
    keyIndex := keyIndex.map fun (key, recovered) => (key, recovered.file) }

def recoveredTrack (ordinalIndex : IndexBuffer) (curMsgdataFilepos msgdataPosition : Nat)
    (keyIndex : List (Key × RecoveredKey)) : Track where
  recordedMsgCnt := ordinalIndex.nextMsgSqn
  curMsgdataFilepos
  msgdataPosition
  ordinalIndex
  keyIndex := keyIndex.map fun (key, recovered) => (key, recovered.buffer)
  lastMsgSqnMap := (keyIndex.filter fun (key, _) => key.type = .transport).map
    fun (key, recovered) => (key.value, recovered.lastMsgSqn)

/-- `RecoverIndexDataFiles()` -/
def recoverIndexDataFiles (directory : Directory) :
    Except RecoveryError (Directory × Track) := do
  let ordinalIndex := recoverIndexFile directory.index
  let curMsgdataFilepos ← setup.recoverMsgdataFilepos directory ordinalIndex.nextMsgSqn
  let phyFilePos := setup.headerLength + curMsgdataFilepos
  if directory.msgdata.length < phyFilePos then
    throw .failure
  let msgdata := directory.msgdata.take phyFilePos
  let keyIndex ← setup.recoverKeyIndexFiles msgdata directory.keyIndex
  return (recoveredDirectory directory msgdata keyIndex,
    recoveredTrack ordinalIndex curMsgdataFilepos phyFilePos keyIndex)

end TrackSetup

end AdkAaf.Recorder
