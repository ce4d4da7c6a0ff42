import AdkAaf.Recorder.Recovery.Files

/-! `RecoverIndexDataFiles(LostMsg)`: after a reboot the index files are written anew from
the data file. -/

set_option autoImplicit false

namespace AdkAaf.Recorder

/-- `BufferWrite`: what it has written to its file, and its buffer. -/
structure BufferWrite where
  written : List Nat := []
  buffer : List Nat := []

namespace BufferWrite

variable (writer : BufferWrite)

/-- `Write` of one entry, which is never larger than the buffer. -/
def write (pos : Nat) : BufferWrite :=
  if (writer.buffer.length + 1) * OrdinalIndex.valueSize > 4096 ∧ writer.buffer.length > 0 then
    { written := writer.written ++ writer.buffer, buffer := [pos] }
  else
    { writer with buffer := writer.buffer ++ [pos] }

def close : List Nat := writer.written ++ writer.buffer

@[simp] theorem close_write (pos : Nat) : (writer.write pos).close = writer.close ++ [pos] := by
  rw [write]
  split
  next => rfl
  next => exact (List.append_assoc ..).symm

end BufferWrite

/-- Entries written over a file from its start; the rest of the file stays. -/
def IndexFile.overwrite (file : IndexFile) (entries : List Nat) : IndexFile :=
  if entries.length ≤ file.entries.length then
    { file with entries := entries ++ file.entries.drop entries.length }
  else
    .ofEntries entries

/-- The state of the callback: the counters, `keyindex_type_sqn_map_` with the number of
messages of a key, `rewrite_partial_index_file_map_` with the type in the name of the file
that was opened, the files in the directory, and `ordinal_index_write_`. -/
structure Rebuild where
  curMsgdataFilepos : Nat := 0
  recordedMsgCnt : Nat := 0
  lastMsgSqnMap : List (UInt32 × UInt64) := []
  keySqn : Key → Option Nat := fun _ => none
  rewrite : UInt32 → Option (KeyType × BufferWrite) := fun _ => none
  files : List (Key × IndexFile)
  ordinalIndexWrite : BufferWrite := {}

def setLastMsgSqn (id : UInt32) (sqn : UInt64) : List (UInt32 × UInt64) → List (UInt32 × UInt64)
  | [] => [(id, sqn)]
  | (other, last) :: rest =>
    if other = id then (id, sqn) :: rest else (other, last) :: setLastMsgSqn id sqn rest

namespace Rebuild

variable (state : Rebuild)

/-- `BufferWrite::Open`, which creates the file of a key unless it exists. -/
def openFile (key : Key) : List (Key × IndexFile) :=
  if key ∈ state.files.map Prod.fst then state.files else state.files ++ [(key, .empty)]

/-- `UpdateLastMsgSqn`; the buffers are found by the number alone. -/
def updateLastMsgSqn (key : Key) (pos : Nat) : Rebuild :=
  let count := (state.keySqn key).getD 0 + 1
  let keySqn other := if other = key then some count else state.keySqn other
  match state.rewrite key.value with
  | some (type, writer) =>
    { state with
      keySqn
      rewrite := fun id =>
        if id = key.value then some (type, writer.write pos) else state.rewrite id }
  | none =>
    { state with
      keySqn
      files := state.openFile key
      rewrite := fun id =>
        if id = key.value then some (key.type, ({} : BufferWrite).write pos)
        else state.rewrite id }

def updateKeys (pos : Nat) : List Key → Rebuild → Rebuild
  | [], state => state
  | key :: rest, state => updateKeys pos rest (state.updateLastMsgSqn key pos)

end Rebuild

namespace TrackSetup

variable (setup : TrackSetup)

variable (message : AmiMessage) (state : Rebuild)

/-- The keys of a message that was read, in the order in which they are updated. -/
def messageKeys : List Key :=
  match setup.tag with
  | .rx => [⟨.transport, message.transportId⟩, ⟨.endpoint, message.endpointId⟩,
      ⟨.stream, setup.streamId message.msgHeader⟩]
  | .tx => [⟨.stream, setup.streamId message.msgHeader⟩]

def isValid : Bool :=
  match setup.tag with
  | .rx => message.transportId ≠ 0 && message.endpointId ≠ 0 &&
      message.recorderReceiveMsgTimeNs ≠ 0
  | .tx => setup.streamId message.msgHeader ≠ 0 && message.recorderReceiveMsgTimeNs ≠ 0

def indexMessage : Rebuild :=
  let ordinalIndex := state.curMsgdataFilepos
  let state := { state with
    curMsgdataFilepos := state.curMsgdataFilepos + setup.recordLength message
    recordedMsgCnt := state.recordedMsgCnt + 1
    lastMsgSqnMap :=
      match setup.tag with
      | .rx => setLastMsgSqn message.transportId message.topicSqn state.lastMsgSqnMap
      | .tx => state.lastMsgSqnMap }
  let state := state.updateKeys ordinalIndex (setup.messageKeys message)
  { state with ordinalIndexWrite := state.ordinalIndexWrite.write ordinalIndex }

/-- The loop of `ReadHistMessage` to the most recent message, which ends with the first
message that is not read or not taken. Every record has a length, so the length of the
file is fuel enough. -/
def indexMessages : Nat → RecordReader → Rebuild → Except RecoveryError Rebuild
  | 0, _, state => .ok state
  | fuel + 1, reader, state =>
    match reader.readNextMessage setup.sizes setup.mode setup.tag with
    | .error .overrun => .error .overrun
    | .error _ => .ok state
    | .ok reader =>
      if setup.isValid reader.message then
        indexMessages fuel reader (setup.indexMessage reader.message state)
      else
        .ok state

/-- `ReadRxHistMessage` or `ReadTxHistMessage` from `kBegin` on, which begins at the first
entry of the ordinal index and reads nothing without one. -/
def indexDataFile (directory : Directory) : Except RecoveryError Rebuild :=
  let state : Rebuild := { files := directory.keyIndex }
  match directory.index.entries.head? with
  | none => .ok state
  | some pos =>
    if directory.msgdata.length < setup.headerLength + pos then
      .ok state
    else
      setup.indexMessages (directory.msgdata.length + 1)
        { newReader with input := directory.msgdata.drop (setup.headerLength + pos) } state

/-- `RewriteIndexFileDone`, for one key index file. -/
def rewriteIndexFile (key : Key) (file : IndexFile) : IndexFile :=
  match state.rewrite key.value with
  | some (type, writer) => if type = key.type then file.overwrite writer.close else file
  | none => file

/-- `RecoverIndexFile(LostMsg)`; `next_msg_sqn_` stays that of a new buffer. -/
def recoverIndexFileLostMsg (file : IndexFile) (lastMsgSqn : Nat) : IndexFile × IndexBuffer :=
  (file.truncate lastMsgSqn,
    { position := OrdinalIndex.getMsgIndexPos (lastMsgSqn + 1), nextMsgSqn := 0 })

/-- `RecoverKeyIndexFile(LostMsg)`, which removes the file of a key without messages. -/
def recoverKeyIndexFileLostMsg (key : Key) (file : IndexFile) :
    Option (Key × IndexFile × IndexBuffer) :=
  (state.keySqn key).map fun lastMsgSqn =>
    (key, recoverIndexFileLostMsg (rewriteIndexFile state key file) lastMsgSqn)

def truncateMsgdata (msgdata : List UInt8) (length : Nat) : List UInt8 :=
  msgdata.take length ++ List.replicate (length - msgdata.length) 0

/-- `RecoverIndexDataFiles(LostMsg)` -/
def recoverIndexDataFilesLostMsg (directory : Directory) :
    Except RecoveryError (Directory × Track) := do
  let state ← setup.indexDataFile directory
  let phyFilePos := setup.headerLength + state.curMsgdataFilepos
  let index := directory.index.overwrite state.ordinalIndexWrite.close
  let (index, ordinalIndex) := recoverIndexFileLostMsg index state.recordedMsgCnt
  let keyIndex := state.files.filterMap fun (key, file) =>
    recoverKeyIndexFileLostMsg state key file
  return (
    { msgdata := truncateMsgdata directory.msgdata phyFilePos
      index
      keyIndex := keyIndex.map fun (key, file, _) => (key, file) },
    { recordedMsgCnt := state.recordedMsgCnt
      curMsgdataFilepos := state.curMsgdataFilepos
      msgdataPosition := phyFilePos
      ordinalIndex
      keyIndex := keyIndex.map fun (key, _, buffer) => (key, buffer)
      lastMsgSqnMap := state.lastMsgSqnMap })

end TrackSetup

end AdkAaf.Recorder
