import AdkAaf.Lib.CrashTriple
import AdkAaf.Recorder.Recovery.Numbering

/-! The buffers between a `RxMessageTrack` or `TxMessageTrack` and its files, and the calls
of the recorder that fill and flush them.

A buffer holds pointers into the messages; what lies behind a pointer into a message that
was released is unknown. A call is a program that is killed between two system calls:
`writev` writes any number of bytes, `Recorder::to_exit` answers anything, a new index
file may not open, and the data file may not be preallocated. Positions in a data file
count from behind its header, which was synced when the file was opened. -/

set_option autoImplicit false

namespace AdkAaf.Recorder.FlushChain

open Lib.CrashTriple Lib.CrashTriple.Program Lib.LittleEndian

inductive FileId where
  | data
  | key (key : Key)
  | ordinal
  deriving DecidableEq

/-- `buf_len_` of each file, and what memory holds that was released. -/
structure Setup extends TrackSetup where
  bufLen : FileId → Nat
  reuse : List UInt8 → List UInt8
  sameLength : ∀ bytes, (reuse bytes).length = bytes.length

/-- An `iovec`, and whether it points into a message that was released. -/
structure Chunk where
  bytes : List UInt8
  released : Bool

/-- The file behind its header, `buf_vec_`, and `pptr() - pbase()`. -/
structure FileBuffer where
  disk : List UInt8 := []
  bufVec : List Chunk := []
  filled : Nat := 0

def bytesOf (bufVec : List Chunk) : List UInt8 := (bufVec.map Chunk.bytes).flatten

def FileBuffer.pending (buffer : FileBuffer) : List UInt8 := bytesOf buffer.bufVec

def FileBuffer.stream (buffer : FileBuffer) : List UInt8 := buffer.disk ++ buffer.pending

/-- An entry of a message queue: a message that is recorded at a position of the data file,
or one that was filtered. -/
inductive RecordedMsgStuff (sizes : Sizes) where
  | recorded (record : MsgRecord sizes) (filepos : Nat)
  | filtered

/-- `keys` are the key index buffers as they are tied between that of the ordinal index and
that of the data file. `running` has the counters of the buffers and every message that was
taken to be recorded, `released` the entries that were freed. -/
structure MessageTrack (setup : Setup) where
  files : FileId → FileBuffer := fun _ => {}
  keys : List Key := []
  msgsToFree : List (RecordedMsgStuff setup.sizes) := []
  released : List (RecordedMsgStuff setup.sizes) := []
  curMsgdataFilepos : Nat := 0
  running : setup.toTrackSetup.Running := {}

namespace MessageTrack

variable {setup : Setup} (track : MessageTrack setup)

def disk (file : FileId) : List UInt8 := (track.files file).disk

def stream (file : FileId) : List UInt8 := (track.files file).stream

def setFile (file : FileId) (buffer : FileBuffer) : MessageTrack setup :=
  { track with files := fun other => if other = file then buffer else track.files other }

/-- A file and those that are flushed before it, the `tiee_` of each behind it. -/
def ties : FileId → List FileId
  | .data => [.data]
  | .key key => (track.keys.dropWhile (· ≠ key)).map .key ++ [.data]
  | .ordinal => .ordinal :: (track.keys.map .key ++ [.data])

/-- A pointer into the message in hand, which may be among the messages that were freed. -/
def pointer (bytes : List UInt8) : Chunk :=
  if track.msgsToFree = [] then ⟨setup.reuse bytes, true⟩ else ⟨bytes, false⟩

/-- `FreeAllMessages`; pointers that are left in a buffer dangle. -/
def freeAllMessages : MessageTrack setup :=
  { track with
    files := fun file =>
      { track.files file with
        bufVec := (track.files file).bufVec.map fun chunk => ⟨setup.reuse chunk.bytes, true⟩ }
    released := track.released ++ track.msgsToFree
    msgsToFree := [] }

end MessageTrack

inductive Answer where
  | wrote (count : Nat)
  | toExit (answer : Bool)
  | opened (success : Bool)
  | preallocated (success : Bool)
  deriving DecidableEq

namespace Answer

def wrote? : Answer → Option Nat
  | wrote count => some count
  | _ => none

def toExit? : Answer → Option Bool
  | toExit answer => some answer
  | _ => none

def opened? : Answer → Option Bool
  | opened success => some success
  | _ => none

def preallocated? : Answer → Option Bool
  | preallocated success => some success
  | _ => none

end Answer

abbrev Call (setup : Setup) (Value : Type) : Type := Program Answer (MessageTrack setup) Value

section Calls

variable {setup : Setup}

/-- `writev` of the chunks of a buffer, of which the caller has yet to take out what was
written. A failure writes nothing. -/
def writev (file : FileId) : Call setup Nat := do
  let count ← ask Answer.wrote?
  let track ← get
  let buffer := track.files file
  let written := min count buffer.pending.length
  modify fun track =>
    track.setFile file { buffer with disk := buffer.disk ++ buffer.pending.take written }
  return written

def trimBufVector : List Chunk → Nat → List Chunk
  | [], _ => []
  | chunk :: rest, writevRet =>
    if chunk.bytes.length ≤ writevRet then
      trimBufVector rest (writevRet - chunk.bytes.length)
    else
      { chunk with bytes := chunk.bytes.drop writevRet } :: rest

def trim (file : FileId) (writevRet : Nat) : Call setup Unit :=
  modify fun track =>
    let buffer := track.files file
    track.setFile file { buffer with bufVec := trimBufVector buffer.bufVec writevRet }

def reset (file : FileId) : Call setup Unit :=
  modify fun track => track.setFile file { track.files file with bufVec := [], filled := 0 }

/-- `WriteUntilExit`; false is `eof`. -/
def writeUntilExit (file : FileId) : Nat → Call setup Bool :=
  loop fun writeSize => do
    let written ← writev file
    let track ← get
    if written + writeSize = (track.files file).filled then
      reset file
      return .inr true
    else
      trim file written
      if ← ask Answer.toExit? then
        return .inr false
      else
        return .inl (writeSize + written)

def afterOverflow (file : FileId) : Call setup Unit :=
  modify fun track => if file = .ordinal then track.freeAllMessages else track

/-- `overflow` of the first file, after those it is tied to. -/
def overflow : List FileId → Call setup Bool
  | [] => return true
  | file :: tiee => do
      if ← overflow tiee then
        let track ← get
        if (track.files file).filled = 0 then
          afterOverflow file
          return true
        else
          let written ← writev file
          if written = (track.files file).filled then
            reset file
            afterOverflow file
            return true
          else
            trim file written
            writeUntilExit file written
      else
        return false

def sync : List FileId → Call setup Bool
  | [] => return true
  | file :: tiee => do
      let track ← get
      if 0 < (track.files file).filled then
        overflow (file :: tiee)
      else
        sync tiee

def pushBack (file : FileId) (bytes : List UInt8) : Call setup Unit :=
  modify fun track =>
    let buffer := track.files file
    track.setFile file { buffer with
      bufVec := buffer.bufVec ++ [track.pointer bytes]
      filled := buffer.filled + bytes.length }

/-- `writev` of bytes that were not buffered. -/
def writeDirectly (file : FileId) (bytes : List UInt8) : Call setup Nat := do
  let count ← ask Answer.wrote?
  let written := min count bytes.length
  modify fun track =>
    let buffer := track.files file
    track.setFile file { buffer with
      disk := buffer.disk ++ (track.pointer bytes).bytes.take written }
  return written

def xsputn (file : FileId) (bytes : List UInt8) : Call setup Nat := do
  let track ← get
  let bufAvail := setup.bufLen file - (track.files file).filled
  if bytes.length = 0 then
    return 0
  else if setup.bufLen file ≤ bytes.length then
    if ← overflow (track.ties file) then
      let written ← writeDirectly file bytes
      return if written = bytes.length then bytes.length else 0
    else
      return 0
  else if bufAvail < bytes.length then
    if ← overflow (track.ties file) then
      pushBack file bytes
      return bytes.length
    else
      return 0
  else if bytes.length = bufAvail then
    pushBack file bytes
    let _ ← overflow (track.ties file)
    return bytes.length
  else
    pushBack file bytes
    return bytes.length

/-- `sputn`, with the comparison that its callers make. -/
def sputn (file : FileId) (bytes : List UInt8) : Call setup Bool := do
  let written ← xsputn file bytes
  return decide (bytes.length ≤ written)

def syncToFile : Call setup Bool := do
  let track ← get
  let ret ← sync (track.ties .ordinal)
  modify MessageTrack.freeAllMessages
  return ret

def makeRoom : Call setup Bool := do
  let track ← get
  if TrackSetup.kMsgToFreeQMaxLength ≤ track.msgsToFree.length then
    syncToFile
  else
    return true

/-- `PushIntoRecordingMsgQ`; false is the exception. -/
def pushIntoRecordingMsgQ (stuff : RecordedMsgStuff setup.sizes) : Call setup Bool := do
  if ← makeRoom then
    modify fun track => { track with msgsToFree := track.msgsToFree ++ [stuff] }
    return true
  else
    return false

/-- `GetFileWriteBuffer`; false is a null pointer. -/
def getFileWriteBuffer (key : Key) : Call setup Bool := do
  let track ← get
  if key ∈ track.keys then
    return true
  else
    let success ← ask Answer.opened?
    if success then
      modify fun track => { track with keys := key :: track.keys }
    return success

def inTurn : List (Call setup Bool) → Call setup Bool
  | [] => return true
  | call :: rest => do
      if ← call then
        inTurn rest
      else
        return false

variable (record : MsgRecord setup.sizes)

def idPieces : List (List UInt8) :=
  match setup.tag with
  | .rx => [encode32 record.endpointId, encode32 record.transportId]
  | .tx => []

def appPieces : List (List UInt8) :=
  [encode64 record.streamSqn ++ encode64 record.topicSqn,
    encode32 record.appDataLen ++ record.msgHeader ++ record.exMsgHeader.bytes, record.appData]

/-- What `WriteCRC` writes, where `IsUseCRC()` holds. -/
def crcPieces : List (List UInt8) :=
  if setup.mode.fileCrc then [encode32 (appCrc record (idCrc setup.tag record))] else []

def checkLength : Call setup Bool :=
  return decide (record.appDataLen.toNat ≤ setup.sizes.maxMessageSize)

def writeMessage : Call setup Bool := do
  if ← inTurn [inTurn ((idPieces record).map (sputn .data)), checkLength record,
      inTurn ((appPieces record ++ crcPieces record).map (sputn .data))] then
    let fixLen := Writer.getMessageFixLen setup.sizes setup.tag + record.appDataLen.toNat
    let totalLen := if setup.mode.fileCrc then fixLen + 4 else fixLen
    modify fun track => { track with curMsgdataFilepos := track.curMsgdataFilepos + totalLen }
    return true
  else
    return false

/-- An `OrdinalIndex` in a file: a `std::streampos`, of which the second half is the state
of a conversion. -/
def entryBytes (filepos : Nat) : List UInt8 := encode 8 filepos ++ List.replicate 8 0

/-- The key indexes of a record, in the order in which it is entered in them. -/
def keyIndexes : List Key :=
  match setup.tag with
  | .rx => [⟨.stream, setup.streamId record.msgHeader⟩, ⟨.transport, record.transportId⟩,
      ⟨.endpoint, record.endpointId⟩]
  | .tx => [⟨.stream, setup.streamId record.msgHeader⟩]

/-- `WriteMsgOrdinalIndex`, for an index at a position. -/
def writeMsgOrdinalIndex (filepos : Nat) (file : FileId) : Call setup Bool :=
  sputn file (entryBytes filepos)

def MessageTrack.numbered (track : MessageTrack setup) (record : MsgRecord setup.sizes) :
    MsgRecord setup.sizes :=
  { record with exMsgHeader := setup.toTrackSetup.numberHeader track.running record }

def take : Call setup Bool := do
  modify fun track =>
    { track with running := setup.toTrackSetup.recordOneMessage track.running record }
  return true

/-- The data of a message goes before its entries in the key indexes, and these before the
one in the ordinal index. -/
def writeRecord (filepos : Nat) : Call setup Bool :=
  inTurn [writeMessage record,
    inTurn ((keyIndexes record).map fun key => writeMsgOrdinalIndex filepos (.key key)),
    writeMsgOrdinalIndex filepos .ordinal, ask Answer.preallocated?]

/-- `RecordOneMessage`, which reads the position before it frees messages. -/
def recordOneMessage : Call setup Bool := do
  let track ← get
  let numbered := track.numbered record
  let filepos := track.curMsgdataFilepos
  inTurn [pushIntoRecordingMsgQ (.recorded numbered filepos),
    inTurn ((keyIndexes record).map getFileWriteBuffer), take record,
    writeRecord numbered filepos]

def filterMessage : Call setup Bool := pushIntoRecordingMsgQ .filtered

end Calls

inductive Operation (setup : Setup) where
  | recordOneMessage (record : MsgRecord setup.sizes)
  | filterMessage
  | syncToFile

def Operation.call {setup : Setup} : Operation setup → Call setup Bool
  | recordOneMessage record => FlushChain.recordOneMessage record
  | filterMessage => FlushChain.filterMessage
  | syncToFile => FlushChain.syncToFile

/-- The job of a track is stopped by a call that failed; after that only `SyncToFile` is
called. -/
structure Job (setup : Setup) where
  track : MessageTrack setup := {}
  stopped : Bool := false
  killed : Bool := false

abbrev Action (setup : Setup) : Type := Operation setup × List Answer

def Operation.isSync {setup : Setup} : Operation setup → Bool
  | syncToFile => true
  | _ => false

/-- A call of the job and the answers it is given, after which it may be killed. -/
def step {setup : Setup} (job : Job setup) (action : Action setup) : Option (Job setup) :=
  if job.killed then
    none
  else if job.stopped && !action.1.isSync then
    none
  else
    match action.1.call job.track action.2 with
    | .done success track _ => some { job with track, stopped := job.stopped || !success }
    | .killed track => some { job with track, killed := true }

end AdkAaf.Recorder.FlushChain
