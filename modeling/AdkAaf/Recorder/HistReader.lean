import AdkAaf.Recorder.Recovery.Kill

/-! Range reads of a `RecordReader` object, which keeps the header of the data file and its
place in the file from one read to the next.

The files of the track exist and do not change. Each callback succeeds, no `msg_prop` is
given, and a position in a file is below 2^63. -/

set_option autoImplicit false

namespace AdkAaf.Recorder

def kMostRecent : Nat := 0

/-- `header_len_`, `version_` and the two bytes of `opts_`. -/
structure RecordFileHdr where
  bytes : List UInt8 := [4, 1, 0, 0]
  deriving DecidableEq

namespace RecordFileHdr

def headerLength (header : RecordFileHdr) : Nat := (header.bytes.headD 0).toNat

def useCrc (header : RecordFileHdr) : Bool := header.bytes.getD 2 0 &&& 1 ≠ 0

/-- `Read` at the begin of a file; `VersionCompatible()` never fails. -/
def read (header : RecordFileHdr) (file : List UInt8) : Option RecordFileHdr :=
  match file with
  | [] => none
  | len :: _ =>
    if 4 < len.toNat ∨ file.length < len.toNat then
      none
    else
      some ⟨file.take (max 1 len.toNat) ++ header.bytes.drop (max 1 len.toNat)⟩

end RecordFileHdr

inductive ErrorCode where
  | success
  | failure
  | tryAgain
  deriving DecidableEq

/-- Which of its two index files a read goes by. -/
inductive IndexType where
  | ordinal
  | key (key : Key)

/-- A `RecordReader`; `stream` is its data file with `crc_` and `ami_msg_`. -/
structure HistReader where
  fileHeader : RecordFileHdr := {}
  fileHeaderReaded : Bool := false
  curMsgSqn : Nat := kMostRecent
  isEof : Bool := false
  stream : RecordReader := TrackSetup.newReader

namespace HistReader

variable (setup : TrackSetup) (msgdata : List UInt8)

def reset (reader : HistReader) : HistReader := { reader with isEof := false }

def seek (target : Nat) (reader : HistReader) : HistReader :=
  { reader with stream := { reader.stream with input := msgdata.drop target } }

def openSeekMsgdataFile (target : Nat) (reader : HistReader) : Option HistReader :=
  let fileHeader :=
    if reader.fileHeaderReaded then some reader.fileHeader else reader.fileHeader.read msgdata
  fileHeader.bind fun fileHeader =>
    if msgdata.length < target then
      none
    else
      some (seek msgdata target { reader with fileHeader, fileHeaderReaded := true })

def readNextMessage (reader : HistReader) : Except Failure RecordReader :=
  reader.stream.readNextMessage setup.sizes ⟨reader.fileHeader.useCrc, setup.mode.isCheckCrc⟩
    setup.tag

/-- What `ReadHistMessage` returns when it cannot read on. -/
def stop (toMostRecent eof : Bool) (reader : HistReader) : ErrorCode × HistReader :=
  let reader := { reader with isEof := reader.isEof || eof }
  (if !reader.isEof then .failure else if toMostRecent then .success else .tryAgain, reader)

/-- The loop of `ReadHistMessage`, with what is left of the key index, if the read goes by
one. A message takes at least a byte, or an entry of the index. -/
def readMessages (last : Nat) (toMostRecent : Bool) :
    Nat → Option (List Nat) → HistReader → List AmiMessage × ErrorCode × HistReader
  | 0, _, reader => ([], .failure, reader)
  | fuel + 1, index, reader =>
    match reader.readNextMessage setup with
    | .error failure => ([], reader.stop toMostRecent (failure = .eof))
    | .ok stream =>
      let reader := { reader with stream, curMsgSqn := reader.curMsgSqn + 1 }
      let (messages, final) :=
        if reader.curMsgSqn < last ∨ toMostRecent then
          match index with
          | none => readMessages last toMostRecent fuel none reader
          | some [] => ([], reader.stop toMostRecent true)
          | some (pos :: rest) =>
            readMessages last toMostRecent fuel (some rest)
              (reader.seek msgdata (reader.fileHeader.headerLength + pos))
        else
          ([], .success, reader)
      (stream.message :: messages, final)

/-- `ReadHistMessage` from where it reads the first index; the position there is computed
with 64 bits. -/
def readRange (type : IndexType) (index : IndexFile) (first last : Nat) (toMostRecent : Bool)
    (reader : HistReader) : List AmiMessage × ErrorCode × HistReader :=
  let beginIndexPos := OrdinalIndex.getMsgIndexPos first % 2 ^ 64
  if index.size < beginIndexPos then
    ([], .failure, reader)
  else
    match index.entries.drop (OrdinalIndex.getMsgSqn beginIndexPos) with
    | [] => ([], .tryAgain, { reader with isEof := true })
    | pos :: rest =>
      let reader := { reader with curMsgSqn := first }
      -- computed before the header is read
      let target := reader.fileHeader.headerLength + pos
      match reader.openSeekMsgdataFile msgdata target with
      | none => ([], .failure, reader)
      | some reader =>
        let follow :=
          match type with
          | .ordinal => none
          | .key _ => some rest
        reader.readMessages setup msgdata last toMostRecent
          (msgdata.length + rest.length + 1) follow

def readHistMessage (type : IndexType) (index : IndexFile) (first last : Nat)
    (reader : HistReader) : List AmiMessage × ErrorCode × HistReader :=
  let count := OrdinalIndex.getMsgSqn index.size
  let noMessage :=
    match type with
    | .ordinal => .success
    | .key _ => .failure
  if first ≠ kMostRecent ∧ last ≠ kMostRecent ∧ last < first then
    ([], .failure, reader)
  else if first = kMostRecent ∧ last ≠ kMostRecent then
    ([], .failure, reader)
  else if first = kMostRecent then
    if count = kMostRecent then
      ([], noMessage, reader)
    else
      reader.readRange setup msgdata type index count (count + 1) true
  else if last = kMostRecent then
    if count = kMostRecent then
      ([], noMessage, reader)
    else if count + 1 < first then
      ([], .failure, reader)
    else
      reader.readRange setup msgdata type index first (count + 1) true
  else if last = first then
    ([], .success, reader)
  else
    reader.readRange setup msgdata type index first last false

end HistReader

end AdkAaf.Recorder
