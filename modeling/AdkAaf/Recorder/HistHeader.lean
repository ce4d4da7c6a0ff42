import AdkAaf.Recorder.HistRange

/-! Reads of a track whose file header may be shorter than the header of the program. -/

set_option autoImplicit false

namespace AdkAaf.Recorder

open List

section Consumed

variable {sizes : Sizes} {mode : CrcMode} {reader next : RecordReader}

theorem of_bind_ok {Value Result : Type} {first : Except Failure Value}
    {then_ : Value → Except Failure Result} {result : Result}
    (ran : (first >>= then_) = .ok result) : ∃ val, first = .ok val ∧ then_ val = .ok result := by
  cases first with
  | error failure => cases ran
  | ok val => exact ⟨val, rfl, ran⟩

theorem sgetn_length {bytes : List UInt8} {count : Nat}
    (got : reader.sgetn count = .ok (bytes, next)) :
    next.input.length + count = reader.input.length := by
  rw [RecordReader.sgetn] at got
  split at got <;> cases got
  rw [length_drop]
  omega

theorem readAppMsg_length (read : reader.readAppMsg sizes mode = .ok next) :
    next.input.length + (8 + 8 + 4 + sizes.messageHeader + ExMessageHeader.size) ≤
      reader.input.length := by
  obtain ⟨⟨_, behindSqns⟩, sqns, read⟩ := of_bind_ok read
  obtain ⟨⟨_, behindLen⟩, len, read⟩ := of_bind_ok read
  dsimp only at read
  split at read
  next => cases read
  next =>
    obtain ⟨⟨_, behindHeader⟩, header, read⟩ := of_bind_ok read
    obtain ⟨⟨_, behindExHeader⟩, exHeader, read⟩ := of_bind_ok read
    dsimp only at read
    split at read
    next => cases read
    next =>
      obtain ⟨⟨_, behindData⟩, data, read⟩ := of_bind_ok read
      cases read
      have first := sgetn_length sqns
      have second := sgetn_length len
      have third := sgetn_length header
      have fourth := sgetn_length exHeader
      have fifth := sgetn_length data
      dsimp only at *
      omega

theorem checkFileCrc_length (checked : reader.checkFileCrc mode = .ok next) :
    next.input.length + (if mode.fileCrc then 4 else 0) = reader.input.length := by
  rw [RecordReader.checkFileCrc] at checked
  cases crc : mode.fileCrc with rw [crc] at checked
  | false =>
    cases checked
    rfl
  | true =>
    obtain ⟨⟨_, behind⟩, got, checked⟩ := of_bind_ok checked
    have length := sgetn_length got
    dsimp only at checked
    split at checked
    next =>
      cases checked
      exact length
    next =>
      split at checked <;> cases checked
      exact length

theorem readNextMessage_length {tag : Tag}
    (read : reader.readNextMessage sizes mode tag = .ok next) :
    Writer.getMessageFixLen sizes tag + (if mode.fileCrc then 4 else 0) ≤ reader.input.length := by
  cases tag with
  | rx =>
    obtain ⟨behindEndpoint, endpoint, read⟩ := of_bind_ok read
    obtain ⟨behindTransport, transport, read⟩ := of_bind_ok read
    obtain ⟨behindApp, app, check⟩ := of_bind_ok read
    obtain ⟨⟨_, _⟩, got, same⟩ := of_bind_ok endpoint
    cases same
    obtain ⟨⟨_, _⟩, gotNext, same⟩ := of_bind_ok transport
    cases same
    have first := sgetn_length got
    have second := sgetn_length gotNext
    have third := readAppMsg_length app
    have fourth := checkFileCrc_length check
    have start : (if mode.fileCrc = true then { reader with crc := 0 } else reader).input =
        reader.input := by
      split <;> rfl
    rw [start] at first
    dsimp only at *
    rw [Writer.getMessageFixLen]
    omega
  | tx =>
    obtain ⟨behindApp, app, check⟩ := of_bind_ok read
    have first := readAppMsg_length app
    have second := checkFileCrc_length check
    have start : (if (mode.isCheckCrc && mode.fileCrc) = true then { reader with crc := 0 }
        else reader).input = reader.input := by
      split <;> rfl
    rw [start] at first
    rw [Writer.getMessageFixLen]
    omega

end Consumed

namespace HistReader

variable {setup : TrackSetup} {header : List UInt8}

/-- The bytes of a header that the program can read, and what they say of the track. -/
def HeaderOf (setup : TrackSetup) (header : List UInt8) : Prop :=
  header.length = setup.headerLength ∧ ∃ read, RecordFileHdr.read {} header = some read ∧
    read.headerLength = setup.headerLength ∧ read.useCrc = setup.mode.fileCrc

def RereadsSame (setup : TrackSetup) (header : List UInt8) : Prop :=
  ∀ (records : List (MsgRecord setup.sizes)) (index : IndexType → IndexFile) (request : Request),
    Flushed records (header ++ setup.dataOf records) request.type (index request.type) →
    request.Valid (messagesOf request.type records).length →
    ∀ first second,
      readAll setup (header ++ setup.dataOf records) index {} [request, request] =
        [first, second] →
      first.1 = second.1

theorem rereadsSame_of_written (written : setup.headerLength = 4) : RereadsSame setup header := by
  intro records index request flushed ok first second reads
  obtain ⟨messages, code, same, -⟩ := readHistMessage_served flushed written ok
  obtain ⟨middle, read, ready⟩ := same (reset {}) ready_fresh
  obtain ⟨final, reread, -⟩ := same middle.reset ⟨ready.header, ready.noIds⟩
  rw [readAll, read] at reads
  dsimp only at reads
  rw [readAll, reread] at reads
  cases reads
  rfl

def emptyRecord (sizes : Sizes) : MsgRecord sizes where
  endpointId := 0
  transportId := 0
  streamSqn := 0
  topicSqn := 0
  appDataLen := 0
  msgHeader := replicate sizes.messageHeader 0
  exMsgHeader := ⟨0, 0, 0, 0, 0, 0, 0, 0⟩
  appData := []
  headerLength := length_replicate
  dataLength := rfl

section

variable (headerOf : HeaderOf setup header)
include headerOf

theorem HeaderOf.length :
    ∃ len rest, header = len :: rest ∧ len.toNat = header.length ∧ len.toNat ≤ 4 := by
  obtain ⟨length, read, reads, same, -⟩ := headerOf
  cases header with
  | nil => cases reads
  | cons len rest =>
    rw [RecordFileHdr.read] at reads
    split at reads <;> cases reads
    have first : len.toNat = setup.headerLength := by
      rw [← same, RecordFileHdr.headerLength, show max 1 len.toNat = max 1 len.toNat - 1 + 1 by
        omega]
      rfl
    exact ⟨len, rest, rfl, first.trans length.symm, by omega⟩

theorem read_append (data : List UInt8) :
    RecordFileHdr.read {} (header ++ data) = RecordFileHdr.read {} header := by
  obtain ⟨len, rest, rfl, length, most⟩ := headerOf.length
  have pos : max 1 len.toNat = (len :: rest).length := by
    rw [length, length_cons]
    omega
  have enough : ¬ (4 < len.toNat ∨ (len :: (rest ++ data)).length < len.toNat) := by
    rw [length_cons, length_append]
    rw [length_cons] at length
    omega
  rw [cons_append, RecordFileHdr.read, RecordFileHdr.read, if_neg enough, if_neg (by omega),
    pos, ← cons_append, take_left, take_length]

theorem flushed_emptyRecord :
    Flushed [emptyRecord setup.sizes] (header ++ setup.dataOf [emptyRecord setup.sizes]) .ordinal
      (.ofEntries [0]) where
  readable record mem := by
    cases mem_singleton.mp mem
    exact ⟨Nat.zero_le _, Nat.zero_le _⟩
  header := by
    rw [read_append headerOf]
    exact headerOf.2
  data := by rw [← headerOf.1, drop_left]
  entries := rfl
  small := by decide

/-- The first read begins behind the first byte of the record, and finds no message. -/
theorem short_header_reads (short : setup.headerLength < 4) :
    ∃ code second, readAll setup (header ++ setup.dataOf [emptyRecord setup.sizes])
        (fun _ => .ofEntries [0]) {} [⟨.ordinal, 1, 2⟩, ⟨.ordinal, 1, 2⟩] =
          [([], code), second] ∧
      second.1 = messagesOf .ordinal [emptyRecord setup.sizes] := by
  have flushed := flushed_emptyRecord headerOf
  have size : (setup.dataOf [emptyRecord setup.sizes]).length =
      Writer.getMessageFixLen setup.sizes setup.tag + (if setup.mode.fileCrc then 4 else 0) := by
    rw [TrackSetup.dataOf, map_singleton, flatten_singleton, TrackSetup.recordData,
      length_recordBytes]
    split <;> rfl
  have length := headerOf.1
  generalize msgdata_eq : header ++ setup.dataOf [emptyRecord setup.sizes] = msgdata at flushed
  have total : msgdata.length = header.length + (setup.dataOf [emptyRecord setup.sizes]).length :=
    msgdata_eq ▸ length_append
  have reads : ∀ reader, readHistMessage setup msgdata .ordinal (.ofEntries [0]) 1 2 reader =
      readRange setup msgdata .ordinal (.ofEntries [0]) 1 2 false reader := by
    intro reader
    simp [readHistMessage, kMostRecent]
  have inside : 4 ≤ msgdata.length := by
    rw [total, size]
    cases tag : setup.tag with
    | rx | tx =>
      rw [Writer.getMessageFixLen]
      omega
  obtain ⟨opened, seeks, isOpen, input, -⟩ := openSeekMsgdataFile_opened flushed
    (⟨rfl, fun _ => ⟨rfl, rfl⟩⟩ : Ready setup msgdata { curMsgSqn := 1 }) inside
  obtain ⟨code, middle, first, isOpenMiddle⟩ : ∃ code middle,
      readRange setup msgdata .ordinal (.ofEntries [0]) 1 2 false {} = ([], code, middle) ∧
        Opened setup msgdata middle := by
    have start : readRange setup msgdata .ordinal (.ofEntries [0]) 1 2 false {} =
        opened.readMessages setup msgdata 2 false (msgdata.length + 1) none := by
      have four : RecordFileHdr.headerLength {} = 4 := rfl
      simp [readRange, IndexFile.ofEntries, OrdinalIndex.getMsgIndexPos, OrdinalIndex.getMsgSqn,
        four, seeks]
    rw [start, readMessages]
    cases read : opened.readNextMessage setup with
    | error failure => exact ⟨_, _, rfl, isOpen.readed, isOpen.header, isOpen.noIds⟩
    | ok next =>
      have needs := readNextMessage_length read
      rw [(isOpen.same flushed).2, input, length_drop, total, size] at needs
      dsimp only at needs
      omega
  obtain ⟨final, second, -⟩ := (@readRange_reads setup msgdata _ _ _ flushed middle.reset
    ⟨isOpenMiddle.ready.header, isOpenMiddle.noIds⟩ (isOpenMiddle.same flushed).1 1 2 false
    Nat.zero_lt_one Nat.one_lt_two).result
  refine ⟨code, (messagesOf .ordinal [emptyRecord setup.sizes], .success), ?_, rfl⟩
  rw [readAll, reads, show reset {} = {} from rfl, first]
  dsimp only
  rw [readAll, reads, second]
  rfl

end

/-- The position of a first read is computed before the header is read. -/
theorem rereadsSame_iff (headerOf : HeaderOf setup header) :
    RereadsSame setup header ↔ setup.headerLength = 4 := by
  constructor
  · intro same
    by_contra other
    have short : setup.headerLength < 4 := by
      obtain ⟨len, rest, -, length, most⟩ := headerOf.length
      rw [headerOf.1] at length
      omega
    obtain ⟨code, second, reads, delivers⟩ := short_header_reads headerOf short
    have equal := same _ _ ⟨.ordinal, 1, 2⟩ (flushed_emptyRecord headerOf)
      ⟨.refl, .inl (by decide)⟩ _ _ reads
    rw [delivers] at equal
    cases equal
  · exact rereadsSame_of_written

def shortTrack : TrackSetup := { smallTrack with mode := ⟨false, true⟩, headerLength := 2 }

theorem shortTrack_headerOf : HeaderOf shortTrack [2, 1] :=
  ⟨rfl, ⟨[2, 1, 0, 0]⟩, by decide +kernel, rfl, by decide⟩

theorem rereadsSame_iff_of_two_bytes :
    RereadsSame shortTrack [2, 1] ↔ shortTrack.headerLength = 4 :=
  rereadsSame_iff shortTrack_headerOf

theorem short_header_loses_message : ¬ RereadsSame shortTrack [2, 1] := by
  intro same
  obtain ⟨code, second, reads, delivers⟩ := short_header_reads shortTrack_headerOf (by decide)
  have equal := same _ _ ⟨.ordinal, 1, 2⟩ (flushed_emptyRecord shortTrack_headerOf)
    ⟨.refl, .inl (by decide)⟩ _ _ reads
  rw [delivers] at equal
  cases equal

end HistReader

end AdkAaf.Recorder
