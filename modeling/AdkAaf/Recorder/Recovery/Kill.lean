import AdkAaf.Recorder.Recovery.Files
import AdkAaf.Recorder.RecordRoundTrip

/-! The recovery of a recorder that was killed restores a consistent track. -/

set_option autoImplicit false

namespace AdkAaf.Recorder

open List

namespace TrackSetup

variable (setup : TrackSetup)

/-- A record that the writer accepts and the message of a reader has room for. -/
def Readable (record : MsgRecord setup.sizes) : Prop :=
  record.appDataLen.toNat ≤ setup.sizes.maxMessageSize ∧
    record.appDataLen.toNat ≤ setup.sizes.room

def recordData (record : MsgRecord setup.sizes) : List UInt8 :=
  recordBytes setup.tag setup.mode.fileCrc record

def dataOf (records : List (MsgRecord setup.sizes)) : List UInt8 :=
  (records.map setup.recordData).flatten

def keysOf (record : MsgRecord setup.sizes) : List Key :=
  match setup.tag with
  | .rx => [⟨.transport, record.transportId⟩, ⟨.endpoint, record.endpointId⟩,
      ⟨.stream, setup.streamId record.msgHeader⟩]
  | .tx => [⟨.stream, setup.streamId record.msgHeader⟩]

def positionsWhere (test : MsgRecord setup.sizes → Bool) :
    Nat → List (MsgRecord setup.sizes) → List Nat
  | _, [] => []
  | base, record :: rest =>
    let later := positionsWhere test (base + (setup.recordData record).length) rest
    if test record then base :: later else later

def ordinalPositions (records : List (MsgRecord setup.sizes)) : List Nat :=
  setup.positionsWhere (fun _ => true) 0 records

def keyPositions (key : Key) (records : List (MsgRecord setup.sizes)) : List Nat :=
  setup.positionsWhere (fun record => key ∈ setup.keysOf record) 0 records

section Positions

variable {setup} {test : MsgRecord setup.sizes → Bool}

theorem dataOf_append (records more : List (MsgRecord setup.sizes)) :
    setup.dataOf (records ++ more) = setup.dataOf records ++ setup.dataOf more := by
  rw [dataOf, map_append, flatten_append]
  rfl

theorem dataOf_cons (record : MsgRecord setup.sizes) (rest : List (MsgRecord setup.sizes)) :
    setup.dataOf (record :: rest) = setup.recordData record ++ setup.dataOf rest := rfl

theorem positionsWhere_append (base : Nat) (records more : List (MsgRecord setup.sizes)) :
    setup.positionsWhere test base (records ++ more) = setup.positionsWhere test base records ++
        setup.positionsWhere test (base + (setup.dataOf records).length) more := by
  induction records generalizing base with
  | nil => rfl
  | cons record rest ih =>
    simp only [cons_append, positionsWhere, ih, dataOf_cons, length_append,
      ← Nat.add_assoc]
    split <;> rfl

theorem le_of_mem_positionsWhere {base pos : Nat} {records : List (MsgRecord setup.sizes)}
    (mem : pos ∈ setup.positionsWhere test base records) : base ≤ pos := by
  induction records generalizing base with
  | nil => cases mem
  | cons record rest ih =>
    rw [positionsWhere] at mem
    split at mem
    next =>
      cases mem_cons.mp mem with
      | inl first => exact Nat.le_of_eq first.symm
      | inr later => exact Nat.le_trans (Nat.le_add_right _ _) (ih later)
    next => exact Nat.le_trans (Nat.le_add_right _ _) (ih mem)

theorem drop_of_mem_positionsWhere {file : List UInt8} {base off pos : Nat}
    {records : List (MsgRecord setup.sizes)} {tail : List UInt8}
    (behind : file.drop (off + base) = setup.dataOf records ++ tail)
    (mem : pos ∈ setup.positionsWhere test base records) :
    ∃ record ∈ records, test record = true ∧
      ∃ rest, file.drop (off + pos) = setup.recordData record ++ rest := by
  induction records generalizing base with
  | nil => cases mem
  | cons record rest ih =>
    rw [dataOf_cons, append_assoc] at behind
    have after : file.drop (off + (base + (setup.recordData record).length)) =
        setup.dataOf rest ++ tail := by
      rw [← Nat.add_assoc, ← drop_drop, behind, drop_left]
    have inRest : pos ∈ setup.positionsWhere test (base + (setup.recordData record).length) rest →
        ∃ found ∈ record :: rest, test found = true ∧
          ∃ more, file.drop (off + pos) = setup.recordData found ++ more := by
      intro later
      obtain ⟨found, inside, passes, lies⟩ := ih after later
      exact ⟨found, mem_cons_of_mem _ inside, passes, lies⟩
    rw [positionsWhere] at mem
    split at mem
    next passes =>
      cases mem_cons.mp mem with
      | inl first => exact ⟨record, mem_cons_self, passes, _, first ▸ behind⟩
      | inr later => exact inRest later
    next => exact inRest mem

theorem length_ordinalPositions (records : List (MsgRecord setup.sizes)) :
    (setup.ordinalPositions records).length = records.length := by
  rw [ordinalPositions]
  generalize 0 = base
  induction records generalizing base with
  | nil => rfl
  | cons record rest ih =>
    rw [positionsWhere, if_pos rfl, length_cons, length_cons, ih]

end Positions

section Reading

variable {setup} {msgdata : List UInt8}

theorem readMessageAt_record {record : MsgRecord setup.sizes} (readable : setup.Readable record)
    {pos : Nat} {rest : List UInt8}
    (lies : msgdata.drop (setup.headerLength + pos) = setup.recordData record ++ rest)
    (reader : RecordReader) : ∃ next, setup.readMessageAt msgdata pos reader = .ok next ∧
      next.message = delivered setup.tag record reader.message := by
  obtain ⟨crc, read⟩ := readNextMessage_append setup.tag setup.mode.fileCrc
    setup.mode.isCheckCrc readable.1 readable.2 rest reader.crc reader.message
  refine ⟨⟨rest, crc, delivered setup.tag record reader.message⟩, ?_, rfl⟩
  rw [readMessageAt, lies]
  exact read

theorem readNextMessage_nil (sizes : Sizes) (mode : CrcMode) (crc : UInt32)
    (message : AmiMessage) (tag : Tag) :
    RecordReader.readNextMessage sizes mode ⟨[], crc, message⟩ tag = .error .eof := by
  obtain ⟨fileCrc, isCheckCrc⟩ := mode
  cases tag with
  | rx => cases fileCrc with
    | false | true => rfl
  | tx => cases fileCrc with
    | false | true => cases isCheckCrc with
      | false | true => rfl

theorem readMessageAt_end {pos : Nat} (behind : msgdata.length ≤ setup.headerLength + pos)
    (reader : RecordReader) : setup.readMessageAt msgdata pos reader = .error .eof := by
  rw [readMessageAt, drop_eq_nil_of_le behind]
  exact readNextMessage_nil _ _ _ _ _

theorem readThrough_append {inside outside : List Nat}
    (reads : ∀ pos ∈ inside, ∀ reader, ∃ next, setup.readMessageAt msgdata pos reader = .ok next)
    (ends : ∀ pos ∈ outside, msgdata.length ≤ setup.headerLength + pos) (reader : RecordReader) :
    ∃ messages outcome,
      setup.readThrough msgdata (inside ++ outside).length (inside ++ outside) reader =
        (messages, outcome) ∧
      messages.length = inside.length ∧ (outcome = .success ∨ outcome = .unread .eof) := by
  induction inside generalizing reader with
  | nil =>
    cases outside with
    | nil => exact ⟨[], .success, rfl, rfl, .inl rfl⟩
    | cons pos rest =>
      refine ⟨[], .unread .eof, ?_, rfl, .inr rfl⟩
      have none := readMessageAt_end (ends pos mem_cons_self) reader
      simp only [nil_append, length_cons, readThrough, none]
  | cons pos rest ih =>
    obtain ⟨next, read⟩ := reads pos mem_cons_self reader
    obtain ⟨messages, outcome, loop, length, outcomes⟩ :=
      ih (fun other mem => reads other (mem_cons_of_mem _ mem)) next
    refine ⟨next.message :: messages, outcome, ?_, ?_, outcomes⟩
    · simp only [cons_append, length_cons, readThrough, read, loop]
    · rw [length_cons, length_cons, length]

theorem readHistMessageByKey_append {inside outside : List Nat} {file : IndexFile} {first : Nat}
    (entries : file.entries = inside ++ outside) (begins : 0 < first)
    (window : first - 1 ≤ inside.length)
    (reads : ∀ pos ∈ inside, ∀ reader, ∃ next, setup.readMessageAt msgdata pos reader = .ok next)
    (ends : ∀ pos ∈ outside, msgdata.length ≤ setup.headerLength + pos) : ∃ messages outcome,
      setup.readHistMessageByKey msgdata file first (file.entries.length + 1) =
        (messages, outcome) ∧ messages.length = inside.length - (first - 1) ∧
      outcome ≠ .unread .overrun ∧ outcome ≠ .unread .crc := by
  have remaining : file.entries.drop (first - 1) = inside.drop (first - 1) ++ outside := by
    rw [entries, drop_append_of_le_length window]
  have counted : file.entries.length + 1 - first = (inside.drop (first - 1) ++ outside).length := by
    rw [← remaining, length_drop]
    omega
  have reads' : ∀ pos ∈ inside.drop (first - 1), ∀ reader,
      ∃ next, setup.readMessageAt msgdata pos reader = .ok next :=
    fun pos mem => reads pos (mem_of_mem_drop mem)
  obtain ⟨messages, outcome, loop, length, outcomes⟩ := readThrough_append reads' ends newReader
  have fine : outcome ≠ .unread .overrun ∧ outcome ≠ .unread .crc := by
    cases outcomes with
    | inl success | inr success =>
      rw [success]
      decide
  rw [readHistMessageByKey, counted, remaining]
  cases head : (inside.drop (first - 1) ++ outside).head? with
  | none =>
    have empty := head?_eq_none_iff.mp head
    refine ⟨[], .unread .eof, rfl, ?_, by decide, by decide⟩
    rw [← length_drop, (append_eq_nil_iff.mp empty).1]
    rfl
  | some pos =>
    dsimp only
    split
    next before =>
      refine ⟨[], .seekFailed, rfl, ?_, by decide, by decide⟩
      rw [← length_drop]
      cases dropped : inside.drop (first - 1) with
      | nil => rfl
      | cons other rest =>
        -- the seek goes to a position in the data
        rw [dropped] at head
        cases head
        have mem : pos ∈ inside := by
          refine mem_of_mem_drop (i := first - 1) ?_
          rw [dropped]
          exact mem_cons_self
        obtain ⟨next, read⟩ := reads pos mem newReader
        rw [readMessageAt_end (Nat.le_of_lt before)] at read
        cases read
    next => exact ⟨messages, outcome, loop, by rw [length, length_drop], fine⟩

end Reading

section KeyIndex

variable {setup} {msgdata : List UInt8}

theorem recoverKeyIndexFile_append {inside outside : List Nat} {file : IndexFile}
    (entries : file.entries = inside ++ outside) (ahead : outside.length ≤ kMsgToFreeQMaxLength)
    (reads : ∀ pos ∈ inside, ∀ reader, ∃ next, setup.readMessageAt msgdata pos reader = .ok next)
    (ends : ∀ pos ∈ outside, msgdata.length ≤ setup.headerLength + pos) :
    ∃ recovered, setup.recoverKeyIndexFile msgdata file = .ok recovered ∧
      recovered.file.entries = inside ∧
      recovered.buffer = ⟨inside.length * OrdinalIndex.valueSize, inside.length⟩ := by
  have total : file.entries.length = inside.length + outside.length := by
    rw [entries, length_append]
  have buffer : recoverIndexFile file =
      ⟨file.entries.length * OrdinalIndex.valueSize, file.entries.length⟩ := by
    rw [recoverIndexFile, IndexFile.getMsgSqn_size]
    rfl
  rw [recoverKeyIndexFile, buffer]
  dsimp only
  split
  next none =>
    have empty : inside = [] := length_eq_zero_iff.mp (by omega)
    refine ⟨_, rfl, ?_, ?_⟩
    · rw [empty]
      exact length_eq_zero_iff.mp none
    · rw [none, empty]
      rfl
  next some =>
    generalize chosen : (if file.entries.length > kMsgToFreeQMaxLength then
      file.entries.length - kMsgToFreeQMaxLength else 1) = first
    have window : 0 < first ∧ first - 1 ≤ inside.length := by
      rw [← chosen]
      split <;> omega
    obtain ⟨messages, outcome, read, length, overrun, crc⟩ :=
      readHistMessageByKey_append entries window.1 window.2 reads ends
    have newIndex : first - 1 + messages.length = inside.length := by
      omega
    rw [read]
    rw [if_neg overrun, if_neg (fun both => crc both.1), newIndex]
    split
    next same =>
      refine ⟨_, rfl, ?_, ?_⟩
      · have none : outside = [] := length_eq_zero_iff.mp (by omega)
        rw [entries, none, append_nil]
      · rw [same]
    next =>
      refine ⟨_, rfl, ?_, rfl⟩
      dsimp only [truncateIndexFile]
      rw [IndexFile.truncate_of_le (by omega), IndexFile.entries_ofEntries, entries,
        take_left]

end KeyIndex

/-- The index file of a key holds the entries of the records in the ordinal index, and may
run ahead of it. -/
def RunsAhead (records : List (MsgRecord setup.sizes)) (durable : Nat) (key : Key)
    (file : IndexFile) : Prop :=
  ∃ flushed, durable ≤ flushed ∧ file.entries = setup.keyPositions key (records.take flushed) ∧
    file.entries.length ≤
      (setup.keyPositions key (records.take durable)).length + kMsgToFreeQMaxLength

/-- A kill leaves the data of the records that are in the ordinal index of a track that has
written `records`, and some bytes more. -/
structure DataLeftByKill (records : List (MsgRecord setup.sizes)) (durable : Nat)
    (directory : Directory) : Prop where
  written : durable ≤ records.length
  readable : ∀ record ∈ records, setup.Readable record
  ordinal : directory.index.entries = setup.ordinalPositions (records.take durable)
  msgdata : ∃ header tail, header.length = setup.headerLength ∧
    directory.msgdata = header ++ (setup.dataOf (records.take durable) ++ tail)

section Directories

variable {setup} {records : List (MsgRecord setup.sizes)} {durable : Nat} {directory : Directory}

theorem recordLength_delivered (record : MsgRecord setup.sizes) (message : AmiMessage) :
    setup.recordLength (delivered setup.tag record message) = (setup.recordData record).length := by
  have len : (delivered setup.tag record message).appDataLen = record.appDataLen :=
    (returns_delivered setup.tag record message).appDataLen
  rw [recordLength, len, recordData, length_recordBytes]
  split <;> rfl

theorem recoverMsgdataFilepos_eq (left : setup.DataLeftByKill records durable directory) :
    setup.recoverMsgdataFilepos directory durable =
      .ok (setup.dataOf (records.take durable)).length := by
  cases durable with
  | zero => rfl
  | succ before =>
    obtain ⟨header, tail, length, msgdata⟩ := left.msgdata
    have inside : before < records.length := left.written
    have last : records.take (before + 1) = records.take before ++ [records[before]] :=
      take_succ_eq_append_getElem inside
    have readable := left.readable _ (getElem_mem inside)
    have counted : (setup.ordinalPositions (records.take before)).length = before := by
      rw [length_ordinalPositions, length_take, Nat.min_eq_left (Nat.le_of_lt inside)]
    have entry : directory.index.entries[before]? =
        some (setup.dataOf (records.take before)).length := by
      rw [left.ordinal, last, ordinalPositions, positionsWhere_append, ← ordinalPositions,
        getElem?_append_right (Nat.le_of_eq counted), counted, Nat.sub_self, Nat.zero_add]
      rfl
    have lies : directory.msgdata.drop
        (setup.headerLength + (setup.dataOf (records.take before)).length) =
          setup.recordData records[before] ++ tail := by
      rw [msgdata, last, dataOf_append, ← drop_drop, ← length, drop_left,
        append_assoc, drop_left, dataOf_cons, append_assoc]
      rfl
    have inFile : ¬ directory.msgdata.length <
        setup.headerLength + (setup.dataOf (records.take before)).length := by
      rw [msgdata, last, dataOf_append, length_append, length_append,
        length_append, length]
      omega
    obtain ⟨next, read, message⟩ := readMessageAt_record readable lies newReader
    rw [recoverMsgdataFilepos, if_neg (Nat.succ_ne_zero before), Nat.add_sub_cancel, entry]
    dsimp only
    rw [getLastMessageLen, if_neg inFile, read]
    dsimp only
    rw [message, recordLength_delivered, last, dataOf_append, length_append]
    have one : setup.dataOf [records[before]] = setup.recordData records[before] :=
      append_nil _
    rw [one]
    rfl

theorem recoverKeyIndexFile_of_runsAhead (readable : ∀ record ∈ records, setup.Readable record)
    {key : Key} {file : IndexFile} (ahead : setup.RunsAhead records durable key file)
    {header : List UInt8} (length : header.length = setup.headerLength) :
    ∃ recovered, setup.recoverKeyIndexFile
        (header ++ setup.dataOf (records.take durable)) file = .ok recovered ∧
      recovered.file.entries = setup.keyPositions key (records.take durable) ∧ recovered.buffer =
        ⟨(setup.keyPositions key (records.take durable)).length * OrdinalIndex.valueSize,
          (setup.keyPositions key (records.take durable)).length⟩ := by
  obtain ⟨flushed, le, entries, bounded⟩ := ahead
  have behind : (header ++ setup.dataOf (records.take durable)).drop (setup.headerLength + 0) =
      setup.dataOf (records.take durable) ++ [] := by
    rw [Nat.add_zero, ← length, drop_left, append_nil]
  have taken : (records.take flushed).take durable = records.take durable := by
    rw [take_take, Nat.min_eq_left le]
  have split : records.take flushed =
      records.take durable ++ (records.take flushed).drop durable := by
    rw [← taken, take_append_drop]
  rw [keyPositions, split, positionsWhere_append] at entries
  refine recoverKeyIndexFile_append entries ?_ ?_ ?_
  · rw [entries, length_append] at bounded
    exact Nat.le_of_add_le_add_left bounded
  · intro pos mem reader
    obtain ⟨record, inside, _, rest, lies⟩ := drop_of_mem_positionsWhere behind mem
    have fits := readable record (mem_of_mem_take inside)
    obtain ⟨next, read, _⟩ := readMessageAt_record fits lies reader
    exact ⟨next, read⟩
  · intro pos mem
    have beyond := le_of_mem_positionsWhere mem
    rw [length_append, length]
    omega

section

variable (left : setup.DataLeftByKill records durable directory)
include left

theorem recoverIndexFile_ordinal :
    recoverIndexFile directory.index = ⟨durable * OrdinalIndex.valueSize, durable⟩ := by
  rw [recoverIndexFile, IndexFile.getMsgSqn_size, left.ordinal, length_ordinalPositions,
    length_take, Nat.min_eq_left left.written]
  rfl

theorem recoverIndexDataFiles_eq : setup.recoverIndexDataFiles directory =
      (setup.recoverKeyIndexFiles (directory.msgdata.take setup.headerLength ++
          setup.dataOf (records.take durable)) directory.keyIndex).map fun all =>
        (recoveredDirectory directory (directory.msgdata.take setup.headerLength ++
            setup.dataOf (records.take durable)) all,
          recoveredTrack ⟨durable * OrdinalIndex.valueSize, durable⟩
            (setup.dataOf (records.take durable)).length
            (setup.headerLength + (setup.dataOf (records.take durable)).length) all) := by
  obtain ⟨header, tail, length, msgdata⟩ := left.msgdata
  have whole : ¬ directory.msgdata.length <
      setup.headerLength + (setup.dataOf (records.take durable)).length := by
    rw [msgdata, length_append, length_append, length]
    omega
  have cut : directory.msgdata.take
      (setup.headerLength + (setup.dataOf (records.take durable)).length) =
        directory.msgdata.take setup.headerLength ++ setup.dataOf (records.take durable) := by
    rw [take_add, msgdata, ← length, drop_left, take_left, take_left]
  rw [recoverIndexDataFiles, recoverIndexFile_ordinal left]
  rw [recoverMsgdataFilepos_eq left]
  change (if _ then _ else _) = _
  rw [if_neg whole, cut]
  cases setup.recoverKeyIndexFiles (directory.msgdata.take setup.headerLength ++
      setup.dataOf (records.take durable)) directory.keyIndex with
  | error failed | ok all => rfl

theorem length_header :
    (directory.msgdata.take setup.headerLength).length = setup.headerLength := by
  obtain ⟨header, tail, length, msgdata⟩ := left.msgdata
  rw [msgdata, ← length, take_left]

end

end Directories

def smallSetup : TrackSetup where
  sizes := smallSizes
  tag := .rx
  mode := ⟨true, true⟩
  headerLength := 2
  streamId header := Lib.LittleEndian.decode32 (header.take 4)

end TrackSetup

end AdkAaf.Recorder
