import AdkAaf.Recorder.HistReader
import AdkAaf.Recorder.Recovery.RebuildIndex

/-! What range reads deliver of a track that was written to the end. -/

set_option autoImplicit false

namespace AdkAaf.Recorder

open OrdinalIndex List

variable {setup : TrackSetup} {msgdata : List UInt8}

section Positions

variable {test : MsgRecord setup.sizes → Bool} {offset : Nat}

theorem length_positionsWhere (base : Nat) (records : List (MsgRecord setup.sizes)) :
    (setup.positionsWhere test base records).length = (records.filter test).length := by
  induction records generalizing base with
  | nil => rfl
  | cons record rest ih =>
    rw [TrackSetup.positionsWhere, filter_cons]
    split
    next => rw [length_cons, length_cons, ih]
    next => exact ih _

theorem positionsWhere_eq_cons {base pos : Nat} {records : List (MsgRecord setup.sizes)}
    {rest : List Nat} (behind : msgdata.drop (offset + base) = setup.dataOf records)
    (positions : setup.positionsWhere test base records = pos :: rest) :
    ∃ record after, record :: after <:+ records ∧ test record = true ∧
      records.filter test = record :: after.filter test ∧
      msgdata.drop (offset + pos) = setup.dataOf (record :: after) ∧
      rest = setup.positionsWhere test (pos + (setup.recordData record).length) after := by
  induction records generalizing base with
  | nil => cases positions
  | cons record after ih =>
    rw [TrackSetup.positionsWhere] at positions
    split at positions
    next passes =>
      cases positions
      exact ⟨record, after, suffix_refl _, passes, filter_cons_of_pos passes, behind,
        rfl⟩
    next fails =>
      have later : msgdata.drop (offset + (base + (setup.recordData record).length)) =
          setup.dataOf after := by
        rw [← Nat.add_assoc, ← drop_drop, behind, TrackSetup.dataOf_cons, drop_left]
      obtain ⟨found, more, suffix, others⟩ := ih later positions
      exact ⟨found, more, suffix.trans (suffix_cons _ _),
        (filter_cons_of_neg fails).symm ▸ others⟩

/-- What an index says of the records from one of its entries on. -/
theorem drop_positionsWhere (count : Nat) {base : Nat} {records : List (MsgRecord setup.sizes)}
    (behind : msgdata.drop (offset + base) = setup.dataOf records) :
    ∃ start suffix, suffix <:+ records ∧ (setup.positionsWhere test base records).drop count =
        setup.positionsWhere test start suffix ∧
      (records.filter test).drop count = suffix.filter test ∧
      msgdata.drop (offset + start) = setup.dataOf suffix := by
  induction records generalizing base count with
  | nil => exact ⟨base, [], suffix_refl _, drop_nil, drop_nil, behind⟩
  | cons record rest ih =>
    have later : msgdata.drop (offset + (base + (setup.recordData record).length)) =
        setup.dataOf rest := by
      rw [← Nat.add_assoc, ← drop_drop, behind, TrackSetup.dataOf_cons, drop_left]
    cases count with
    | zero => exact ⟨base, _, suffix_refl _, rfl, rfl, behind⟩
    | succ count =>
      by_cases passes : test record = true
      · obtain ⟨start, suffix, within, others⟩ := ih count later
        refine ⟨start, suffix, within.trans (suffix_cons _ _), ?_⟩
        rw [TrackSetup.positionsWhere, if_pos passes, filter_cons_of_pos passes]
        exact others
      · obtain ⟨start, suffix, within, others⟩ := ih (count + 1) later
        refine ⟨start, suffix, within.trans (suffix_cons _ _), ?_⟩
        rw [TrackSetup.positionsWhere, if_neg passes, filter_cons_of_neg passes]
        exact others

end Positions

def IndexType.selects (type : IndexType) (record : MsgRecord setup.sizes) : Bool :=
  match type with
  | .ordinal => true
  | .key value => value ∈ setup.keysOf record

structure Flushed (records : List (MsgRecord setup.sizes)) (msgdata : List UInt8)
    (type : IndexType) (index : IndexFile) : Prop where
  readable : ∀ record ∈ records, setup.Readable record
  header : ∃ header, RecordFileHdr.read {} msgdata = some header ∧
    header.headerLength = setup.headerLength ∧ header.useCrc = setup.mode.fileCrc
  data : msgdata.drop setup.headerLength = setup.dataOf records
  entries : index = .ofEntries (setup.positionsWhere type.selects 0 records)
  small : index.size < 2 ^ 63

def messagesOf (type : IndexType) (records : List (MsgRecord setup.sizes)) : List AmiMessage :=
  (records.filter type.selects).map fun record => delivered setup.tag record {}

namespace HistReader

def NoIds (tag : Tag) (message : AmiMessage) : Prop :=
  tag = .tx → message.endpointId = 0 ∧ message.transportId = 0

variable {sizes : Sizes}

theorem delivered_of_noIds {tag : Tag} {message : AmiMessage} (noIds : NoIds tag message)
    (record : MsgRecord sizes) : delivered tag record message = delivered tag record {} := by
  cases tag with
  | rx => rfl
  | tx =>
    obtain ⟨endpoint, transport⟩ := noIds rfl
    simp [delivered, AmiMessage.setExMsgHeader, endpoint, transport]

theorem noIds_delivered (tag : Tag) (record : MsgRecord sizes) :
    NoIds tag (delivered tag record {}) := by
  rintro rfl
  exact ⟨rfl, rfl⟩

structure Ready (setup : TrackSetup) (msgdata : List UInt8) (reader : HistReader) : Prop where
  header : if reader.fileHeaderReaded then RecordFileHdr.read {} msgdata = some reader.fileHeader
    else reader.fileHeader = {}
  noIds : NoIds setup.tag reader.stream.message

theorem ready_fresh : Ready setup msgdata {} := ⟨rfl, fun _ => ⟨rfl, rfl⟩⟩

structure Opened (setup : TrackSetup) (msgdata : List UInt8) (reader : HistReader) : Prop where
  readed : reader.fileHeaderReaded = true
  header : RecordFileHdr.read {} msgdata = some reader.fileHeader
  noIds : NoIds setup.tag reader.stream.message

variable {reader : HistReader}

theorem Opened.ready (opened : Opened setup msgdata reader) : Ready setup msgdata reader :=
  ⟨by rw [if_pos opened.readed]; exact opened.header, opened.noIds⟩

theorem Opened.seek (opened : Opened setup msgdata reader) (target : Nat) :
    Opened setup msgdata (HistReader.seek msgdata target reader) :=
  ⟨opened.readed, opened.header, opened.noIds⟩

section Loop

variable {type : IndexType} {records : List (MsgRecord setup.sizes)} {index : IndexFile}

/-- The reader stands at a record that the index lists, or at the end of the data, and has
the positions of the later records. -/
def StandsAt (setup : TrackSetup) (msgdata : List UInt8) (type : IndexType)
    (upcoming : List (MsgRecord setup.sizes)) (follow : Option (List Nat))
    (reader : HistReader) : Prop :=
  reader.stream.input = setup.dataOf upcoming ∧
    match type with
    | .ordinal => follow = none
    | .key _ => ∃ record after base, upcoming = record :: after ∧ type.selects record = true ∧
        msgdata.drop (setup.headerLength + base) = setup.dataOf after ∧
        follow = some (setup.positionsWhere type.selects base after)

variable {reader : HistReader}

theorem Opened.same (flushed : Flushed records msgdata type index)
    (opened : Opened setup msgdata reader) : reader.fileHeader.headerLength = setup.headerLength ∧
      reader.fileHeader.useCrc = setup.mode.fileCrc := by
  obtain ⟨header, read, same⟩ := flushed.header
  cases opened.header.symm.trans read
  exact same

theorem readNextMessage_record (flushed : Flushed records msgdata type index)
    (opened : Opened setup msgdata reader) {record : MsgRecord setup.sizes}
    {after : List (MsgRecord setup.sizes)}
    (input : reader.stream.input = setup.dataOf (record :: after)) (mem : record ∈ records) :
    ∃ crc, reader.readNextMessage setup =
      .ok ⟨setup.dataOf after, crc, delivered setup.tag record {}⟩ := by
  obtain ⟨fits, room⟩ := flushed.readable record mem
  obtain ⟨crc, read⟩ := readNextMessage_append setup.tag setup.mode.fileCrc
    setup.mode.isCheckCrc fits room (setup.dataOf after) reader.stream.crc reader.stream.message
  refine ⟨crc, ?_⟩
  rw [← delivered_of_noIds opened.noIds, ← read, readNextMessage, (opened.same flushed).2,
    ← TrackSetup.recordData, ← TrackSetup.dataOf_cons, ← input]

/-- What a read returns that is asked for `count` messages where there are `available`, and
what it leaves behind. -/
structure Reads (setup : TrackSetup) (msgdata : List UInt8) (toMostRecent : Bool)
    (expected : List AmiMessage) (count available : Nat)
    (outcome : List AmiMessage × ErrorCode × HistReader) : Prop where
  messages : outcome.1 = expected
  code : outcome.2.1 =
    if toMostRecent = true ∨ count ≤ available then .success else .tryAgain
  ended : toMostRecent = true → outcome.2.2.isEof = true
  opened : Opened setup msgdata outcome.2.2

variable {toMostRecent : Bool}

theorem reads_stop {count : Nat} (opened : Opened setup msgdata reader)
    (short : toMostRecent = true ∨ 0 < count) :
    Reads setup msgdata toMostRecent [] count 0 ([], reader.stop toMostRecent true) := by
  refine ⟨rfl, ?_, fun _ => Bool.or_true _, opened.readed, opened.header, opened.noIds⟩
  cases toMostRecent with
  | true => simp [stop]
  | false =>
    have pos : 0 < count := short.resolve_left Bool.false_ne_true
    simp [stop, Nat.not_le.mpr pos]

variable {available : Nat} {outcome : List AmiMessage × ErrorCode × HistReader}

theorem Reads.cons {expected : List AmiMessage} {count : Nat}
    (reads : Reads setup msgdata toMostRecent expected count available outcome)
    (message : AmiMessage) :
    Reads setup msgdata toMostRecent (message :: expected) (count + 1) (available + 1)
      (message :: outcome.1, outcome.2) := by
  refine ⟨congrArg _ reads.messages, reads.code.trans ?_, reads.ended, reads.opened⟩
  simp

theorem readMessages_reads (flushed : Flushed records msgdata type index) {last : Nat} {fuel : Nat}
    {upcoming : List (MsgRecord setup.sizes)} {follow : Option (List Nat)}
    (opened : Opened setup msgdata reader)
    (stands : StandsAt setup msgdata type upcoming follow reader) (within : upcoming <:+ records)
    (enough : upcoming.length < fuel)
    (more : if toMostRecent then reader.curMsgSqn + (messagesOf type upcoming).length = last
      else reader.curMsgSqn < last) :
    Reads setup msgdata toMostRecent ((messagesOf type upcoming).take (last - reader.curMsgSqn))
      (last - reader.curMsgSqn) (messagesOf type upcoming).length
      (readMessages setup msgdata last toMostRecent fuel follow reader) := by
  induction fuel generalizing upcoming follow reader with
  | zero => cases enough
  | succ fuel ih =>
    obtain ⟨input, place⟩ := stands
    rw [readMessages]
    cases upcoming with
    | nil =>
      -- only behind the last record of the data file
      have ended : reader.readNextMessage setup = .error .eof := by
        have stream : reader.stream = ⟨[], reader.stream.crc, reader.stream.message⟩ :=
          congrArg (RecordReader.mk · _ _) input
        rw [readNextMessage, stream, TrackSetup.readNextMessage_nil]
      rw [ended]
      rw [messagesOf, filter_nil, map_nil, take_nil]
      refine reads_stop opened ?_
      cases toMostRecent with
      | true => exact .inl rfl
      | false => exact .inr (Nat.sub_pos_of_lt more)
    | cons record after =>
      have selected : type.selects record = true := by
        cases type with
        | ordinal => rfl
        | key value =>
          obtain ⟨_, _, _, same, passes, -⟩ := place
          cases same
          exact passes
      have messages : messagesOf type (record :: after) =
          delivered setup.tag record {} :: messagesOf type after := by
        rw [messagesOf, filter_cons_of_pos selected, map_cons, messagesOf]
      obtain ⟨crc, read⟩ := readNextMessage_record flushed opened input
        (within.subset mem_cons_self)
      have before : reader.curMsgSqn < last := by
        cases toMostRecent with
        | true =>
          rw [if_pos rfl, messages, length_cons] at more
          omega
        | false => exact more
      have left : last - reader.curMsgSqn = last - (reader.curMsgSqn + 1) + 1 := by omega
      rw [read, messages, left, take_succ_cons, length_cons]
      rw [messages, length_cons] at more
      dsimp only
      refine Reads.cons ?_ _
      have openedNext : Opened setup msgdata { reader with
            stream := ⟨setup.dataOf after, crc, delivered setup.tag record {}⟩
            curMsgSqn := reader.curMsgSqn + 1 } :=
        ⟨opened.readed, opened.header, noIds_delivered _ _⟩
      have later := (suffix_cons record after).trans within
      by_cases continues : reader.curMsgSqn + 1 < last ∨ toMostRecent = true
      · have moreNext : if toMostRecent then
            reader.curMsgSqn + 1 + (messagesOf type after).length = last
            else reader.curMsgSqn + 1 < last := by
          cases toMostRecent with
          | true =>
            rw [if_pos rfl] at more ⊢
            omega
          | false => exact continues.resolve_right Bool.false_ne_true
        rw [if_pos continues]
        cases type with
        | ordinal =>
          cases place
          exact ih openedNext ⟨rfl, rfl⟩ later (Nat.lt_of_succ_lt_succ enough) moreNext
        | key value =>
          obtain ⟨_, _, base, same, -, behind, rest⟩ := place
          cases same
          rw [rest]
          cases positions : setup.positionsWhere (IndexType.key value).selects base after with
          | nil =>
            have none := @length_positionsWhere _ (IndexType.key value).selects base after
            rw [positions, eq_comm, length_nil, length_eq_zero_iff] at none
            rw [messagesOf, none, map_nil, take_nil]
            exact reads_stop openedNext (continues.symm.imp_right Nat.sub_pos_of_lt)
          | cons pos positions =>
            obtain ⟨found, beyond, suffix, passes, selects, lies, others⟩ :=
              positionsWhere_eq_cons behind positions
            have same : messagesOf (.key value) after =
                messagesOf (.key value) (found :: beyond) := by
              rw [messagesOf, selects, messagesOf, filter_cons_of_pos passes]
            rw [same] at moreNext ⊢
            have fewer := suffix.length_le
            refine ih (openedNext.seek (reader.fileHeader.headerLength + pos))
              ⟨?_, found, beyond, _, rfl, passes, ?_, congrArg some others⟩ (suffix.trans later)
              ?_ moreNext
            · rw [← lies, ← (opened.same flushed).1]
              rfl
            · rw [← Nat.add_assoc, ← drop_drop, lies, TrackSetup.dataOf_cons, drop_left]
            · rw [length_cons] at enough
              omega
      · rw [if_neg continues, Nat.sub_eq_zero_of_le (by omega), take_zero]
        refine ⟨rfl, ?_, ?_, openedNext⟩
        · simp
        · intro most
          exact absurd (.inr most) continues

theorem openSeekMsgdataFile_opened (flushed : Flushed records msgdata type index)
    (ready : Ready setup msgdata reader) {target : Nat} (inside : target ≤ msgdata.length) :
    ∃ opened, openSeekMsgdataFile msgdata target reader = some opened ∧
      Opened setup msgdata opened ∧ opened.stream.input = msgdata.drop target ∧
      opened.curMsgSqn = reader.curMsgSqn := by
  obtain ⟨header, read, -⟩ := flushed.header
  have known : (if reader.fileHeaderReaded then some reader.fileHeader
      else reader.fileHeader.read msgdata) = some header := by
    have kept := ready.header
    split at kept
    next readed => rw [if_pos readed, ← kept, read]
    next fresh => rw [if_neg fresh, kept, read]
  refine ⟨seek msgdata target { reader with fileHeader := header, fileHeaderReaded := true },
    ?_, ⟨rfl, read, ready.noIds⟩, rfl, rfl⟩
  rw [openSeekMsgdataFile, known]
  exact if_neg (Nat.not_lt.mpr inside)

def firstEntry (first : Nat) : Nat := (first - 1) % 2 ^ 60

theorem getMsgIndexPos_mod (first : Nat) :
    getMsgIndexPos first % 2 ^ 64 = firstEntry first * valueSize := by
  rw [getMsgIndexPos, firstEntry, valueSize]
  omega

section

variable (flushed : Flushed records msgdata type index)
include flushed

theorem size_index : index.size = (messagesOf type records).length * valueSize := by
  rw [flushed.entries, IndexFile.size, IndexFile.ofEntries, length_positionsWhere, messagesOf,
    length_map]
  rfl

theorem readRange_reads {reader : HistReader} (ready : Ready setup msgdata reader)
    (aligned : reader.fileHeader.headerLength = setup.headerLength) {first last : Nat}
    {toMostRecent : Bool} (present : firstEntry first < (messagesOf type records).length)
    (more : if toMostRecent then
      first + ((messagesOf type records).length - firstEntry first) = last else first < last) :
    Reads setup msgdata toMostRecent
      (((messagesOf type records).drop (firstEntry first)).take (last - first))
      (last - first) ((messagesOf type records).length - firstEntry first)
      (readRange setup msgdata type index first last toMostRecent reader) := by
  obtain ⟨start, suffix, within, positions, selects, behind⟩ :=
    @drop_positionsWhere _ _ type.selects setup.headerLength (firstEntry first) 0 _ flushed.data
  have remaining : (messagesOf type records).drop (firstEntry first) = messagesOf type suffix := by
    rw [messagesOf, ← map_drop, selects, messagesOf]
  have sqn : getMsgSqn (firstEntry first * valueSize) =
      firstEntry first := Nat.mul_div_cancel _ (by decide)
  rw [readRange, getMsgIndexPos_mod, size_index flushed, sqn,
    if_neg (Nat.not_lt.mpr (Nat.mul_le_mul_right _ (Nat.le_of_lt present))), flushed.entries,
    IndexFile.entries_ofEntries, positions, remaining]
  have some : 0 < (messagesOf type suffix).length := by
    rw [← remaining, length_drop]
    omega
  rw [← length_drop, remaining] at more ⊢
  cases found : setup.positionsWhere type.selects start suffix with
  | nil =>
    have none := @length_positionsWhere _ type.selects start suffix
    rw [found] at none
    rw [messagesOf, length_map, ← none] at some
    cases some
  | cons pos rest =>
    obtain ⟨record, after, suffix', passes, same, lies, others⟩ :=
      positionsWhere_eq_cons behind found
    have inside : setup.headerLength + pos ≤ msgdata.length := by
      have length := congrArg length lies
      have positive := TrackSetup.length_recordData_pos record
      rw [length_drop, TrackSetup.dataOf_cons, length_append] at length
      omega
    have enough := TrackSetup.length_le_dataOf (record :: after)
    rw [← lies, length_drop] at enough
    obtain ⟨opened, seeks, isOpen, input, sqn⟩ := openSeekMsgdataFile_opened flushed
        (⟨ready.header, ready.noIds⟩ : Ready setup msgdata { reader with curMsgSqn := first })
        inside
    have messages : messagesOf type suffix = messagesOf type (record :: after) := by
      rw [messagesOf, same, messagesOf, filter_cons_of_pos passes]
    dsimp only
    rw [aligned, seeks]
    rw [messages] at more ⊢
    rw [← show opened.curMsgSqn = first from sqn] at more ⊢
    refine readMessages_reads flushed isOpen ⟨input.trans lies, ?_⟩ (suffix'.trans within)
      (by omega) more
    cases type with
    | ordinal => rfl
    | key value =>
      refine ⟨record, after, _, rfl, passes, ?_, congrArg Option.some others⟩
      rw [← Nat.add_assoc, ← drop_drop, lies, TrackSetup.dataOf_cons, drop_left]

theorem readRange_none {first : Nat} (absent : (messagesOf type records).length ≤ firstEntry first)
    (last : Nat) (toMostRecent : Bool) :
    ∃ code, code ≠ .success ∧ ∀ reader, Ready setup msgdata reader → ∃ final,
      readRange setup msgdata type index first last toMostRecent reader = ([], code, final) ∧
        Ready setup msgdata final := by
  have sqn : getMsgSqn (firstEntry first * valueSize) =
      firstEntry first := Nat.mul_div_cancel _ (by decide)
  have count := @length_positionsWhere _ type.selects 0 records
  rw [messagesOf, length_map, ← count] at absent
  simp only [readRange, getMsgIndexPos_mod, sqn, flushed.entries, IndexFile.entries_ofEntries,
    drop_eq_nil_of_le absent]
  split
  next => exact ⟨_, by decide, fun reader ready => ⟨_, rfl, ready⟩⟩
  next => exact ⟨_, by decide, fun reader ready => ⟨_, rfl, ready.header, ready.noIds⟩⟩

end

structure Request where
  type : IndexType
  first : Nat
  last : Nat

/-- A range that begins with a message, and ends behind its begin or with the last message. -/
def Request.Valid (request : Request) (count : Nat) : Prop :=
  1 ≤ request.first ∧
    (request.first < request.last ∨ request.last = kMostRecent ∧ request.first ≤ count)

/-- A read delivers what there is of the range, and succeeds if that is all of it. -/
def Request.Served (messages : List AmiMessage) (request : Request)
    (result : List AmiMessage × ErrorCode) : Prop :=
  result.1 = (if request.last = kMostRecent then messages.drop (request.first - 1)
    else (messages.drop (request.first - 1)).take (request.last - request.first)) ∧
  (result.2 = .success ↔ request.last = kMostRecent ∨ request.last - 1 ≤ messages.length)

/-- The position of the first index does not wrap around to an entry of the index. -/
def Request.InIndex (request : Request) (count : Nat) : Prop :=
  request.first ≤ 2 ^ 60 ∨ count ≤ firstEntry request.first

/-- `ReadRxHistMessage` and its siblings, called in turn; `index` has the index files. -/
def readAll (setup : TrackSetup) (msgdata : List UInt8) (index : IndexType → IndexFile) :
    HistReader → List Request → List (List AmiMessage × ErrorCode)
  | _, [] => []
  | reader, request :: rest =>
    let (messages, code, reader) := reader.reset.readHistMessage setup msgdata request.type
      (index request.type) request.first request.last
    (messages, code) :: readAll setup msgdata index reader rest

theorem Ready.aligned (flushed : Flushed records msgdata type index)
    (written : setup.headerLength = 4) (ready : Ready setup msgdata reader) :
    reader.fileHeader.headerLength = setup.headerLength := by
  have known := ready.header
  split at known
  next =>
    obtain ⟨header, read, length, -⟩ := flushed.header
    cases known.symm.trans read
    exact length
  next =>
    rw [known, written]
    rfl

theorem Reads.result {expected : List AmiMessage} {count : Nat}
    (reads : Reads setup msgdata toMostRecent expected count available outcome) :
    ∃ final, outcome = (expected,
      if toMostRecent = true ∨ count ≤ available then .success else .tryAgain, final) ∧
      Ready setup msgdata final := by
  obtain ⟨messages, code, final⟩ := outcome
  exact ⟨final, by rw [← reads.messages, ← reads.code], reads.opened.ready⟩

theorem readHistMessage_served (flushed : Flushed records msgdata type index)
    (written : setup.headerLength = 4) {request : Request}
    (ok : request.Valid (messagesOf type records).length) :
    ∃ messages code, (∀ reader, Ready setup msgdata reader → ∃ final,
        readHistMessage setup msgdata type index request.first request.last reader =
          (messages, code, final) ∧ Ready setup msgdata final) ∧
      (request.Served (messagesOf type records) (messages, code) ↔
        request.InIndex (messagesOf type records).length) := by
  obtain ⟨_, first, last⟩ := request
  obtain ⟨begins, ends⟩ := ok
  dsimp only at begins ends
  have small := flushed.small
  have count : getMsgSqn index.size = (messagesOf type records).length := by
    rw [size_index flushed]
    exact Nat.mul_div_cancel _ (by decide)
  rw [size_index flushed, valueSize] at small
  have started : first ≠ kMostRecent := Nat.ne_of_gt begins
  obtain range | ⟨rfl, exists_⟩ := ends
  · have open_ : last ≠ kMostRecent := Nat.ne_of_gt (Nat.lt_trans begins range)
    have reads : ∀ reader, readHistMessage setup msgdata type index first last reader =
        readRange setup msgdata type index first last false reader := by
      intro reader
      simp [readHistMessage, started, open_, Nat.lt_asymm range, Nat.ne_of_gt range, and_false,
        ↓reduceIte, ne_eq]
    simp only [reads, Request.Served, Request.InIndex, open_, false_or, ↓reduceIte]
    by_cases present : firstEntry first < (messagesOf type records).length
    · refine ⟨_, _, fun reader ready =>
        (readRange_reads flushed ready (ready.aligned flushed written) present
          (by exact range)).result, ?_⟩
      have wraps : first ≤ 2 ^ 60 ∨ (messagesOf type records).length ≤ firstEntry first ↔
          firstEntry first = first - 1 := by
        rw [firstEntry] at present ⊢
        omega
      rw [wraps]
      constructor
      · intro served
        by_contra wrapped
        -- the messages of the entry to which the pos wraps around
        have none := congrArg length served.1
        simp only [length_take, length_drop] at none
        omega
      · intro direct
        rw [direct] at present ⊢
        refine ⟨rfl, ?_⟩
        simp only [Bool.false_eq_true, false_or, ite_eq_left_iff, reduceCtorEq, imp_false,
          Decidable.not_not]
        omega
    · obtain ⟨code, fails, none⟩ := readRange_none flushed (Nat.le_of_not_lt present) last false
      refine ⟨_, _, none, iff_of_true ⟨?_, ?_⟩ (.inr (Nat.le_of_not_lt present))⟩
      · rw [drop_eq_nil_of_le, take_nil]
        exact Nat.le_trans (Nat.le_of_not_lt present) (Nat.mod_le _ _)
      · have beyond := Nat.le_trans (Nat.le_of_not_lt present) (Nat.mod_le (first - 1) (2 ^ 60))
        refine iff_of_false fails ?_
        omega
  · have direct : firstEntry first = first - 1 := Nat.mod_eq_of_lt (by omega)
    have some : (messagesOf type records).length ≠ kMostRecent :=
      Nat.ne_of_gt (Nat.lt_of_lt_of_le begins exists_)
    have reads : ∀ reader, readHistMessage setup msgdata type index first kMostRecent reader =
        readRange setup msgdata type index first ((messagesOf type records).length + 1) true
          reader := by
      intro reader
      simp [readHistMessage, started, count, some, Nat.not_lt.mpr (Nat.le_succ_of_le exists_),
        ne_eq, not_true_eq_false, false_and, and_false, ↓reduceIte]
    simp only [reads]
    refine ⟨_, _, fun reader ready =>
      (readRange_reads flushed ready (ready.aligned flushed written) (by omega)
        (by rw [if_pos rfl]; omega)).result, iff_of_true ⟨?_, ?_⟩ (.inl ?_)⟩
    · rw [direct, if_pos rfl]
      refine take_of_length_le ?_
      rw [length_drop]
      omega
    · simp
    · exact Nat.le_trans exists_ (by omega)

theorem readAll_served {index : IndexType → IndexFile} {requests : List Request}
    (flushed : ∀ request ∈ requests, Flushed records msgdata request.type (index request.type))
    (written : setup.headerLength = 4)
    (ok : ∀ request ∈ requests, request.Valid (messagesOf request.type records).length)
    (ready : Ready setup msgdata reader) :
    Forall₂ (fun request result => request.Served (messagesOf request.type records) result ∧
        readAll setup msgdata index {} [request] = [result])
      requests (readAll setup msgdata index reader requests) ↔
      ∀ request ∈ requests, request.InIndex (messagesOf request.type records).length := by
  induction requests generalizing reader with
  | nil => exact iff_of_true .nil (fun request mem => by cases mem)
  | cons request rest ih =>
    obtain ⟨messages, code, reads, served⟩ := readHistMessage_served
      (flushed request mem_cons_self) written (ok request mem_cons_self)
    obtain ⟨final, read, readyFinal⟩ := reads reader.reset ⟨ready.header, ready.noIds⟩
    obtain ⟨_, fresh, -⟩ := reads (reset {}) ready_fresh
    have alone : readAll setup msgdata index {} [request] = [(messages, code)] := by
      rw [readAll, fresh]
      rfl
    rw [readAll, read, forall₂_cons, forall_mem_cons]
    exact and_congr ⟨fun both => served.mp both.1, fun direct => ⟨served.mpr direct, alone⟩⟩
      (ih (fun other mem => flushed other (mem_cons_of_mem _ mem))
        (fun other mem => ok other (mem_cons_of_mem _ mem)) readyFinal)

/-- Range reads with one reader, by any index, deliver what new readers do, and that is what
each range says, if and only if no first position wraps around. -/
theorem ranges_served_iff {index : IndexType → IndexFile} {requests : List Request}
    (flushed : ∀ request ∈ requests, Flushed records msgdata request.type (index request.type))
    (written : setup.headerLength = 4)
    (valid : ∀ request ∈ requests, request.Valid (messagesOf request.type records).length) :
    Forall₂ (fun request result => request.Served (messagesOf request.type records) result ∧
        readAll setup msgdata index {} [request] = [result])
      requests (readAll setup msgdata index {} requests) ↔
      ∀ request ∈ requests, request.InIndex (messagesOf request.type records).length :=
  readAll_served flushed written valid ready_fresh

end Loop

def smallTrack : TrackSetup := { TrackSetup.smallSetup with headerLength := 4 }

def smallRecords : List (MsgRecord smallTrack.sizes) := [smallRecord 9, smallRecord 3]

def smallMsgdata : List UInt8 := [4, 1, 1, 0] ++ smallTrack.dataOf smallRecords

def smallIndex (type : IndexType) : IndexFile :=
  .ofEntries (smallTrack.positionsWhere type.selects 0 smallRecords)

theorem smallTrack_flushed {type : IndexType} (small : (smallIndex type).size < 2 ^ 63) :
    Flushed smallRecords smallMsgdata type (smallIndex type) where
  readable record mem := by
    rcases mem_cons.mp mem with first | second
    · exact first ▸ ⟨by decide, by decide⟩
    · exact mem_singleton.mp second ▸ ⟨by decide, by decide⟩
  header := ⟨⟨[4, 1, 1, 0]⟩, by decide +kernel, rfl, by decide⟩
  data := rfl
  entries := rfl
  small

/-- Two ranges of the ordinal index, and one of a key between them. -/
def smallRequests : List Request :=
  [⟨.ordinal, 2, 3⟩, ⟨.key ⟨.transport, 2⟩, 1, 2⟩, ⟨.ordinal, 1, kMostRecent⟩]

theorem ranges_served_of_three : Forall₂ (fun request result =>
        request.Served (messagesOf request.type smallRecords) result ∧
          readAll smallTrack smallMsgdata smallIndex {} [request] = [result])
      smallRequests (readAll smallTrack smallMsgdata smallIndex {} smallRequests) := by
  have small : ∀ request ∈ smallRequests, (smallIndex request.type).size < 2 ^ 63 := by
    decide +kernel
  have count : ∀ request ∈ smallRequests, (messagesOf request.type smallRecords).length = 2 := by
    decide +kernel
  have valid : ∀ request ∈ smallRequests, request.Valid 2 ∧ request.InIndex 2 := by
    simp [smallRequests, Request.Valid, Request.InIndex, kMostRecent]
  exact (ranges_served_iff (fun request mem => smallTrack_flushed (small request mem)) rfl
    (fun request mem => (count request mem).symm ▸ (valid request mem).1)).mpr
    (fun request mem => (count request mem).symm ▸ (valid request mem).2)

theorem wrapped_range_delivers : ¬ Forall₂ (fun request result =>
        request.Served (messagesOf request.type smallRecords) result ∧
          readAll smallTrack smallMsgdata smallIndex {} [request] = [result])
      [⟨.ordinal, 2 ^ 60 + 1, 2 ^ 60 + 2⟩] (readAll smallTrack smallMsgdata smallIndex {}
        [⟨.ordinal, 2 ^ 60 + 1, 2 ^ 60 + 2⟩]) := by
  intro served
  have valid : Request.Valid ⟨.ordinal, 2 ^ 60 + 1, 2 ^ 60 + 2⟩ 2 := by
    simp [Request.Valid]
  have inIndex := (readAll_served (forall_mem_singleton.mpr
    (smallTrack_flushed (by decide +kernel))) rfl (forall_mem_singleton.mpr valid)
    ready_fresh).mp served _ mem_cons_self
  have wraps : ¬ (2 ^ 60 + 1 ≤ 2 ^ 60 ∨ 2 ≤ (2 ^ 60 + 1 - 1) % 2 ^ 60) := by decide
  exact wraps inIndex

end HistReader

end AdkAaf.Recorder
