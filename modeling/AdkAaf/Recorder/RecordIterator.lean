import AdkAaf.Recorder.HistRange

/-! Iterators over the messages of a track or of a key. -/

set_option autoImplicit false

namespace AdkAaf.Recorder

/-- A `RecordIterator` by the ordinal index, or a `KeyindexRecordIterator`. -/
structure RecordIterator where
  reader : Option HistReader

namespace RecordIterator

def ofSqn (setup : TrackSetup) (msgdata : List UInt8) (type : IndexType) (index : IndexFile)
    (sqn : Nat) : RecordIterator :=
  let last := if sqn = kMostRecent then sqn else sqn + 1
  match HistReader.readHistMessage setup msgdata type index sqn last {} with
  | (_, .success, reader) => ⟨some reader⟩
  | _ => ⟨none⟩

def isEof (it : RecordIterator) : Bool :=
  match it.reader with
  | none => true
  | some reader => reader.isEof

def equals (it other : RecordIterator) : Bool :=
  (it.isEof && other.isEof) || (!it.isEof && !other.isEof &&
    it.reader.map HistReader.curMsgSqn == other.reader.map HistReader.curMsgSqn)

/-- `operator*` -/
def message (it : RecordIterator) : Option AmiMessage :=
  it.reader.map fun reader => reader.stream.message

def StandsOnLast (setup : TrackSetup) (msgdata : List UInt8) (type : IndexType)
    (index : IndexFile) (messages : List AmiMessage) : Prop :=
  let it := ofSqn setup msgdata type index kMostRecent
  it.isEof = false ∧ it.equals (ofSqn setup msgdata type index messages.length) = true ∧
    it.message = messages.getLast?

variable {setup : TrackSetup} {msgdata : List UInt8} {type : IndexType} {index : IndexFile}
  {records : List (MsgRecord setup.sizes)}

theorem isEof_mostRecent (flushed : Flushed records msgdata type index)
    (written : setup.headerLength = 4) (some : messagesOf type records ≠ []) :
    (ofSqn setup msgdata type index kMostRecent).isEof = true := by
  have positive := List.length_pos_iff.mpr some
  have small := flushed.small
  have count : OrdinalIndex.getMsgSqn index.size = (messagesOf type records).length := by
    rw [HistReader.size_index flushed]
    exact Nat.mul_div_cancel _ (by decide)
  rw [HistReader.size_index flushed, OrdinalIndex.valueSize] at small
  have direct : HistReader.firstEntry (messagesOf type records).length =
      (messagesOf type records).length - 1 := Nat.mod_eq_of_lt (by omega)
  have reads : HistReader.Reads setup msgdata true _ _ _ (HistReader.readRange setup msgdata type
      index (messagesOf type records).length ((messagesOf type records).length + 1) true {}) :=
    HistReader.readRange_reads flushed HistReader.ready_fresh
      (HistReader.ready_fresh.aligned flushed written) (by omega) (by rw [if_pos rfl]; omega)
  have ended := reads.ended rfl
  have exists_ : (messagesOf type records).length ≠ kMostRecent := Nat.ne_of_gt positive
  simp only [ofSqn, HistReader.readHistMessage, count, exists_, ne_eq, not_true_eq_false,
    false_and, and_false, ↓reduceIte]
  split
  next reader outcome =>
    rw [outcome] at ended
    exact ended
  next => rfl

/-- A read to the most recent message ends at the end of the file, which an iterator takes
for its end. -/
theorem not_standsOnLast (flushed : Flushed records msgdata type index)
    (written : setup.headerLength = 4) (some : messagesOf type records ≠ []) :
    ¬ StandsOnLast setup msgdata type index (messagesOf type records) := by
  intro stands
  have ended := isEof_mostRecent flushed written some
  rw [stands.1] at ended
  cases ended

theorem not_standsOnLast_of_two :
    ¬ StandsOnLast HistReader.smallTrack HistReader.smallMsgdata .ordinal
      (HistReader.smallIndex .ordinal) (messagesOf .ordinal HistReader.smallRecords) :=
  not_standsOnLast (HistReader.smallTrack_flushed (by decide +kernel)) rfl (by decide +kernel)

theorem mostRecent_of_stream_ends :
    ¬ StandsOnLast HistReader.smallTrack HistReader.smallMsgdata (.key ⟨.stream, 0x03020100⟩)
      (HistReader.smallIndex (.key ⟨.stream, 0x03020100⟩))
      (messagesOf (.key ⟨.stream, 0x03020100⟩) HistReader.smallRecords) := by
  intro stands
  have ended := isEof_mostRecent
    (@HistReader.smallTrack_flushed (.key ⟨.stream, 0x03020100⟩) (by decide +kernel)) rfl
    (by decide +kernel)
  rw [stands.1] at ended
  cases ended

end RecordIterator

end AdkAaf.Recorder
