import AdkAaf.Lib.WriteOrder
import AdkAaf.Recorder.FlushChain.Basic

/-! The state of a track whose buffers point into no message that was released. -/

set_option autoImplicit false

namespace AdkAaf.Recorder.FlushChain

open Lib.WriteOrder List

def entries (positions : List Nat) : List UInt8 := (positions.map entryBytes).flatten

/-- What the files of a track hold behind their headers when it has written `records`. -/
def contentOf (setup : Setup) (records : List (MsgRecord setup.sizes)) : FileId → List UInt8
  | .data => setup.dataOf records
  | .key key => entries (setup.keyPositions key records)
  | .ordinal => entries (setup.ordinalPositions records)

def FileId.rank : FileId → Nat
  | data => 0
  | key _ => 1
  | ordinal => 2

def FileId.below (lower upper : FileId) : Prop := lower.rank < upper.rank

def HasEntry (bytes : List UInt8) (sqn filepos : Nat) : Prop :=
  entryBytes filepos <+: bytes.drop (sqn * OrdinalIndex.valueSize)

instance (bytes : List UInt8) (sqn filepos : Nat) : Decidable (HasEntry bytes sqn filepos) :=
  inferInstanceAs (Decidable (_ <+: _))

section Sound

variable {setup : Setup}

/-- The record of the message and its entry in the ordinal index; a message that was
filtered has none. -/
def Written (contents : FileId → List UInt8) : RecordedMsgStuff setup.sizes → Prop
  | .recorded record filepos =>
    setup.recordData record <+: (contents .data).drop filepos ∧
      ∃ sqn < (contents .ordinal).length, HasEntry (contents .ordinal) sqn filepos
  | .filtered => True

instance (contents : FileId → List UInt8) :
    DecidablePred (@Written setup contents)
  | .recorded _ _ => inferInstanceAs (Decidable (_ <+: _ ∧ ∃ sqn < _, HasEntry _ sqn _))
  | .filtered => inferInstanceAs (Decidable True)

theorem prefix_of_eq {Item : Type} {shorter longer : List Item} (same : shorter = longer) :
    shorter <+: longer := same ▸ prefix_rfl

theorem prefix_drop {Item : Type} {shorter longer : List Item} (gains : shorter <+: longer)
    (count : Nat) : shorter.drop count <+: longer.drop count := by
  obtain ⟨rest, same⟩ := gains
  rw [← same, drop_append]
  exact prefix_append _ _

theorem Written.mono {old new : FileId → List UInt8} {stuff : RecordedMsgStuff setup.sizes}
    (written : Written old stuff) (gain : ∀ file, old file <+: new file) : Written new stuff := by
  cases stuff with
  | filtered => trivial
  | recorded record filepos =>
    obtain ⟨data, sqn, inside, entry⟩ := written
    refine ⟨data.trans (prefix_drop (gain .data) _), sqn,
      Nat.lt_of_lt_of_le inside (gain .ordinal).length_le, ?_⟩
    exact IsPrefix.trans entry (prefix_drop (gain .ordinal) _)

namespace MessageTrack

def Live (track : MessageTrack setup) : Prop :=
  ∀ file ∈ track.ties .ordinal, ∀ chunk ∈ (track.files file).bufVec, chunk.released = false

instance (track : MessageTrack setup) : Decidable track.Live :=
  inferInstanceAs (Decidable (∀ file ∈ track.ties .ordinal,
    ∀ chunk ∈ (track.files file).bufVec, chunk.released = false))

/-- What holds of the files wherever the recorder is killed. Only where it is `careful` are
the messages that it has freed accounted for. -/
structure Safe (careful : Prop) (track : MessageTrack setup) : Prop where
  disk : Ordered (contentOf setup) FileId.below track.running.records track.disk
  freed : careful → ∀ stuff ∈ track.released, Written track.disk stuff

/-- What a call keeps up; `inHand` are messages that have not been handed to the buffers
entirely. -/
structure Sound (careful : Prop) (inHand : List (RecordedMsgStuff setup.sizes))
    (track : MessageTrack setup) : Prop extends track.Safe careful where
  live : track.Live
  accounted : ∀ file, (track.files file).pending.length ≤ (track.files file).filled
  idle : ∀ file, (track.files file).filled = 0 → (track.files file).bufVec = []
  untied : ∀ key, key ∉ track.keys → track.files (.key key) = {}
  stream : Ordered (contentOf setup) FileId.below track.running.records track.stream
  waiting : careful → ∀ stuff ∈ track.msgsToFree, stuff ∈ inHand ∨ Written track.stream stuff

def Tied (track : MessageTrack setup) (file : FileId) : Prop :=
  ∀ key, file = .key key → key ∈ track.keys

def Flushed (track : MessageTrack setup) (file : FileId) : Prop :=
  ∀ lower, lower.below file → (track.files lower).filled = 0

end MessageTrack

section OneFile

variable {careful : Prop} {inHand : List (RecordedMsgStuff setup.sizes)}
  {track : MessageTrack setup} {file : FileId} {buffer : FileBuffer}

namespace MessageTrack

@[simp] theorem files_setFile_self : (track.setFile file buffer).files file = buffer := if_pos rfl

variable {other : FileId}

theorem files_setFile_of_ne (apart : other ≠ file) :
    (track.setFile file buffer).files other = track.files other := if_neg apart

@[simp] theorem setFile_setFile (first second : FileBuffer) :
    (track.setFile file first).setFile file second = track.setFile file second := by
  have same : ((track.setFile file first).setFile file second).files =
      (track.setFile file second).files := by
    funext other
    by_cases equal : other = file
    · rw [equal, files_setFile_self, files_setFile_self]
    · rw [files_setFile_of_ne equal, files_setFile_of_ne equal, files_setFile_of_ne equal]
  exact congrArg (fun files => { track with files := files }) same

theorem disk_setFile_self : (track.setFile file buffer).disk file = buffer.disk := by
  rw [disk, files_setFile_self]

theorem stream_setFile_self : (track.setFile file buffer).stream file = buffer.stream := by
  rw [stream, files_setFile_self]

theorem disk_setFile_of_ne (apart : other ≠ file) :
    (track.setFile file buffer).disk other = track.disk other := by
  rw [disk, files_setFile_of_ne apart, disk]

theorem stream_setFile_of_ne (apart : other ≠ file) :
    (track.setFile file buffer).stream other = track.stream other := by
  rw [stream, files_setFile_of_ne apart, stream]

theorem mem_ties_ordinal : file ∈ track.ties .ordinal ↔ track.Tied file := by
  simp only [ties, mem_cons, mem_append, mem_map, not_mem_nil, or_false, Tied]
  cases file with
  | data | ordinal | key key => simp

theorem Live.setFile (live : track.Live) (fresh : ∀ chunk ∈ buffer.bufVec, chunk.released = false) :
    (track.setFile file buffer).Live := by
  intro other mem chunk inside
  by_cases equal : other = file
  · rw [equal, files_setFile_self] at inside
    exact fresh chunk inside
  · rw [files_setFile_of_ne equal] at inside
    exact live other mem chunk inside

end MessageTrack

open MessageTrack

theorem stream_of_idle (sound : track.Sound careful inHand) {other : FileId}
    (empty : (track.files other).filled = 0) : track.stream other = track.disk other := by
  rw [stream, FileBuffer.stream, FileBuffer.pending, sound.idle other empty]
  exact append_nil _

theorem MessageTrack.Sound.setFile (sound : track.Sound careful inHand) (buffer : FileBuffer)
    (tied : track.Tied file) (live : ∀ chunk ∈ buffer.bufVec, chunk.released = false)
    (accounted : buffer.pending.length ≤ buffer.filled)
    (idle : buffer.filled = 0 → buffer.bufVec = []) (diskGains : track.disk file <+: buffer.disk)
    (streamGains : track.stream file <+: buffer.stream)
    (diskCovered : Covered (contentOf setup) FileId.below track.running.records
      (track.setFile file buffer).disk file)
    (streamCovered : Covered (contentOf setup) FileId.below track.running.records
      (track.setFile file buffer).stream file) :
    (track.setFile file buffer).Sound careful inHand := by
  have diskGain : ∀ other, track.disk other <+: (track.setFile file buffer).disk other := by
    intro other
    by_cases equal : other = file
    · rw [equal, disk_setFile_self]
      exact diskGains
    · exact prefix_of_eq (disk_setFile_of_ne equal).symm
  have streamGain : ∀ other, track.stream other <+: (track.setFile file buffer).stream other := by
    intro other
    by_cases equal : other = file
    · rw [equal, stream_setFile_self]
      exact streamGains
    · exact prefix_of_eq (stream_setFile_of_ne equal).symm
  constructor
  case toSafe =>
    constructor
    case disk =>
      exact sound.disk.grow diskCovered (diskGain file) fun other => disk_setFile_of_ne
    case freed =>
      exact fun wanted stuff mem => (sound.freed wanted stuff mem).mono diskGain
  case live => exact sound.live.setFile live
  case accounted =>
    intro other
    by_cases equal : other = file
    · rw [equal, files_setFile_self]
      exact accounted
    · rw [files_setFile_of_ne equal]
      exact sound.accounted other
  case idle =>
    intro other
    by_cases equal : other = file
    · rw [equal, files_setFile_self]
      exact idle
    · rw [files_setFile_of_ne equal]
      exact sound.idle other
  case untied =>
    intro key missing
    have apart : FileId.key key ≠ file := fun equal => missing (tied key equal.symm)
    rw [files_setFile_of_ne apart]
    exact sound.untied key missing
  case stream =>
    exact sound.stream.grow streamCovered (streamGain file) fun other => stream_setFile_of_ne
  case waiting =>
    intro wanted stuff mem
    exact (sound.waiting wanted stuff mem).imp_right fun written => written.mono streamGain

theorem MessageTrack.Sound.flush (sound : track.Sound careful inHand) (buffer : FileBuffer)
    (tied : track.Tied file)
    (flushed : track.Flushed file) (live : ∀ chunk ∈ buffer.bufVec, chunk.released = false)
    (accounted : buffer.pending.length ≤ buffer.filled)
    (idle : buffer.filled = 0 → buffer.bufVec = [])
    (diskGains : track.disk file <+: buffer.disk) (same : buffer.stream = track.stream file) :
    (track.setFile file buffer).Sound careful inHand ∧
      (track.setFile file buffer).stream = track.stream := by
  have stream : (track.setFile file buffer).stream = track.stream := by
    funext other
    by_cases equal : other = file
    · rw [equal, stream_setFile_self, same]
    · exact stream_setFile_of_ne equal
  refine ⟨sound.setFile buffer tied live accounted idle diskGains ?_ ?_ ?_, stream⟩
  · exact prefix_of_eq same.symm
  · refine (sound.stream file).mono ?_ ?_
    · rw [disk_setFile_self, ← same]
      exact prefix_append _ _
    · intro lower under
      have apart : lower ≠ file := by
        intro equal
        exact absurd under (equal ▸ Nat.lt_irrefl _)
      apply prefix_of_eq
      rw [disk_setFile_of_ne apart, stream_of_idle sound (flushed lower under)]
  · rw [stream]
    exact sound.stream file

end OneFile

end Sound

end AdkAaf.Recorder.FlushChain
