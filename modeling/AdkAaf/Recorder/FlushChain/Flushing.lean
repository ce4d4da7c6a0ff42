import AdkAaf.Recorder.FlushChain.Order

/-! What flushing the buffers of a track keeps, whatever `writev` writes. -/

set_option autoImplicit false

namespace AdkAaf.Recorder.FlushChain

open Lib.CrashTriple Lib.CrashTriple.Program MessageTrack Keeps List

variable {setup : Setup}

theorem bytesOf_cons (chunk : Chunk) (rest : List Chunk) :
    bytesOf (chunk :: rest) = chunk.bytes ++ bytesOf rest := rfl

theorem bytesOf_append (first second : List Chunk) :
    bytesOf (first ++ second) = bytesOf first ++ bytesOf second := by
  rw [bytesOf, map_append, flatten_append]
  rfl

theorem bytesOf_trimBufVector (bufVec : List Chunk) (count : Nat) :
    bytesOf (trimBufVector bufVec count) = (bytesOf bufVec).drop count := by
  induction bufVec generalizing count with
  | nil => exact drop_nil.symm
  | cons chunk rest ih =>
    rw [trimBufVector, bytesOf_cons, drop_append]
    split
    next whole => rw [ih, drop_eq_nil_of_le whole, nil_append]
    next part =>
      rw [bytesOf_cons, Nat.sub_eq_zero_of_le (Nat.le_of_not_le part)]
      rfl

theorem live_trimBufVector {bufVec : List Chunk}
    (live : ∀ chunk ∈ bufVec, chunk.released = false) (count : Nat) :
    ∀ chunk ∈ trimBufVector bufVec count, chunk.released = false := by
  induction bufVec generalizing count with
  | nil => exact live
  | cons chunk rest ih =>
    have later := fun other mem => live other (mem_cons_of_mem _ mem)
    rw [trimBufVector]
    split
    next => exact ih later _
    next =>
      intro other mem
      cases mem_cons.mp mem with
      | inl first => exact first ▸ live chunk mem_cons_self
      | inr inRest => exact later other inRest

structure Unchanged (before after : MessageTrack setup) : Prop where
  keys : after.keys = before.keys
  running : after.running = before.running
  curMsgdataFilepos : after.curMsgdataFilepos = before.curMsgdataFilepos

theorem Unchanged.refl (track : MessageTrack setup) : Unchanged track track := ⟨rfl, rfl, rfl⟩

theorem Unchanged.trans {first second third : MessageTrack setup} (one : Unchanged first second)
    (two : Unchanged second third) : Unchanged first third :=
  ⟨two.keys.trans one.keys, two.running.trans one.running,
    two.curMsgdataFilepos.trans one.curMsgdataFilepos⟩

/-- A flush changes nothing of what was handed to the buffers, and fills none. -/
structure Same (before after : MessageTrack setup) : Prop extends Unchanged before after where
  less : ∀ file, (after.files file).filled ≤ (before.files file).filled
  stream : after.stream = before.stream

theorem Same.refl (track : MessageTrack setup) : Same track track :=
  ⟨Unchanged.refl track, fun _ => .refl, rfl⟩

theorem Same.trans {first second third : MessageTrack setup} (one : Same first second)
    (two : Same second third) : Same first third :=
  ⟨one.toUnchanged.trans two.toUnchanged, fun file => Nat.le_trans (two.less file) (one.less file),
    two.stream.trans one.stream⟩

theorem Same.idle {before after : MessageTrack setup} (same : Same before after) {file : FileId}
    (empty : (before.files file).filled = 0) : (after.files file).filled = 0 :=
  Nat.eq_zero_of_le_zero (empty ▸ same.less file)

section Flushes

variable {careful : Prop} {inHand : List (RecordedMsgStuff setup.sizes)}
  {track : MessageTrack setup} {file : FileId} {allowed : Answer → Prop}

theorem Same.setFile {before : MessageTrack setup} {buffer : FileBuffer} (same : Same before track)
    (stream : (track.setFile file buffer).stream = track.stream)
    (less : buffer.filled ≤ (track.files file).filled) :
    Same before (track.setFile file buffer) := by
  refine ⟨{ same with }, ?_, stream.trans same.stream⟩
  intro other
  have still := same.less other
  by_cases here : other = file
  · rw [here, files_setFile_self]
    exact Nat.le_trans less (here ▸ still)
  · rw [files_setFile_of_ne here]
    exact still

theorem files_of_not_tied (sound : track.Sound careful inHand) {other : FileId}
    (untied : ¬ track.Tied other) : track.files other = {} := by
  cases other with
  | data | ordinal =>
    refine absurd ?_ untied
    nofun
  | key key =>
    refine sound.untied key ?_
    intro mem
    refine untied ?_
    intro other same
    cases same
    exact mem

theorem live_chunks (sound : track.Sound careful inHand) (other : FileId) :
    ∀ chunk ∈ (track.files other).bufVec, chunk.released = false := by
  by_cases tied : track.Tied other
  · exact sound.live other (mem_ties_ordinal.mpr tied)
  · intro chunk mem
    rw [files_of_not_tied sound tied] at mem
    cases mem

theorem flushed_setFile (flushed : track.Flushed file) (buffer : FileBuffer) :
    (track.setFile file buffer).Flushed file := by
  intro lower under
  have apart : lower ≠ file := by
    intro equal
    exact absurd under (equal ▸ Nat.lt_irrefl _)
  rw [files_setFile_of_ne apart]
  exact flushed lower under

/-- The file is being written: `writeSize` bytes of the chunks that it had are on the disk. -/
structure Writing (careful : Prop) (inHand : List (RecordedMsgStuff setup.sizes))
    (before : MessageTrack setup) (file : FileId) (writeSize : Nat)
    (track : MessageTrack setup) : Prop where
  sound : track.Sound careful inHand
  same : Same before track
  frame : ∃ buffer, track = before.setFile file buffer
  tied : track.Tied file
  flushed : track.Flushed file
  remaining : (track.files file).pending.length + writeSize ≤ (track.files file).filled
  started : 0 < (track.files file).filled

def diskAfter (buffer : FileBuffer) (written : Nat) : List UInt8 :=
  buffer.disk ++ buffer.pending.take written

def trimmed (buffer : FileBuffer) (written : Nat) : FileBuffer where
  disk := diskAfter buffer written
  bufVec := trimBufVector buffer.bufVec written
  filled := buffer.filled

theorem pending_trimmed (buffer : FileBuffer) (written : Nat) :
    (trimmed buffer written).pending = buffer.pending.drop written := bytesOf_trimBufVector _ _

theorem stream_trimmed (buffer : FileBuffer) (written : Nat) :
    (trimmed buffer written).stream = buffer.stream := by
  rw [FileBuffer.stream, pending_trimmed, trimmed, diskAfter, append_assoc,
    take_append_drop]
  rfl

theorem writev_keeps {crash : MessageTrack setup → Prop} (kill : crash track) :
    Keeps allowed crash (writev file) track fun written final =>
      written ≤ (track.files file).pending.length ∧ final = track.setFile file
          { track.files file with disk := diskAfter (track.files file) written } := by
  refine ask_bind kill ?_
  intro answer count _ _
  exact get_bind (modify_bind (pure ⟨Nat.min_le_right _ _, rfl⟩))

variable {before : MessageTrack setup} {writeSize written : Nat}

section

variable (writing : Writing careful inHand before file writeSize track)
include writing

theorem Writing.finish (some : written ≤ (track.files file).pending.length)
    (all : written + writeSize = (track.files file).filled) :
    let final := track.setFile file ⟨diskAfter (track.files file) written, [], 0⟩
    final.Sound careful inHand ∧ Same before final ∧
      (∃ buffer, final = before.setFile file buffer) ∧ (final.files file).filled = 0 := by
  have remaining := writing.remaining
  have whole : (track.files file).pending.take written = (track.files file).pending :=
    take_of_length_le (by omega)
  have disk : diskAfter (track.files file) written = track.stream file := by
    rw [diskAfter, whole]
    rfl
  obtain ⟨buffer, frame⟩ := writing.frame
  obtain ⟨sound, stream⟩ := writing.sound.flush
    ⟨diskAfter (track.files file) written, [], 0⟩ writing.tied writing.flushed
    (fun chunk mem => absurd mem not_mem_nil) (Nat.le_refl 0) (fun _ => rfl)
    (prefix_append _ _) ((append_nil _).trans disk)
  refine ⟨sound, writing.same.setFile stream (Nat.zero_le _), ?_, ?_⟩
  · exact ⟨⟨diskAfter (track.files file) written, [], 0⟩, by rw [frame, setFile_setFile]⟩
  · rw [files_setFile_self]

theorem Writing.go_on (some : written ≤ (track.files file).pending.length) :
    Writing careful inHand before file (writeSize + written)
      (track.setFile file (trimmed (track.files file) written)) := by
  have remaining := writing.remaining
  have started := writing.started
  have less : (trimmed (track.files file) written).pending.length + written =
      (track.files file).pending.length := by
    rw [pending_trimmed, length_drop]
    omega
  obtain ⟨buffer, frame⟩ := writing.frame
  obtain ⟨sound, stream⟩ := writing.sound.flush (trimmed (track.files file) written)
    writing.tied writing.flushed
    (live_trimBufVector (live_chunks writing.sound file) written)
    (by change _ ≤ (track.files file).filled; omega)
    (fun none => absurd none (Nat.ne_of_gt started)) (prefix_append _ _)
    (stream_trimmed _ _)
  constructor
  case sound => exact sound
  case same => exact writing.same.setFile stream .refl
  case frame => exact ⟨trimmed (track.files file) written, by rw [frame, setFile_setFile]⟩
  case tied => exact writing.tied
  case flushed => exact flushed_setFile writing.flushed _
  case remaining =>
    rw [files_setFile_self]
    change _ ≤ (track.files file).filled
    omega
  case started =>
    rw [files_setFile_self]
    exact started

/-- A loop that is left because of `to_exit` was given that answer. -/
theorem writeUntilExit_keeps :
    Keeps allowed (Safe careful) (writeUntilExit file writeSize) track fun ok final =>
      final.Sound careful inHand ∧ Same before final ∧
        (∃ buffer, final = before.setFile file buffer) ∧
        (ok = true → (final.files file).filled = 0) ∧ (ok = false → allowed (.toExit true)) := by
  refine loop (Writing careful inHand before file) (fun _ _ holds => holds.sound.toSafe) ?_ writing
  intro writeSize track writing
  refine bind (writev_keeps writing.sound.toSafe) ?_
  rintro written final ⟨some, same⟩
  subst same
  refine get_bind (ite ?_ ?_)
  · intro all
    rw [files_setFile_self] at all
    obtain ⟨sound, same, frame, idle⟩ := writing.finish some all
    refine modify_bind (pure ?_)
    rw [setFile_setFile, files_setFile_self]
    refine ⟨sound, same, frame, fun _ => idle, ?_⟩
    nofun
  · intro _
    have next := writing.go_on some
    refine modify_bind ?_
    rw [setFile_setFile, files_setFile_self]
    refine ask_bind next.sound.toSafe ?_
    intro answer exit given read
    refine ite ?_ ?_
    · intro leaves
      refine pure ⟨next.sound, next.same, next.frame, ?_, ?_⟩
      · nofun
      · intro _
        cases answer with cases read
        | toExit told => exact leaves ▸ given
    · intro _
      exact pure next

end

theorem files_freeAllMessages (empty : ∀ other, (track.files other).bufVec = []) :
    track.freeAllMessages.files = track.files := by
  funext other
  change FileBuffer.mk (track.files other).disk _ (track.files other).filled = track.files other
  rw [empty other, map_nil]
  exact congrArg (fun bufVec => FileBuffer.mk (track.files other).disk bufVec
    (track.files other).filled) (empty other).symm

theorem freeAllMessages_sound (sound : track.Sound careful inHand)
    (settled : careful → inHand = []) (empty : ∀ other, (track.files other).bufVec = []) :
    track.freeAllMessages.Sound careful inHand ∧ Same track track.freeAllMessages := by
  have files := files_freeAllMessages empty
  have stream : track.freeAllMessages.stream = track.stream :=
    funext fun other => congrArg FileBuffer.stream (congrFun files other)
  have onDisk : track.disk = track.stream := by
    funext other
    change _ = (track.files other).disk ++ bytesOf (track.files other).bufVec
    rw [empty other]
    exact (append_nil _).symm
  refine ⟨?_, ⟨rfl, rfl, rfl⟩, fun _ => .refl, stream⟩
  constructor
  case toSafe =>
    constructor
    case disk => exact sound.disk
    case freed =>
      intro wanted stuff mem
      cases mem_append.mp mem with
      | inl earlier => exact sound.freed wanted stuff earlier
      | inr now =>
        change Written track.disk stuff
        rw [onDisk]
        cases sound.waiting wanted stuff now with
        | inl held =>
          rw [settled wanted] at held
          cases held
        | inr written => exact written
  case live =>
    intro other _ chunk mem
    rw [files, empty other] at mem
    cases mem
  case accounted =>
    rw [files]
    exact sound.accounted
  case idle =>
    rw [files]
    exact sound.idle
  case untied =>
    rw [files]
    exact sound.untied
  case stream =>
    rw [stream]
    exact sound.stream
  case waiting =>
    nofun

def Chained (keys : List Key) : List FileId → Prop
  | [] => True
  | file :: tiee =>
    (∀ key, file = .key key → key ∈ keys) ∧
      (∀ lower, lower.below file → lower ∈ tiee ∨ ∃ key, lower = .key key ∧ key ∉ keys) ∧
        Chained keys tiee

theorem chained_keys {keys older : List Key} (known : older ⊆ keys) :
    Chained keys (older.map .key ++ [.data]) := by
  have data : ∀ lower key, FileId.below lower (.key key) → lower = .data := by
    intro lower key under
    cases lower with
    | data => rfl
    | key other => exact absurd under (Nat.lt_irrefl 1)
    | ordinal => exact absurd under (by decide : ¬ 2 < 1)
  induction older with
  | nil =>
    refine ⟨?_, ?_, trivial⟩
    · nofun
    · intro lower under
      exact absurd under (Nat.not_lt_zero _)
  | cons key older ih =>
    refine ⟨?_, ?_, ih fun other mem => known (mem_cons_of_mem _ mem)⟩
    · intro other same
      cases same
      exact known mem_cons_self
    · intro lower under
      left
      rw [data lower key under]
      exact mem_append_right _ (mem_singleton.mpr rfl)

theorem chained_ties (track : MessageTrack setup) (file : FileId) :
    Chained track.keys (track.ties file) := by
  cases file with
  | data => exact @chained_keys track.keys [] (nil_subset _)
  | key key => exact chained_keys fun other mem => (dropWhile_sublist _).subset mem
  | ordinal =>
    refine ⟨?_, ?_, chained_keys fun other mem => mem⟩
    · nofun
    · intro lower under
      cases lower with
      | data => exact .inl (mem_append_right _ (mem_singleton.mpr rfl))
      | ordinal => exact absurd under (Nat.lt_irrefl 2)
      | key key =>
        by_cases known : key ∈ track.keys
        · exact .inl (mem_append_left _ (mem_map_of_mem known))
        · exact .inr ⟨key, rfl, known⟩

theorem mem_ties (tied : track.Tied file) : file ∈ track.ties file := by
  cases file with
  | data | ordinal => exact mem_cons_self
  | key key =>
    have known := tied key rfl
    have found : key ∈ track.keys.dropWhile (· ≠ key) := by
      generalize track.keys = keys at known
      induction keys with
      | nil => cases known
      | cons first rest ih =>
        by_cases same : first = key
        · rw [dropWhile_cons_of_neg (by simpa using same), same]
          exact mem_cons_self
        · rw [dropWhile_cons_of_pos (by simpa using same)]
          cases mem_cons.mp known with
          | inl first => exact absurd first.symm same
          | inr later => exact ih later
    exact mem_append_left _ (mem_map_of_mem found)

theorem ordinal_not_mem_ties (other : file ≠ .ordinal) : .ordinal ∉ track.ties file := by
  intro mem
  cases file with
  | data => cases mem_singleton.mp mem
  | ordinal => exact other rfl
  | key key =>
    cases mem_append.mp mem with
    | inl inKeys =>
      obtain ⟨key, _, impossible⟩ := mem_map.mp inKeys
      cases impossible
    | inr isData => cases mem_singleton.mp isData

structure Flushing (careful : Prop) (inHand : List (RecordedMsgStuff setup.sizes))
    (allowed : Answer → Prop) (files : List FileId) (before : MessageTrack setup) (ok : Bool)
    (track : MessageTrack setup) : Prop where
  sound : track.Sound careful inHand
  same : Same before track
  kept : .ordinal ∉ files → track.msgsToFree = before.msgsToFree
  flushed : ok = true → ∀ file ∈ files, (track.files file).filled = 0
  failed : ok = false → allowed (.toExit true)

variable {files : List FileId}

section

variable (sound : track.Sound careful inHand)
include sound

theorem idle_of_chained
    (lower : ∀ lower, lower.below file → lower ∈ files ∨ ∃ key, lower = .key key ∧ key ∉ track.keys)
    (flushed : ∀ other ∈ files, (track.files other).filled = 0) : track.Flushed file := by
  intro other under
  cases lower other under with
  | inl mem => exact flushed other mem
  | inr untied =>
    obtain ⟨key, same, missing⟩ := untied
    rw [same, sound.untied key missing]

theorem afterOverflow_flushing {crash : MessageTrack setup → Prop} {tiee : List FileId}
    (same : Same before track)
    (queue : track.msgsToFree = before.msgsToFree ∨ .ordinal ∈ file :: tiee)
    (settled : file = .ordinal → careful → inHand = []) (idle : (track.files file).filled = 0)
    (flushed : track.Flushed file) (others : ∀ other ∈ tiee, (track.files other).filled = 0) :
    Keeps allowed crash (do afterOverflow file; return true) track
      (Flushing careful inHand allowed (file :: tiee) before) := by
  refine modify_bind (pure ?_)
  have every : ∀ other ∈ file :: tiee, (track.files other).filled = 0 := by
    intro other mem
    cases mem_cons.mp mem with
    | inl here => exact here ▸ idle
    | inr behind => exact others other behind
  split
  next ordinal =>
    have empty : ∀ other, (track.files other).bufVec = [] := by
      intro other
      refine sound.idle other ?_
      cases other with
      | ordinal => exact ordinal ▸ idle
      | data => exact flushed _ (ordinal ▸ (by decide : 0 < 2))
      | key key => exact flushed _ (ordinal ▸ (by decide : 1 < 2))
    obtain ⟨freed, still⟩ := freeAllMessages_sound sound (settled ordinal) empty
    refine ⟨freed, same.trans still, ?_, fun _ => every, ?_⟩
    · intro missing
      exact absurd (ordinal ▸ mem_cons_self) missing
    · nofun
  next =>
    refine ⟨sound, same, ?_, fun _ => every, ?_⟩
    · intro missing
      cases queue with
      | inl kept => exact kept
      | inr mem => exact absurd mem missing
    · nofun

theorem overflow_keeps (chained : Chained track.keys files)
    (settled : .ordinal ∈ files → careful → inHand = []) :
    Keeps allowed (Safe careful) (overflow files) track
      (Flushing careful inHand allowed files track) := by
  induction files with
  | nil =>
    refine pure ⟨sound, Same.refl _, fun _ => rfl, ?_, ?_⟩
    all_goals nofun
  | cons file tiee ih =>
    obtain ⟨tied, lower, rest⟩ := chained
    refine bind (ih rest fun mem => settled (mem_cons_of_mem _ mem)) ?_
    intro ok middle tieeDone
    cases ok with
    | false =>
      refine pure { tieeDone with kept := ?_, flushed := ?_ }
      · intro missing
        exact tieeDone.kept fun mem => missing (mem_cons_of_mem _ mem)
      · nofun
    | true =>
      have others := tieeDone.flushed rfl
      have tied' : middle.Tied file := by
        rw [Tied, tieeDone.same.keys]
        exact tied
      have flushed : middle.Flushed file := by
        refine idle_of_chained tieeDone.sound ?_ others
        rw [tieeDone.same.keys]
        exact lower
      have queue : middle.msgsToFree = track.msgsToFree ∨ .ordinal ∈ file :: tiee := by
        by_cases mem : FileId.ordinal ∈ tiee
        · exact .inr (mem_cons_of_mem _ mem)
        · exact .inl (tieeDone.kept mem)
      have settled' : file = .ordinal → careful → inHand = [] :=
        fun here => settled (here ▸ mem_cons_self)
      refine get_bind (ite ?_ ?_)
      · intro empty
        exact afterOverflow_flushing tieeDone.sound tieeDone.same queue settled' empty flushed
          others
      · intro filled
        have writing : Writing careful inHand middle file 0 middle := by
          refine ⟨tieeDone.sound, Same.refl _, ⟨middle.files file, ?_⟩, tied', flushed,
            tieeDone.sound.accounted file, Nat.pos_of_ne_zero filled⟩
          refine congrArg (fun files => { middle with files := files }) (funext fun other => ?_)
          split
          next here => rw [here]
          next => rfl
        refine bind (writev_keeps tieeDone.sound.toSafe) ?_
        rintro count final ⟨some, same⟩
        subst same
        refine ite ?_ ?_
        · intro all
          obtain ⟨sound, same, _, empty⟩ := writing.finish some all
          refine modify_bind ?_
          rw [setFile_setFile, files_setFile_self]
          exact afterOverflow_flushing sound (tieeDone.same.trans same) queue settled' empty
            (flushed_setFile flushed _) fun other mem => same.idle (others other mem)
        · intro _
          have next := writing.go_on some
          refine modify_bind ?_
          rw [setFile_setFile, files_setFile_self]
          rw [Nat.zero_add] at next
          refine consequence (writeUntilExit_keeps next) (fun _ => id) ?_
          rintro ok final ⟨sound, same, ⟨buffer, frame⟩, empty, failed⟩
          subst frame
          refine ⟨sound, tieeDone.same.trans same, ?_, ?_, failed⟩
          · intro missing
            cases queue with
            | inl kept => exact kept
            | inr mem => exact absurd mem missing
          · intro success other mem
            cases mem_cons.mp mem with
            | inl here => exact here ▸ empty success
            | inr behind => exact same.idle (others other behind)

theorem sync_keeps (chained : Chained track.keys files)
    (settled : .ordinal ∈ files → careful → inHand = []) :
    Keeps allowed (Safe careful) (sync files) track
      (Flushing careful inHand allowed files track) := by
  induction files with
  | nil =>
    refine pure ⟨sound, Same.refl _, fun _ => rfl, ?_, ?_⟩
    all_goals nofun
  | cons file tiee ih =>
    refine get_bind (ite ?_ ?_)
    · intro _
      exact overflow_keeps sound chained settled
    · intro none
      refine consequence (ih chained.2.2 fun mem => settled (mem_cons_of_mem _ mem))
        (fun _ => id) ?_
      intro ok final done
      refine { done with kept := ?_, flushed := ?_ }
      · intro missing
        exact done.kept fun mem => missing (mem_cons_of_mem _ mem)
      · intro success other mem
        cases mem_cons.mp mem with
        | inl here => exact done.same.idle (here ▸ Nat.eq_zero_of_not_pos none)
        | inr behind => exact done.flushed success other behind

end

end Flushes

end AdkAaf.Recorder.FlushChain
