import AdkAaf.Recorder.FlushChain.Flushing

/-! What handing bytes to a buffer keeps. -/

set_option autoImplicit false

namespace AdkAaf.Recorder.FlushChain

open Lib.WriteOrder Lib.CrashTriple Lib.CrashTriple.Program MessageTrack Keeps List

variable {setup : Setup}

variable (contents : FileId → List UInt8) (file : FileId)

def extended (bytes : List UInt8) : FileId → List UInt8 :=
  fun other => if other = file then contents file ++ bytes else contents other

theorem extended_self (bytes : List UInt8) :
    extended contents file bytes file = contents file ++ bytes := if_pos rfl

theorem extended_of_ne {contents : FileId → List UInt8} {file other : FileId} {bytes : List UInt8}
    (apart : other ≠ file) : extended contents file bytes other = contents other :=
  if_neg apart

theorem extended_nil : extended contents file [] = contents := by
  funext other
  rw [extended]
  split
  next here => rw [here, append_nil]
  next => rfl

theorem ne_of_below {lower file : FileId} (under : lower.below file) : lower ≠ file := by
  intro equal
  exact absurd under (equal ▸ Nat.lt_irrefl _)

section Fills

variable {careful : Prop} {inHand : List (RecordedMsgStuff setup.sizes)}
  {track final : MessageTrack setup} {file : FileId} {bytes : List UInt8} {may : Answer → Prop}

def pushed (track : MessageTrack setup) (file : FileId) (bytes : List UInt8) : FileBuffer :=
  { track.files file with
    bufVec := (track.files file).bufVec ++ [track.pointer bytes]
    filled := (track.files file).filled + bytes.length }

theorem pointer_of_held (held : track.msgsToFree ≠ []) (bytes : List UInt8) :
    track.pointer bytes = ⟨bytes, false⟩ := if_neg held

theorem disk_setFile_pushed : (track.setFile file (pushed track file bytes)).disk = track.disk := by
  funext other
  by_cases here : other = file
  · rw [here, disk_setFile_self]
    rfl
  · exact disk_setFile_of_ne here

theorem MessageTrack.Sound.push (sound : track.Sound careful inHand) (tied : track.Tied file)
    (held : track.msgsToFree ≠ []) (some : bytes.length ≠ 0)
    (covered : Covered (contentOf setup) FileId.below track.running.records
      (extended track.stream file bytes) file) :
    (track.setFile file (pushed track file bytes)).Sound careful inHand ∧
      (track.setFile file (pushed track file bytes)).stream = extended track.stream file bytes := by
  have pending : (pushed track file bytes).pending = (track.files file).pending ++ bytes := by
    rw [FileBuffer.pending, pushed, pointer_of_held held, bytesOf_append]
    exact congrArg _ (append_nil bytes)
  have here : (pushed track file bytes).stream = track.stream file ++ bytes := by
    rw [FileBuffer.stream, pending, ← append_assoc]
    rfl
  have stream : (track.setFile file (pushed track file bytes)).stream =
      extended track.stream file bytes := by
    funext other
    by_cases equal : other = file
    · rw [equal, stream_setFile_self, here, extended_self]
    · rw [stream_setFile_of_ne equal, extended_of_ne equal]
  refine ⟨sound.setFile _ tied ?_ ?_ ?_ prefix_rfl ?_ ?_ ?_, stream⟩
  · intro chunk mem
    cases mem_append.mp mem with
    | inl old => exact live_chunks sound file chunk old
    | inr new =>
      rw [mem_singleton.mp new, pointer_of_held held]
  · have accounted := sound.accounted file
    rw [pending, length_append]
    exact Nat.add_le_add_right accounted _
  · intro none
    exact absurd (Nat.eq_zero_of_add_eq_zero_left none) some
  · rw [here]
    exact prefix_append _ _
  · rw [disk_setFile_pushed]
    exact sound.disk file
  · rw [stream]
    exact covered

theorem MessageTrack.Sound.write (sound : track.Sound careful inHand) (tied : track.Tied file)
    (empty : (track.files file).filled = 0) (flushed : track.Flushed file)
    {written : Nat} (covered : Covered (contentOf setup) FileId.below track.running.records
      (extended track.stream file bytes) file) :
    let final := track.setFile file
      { track.files file with disk := (track.files file).disk ++ bytes.take written }
    final.Sound careful inHand ∧ final.stream = extended track.stream file (bytes.take written) := by
  have idle := sound.idle file empty
  have disk : track.stream file = (track.files file).disk := stream_of_idle sound empty
  have here : FileBuffer.stream
      { track.files file with disk := (track.files file).disk ++ bytes.take written } =
        track.stream file ++ bytes.take written := by
    change (_ ++ _) ++ bytesOf (track.files file).bufVec = _
    rw [idle, disk]
    exact append_nil _
  have stream : (track.setFile file
      { track.files file with disk := (track.files file).disk ++ bytes.take written }).stream =
        extended track.stream file (bytes.take written) := by
    funext other
    by_cases equal : other = file
    · rw [equal, stream_setFile_self, here, extended_self]
    · rw [stream_setFile_of_ne equal, extended_of_ne equal]
  have part : track.stream file ++ bytes.take written <+: track.stream file ++ bytes :=
    prefix_append_right_inj _ |>.mpr (List.take_prefix _ _)
  have whole : ∀ lower, lower.below file →
      extended track.stream file bytes lower = track.stream lower :=
    fun lower under => extended_of_ne (ne_of_below under)
  refine ⟨sound.setFile _ tied ?_ ?_ ?_ (prefix_append _ _) ?_ ?_ ?_, stream⟩
  · exact live_chunks sound file
  · exact sound.accounted file
  · exact sound.idle file
  · rw [here]
    exact prefix_append _ _
  · refine covered.mono ?_ ?_
    · rw [disk_setFile_self, extended_self]
      exact disk ▸ part
    · intro lower under
      apply prefix_of_eq
      rw [whole lower under, disk_setFile_of_ne (ne_of_below under),
        stream_of_idle sound (flushed lower under)]
  · rw [stream]
    refine covered.mono ?_ ?_
    · rw [extended_self, extended_self]
      exact part
    · intro lower under
      apply prefix_of_eq
      rw [whole lower under, extended_of_ne (ne_of_below under)]

structure Filling (careful : Prop) (inHand : List (RecordedMsgStuff setup.sizes))
    (before : MessageTrack setup) (file : FileId) (bytes : List UInt8) (complete : Bool)
    (track : MessageTrack setup) : Prop extends Unchanged before track where
  sound : track.Sound careful inHand
  queue : track.msgsToFree = before.msgsToFree
  ordinal : (track.files .ordinal).filled ≤ (before.files .ordinal).filled
  stream : complete = true → track.stream = extended before.stream file bytes

theorem Filling.of_failed {files : List FileId} (done : Flushing careful inHand may files track
    false final) (unaffected : .ordinal ∉ files) (some : bytes.length ≠ 0) :
    Filling careful inHand track file bytes (decide (bytes.length ≤ 0)) final := by
  refine ⟨done.same.toUnchanged, done.sound, done.kept unaffected, done.same.less _, ?_⟩
  intro complete
  exact absurd (Nat.eq_zero_of_le_zero (of_decide_eq_true complete)) some

section

variable (same : Same track final) (sound : final.Sound careful inHand)
  (queue : final.msgsToFree = track.msgsToFree) (other : file ≠ .ordinal)
include same sound queue other

theorem Filling.push (tied : track.Tied file) (held : track.msgsToFree ≠ [])
    (some : bytes.length ≠ 0)
    (covered : Covered (contentOf setup) FileId.below track.running.records
      (extended track.stream file bytes) file) (complete : Bool) :
    Filling careful inHand track file bytes complete
      (final.setFile file (pushed final file bytes)) := by
  have covered' : Covered (contentOf setup) FileId.below final.running.records
      (extended final.stream file bytes) file := by
    rw [same.running, same.stream]
    exact covered
  obtain ⟨pushed, grown⟩ := sound.push (fun key here => same.keys ▸ tied key here)
    (queue ▸ held) some covered'
  refine ⟨{ same with }, pushed, queue, ?_, fun _ => same.stream ▸ grown⟩
  rw [files_setFile_of_ne other.symm]
  exact same.less _

theorem Filling.write (tied : track.Tied file) (empty : (final.files file).filled = 0)
    (flushed : final.Flushed file)
    (covered : Covered (contentOf setup) FileId.below track.running.records
      (extended track.stream file bytes) file) {written : Nat} {complete : Bool}
    (all : complete = true → bytes.length ≤ written) :
    Filling careful inHand track file bytes complete (final.setFile file
      { final.files file with disk := (final.files file).disk ++ bytes.take written }) := by
  have covered' : Covered (contentOf setup) FileId.below final.running.records
      (extended final.stream file bytes) file := by
    rw [same.running, same.stream]
    exact covered
  obtain ⟨wrote, grown⟩ := sound.write (fun key here => same.keys ▸ tied key here) empty
    flushed covered'
  refine ⟨{ same with }, wrote, queue, ?_, ?_⟩
  · rw [files_setFile_of_ne other.symm]
    exact same.less _
  intro done
  have whole := grown
  rw [take_of_length_le (all done), same.stream] at whole
  rw [take_of_length_le (all done)]
  exact whole

end

theorem writeDirectly_keeps {crash : MessageTrack setup → Prop} (kill : crash track)
    (held : track.msgsToFree ≠ []) :
    Keeps may crash (writeDirectly file bytes) track fun written final =>
      written ≤ bytes.length ∧ final = track.setFile file
        { track.files file with disk := (track.files file).disk ++ bytes.take written } := by
  refine ask_bind kill ?_
  intro answer count _ _
  refine modify_bind (pure ⟨Nat.min_le_right _ _, ?_⟩)
  rw [pointer_of_held held]

theorem below_of_ne_ordinal {lower : FileId} (other : file ≠ .ordinal)
    (under : lower.below file) : lower = .data := by
  cases lower with
  | data => rfl
  | ordinal => cases file with
    | data => exact absurd under (by decide : ¬ 2 < 0)
    | key _ => exact absurd under (by decide : ¬ 2 < 1)
    | ordinal => exact absurd rfl other
  | key _ => cases file with
    | data => exact absurd under (by decide : ¬ 1 < 0)
    | key _ => exact absurd under (Nat.lt_irrefl 1)
    | ordinal => exact absurd rfl other

theorem data_mem_ties (track : MessageTrack setup) (file : FileId) :
    FileId.data ∈ track.ties file := by
  cases file with
  | data => exact mem_cons_self
  | key _ => exact mem_append_right _ mem_cons_self
  | ordinal => exact mem_cons_of_mem _ (mem_append_right _ mem_cons_self)

section

variable (sound : track.Sound careful inHand) (tied : track.Tied file) (other : file ≠ .ordinal)
  (held : track.msgsToFree ≠ [])
include sound tied other held

section

variable (covered : Covered (contentOf setup) FileId.below track.running.records
  (extended track.stream file bytes) file)
include covered

theorem xsputn_keeps :
    Keeps may (Safe careful) (xsputn file bytes) track fun ret =>
      Filling careful inHand track file bytes (decide (bytes.length ≤ ret)) := by
  have unaffected : FileId.ordinal ∉ track.ties file := ordinal_not_mem_ties other
  have overflows : ∀ start : MessageTrack setup, start.Sound careful inHand →
      start.keys = track.keys → Keeps may (Safe careful) (overflow (track.ties file)) start
      (Flushing careful inHand may (track.ties file) start) := by
    intro start sound keys
    exact overflow_keeps sound (keys ▸ chained_ties track file)
      fun mem => absurd mem unaffected
  refine get_bind (ite ?_ fun some => ite ?_ fun _ => ite ?_ fun _ =>
    ite ?_ ?_)
  · intro none
    refine pure ⟨Unchanged.refl _, sound, rfl, .refl, fun _ => ?_⟩
    rw [length_eq_zero_iff.mp none, extended_nil]
  · intro _
    refine bind (overflows track sound rfl) ?_
    intro ok middle done
    cases ok with
    | false => exact pure (Filling.of_failed done unaffected some)
    | true =>
      refine bind (writeDirectly_keeps done.sound.toSafe ?_) ?_
      · rw [done.kept unaffected]
        exact held
      · rintro written final ⟨le, same⟩
        subst same
        refine pure (Filling.write done.same done.sound
          (done.kept unaffected) other tied ?_ ?_ covered ?_)
        · exact done.flushed rfl file (mem_ties tied)
        · intro lower under
          rw [below_of_ne_ordinal other under]
          exact done.flushed rfl _ (data_mem_ties track file)
        · intro complete
          split at complete
          next all => exact Nat.le_of_eq all.symm
          next => exact absurd (Nat.eq_zero_of_le_zero (of_decide_eq_true complete)) some
  · intro _
    refine bind (overflows track sound rfl) ?_
    intro ok middle done
    cases ok with
    | false => exact pure (Filling.of_failed done unaffected some)
    | true =>
      exact modify_bind (pure (Filling.push done.same done.sound
        (done.kept unaffected) other tied held some covered _))
  · intro _
    have filled := Filling.push (Same.refl track) sound rfl other tied held some covered true
    refine modify_bind (bind (overflows _ filled.sound rfl) ?_)
    intro ok final done
    refine pure ⟨filled.toUnchanged.trans done.same.toUnchanged, done.sound,
      (done.kept unaffected).trans filled.queue, Nat.le_trans (done.same.less _) filled.ordinal,
      fun _ => ?_⟩
    exact done.same.stream.trans (filled.stream rfl)
  · intro _
    exact modify_bind (pure (Filling.push (Same.refl track) sound rfl other tied
      held some covered _))

theorem sputn_keeps :
    Keeps may (Safe careful) (sputn file bytes) track
      (Filling careful inHand track file bytes) :=
  bind (xsputn_keeps sound tied other held covered) fun _ _ filled => pure filled

end

end

theorem settle (sound : track.Sound careful inHand)
    (settled : careful → ∀ stuff ∈ inHand, Written track.stream stuff) :
    track.Sound careful [] := by
  refine { sound with waiting := ?_ }
  intro wanted stuff mem
  cases sound.waiting wanted stuff mem with
  | inl held => exact .inr (settled wanted stuff held)
  | inr written => exact .inr written

/-- What handing an entry to the ordinal index leaves. A buffer that points into released
messages afterwards is not used any more. -/
structure Entering (careful : Prop) (before : MessageTrack setup) (bytes : List UInt8)
    (complete : Bool) (track : MessageTrack setup) : Prop extends Unchanged before track where
  safe : track.Safe careful
  live : careful → track.Live
  sound : track.Live → ∃ inHand, track.Sound careful inHand
  stream : track.Live → complete = true →
    track.Sound careful [] ∧ track.stream = extended before.stream .ordinal bytes

theorem Entering.of_sound (unchanged : Unchanged track final) (sound : final.Sound careful [])
    (stream : final.stream = extended track.stream .ordinal bytes) (complete : Bool) :
    Entering careful track bytes complete final :=
  ⟨unchanged, sound.toSafe, fun _ => sound.live, fun _ => ⟨[], sound⟩, fun _ _ => ⟨sound, stream⟩⟩

theorem not_live_of_pushed (freed : track.msgsToFree = []) :
    ¬ (track.setFile .ordinal (pushed track .ordinal bytes)).Live := by
  intro live
  have chunk : track.pointer bytes = ⟨setup.reuse bytes, true⟩ := if_pos freed
  have dangling := live .ordinal mem_cons_self ⟨setup.reuse bytes, true⟩ (by
    rw [files_setFile_self, pushed, chunk]
    exact mem_append_right _ mem_cons_self)
  cases dangling

theorem tied_ordinal (track : MessageTrack setup) : track.Tied .ordinal := by
  nofun

section

variable (sound : track.Sound careful inHand) (held : track.msgsToFree ≠ [])
  (some : bytes.length ≠ 0) (fits : bytes.length < setup.bufLen .ordinal)
  (covered : Covered (contentOf setup) FileId.below track.running.records
    (extended track.stream .ordinal bytes) .ordinal)
  (settled : careful → ∀ stuff ∈ inHand, Written (extended track.stream .ordinal bytes) stuff)
  (room : careful → bytes.length ≤ setup.bufLen .ordinal - (track.files .ordinal).filled)
include sound held some fits covered settled room

theorem xsputn_ordinal_keeps : Keeps may (Safe careful) (xsputn .ordinal bytes) track fun ret =>
      Entering careful track bytes (decide (bytes.length ≤ ret)) := by
  have push := sound.push (tied_ordinal track) held some covered
  have whole : (track.setFile .ordinal (pushed track .ordinal bytes)).Sound careful [] :=
    settle push.1 (push.2.symm ▸ settled)
  have unchanged : Unchanged track (track.setFile .ordinal (pushed track .ordinal bytes)) :=
    ⟨rfl, rfl, rfl⟩
  have grown : Entering careful track bytes (decide (bytes.length ≤ bytes.length))
      (track.setFile .ordinal (pushed track .ordinal bytes)) :=
    Entering.of_sound unchanged whole push.2 _
  have short : decide (bytes.length ≤ 0) = false :=
    decide_eq_false fun none => some (Nat.eq_zero_of_le_zero none)
  refine get_bind (ite (fun none => absurd none some) fun _ =>
    ite (fun past => absurd fits (Nat.not_lt.mpr past)) fun _ => ite ?_ fun _ =>
      ite ?_ ?_)
  · intro full
    -- the messages are freed before the entry of the last of them is pushed
    have careless : ¬ careful := fun wanted => absurd (room wanted) (Nat.not_le.mpr full)
    refine bind (overflow_keeps sound (chained_ties track .ordinal)
      fun _ wanted => absurd wanted careless) ?_
    intro ok middle done
    cases ok with
    | false =>
      refine pure ⟨done.same.toUnchanged, done.sound.toSafe, fun _ => done.sound.live,
        fun _ => ⟨inHand, done.sound⟩, ?_⟩
      intro _ complete
      rw [short] at complete
      cases complete
    | true =>
      refine modify_bind (pure ?_)
      by_cases freed : middle.msgsToFree = []
      · have dangling : ¬ (middle.setFile .ordinal (pushed middle .ordinal bytes)).Live :=
          not_live_of_pushed freed
        refine ⟨{ done.same with }, ?_,
          fun wanted => absurd wanted careless, fun live => absurd live dangling,
          fun live => absurd live dangling⟩
        refine ⟨?_, fun wanted => absurd wanted careless⟩
        have disk : (middle.setFile .ordinal (pushed middle .ordinal bytes)).disk = middle.disk :=
          disk_setFile_pushed
        exact disk ▸ done.sound.disk
      · have covered' : Covered (contentOf setup) FileId.below middle.running.records
            (extended middle.stream .ordinal bytes) .ordinal := by
          rw [done.same.running, done.same.stream]
          exact covered
        obtain ⟨live, stream⟩ := done.sound.push (tied_ordinal middle) freed some covered'
        have unchanged : Unchanged track (middle.setFile .ordinal (pushed middle .ordinal bytes)) :=
          { done.same with }
        refine Entering.of_sound unchanged (settle live fun wanted => absurd wanted careless) ?_ _
        exact stream.trans (by rw [done.same.stream])
  · intro _
    refine modify_bind (bind (overflow_keeps whole (chained_ties track .ordinal) fun _ _ => rfl) ?_)
    intro ok final done
    refine pure (Entering.of_sound (grown.toUnchanged.trans done.same.toUnchanged)
      done.sound (done.same.stream.trans push.2) _)
  · intro _
    exact modify_bind (pure grown)

theorem sputn_ordinal_keeps :
    Keeps may (Safe careful) (sputn .ordinal bytes) track (Entering careful track bytes) :=
  bind (xsputn_ordinal_keeps sound held some fits covered settled room)
    fun _ _ entering => pure entering

end

theorem live_freeAllMessages (live : track.freeAllMessages.Live) (file : FileId)
    (tied : track.Tied file) : (track.files file).bufVec = [] := by
  have dangling := live file (mem_ties_ordinal.mpr tied)
  cases chunks : (track.files file).bufVec with
  | nil => rfl
  | cons chunk rest =>
    have inside : (⟨setup.reuse chunk.bytes, true⟩ : Chunk) ∈
        (track.freeAllMessages.files file).bufVec := by
      change _ ∈ (track.files file).bufVec.map _
      rw [chunks]
      exact mem_cons_self
    cases dangling _ inside

/-- A `SyncToFile` that fails was told to exit, and leaves pointers into what it frees. -/
structure Syncing (careful : Prop) (inHand : List (RecordedMsgStuff setup.sizes))
    (before : MessageTrack setup) (ok : Bool) (track : MessageTrack setup) : Prop
    extends Unchanged before track where
  safe : track.Safe careful
  live : careful → track.Live
  sound : track.Live → track.Sound careful inHand
  stream : track.Live → track.stream = before.stream
  less : ∀ file, (track.files file).filled ≤ (before.files file).filled
  succeeded : ok = true → track.Live

theorem syncToFile_keeps (sound : track.Sound careful inHand) (settled : careful → inHand = [])
    (stays : careful → ¬ may (.toExit true)) :
    Keeps may (Safe careful) syncToFile track (Syncing careful inHand track) := by
  refine get_bind (bind (sync_keeps sound (chained_ties track .ordinal) fun _ => settled) ?_)
  intro ok middle done
  refine modify_bind (pure ?_)
  have unchanged : Unchanged track middle.freeAllMessages := { done.same with }
  have whole : (∀ file, (middle.files file).bufVec = []) →
      Syncing careful inHand track ok middle.freeAllMessages := by
    intro empty
    obtain ⟨freed, same⟩ := freeAllMessages_sound done.sound settled empty
    exact ⟨unchanged, freed.toSafe, fun _ => freed.live, fun _ => freed,
      fun _ => same.stream.trans done.same.stream, done.same.less, fun _ => freed.live⟩
  have untied : ∀ file, ¬ middle.Tied file → (middle.files file).bufVec = [] := by
    intro file untied
    rw [files_of_not_tied done.sound untied]
  cases ok with
  | true =>
    refine whole fun file => ?_
    by_cases tied : middle.Tied file
    · refine done.sound.idle file (done.flushed rfl file (mem_ties_ordinal.mpr ?_))
      exact fun key here => done.same.keys ▸ tied key here
    · exact untied file tied
  | false =>
    have careless : ¬ careful := fun wanted => stays wanted (done.failed rfl)
    by_cases live : middle.freeAllMessages.Live
    · refine whole fun file => ?_
      by_cases tied : middle.Tied file
      · exact live_freeAllMessages live file tied
      · exact untied file tied
    · refine ⟨unchanged, ⟨done.sound.disk, fun wanted => absurd wanted careless⟩,
        fun wanted => absurd wanted careless, fun holds => absurd holds live,
        fun holds => absurd holds live, done.same.less, ?_⟩
      nofun

end Fills

end AdkAaf.Recorder.FlushChain
