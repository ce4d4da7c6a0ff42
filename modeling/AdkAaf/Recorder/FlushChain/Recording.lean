import AdkAaf.Recorder.FlushChain.Filling

/-! What the calls of the recorder keep. -/

set_option autoImplicit false

namespace AdkAaf.Recorder.FlushChain

open Lib.WriteOrder Lib.LittleEndian Lib.CrashTriple Lib.CrashTriple.Program MessageTrack Keeps List

variable {setup : Setup}

section Contents

variable {record : MsgRecord setup.sizes} {before : List (MsgRecord setup.sizes)}

theorem entries_append (first second : List Nat) :
    entries (first ++ second) = entries first ++ entries second := by
  rw [entries, map_append, flatten_append]
  rfl

@[simp] theorem length_entryBytes (filepos : Nat) :
    (entryBytes filepos).length = OrdinalIndex.valueSize := by
  rfl

theorem length_entries (positions : List Nat) :
    (entries positions).length = positions.length * OrdinalIndex.valueSize := by
  induction positions with
  | nil => exact (Nat.zero_mul _).symm
  | cons first rest ih =>
    change (entryBytes first ++ entries rest).length = _
    rw [length_append, length_entryBytes, ih, length_cons, Nat.succ_mul, Nat.add_comm]

theorem contentOf_data (before : List (MsgRecord setup.sizes)) (record : MsgRecord setup.sizes) :
    contentOf setup (before ++ [record]) .data =
      contentOf setup before .data ++ setup.recordData record :=
  (TrackSetup.dataOf_append before [record]).trans (congrArg _ (append_nil _))

theorem contentOf_ordinal (before : List (MsgRecord setup.sizes)) (record : MsgRecord setup.sizes) :
    contentOf setup (before ++ [record]) .ordinal =
      contentOf setup before .ordinal ++ entryBytes (setup.dataOf before).length := by
  rw [contentOf, TrackSetup.ordinalPositions, TrackSetup.positionsWhere_append, entries_append,
    Nat.zero_add]
  exact congrArg _ (append_nil _)

theorem contentOf_key (before : List (MsgRecord setup.sizes)) (record : MsgRecord setup.sizes)
    (key : Key) :
    contentOf setup (before ++ [record]) (.key key) = contentOf setup before (.key key) ++
        if key ∈ setup.keysOf record then entryBytes (setup.dataOf before).length else [] := by
  rw [contentOf, TrackSetup.keyPositions, TrackSetup.positionsWhere_append, entries_append,
    Nat.zero_add, TrackSetup.positionsWhere]
  split
  next carried =>
    rw [if_pos (of_decide_eq_true carried)]
    exact congrArg _ (append_nil _)
  next missing =>
    rw [if_neg fun carried => missing (decide_eq_true carried)]
    rfl

theorem mem_keyIndexes {key : Key} : key ∈ keyIndexes record ↔ key ∈ setup.keysOf record := by
  rw [keyIndexes, TrackSetup.keysOf]
  cases setup.tag with
  | tx => exact .rfl
  | rx =>
    simp only [mem_cons, not_mem_nil, or_false]
    constructor
    · rintro (stream | transport | endpoint)
      · exact .inr (.inr stream)
      · exact .inl transport
      · exact .inr (.inl endpoint)
    · rintro (transport | endpoint | stream)
      · exact .inr (.inl transport)
      · exact .inr (.inr endpoint)
      · exact .inl stream

theorem nodup_keyIndexes (record : MsgRecord setup.sizes) : (keyIndexes record).Nodup := by
  rw [keyIndexes]
  cases setup.tag with
  | tx => exact nodup_cons.mpr ⟨not_mem_nil, nodup_nil⟩
  | rx => simp

theorem flatten_pieces (record : MsgRecord setup.sizes) :
    (idPieces record ++ (appPieces record ++ crcPieces record)).flatten =
      setup.recordData record := by
  have crc : (crcPieces record).flatten = crcBytes setup.tag setup.mode.fileCrc record := by
    rw [crcPieces, crcBytes]
    split
    next => exact append_nil _
    next => rfl
  have app : (appPieces record).flatten = appBytes record := by
    simp [appPieces, appBytes, sqnBytes]
  have ids : (idPieces record).flatten = idBytes setup.tag record := by
    unfold idPieces idBytes
    cases setup.tag with
    | rx => simp
    | tx => rfl
  rw [flatten_append, flatten_append, ids, app, crc]
  rfl

def partly (setup : Setup) (before : List (MsgRecord setup.sizes))
    (record : MsgRecord setup.sizes) (done : List FileId) : FileId → List UInt8 :=
  fun file =>
    if file ∈ done then contentOf setup (before ++ [record]) file else contentOf setup before file

variable {done : List FileId} {file : FileId}

theorem partly_of_mem (mem : file ∈ done) :
    partly setup before record done file = contentOf setup (before ++ [record]) file :=
  if_pos mem

theorem partly_of_not_mem (missing : file ∉ done) :
    partly setup before record done file = contentOf setup before file := if_neg missing

theorem partly_nil : partly setup before record [] = contentOf setup before :=
  funext fun _ => partly_of_not_mem not_mem_nil

theorem extended_partly {bytes : List UInt8} (missing : file ∉ done)
    (adds : contentOf setup (before ++ [record]) file = contentOf setup before file ++ bytes) :
    extended (partly setup before record done) file bytes =
      partly setup before record (file :: done) := by
  funext other
  by_cases here : other = file
  · rw [here, extended_self, partly_of_not_mem missing, partly_of_mem mem_cons_self, adds]
  · rw [extended_of_ne here, partly, partly]
    simp [mem_cons, here, false_or]

theorem covered_partly (lower : ∀ other, other.below file → other ∈ done ∨
      contentOf setup (before ++ [record]) other = contentOf setup before other) :
    Covered (contentOf setup) FileId.below (before ++ [record])
      (partly setup before record (file :: done)) file := by
  refine Covered.of_complete (prefix_of_eq (partly_of_mem mem_cons_self)) ?_
  intro other under
  apply prefix_of_eq
  by_cases mem : other ∈ file :: done
  · exact (partly_of_mem mem).symm
  · rw [partly_of_not_mem mem]
    cases lower other under with
    | inl inside => exact absurd (mem_cons_of_mem _ inside) mem
    | inr same => exact same

theorem written_complete (before : List (MsgRecord setup.sizes)) (record : MsgRecord setup.sizes) :
    Written (contentOf setup (before ++ [record]))
      (.recorded record (setup.dataOf before).length : RecordedMsgStuff setup.sizes) := by
  refine ⟨?_, before.length, ?_, ?_⟩
  · rw [contentOf_data]
    exact prefix_of_eq drop_left.symm
  · rw [contentOf, length_entries, TrackSetup.length_ordinalPositions, length_append,
      length_singleton, OrdinalIndex.valueSize]
    omega
  · have length : before.length * OrdinalIndex.valueSize =
        (contentOf setup before .ordinal).length := by
      rw [contentOf, length_entries, TrackSetup.length_ordinalPositions]
    rw [HasEntry, contentOf_ordinal, length]
    exact prefix_of_eq drop_left.symm

end Contents

section InTurn

variable {may : Answer → Prop} {crash : MessageTrack setup → Prop} {track : MessageTrack setup}

def Ends (success failure : MessageTrack setup → Prop) : Bool → MessageTrack setup → Prop
  | true => success
  | false => failure

theorem inTurn_cons_keeps {call : Call setup Bool} {rest : List (Call setup Bool)}
    {middle success failure : MessageTrack setup → Prop}
    (first : Keeps may crash call track (Ends middle failure)) (others : ∀ final, middle final →
      Keeps may crash (inTurn rest) final (Ends success failure)) :
    Keeps may crash (inTurn (call :: rest)) track (Ends success failure) := by
  refine bind first ?_
  intro ok final ended
  cases ok with
  | true => exact others final ended
  | false => exact pure ended

theorem inTurn_map_keeps {Item : Type} {call : Item → Call setup Bool}
    (inv : List Item → MessageTrack setup → Prop) {failure : MessageTrack setup → Prop}
    (each : ∀ item rest track, inv (item :: rest) track →
      Keeps may crash (call item) track (Ends (inv rest) failure))
    {items : List Item} (start : inv items track) :
    Keeps may crash (inTurn (items.map call)) track (Ends (inv []) failure) := by
  induction items generalizing track with
  | nil => exact pure start
  | cons item rest ih =>
    exact inTurn_cons_keeps (each item rest track start) fun _ holds => ih holds

end InTurn

section Record

variable {careful : Prop} {inHand : List (RecordedMsgStuff setup.sizes)}
  {track : MessageTrack setup} {may : Answer → Prop}

def Roomy (track : MessageTrack setup) : Prop :=
  OrdinalIndex.valueSize ≤ setup.bufLen .ordinal - (track.files .ordinal).filled

theorem Roomy.less {final : MessageTrack setup} (roomy : Roomy track)
    (less : (final.files .ordinal).filled ≤ (track.files .ordinal).filled) : Roomy final := by
  exact Nat.le_trans roomy (Nat.sub_le_sub_left less _)

structure Exact (track : MessageTrack setup) : Prop where
  stream : track.stream = contentOf setup track.running.records
  filepos : track.curMsgdataFilepos = (setup.dataOf track.running.records).length

/-- What a call of the recorder leaves: a track whose buffers dangle is not used any more. -/
structure Left (careful : Prop) (track : MessageTrack setup) : Prop where
  safe : track.Safe careful
  live : careful → track.Live
  sound : track.Live → ∃ inHand, track.Sound careful inHand

theorem Left.of_sound (sound : track.Sound careful inHand) : Left careful track :=
  ⟨sound.toSafe, fun _ => sound.live, fun _ => ⟨inHand, sound⟩⟩

structure Ready (careful : Prop) (track : MessageTrack setup) : Prop
    extends Left careful track where
  whole : track.Live → track.Sound careful [] ∧ Exact track

/-- A call has pushed its message into the queue, and has done nothing else since. -/
structure Holding (careful : Prop) (stuff : RecordedMsgStuff setup.sizes)
    (start track : MessageTrack setup) : Prop where
  sound : track.Sound careful [stuff]
  held : track.msgsToFree ≠ []
  running : track.running = start.running
  filepos : track.curMsgdataFilepos = (setup.dataOf start.running.records).length
  stream : track.stream = contentOf setup start.running.records
  less : (track.files .ordinal).filled ≤ (start.files .ordinal).filled

theorem push_sound {stuff : RecordedMsgStuff setup.sizes} (sound : track.Sound careful []) :
    MessageTrack.Sound careful [stuff]
      { track with msgsToFree := track.msgsToFree ++ [stuff] } := by
  refine { sound with toSafe := ⟨sound.disk, sound.freed⟩, waiting := ?_ }
  intro wanted other mem
  cases mem_append.mp mem with
  | inl earlier =>
    cases sound.waiting wanted other earlier with
    | inl impossible => cases impossible
    | inr written => exact .inr written
  | inr now => exact .inl now

theorem pushIntoRecordingMsgQ_keeps {stuff : RecordedMsgStuff setup.sizes}
    (sound : track.Sound careful []) (exact : Exact track)
    (stays : careful → TrackSetup.kMsgToFreeQMaxLength ≤ track.msgsToFree.length →
      ¬ may (.toExit true)) : Keeps may (Safe careful) (pushIntoRecordingMsgQ stuff) track
      (Ends (Holding careful stuff track) (Left careful)) := by
  have pushes : ∀ middle : MessageTrack setup, middle.Sound careful [] → Unchanged track middle →
      middle.stream = track.stream →
      (middle.files .ordinal).filled ≤ (track.files .ordinal).filled →
      Holding careful stuff track { middle with msgsToFree := middle.msgsToFree ++ [stuff] } := by
    intro middle sound unchanged stream less
    refine ⟨push_sound sound, ?_, unchanged.running, ?_, ?_, less⟩
    · exact append_ne_nil_of_right_ne_nil _ (cons_ne_nil _ _)
    · exact unchanged.curMsgdataFilepos.trans exact.filepos
    · exact stream.trans exact.stream
  have room : Keeps may (Safe careful) makeRoom track (Syncing careful [] track) := by
    refine get_bind (ite ?_ ?_)
    · intro full
      exact syncToFile_keeps sound (fun _ => rfl) fun wanted => stays wanted full
    · intro _
      exact pure ⟨Unchanged.refl _, sound.toSafe, fun _ => sound.live, fun _ => sound,
        fun _ => rfl, fun _ => .refl, fun _ => sound.live⟩
  refine bind room ?_
  intro ok middle synced
  cases ok with
  | true =>
    have live := synced.succeeded rfl
    exact modify_bind (pure (pushes middle (synced.sound live) synced.toUnchanged
      (synced.stream live) (synced.less _)))
  | false =>
    exact pure ⟨synced.safe, synced.live, fun live => ⟨[], synced.sound live⟩⟩

def KeyBuffers (careful : Prop) (stuff : RecordedMsgStuff setup.sizes)
    (start : MessageTrack setup) (record : MsgRecord setup.sizes) (rest : List Key)
    (track : MessageTrack setup) : Prop :=
  Holding careful stuff start track ∧ ∀ key ∈ keyIndexes record, key ∈ rest ∨ key ∈ track.keys

theorem KeyBuffers.get {stuff : RecordedMsgStuff setup.sizes} {start : MessageTrack setup}
    {record : MsgRecord setup.sizes} {rest : List Key} {key : Key}
    (buffers : KeyBuffers careful stuff start record (key :: rest) track) :
    Keeps may (Safe careful) (getFileWriteBuffer key) track
      (Ends (KeyBuffers careful stuff start record rest) (Left careful)) := by
  obtain ⟨holding, tied⟩ := buffers
  have others : ∀ keys, key ∈ keys → track.keys ⊆ keys →
      ∀ other ∈ keyIndexes record, other ∈ rest ∨ other ∈ keys := by
    intro keys here known other mem
    cases tied other mem with
    | inl ahead =>
      cases mem_cons.mp ahead with
      | inl same => exact .inr (same ▸ here)
      | inr later => exact .inl later
    | inr before => exact .inr (known before)
  refine get_bind (ite ?_ ?_)
  · intro present
    exact pure ⟨holding, others track.keys present fun _ => id⟩
  · intro new
    refine ask_bind holding.sound.toSafe ?_
    intro _ opened _ _
    cases opened with
    | false => exact pure (Left.of_sound holding.sound)
    | true =>
      refine modify_bind (pure ⟨?_, others (key :: track.keys) mem_cons_self
        fun _ mem => mem_cons_of_mem _ mem⟩)
      refine { holding with sound := ?_ }
      have sound := holding.sound
      refine { sound with toSafe := ⟨sound.disk, sound.freed⟩, live := ?_, untied := ?_ }
      · intro file _ chunk inside
        exact live_chunks sound file chunk inside
      · intro other missing
        exact sound.untied other fun mem => missing (mem_cons_of_mem _ mem)

structure Handing (careful : Prop) (stuff : RecordedMsgStuff setup.sizes)
    (start : MessageTrack setup) (record : MsgRecord setup.sizes) (filepos : Nat)
    (handed : FileId → List UInt8) (track : MessageTrack setup) : Prop where
  sound : track.Sound careful [stuff]
  held : track.msgsToFree ≠ []
  running : track.running.records = start.running.records ++ [record]
  tied : ∀ key ∈ keyIndexes record, key ∈ track.keys
  filepos : track.curMsgdataFilepos = filepos
  stream : track.stream = handed
  less : (track.files .ordinal).filled ≤ (start.files .ordinal).filled

variable {stuff : RecordedMsgStuff setup.sizes} {start : MessageTrack setup}
  {record : MsgRecord setup.sizes} {filepos : Nat} {handed : FileId → List UInt8}

theorem take_keeps (holding : Holding careful stuff start track)
    (tied : ∀ key ∈ keyIndexes record, key ∈ track.keys) :
    Keeps may (Safe careful) (take record) track
      (Ends (Handing careful stuff start (start.numbered record)
        (setup.dataOf start.running.records).length (contentOf setup start.running.records))
        (Left careful)) := by
  refine modify_bind (pure ?_)
  have sound := holding.sound
  have records : (setup.toTrackSetup.recordOneMessage track.running record).records =
      start.running.records ++ [start.numbered record] := by
    rw [holding.running]
    rfl
  refine ⟨⟨⟨?_, sound.freed⟩, sound.live, sound.accounted, sound.idle, sound.untied, ?_,
    sound.waiting⟩, holding.held, records, tied, holding.filepos, holding.stream, holding.less⟩
  · exact sound.disk.more _
  · exact sound.stream.more _

theorem Handing.sputn (handing : Handing careful stuff start record filepos handed track)
    {file : FileId} {bytes : List UInt8} (other : file ≠ .ordinal) (tied : track.Tied file)
    (covered : Covered (contentOf setup) FileId.below (start.running.records ++ [record])
      (extended handed file bytes) file) : Keeps may (Safe careful) (sputn file bytes) track
      (Ends (Handing careful stuff start record filepos (extended handed file bytes))
        (Left careful)) := by
  have covered' : Covered (contentOf setup) FileId.below track.running.records
      (extended track.stream file bytes) file := by
    rw [handing.running, handing.stream]
    exact covered
  refine consequence (sputn_keeps handing.sound tied other handing.held covered')
    (fun _ => id) ?_
  intro ok final filled
  cases ok with
  | false => exact Left.of_sound filled.sound
  | true =>
    refine ⟨filled.sound, filled.queue ▸ handing.held, ?_, ?_, ?_, ?_, ?_⟩
    · rw [filled.running]
      exact handing.running
    · rw [filled.keys]
      exact handing.tied
    · exact filled.curMsgdataFilepos.trans handing.filepos
    · rw [filled.stream rfl, handing.stream]
    · exact Nat.le_trans filled.ordinal handing.less

/-- The record of the message is handed to the buffer of the data file up to some bytes. -/
def Pieces (careful : Prop) (stuff : RecordedMsgStuff setup.sizes) (start : MessageTrack setup)
    (record : MsgRecord setup.sizes) (later : List UInt8) (rest : List (List UInt8))
    (track : MessageTrack setup) : Prop :=
  ∃ done, done ++ rest.flatten ++ later = setup.recordData record ∧
    Handing careful stuff start record (setup.dataOf start.running.records).length
      (extended (contentOf setup start.running.records) .data done) track

theorem Pieces.sputn {later piece : List UInt8} {rest : List (List UInt8)}
    (pieces : Pieces careful stuff start record later (piece :: rest) track) :
    Keeps may (Safe careful) (sputn .data piece) track
      (Ends (Pieces careful stuff start record later rest) (Left careful)) := by
  obtain ⟨done, whole, handing⟩ := pieces
  have grown : extended (extended (contentOf setup start.running.records) .data done) .data piece =
      extended (contentOf setup start.running.records) .data (done ++ piece) := by
    funext other
    by_cases here : other = .data
    · rw [here, extended_self, extended_self, extended_self, append_assoc]
    · rw [extended_of_ne here, extended_of_ne here, extended_of_ne here]
  have whole' : done ++ piece ++ rest.flatten ++ later = setup.recordData record := by
    rw [← whole, flatten_cons, ← append_assoc]
  have apart : FileId.data ≠ .ordinal := by
    nofun
  have tied : track.Tied .data := by
    nofun
  refine consequence (handing.sputn apart tied ?_) (fun _ => id) ?_
  · refine Covered.of_complete ?_ fun lower under => absurd under (Nat.not_lt_zero _)
    rw [grown, extended_self, contentOf_data]
    refine (prefix_append_right_inj _).mpr ?_
    rw [← whole', append_assoc (done ++ piece)]
    exact prefix_append _ _
  · intro ok final ended
    cases ok with
    | false => exact ended
    | true => exact ⟨done ++ piece, whole', grown ▸ ended⟩

theorem writeMessage_keeps
    (handing : Handing careful stuff start record (setup.dataOf start.running.records).length
      (contentOf setup start.running.records) track) :
    Keeps may (Safe careful) (writeMessage record) track
      (Ends (Handing careful stuff start record
        (setup.dataOf (start.running.records ++ [record])).length
        (partly setup start.running.records record [.data])) (Left careful)) := by
  have pieces := flatten_pieces record
  rw [flatten_append] at pieces
  have ids : Pieces careful stuff start record
      (appPieces record ++ crcPieces record).flatten (idPieces record) track :=
    ⟨[], pieces, (extended_nil _ _).symm ▸ handing⟩
  have data : Keeps may (Safe careful)
      (inTurn [inTurn ((idPieces record).map (sputn .data)), checkLength record,
        inTurn ((appPieces record ++ crcPieces record).map (sputn .data))]) track
      (Ends (Pieces careful stuff start record [] []) (Left careful)) := by
    refine inTurn_cons_keeps (inTurn_map_keeps (Pieces careful stuff start record _)
      (fun _ _ _ => Pieces.sputn) ids) ?_
    intro final identified
    have checked : Keeps may (Safe careful) (checkLength record) final
        (Ends (Pieces careful stuff start record [] (appPieces record ++ crcPieces record))
          (Left careful)) := by
      refine pure ?_
      obtain ⟨done, whole, handing⟩ := identified
      cases decide (record.appDataLen.toNat ≤ setup.sizes.maxMessageSize) with
      | true =>
        refine ⟨done, ?_, handing⟩
        rw [append_nil, ← whole, flatten_nil, append_nil]
      | false => exact Left.of_sound handing.sound
    refine inTurn_cons_keeps checked fun final accepted => ?_
    exact inTurn_cons_keeps (inTurn_map_keeps (Pieces careful stuff start record [])
      (fun _ _ _ => Pieces.sputn) accepted) fun _ complete => pure complete
  refine bind data ?_
  intro ok final ended
  cases ok with
  | false => exact pure ended
  | true =>
    obtain ⟨done, whole, handing⟩ := ended
    rw [flatten_nil, append_nil, append_nil] at whole
    have advanced : final.curMsgdataFilepos + (if setup.mode.fileCrc then
          Writer.getMessageFixLen setup.sizes setup.tag + record.appDataLen.toNat + 4
        else Writer.getMessageFixLen setup.sizes setup.tag + record.appDataLen.toNat) =
          (setup.dataOf (start.running.records ++ [record])).length := by
      have one : setup.dataOf [record] = setup.recordData record := append_nil _
      rw [handing.filepos, TrackSetup.dataOf_append, length_append, ← length_recordBytes, one]
      rfl
    have stream : extended (contentOf setup start.running.records) .data done =
        partly setup start.running.records record [.data] := by
      rw [whole, ← partly_nil, extended_partly not_mem_nil (contentOf_data _ _)]
    refine modify_bind (pure ?_)
    have sound := handing.sound
    exact { handing with
      sound := { sound with toSafe := ⟨sound.disk, sound.freed⟩ }
      filepos := advanced
      stream := handing.stream.trans stream }

def KeyEntries (careful : Prop) (stuff : RecordedMsgStuff setup.sizes)
    (start : MessageTrack setup) (record : MsgRecord setup.sizes) (rest : List Key)
    (track : MessageTrack setup) : Prop :=
  ∃ first : List Key, keyIndexes record = first.reverse ++ rest ∧
    Handing careful stuff start record (setup.dataOf (start.running.records ++ [record])).length
      (partly setup start.running.records record (first.map .key ++ [.data])) track

theorem data_mem_entered (first : List Key) : FileId.data ∈ first.map FileId.key ++ [.data] :=
  mem_append_right _ mem_cons_self

theorem key_mem_entered {first : List Key} {key : Key} :
    FileId.key key ∈ first.map FileId.key ++ [.data] ↔ key ∈ first := by
  simp

theorem KeyEntries.write {rest : List Key} {key : Key}
    (entered : KeyEntries careful stuff start record (key :: rest) track) :
    Keeps may (Safe careful)
      (writeMsgOrdinalIndex (setup.dataOf start.running.records).length (.key key)) track
      (Ends (KeyEntries careful stuff start record rest) (Left careful)) := by
  obtain ⟨first, split, handing⟩ := entered
  have mem : key ∈ keyIndexes record := by
    rw [split]
    exact mem_append_right _ mem_cons_self
  have missing : FileId.key key ∉ first.map FileId.key ++ [.data] := by
    rw [key_mem_entered]
    intro earlier
    have nodup := nodup_keyIndexes record
    rw [split, nodup_append] at nodup
    exact nodup.2.2 key (mem_reverse.mpr earlier) key mem_cons_self rfl
  have adds : contentOf setup (start.running.records ++ [record]) (.key key) =
      contentOf setup start.running.records (.key key) ++
        entryBytes (setup.dataOf start.running.records).length := by
    rw [contentOf_key, if_pos (mem_keyIndexes.mp mem)]
  have apart : FileId.key key ≠ .ordinal := by
    nofun
  have tied : track.Tied (.key key) := by
    intro other same
    cases same
    exact handing.tied key mem
  have grown := extended_partly missing adds
  refine consequence (handing.sputn apart tied ?_) (fun _ => id) ?_
  · rw [grown]
    refine covered_partly fun lower under => .inl ?_
    rw [below_of_ne_ordinal apart under]
    exact data_mem_entered first
  · intro ok final ended
    cases ok with
    | false => exact ended
    | true =>
      refine ⟨key :: first, ?_, grown ▸ ended⟩
      rw [split, reverse_cons, append_assoc]
      rfl

theorem writeOrdinal_keeps (entered : KeyEntries careful (.recorded record
      (setup.dataOf start.running.records).length) start record [] track)
    (fits : OrdinalIndex.valueSize < setup.bufLen .ordinal) (roomy : careful → Roomy start) :
    Keeps may (Safe careful)
      (writeMsgOrdinalIndex (setup.dataOf start.running.records).length .ordinal) track
      (Ends (Ready careful) (Left careful)) := by
  obtain ⟨first, split, handing⟩ := entered
  rw [append_nil] at split
  have missing : FileId.ordinal ∉ first.map FileId.key ++ [.data] := by
    simp
  have grown := extended_partly missing (contentOf_ordinal start.running.records record)
  have lower : ∀ other : FileId, other.below .ordinal → other ∈ first.map FileId.key ++ [.data] ∨
        contentOf setup (start.running.records ++ [record]) other =
          contentOf setup start.running.records other := by
    intro other under
    cases other with
    | data => exact .inl (data_mem_entered first)
    | ordinal => exact absurd under (Nat.lt_irrefl 2)
    | key key =>
      by_cases carried : key ∈ setup.keysOf record
      · refine .inl (key_mem_entered.mpr (mem_reverse.mp ?_))
        rw [← split]
        exact mem_keyIndexes.mpr carried
      · refine .inr ?_
        rw [contentOf_key, if_neg carried, append_nil]
  have whole : partly setup start.running.records record
      (.ordinal :: (first.map FileId.key ++ [.data])) =
        contentOf setup (start.running.records ++ [record]) := by
    funext file
    by_cases mem : file ∈ .ordinal :: (first.map FileId.key ++ [.data])
    · exact partly_of_mem mem
    · rw [partly_of_not_mem mem]
      have under : file.below .ordinal := by
        cases file with
        | data => exact (by decide : 0 < 2)
        | key _ => exact (by decide : 1 < 2)
        | ordinal => exact absurd mem_cons_self mem
      cases lower file under with
      | inl inside => exact absurd (mem_cons_of_mem _ inside) mem
      | inr same => exact same.symm
  have some : (entryBytes (setup.dataOf start.running.records).length).length ≠ 0 := by
    rw [length_entryBytes]
    decide
  have covered : Covered (contentOf setup) FileId.below track.running.records
      (extended track.stream .ordinal (entryBytes (setup.dataOf start.running.records).length))
      .ordinal := by
    rw [handing.running, handing.stream, grown]
    exact covered_partly lower
  refine consequence (sputn_ordinal_keeps handing.sound handing.held some ?_ covered ?_ ?_)
    (fun _ => id) ?_
  · rw [length_entryBytes]
    exact fits
  · intro _ stuff mem
    rw [handing.stream, grown, whole, mem_singleton.mp mem]
    exact written_complete _ _
  · intro wanted
    exact (roomy wanted).less handing.less
  · intro ok final entering
    have left : Left careful final := { entering with }
    cases ok with
    | false => exact left
    | true =>
      refine ⟨left, fun live => ?_⟩
      obtain ⟨sound, stream⟩ := entering.stream live rfl
      refine ⟨sound, ?_, ?_⟩
      · rw [stream, handing.stream, grown, whole, entering.running, handing.running]
      · rw [entering.curMsgdataFilepos, entering.running, handing.running, handing.filepos]

theorem recordOneMessage_keeps (sound : track.Sound careful []) (exact : Exact track)
    (fits : OrdinalIndex.valueSize < setup.bufLen .ordinal) (roomy : careful → Roomy track)
    (stays : careful → TrackSetup.kMsgToFreeQMaxLength ≤ track.msgsToFree.length →
      ¬ may (.toExit true)) : Keeps may (Safe careful) (recordOneMessage record) track
      (Ends (Ready careful) (Left careful)) := by
  refine get_bind ?_
  rw [exact.filepos]
  refine inTurn_cons_keeps (pushIntoRecordingMsgQ_keeps sound exact stays) ?_
  intro pushed holding
  have buffers : KeyBuffers careful _ track record (keyIndexes record) pushed :=
    ⟨holding, fun _ mem => .inl mem⟩
  refine inTurn_cons_keeps (inTurn_map_keeps (KeyBuffers careful _ track record)
    (fun _ _ _ => KeyBuffers.get) buffers) ?_
  rintro opened ⟨holding, tied⟩
  refine inTurn_cons_keeps (take_keeps holding fun key mem =>
    (tied key mem).resolve_left not_mem_nil) ?_
  intro taken handing
  refine inTurn_cons_keeps ?_ fun _ ready => pure ready
  refine inTurn_cons_keeps (writeMessage_keeps handing) ?_
  intro written handing
  have entries : KeyEntries careful _ track (track.numbered record) (keyIndexes record) written :=
    ⟨[], rfl, handing⟩
  refine inTurn_cons_keeps (inTurn_map_keeps
    (KeyEntries careful _ track (track.numbered record)) (fun _ _ _ => KeyEntries.write) entries) ?_
  intro entered entries
  refine inTurn_cons_keeps (writeOrdinal_keeps entries fits roomy) ?_
  intro final ready
  refine inTurn_cons_keeps (ask ready.safe ?_) fun _ ready => pure ready
  intro _ preallocated _ _
  cases preallocated with
  | true => exact ready
  | false => exact ready.toLeft

end Record

end AdkAaf.Recorder.FlushChain
