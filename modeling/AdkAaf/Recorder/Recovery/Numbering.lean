import AdkAaf.Recorder.Recovery.RebuildIndex

/-! The numbers that the recorder gives to the messages of a stream, a transport and an
endpoint, over recordings, kills and reboots. -/

set_option autoImplicit false

namespace AdkAaf.Recorder

open List

/-- `next_msg_sqn_` of the index buffer of a key; a key without a buffer gets a new one. -/
def Track.nextMsgSqn (track : Track) (key : Key) : Nat :=
  match track.keyIndex.find? fun entry => entry.1 = key with
  | some (_, buffer) => buffer.nextMsgSqn
  | none => 0

namespace TrackSetup

variable (setup : TrackSetup)

/-- A running track: the records in its data file and its buffers, the counters of its index
buffers, and of which keys a reboot has left the counters behind. -/
structure Running where
  records : List (MsgRecord setup.sizes) := []
  keySqn : Key → Nat := fun _ => 0
  ordinalSqn : Nat := 0
  stale : Key → Prop := fun _ => False
  staleOrdinal : Prop := False

/-- The numbers in the header of a record, from `RecordOneMessage` of both tracks. -/
def numberHeader (running : setup.Running) (record : MsgRecord setup.sizes) : ExMessageHeader :=
  let streamSqn := running.keySqn ⟨.stream, setup.streamId record.msgHeader⟩ + 1
  match setup.tag with
  | .rx =>
    { record.exMsgHeader with
      msgProp := 0
      pad1 := 0
      cStreamSqn := UInt64.ofNat streamSqn
      cTopicSqn := UInt64.ofNat (running.keySqn ⟨.transport, record.transportId⟩ + 1)
      cEndpointSqn := UInt64.ofNat (running.keySqn ⟨.endpoint, record.endpointId⟩ + 1)
      amiUserContext0 := 0
      amiUserContext1 := 0 }
  | .tx =>
    { record.exMsgHeader with
      msgProp := 0
      pad1 := 0
      cStreamSqn := UInt64.ofNat streamSqn
      cTopicSqn := UInt64.ofNat (running.ordinalSqn + 1)
      cEndpointSqn := 0 }

/-- `RecordOneMessage`; `next_msg_sqn()` counts each index buffer up. -/
def recordOneMessage (running : setup.Running) (record : MsgRecord setup.sizes) : setup.Running :=
  { running with
    records := running.records ++
      [{ record with exMsgHeader := setup.numberHeader running record }]
    keySqn := fun key =>
      if key ∈ setup.keysOf record then running.keySqn key + 1 else running.keySqn key
    ordinalSqn :=
      match setup.tag with
      | .rx => running.ordinalSqn
      | .tx => running.ordinalSqn + 1 }

/-- The keys of the message are known: none is one whose counter a reboot has left behind,
and for a `TxMessageTrack` neither is the counter of all messages. -/
def Known (running : setup.Running) (record : MsgRecord setup.sizes) : Prop :=
  (∀ key ∈ setup.keysOf record, ¬ running.stale key) ∧
    (setup.tag = .tx → ¬ running.staleOrdinal)

/-- A kill leaves the index files of the keys as they were flushed, apart from those that
a reboot has left behind, of which nothing is known. -/
structure Killed (running : setup.Running) (durable : Nat) (directory : Directory) : Prop
    extends setup.DataLeftByKill running.records durable directory where
  keyIndex : ∀ key file, (key, file) ∈ directory.keyIndex → ¬ running.stale key →
    setup.RunsAhead running.records durable key file
  present : ∀ record ∈ running.records.take durable, ∀ key ∈ setup.keysOf record,
    ¬ running.stale key → ∃ file, (key, file) ∈ directory.keyIndex

/-- A reboot leaves some of the records in the data file; the first entry of the ordinal
index is right or was not written. -/
def Rebooted (running : setup.Running) (kept : Nat) (directory : Directory) : Prop :=
  setup.TornData (running.records.take kept) directory ∨ directory.index.entries = []

/-- The track after a kill: a key whose index file was right is known again. -/
def afterKill (running : setup.Running) (durable : Nat) (directory : Directory) (track : Track) :
    setup.Running where
  records := running.records.take durable
  keySqn := track.nextMsgSqn
  ordinalSqn := track.ordinalIndex.nextMsgSqn
  stale key := running.stale key ∧
    ¬ ∃ file, (key, file) ∈ directory.keyIndex ∧ ∀ other, (key, other) ∈ directory.keyIndex →
      setup.RunsAhead running.records durable key other
  staleOrdinal := False

/-- The track after a reboot, which has left behind the counters of all it found. -/
def afterReboot (running : setup.Running) (track : Track) : setup.Running :=
  let records := running.records.take track.recordedMsgCnt
  { records
    keySqn := track.nextMsgSqn
    ordinalSqn := track.ordinalIndex.nextMsgSqn
    stale := fun key => ∃ record ∈ records, key ∈ setup.keysOf record
    staleOrdinal := records ≠ [] }

/-- The states of a track over any history of recordings, kills and reboots, in which only
messages are recorded that are `allowed`. -/
inductive History (allowed : setup.Running → MsgRecord setup.sizes → Prop) :
    setup.Running → Prop where
  | start : History allowed {}
  | record {running : setup.Running} (record : MsgRecord setup.sizes) :
      History allowed running → setup.Readable record → allowed running record →
      History allowed (setup.recordOneMessage running record)
  | kill {running : setup.Running} {durable : Nat} {directory after : Directory}
      {track : Track} :
      History allowed running → setup.Killed running durable directory →
      setup.recoverIndexDataFiles directory = .ok (after, track) →
      History allowed (setup.afterKill running durable directory track)
  | reboot {running : setup.Running} {kept : Nat} {directory after : Directory}
      {track : Track} :
      History allowed running → setup.Rebooted running kept directory →
      setup.recoverIndexDataFilesLostMsg directory = .ok (after, track) →
      History allowed (setup.afterReboot running track)

def countOf (key : Key) (records : List (MsgRecord setup.sizes)) : Nat :=
  records.countP fun record => key ∈ setup.keysOf record

/-- Every record has the number that it has among those of its stream and, in a
`RxMessageTrack`, of its transport and endpoint, in a `TxMessageTrack` among all. -/
def Numbered (records : List (MsgRecord setup.sizes)) : Prop :=
  ∀ before record after, records = before ++ record :: after →
    let count := fun key => setup.countOf key (before ++ [record])
    record.exMsgHeader.cStreamSqn =
        UInt64.ofNat (count ⟨.stream, setup.streamId record.msgHeader⟩) ∧
      (setup.tag = .rx →
        record.exMsgHeader.cTopicSqn = UInt64.ofNat (count ⟨.transport, record.transportId⟩) ∧
        record.exMsgHeader.cEndpointSqn =
          UInt64.ofNat (count ⟨.endpoint, record.endpointId⟩)) ∧
      (setup.tag = .tx →
        record.exMsgHeader.cTopicSqn = UInt64.ofNat (before.length + 1))

/-- Every record is numbered, and the counters that were not left behind are right. -/
structure Counted (running : setup.Running) : Prop where
  readable : ∀ record ∈ running.records, setup.Readable record
  numbered : setup.Numbered running.records
  keySqn : ∀ key, ¬ running.stale key → running.keySqn key = setup.countOf key running.records
  ordinalSqn : setup.tag = .tx → ¬ running.staleOrdinal →
    running.ordinalSqn = running.records.length

section Counting

variable {setup} {running : setup.Running}

theorem countOf_append (key : Key) (records more : List (MsgRecord setup.sizes)) :
    setup.countOf key (records ++ more) = setup.countOf key records + setup.countOf key more :=
  countP_append

theorem countOf_singleton (key : Key) (record : MsgRecord setup.sizes) :
    setup.countOf key [record] = if key ∈ setup.keysOf record then 1 else 0 := by
  rw [countOf, countP_singleton]
  split
  next carried => rw [if_pos (of_decide_eq_true carried)]
  next missing => rw [if_neg fun carried => missing (decide_eq_true carried)]

theorem length_keyPositions (key : Key) (records : List (MsgRecord setup.sizes)) :
    (setup.keyPositions key records).length = setup.countOf key records := by
  rw [keyPositions, countOf]
  generalize 0 = base
  induction records generalizing base with
  | nil => rfl
  | cons record rest ih =>
    rw [positionsWhere, countP_cons]
    split
    next => rw [length_cons, ih]
    next => rw [ih, Nat.add_zero]

theorem keysOf_numbered (record : MsgRecord setup.sizes) (header : ExMessageHeader) :
    setup.keysOf { record with exMsgHeader := header } = setup.keysOf record := rfl

variable {records : List (MsgRecord setup.sizes)}

theorem Numbered.of_append {more : List (MsgRecord setup.sizes)}
    (numbered : setup.Numbered (records ++ more)) : setup.Numbered records := by
  intro before record after split
  exact numbered before record (after ++ more) (by rw [split, append_assoc]; rfl)

theorem Numbered.take (numbered : setup.Numbered records) (count : Nat) :
    setup.Numbered (records.take count) := by
  have whole : setup.Numbered (records.take count ++ records.drop count) := by
    rw [take_append_drop]
    exact numbered
  exact whole.of_append

theorem Counted.number (counted : setup.Counted running) {record : MsgRecord setup.sizes}
    (known : setup.Known running record) :
    let numbered := { record with exMsgHeader := setup.numberHeader running record }
    let count := fun key => setup.countOf key (running.records ++ [numbered])
    numbered.exMsgHeader.cStreamSqn =
        UInt64.ofNat (count ⟨.stream, setup.streamId record.msgHeader⟩) ∧
      (setup.tag = .rx →
        numbered.exMsgHeader.cTopicSqn = UInt64.ofNat (count ⟨.transport, record.transportId⟩) ∧
        numbered.exMsgHeader.cEndpointSqn = UInt64.ofNat (count ⟨.endpoint, record.endpointId⟩)) ∧
      (setup.tag = .tx →
        numbered.exMsgHeader.cTopicSqn = UInt64.ofNat (running.records.length + 1)) := by
  intro numbered count
  have next : ∀ key ∈ setup.keysOf record, count key = running.keySqn key + 1 := by
    intro key carried
    dsimp only [count]
    rw [countOf_append, countOf_singleton,
      keysOf_numbered record (setup.numberHeader running record), if_pos carried,
      counted.keySqn key (known.1 key carried)]
  have streamCarried : ⟨.stream, setup.streamId record.msgHeader⟩ ∈ setup.keysOf record := by
    rw [keysOf]
    cases setup.tag with
    | rx | tx => simp
  refine ⟨?_, ?_, ?_⟩
  · rw [next _ streamCarried]
    dsimp only [numbered, numberHeader]
    cases setup.tag with
    | rx | tx => rfl
  · intro rx
    have carried : ⟨.transport, record.transportId⟩ ∈ setup.keysOf record ∧
        ⟨.endpoint, record.endpointId⟩ ∈ setup.keysOf record := by
      rw [keysOf, rx]
      simp
    rw [next _ carried.1, next _ carried.2]
    dsimp only [numbered, numberHeader]
    rw [rx]
    exact ⟨rfl, rfl⟩
  · intro tx
    rw [← counted.ordinalSqn tx (known.2 tx)]
    dsimp only [numbered, numberHeader]
    rw [tx]

theorem Counted.record (counted : setup.Counted running) {record : MsgRecord setup.sizes}
    (readable : setup.Readable record) (known : setup.Known running record) :
    setup.Counted (setup.recordOneMessage running record) := by
  constructor
  case readable =>
    intro other mem
    cases mem_append.mp mem with
    | inl old => exact counted.readable other old
    | inr new =>
      cases mem_singleton.mp new
      exact readable
  case numbered =>
    intro before other after split
    rcases eq_nil_or_concat after with last | ⟨rest, tail, inside⟩
    · -- the record that was added
      rw [last] at split
      obtain ⟨all, one⟩ := append_inj' split rfl
      cases one
      rw [← all]
      exact counted.number known
    · rw [inside, concat_eq_append, ← cons_append, ← append_assoc] at split
      exact counted.numbered before other rest (append_inj' split rfl).1
  case keySqn =>
    intro key fresh
    dsimp only [recordOneMessage]
    rw [countOf_append, countOf_singleton,
      keysOf_numbered record (setup.numberHeader running record), counted.keySqn key fresh]
    split <;> rfl
  case ordinalSqn =>
    intro tag fresh
    dsimp only [recordOneMessage]
    rw [counted.ordinalSqn tag fresh, length_append, tag]
    rfl

theorem recoverKeyIndexFiles_inv {msgdata : List UInt8} {files : List (Key × IndexFile)}
    {all : List (Key × RecoveredKey)} (ran : setup.recoverKeyIndexFiles msgdata files = .ok all) :
    all.map Prod.fst = files.map Prod.fst ∧ ∀ key recovered, (key, recovered) ∈ all →
        ∃ file, (key, file) ∈ files ∧ setup.recoverKeyIndexFile msgdata file = .ok recovered := by
  induction files generalizing all with
  | nil =>
    cases ran
    refine ⟨rfl, ?_⟩
    nofun
  | cons first rest ih =>
    obtain ⟨key, file⟩ := first
    rw [recoverKeyIndexFiles] at ran
    cases one : setup.recoverKeyIndexFile msgdata file with
    | error failed =>
      rw [one] at ran
      cases ran
    | ok recovered =>
      cases more : setup.recoverKeyIndexFiles msgdata rest with rw [one, more] at ran
      | error failed => cases ran
      | ok others =>
        cases ran
        obtain ⟨names, every⟩ := ih more
        refine ⟨?_, ?_⟩
        · rw [map_cons, map_cons, names]
        · intro name result mem
          cases mem_cons.mp mem with
          | inl first =>
            cases first
            exact ⟨file, mem_cons_self, one⟩
          | inr later =>
            obtain ⟨old, inside, same⟩ := every name result later
            exact ⟨old, mem_cons_of_mem _ inside, same⟩

variable {track : Track} {durable : Nat}

variable {directory after : Directory}

section

variable (data : setup.DataLeftByKill running.records durable directory)
  (recovered : setup.recoverIndexDataFiles directory = .ok (after, track))
include data recovered

theorem recoverIndexDataFiles_inv :
    ∃ all, setup.recoverKeyIndexFiles (directory.msgdata.take setup.headerLength ++
        setup.dataOf (running.records.take durable)) directory.keyIndex = .ok all ∧
      track.ordinalIndex = ⟨durable * OrdinalIndex.valueSize, durable⟩ ∧
      track.keyIndex = all.map fun (key, recovered) => (key, recovered.buffer) := by
  rw [recoverIndexDataFiles_eq data] at recovered
  cases ran : setup.recoverKeyIndexFiles (directory.msgdata.take setup.headerLength ++
      setup.dataOf (running.records.take durable)) directory.keyIndex with
  | error failed =>
    rw [ran] at recovered
    cases recovered
  | ok all =>
    rw [ran] at recovered
    cases recovered
    exact ⟨all, rfl, rfl, rfl⟩

theorem nextMsgSqn_afterKill {key : Key} (ahead : ∀ file, (key, file) ∈ directory.keyIndex →
      setup.RunsAhead running.records durable key file)
    (present : ∀ record ∈ running.records.take durable, key ∈ setup.keysOf record →
      ∃ file, (key, file) ∈ directory.keyIndex) :
    track.nextMsgSqn key = setup.countOf key (running.records.take durable) := by
  obtain ⟨all, ran, _, buffers⟩ := recoverIndexDataFiles_inv data recovered
  obtain ⟨names, every⟩ := recoverKeyIndexFiles_inv ran
  rw [Track.nextMsgSqn]
  cases found : track.keyIndex.find? fun entry => entry.1 = key with
  | some entry =>
    obtain ⟨name, buffer⟩ := entry
    have same : name = key := by simpa using find?_some found
    subst same
    have mem := mem_of_find?_eq_some found
    rw [buffers] at mem
    obtain ⟨⟨other, result⟩, inside, equal⟩ := mem_map.mp mem
    cases equal
    obtain ⟨file, kept, once⟩ := every _ _ inside
    obtain ⟨again, twice, _, counter⟩ := recoverKeyIndexFile_of_runsAhead data.readable
      (ahead file kept) (length_header data)
    rw [once] at twice
    cases twice
    rw [counter, length_keyPositions]
  | none =>
    have missing : ∀ record ∈ running.records.take durable, key ∉ setup.keysOf record := by
      intro record mem carried
      obtain ⟨file, inside⟩ := present record mem carried
      have named : key ∈ all.map Prod.fst := names ▸ mem_map.mpr ⟨_, inside, rfl⟩
      obtain ⟨⟨name, result⟩, kept, same⟩ := mem_map.mp named
      cases same
      refine find?_eq_none.mp found (name, result.buffer) ?_ (decide_eq_true rfl)
      rw [buffers]
      exact mem_map.mpr ⟨_, kept, rfl⟩
    symm
    rw [countOf, countP_eq_zero]
    intro record mem carried
    exact missing record mem (of_decide_eq_true carried)

end

theorem Counted.kill (counted : setup.Counted running)
    (killed : setup.Killed running durable directory)
    (recovered : setup.recoverIndexDataFiles directory = .ok (after, track)) :
    setup.Counted (setup.afterKill running durable directory track) := by
  have data := killed.toDataLeftByKill
  constructor
  case readable =>
    exact fun record mem => counted.readable record (mem_of_mem_take mem)
  case numbered => exact counted.numbered.take durable
  case keySqn =>
    intro key known
    by_cases stale : running.stale key
    · -- its i file was right
      obtain ⟨file, inside, ahead⟩ : ∃ file, (key, file) ∈ directory.keyIndex ∧
          ∀ other, (key, other) ∈ directory.keyIndex →
            setup.RunsAhead running.records durable key other :=
        Classical.byContradiction fun wrong => known ⟨stale, wrong⟩
      exact nextMsgSqn_afterKill data recovered ahead fun _ _ _ => ⟨file, inside⟩
    · refine nextMsgSqn_afterKill data recovered ?_ ?_
      · exact fun file mem => killed.keyIndex key file mem stale
      · exact fun record mem carried => killed.present record mem key carried stale
  case ordinalSqn =>
    intro _ _
    have length : (running.records.take durable).length = durable := by
      rw [length_take, Nat.min_eq_left data.written]
    obtain ⟨_, _, ordinal, _⟩ := recoverIndexDataFiles_inv data recovered
    exact (congrArg IndexBuffer.nextMsgSqn ordinal).trans length.symm

theorem nextMsgSqn_afterReboot
    (recovered : setup.recoverIndexDataFilesLostMsg directory = .ok (after, track)) :
    (∀ key, track.nextMsgSqn key = 0) ∧ track.ordinalIndex.nextMsgSqn = 0 := by
  rw [recoverIndexDataFilesLostMsg] at recovered
  cases ran : setup.indexDataFile directory with rw [ran] at recovered
  | error failed => cases recovered
  | ok state =>
    cases recovered
    refine ⟨?_, rfl⟩
    intro key
    rw [Track.nextMsgSqn]
    split
    next name buffer found =>
      obtain ⟨⟨other, file, kept⟩, inside, equal⟩ :=
        mem_map.mp (mem_of_find?_eq_some found)
      cases equal
      obtain ⟨⟨first, old⟩, _, counted⟩ := mem_filterMap.mp inside
      obtain ⟨count, _, same⟩ := Option.map_eq_some_iff.mp counted
      cases same
      rfl
    next => rfl

theorem Counted.reboot (counted : setup.Counted running)
    (recovered : setup.recoverIndexDataFilesLostMsg directory = .ok (after, track)) :
    setup.Counted (setup.afterReboot running track) := by
  obtain ⟨keys, ordinal⟩ := nextMsgSqn_afterReboot recovered
  constructor
  case readable =>
    exact fun record mem => counted.readable record (mem_of_mem_take mem)
  case numbered => exact counted.numbered.take _
  case keySqn =>
    intro key known
    refine (keys key).trans ?_
    symm
    rw [countOf, countP_eq_zero]
    intro record mem carried
    exact known ⟨record, mem, of_decide_eq_true carried⟩
  case ordinalSqn =>
    intro _ known
    refine ordinal.trans ?_
    symm
    rw [length_eq_zero_iff]
    exact Classical.byContradiction known

/-- In a history in which a message is recorded only while its keys are known, the records
of each stream, transport and endpoint are numbered from one on. -/
theorem numbered_of_known {running : setup.Running}
    (history : setup.History setup.Known running) : setup.Numbered running.records := by
  have counted : setup.Counted running := by
    induction history with
    | start =>
      refine ⟨?_, ?_, fun _ _ => rfl, fun _ _ => rfl⟩
      · nofun
      · intro before record after split
        cases nil_eq_append_iff.mp split with
        | intro _ impossible => cases impossible
    | record record _ readable known counted => exact counted.record readable known
    | kill _ killed recovered counted => exact counted.kill killed recovered
    | reboot _ _ recovered counted => exact counted.reboot recovered
  exact counted.numbered

end Counting

theorem numbered_of_known_of_two :
    ∃ running : smallSetup.Running, smallSetup.History smallSetup.Known running ∧
      running.records.length = 2 ∧ smallSetup.Numbered running.records := by
  have first :
      smallSetup.History smallSetup.Known (smallSetup.recordOneMessage {} (smallRecord 3)) :=
    .record _ .start ⟨by decide, by decide⟩ ⟨fun _ _ => id, fun _ => id⟩
  have second := History.record (smallRecord 9) first ⟨by decide, by decide⟩
    ⟨fun _ _ => id, fun _ => id⟩
  exact ⟨_, second, rfl, numbered_of_known second⟩

def renumbered (header : ExMessageHeader) : MsgRecord smallSetup.sizes :=
  { smallRecord 3 with exMsgHeader := header }

/-- A message, a reboot, and a message again: both have the number one. -/
theorem reboot_restarts_numbers :
    ∃ running : smallSetup.Running, smallSetup.History (fun _ _ => True) running ∧
      ¬ smallSetup.Numbered running.records := by
  have readable : smallSetup.Readable (smallRecord 3) := ⟨by decide, by decide⟩
  have before : smallSetup.History (fun _ _ => True)
      (smallSetup.recordOneMessage {} (smallRecord 3)) := .record _ .start readable trivial
  generalize running : smallSetup.recordOneMessage {} (smallRecord 3) = recorded at before
  have torn : smallSetup.TornData (recorded.records.take 1) (rebootDirectory recorded.records) := by
    subst running
    refine rebootDirectory_tornData ?_
    intro record member
    cases mem_singleton.mp member
    exact ⟨readable, by decide +kernel⟩
  have found : (smallSetup.recoverIndexDataFilesLostMsg
      (rebootDirectory recorded.records)).toOption.any
        (fun result => result.2.recordedMsgCnt = 1) = true := by
    subst running
    decide +kernel
  cases ran : smallSetup.recoverIndexDataFilesLostMsg (rebootDirectory recorded.records) with
  | error failed =>
    rw [ran] at found
    cases found
  | ok result =>
    obtain ⟨after, track⟩ := result
    rw [ran] at found
    have one : track.recordedMsgCnt = 1 := of_decide_eq_true found
    have rebooted := History.reboot before (.inl torn) ran
    refine ⟨_, .record (smallRecord 3) rebooted readable trivial, ?_⟩
    intro numbered
    have records : (smallSetup.afterReboot recorded track).records = recorded.records := by
      rw [afterReboot, one, ← running]
      rfl
    have added : (smallSetup.recordOneMessage (smallSetup.afterReboot recorded track)
        (smallRecord 3)).records = recorded.records ++ [renumbered
          (smallSetup.numberHeader (smallSetup.afterReboot recorded track) (smallRecord 3))] := by
      rw [← records]
      rfl
    have wrong := (numbered recorded.records _ [] added).1
    have counter : smallSetup.countOf ⟨.stream, 0x03020100⟩ recorded.records = 1 := by
      subst running
      decide +kernel
    have again : (⟨.stream, 0x03020100⟩ : Key) ∈ smallSetup.keysOf (smallRecord 3) := by
      decide +kernel
    have two : ∀ header : ExMessageHeader, smallSetup.countOf ⟨.stream, 0x03020100⟩
        (recorded.records ++ [renumbered header]) = 2 := by
      intro header
      have single : smallSetup.countOf ⟨.stream, 0x03020100⟩ [renumbered header] = 1 :=
        (countOf_singleton _ _).trans (if_pos again)
      exact (countOf_append _ _ _).trans (congrArg₂ (· + ·) counter single)
    have restarted : (smallSetup.numberHeader (smallSetup.afterReboot recorded track)
        (smallRecord 3)).cStreamSqn =
          UInt64.ofNat (track.nextMsgSqn ⟨.stream, 0x03020100⟩ + 1) := rfl
    rw [(nextMsgSqn_afterReboot ran).1] at restarted
    exact absurd ((restarted.symm.trans wrong).trans (congrArg UInt64.ofNat (two _))) (by decide)

end TrackSetup

end AdkAaf.Recorder
