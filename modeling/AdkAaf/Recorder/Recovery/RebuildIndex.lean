import AdkAaf.Recorder.Recovery.Kill
import AdkAaf.Recorder.Recovery.Rebuild

/-! When the recovery after a reboot rebuilds every index file. -/

set_option autoImplicit false

namespace AdkAaf.Recorder

open Option List

def updatesOf (key : Key) (updates : List (Key × Nat)) : List (Key × Nat) :=
  updates.filter fun update => update.1 = key

def updatesUnder (number : UInt32) (updates : List (Key × Nat)) : List (Key × Nat) :=
  updates.filter fun update => update.1.value = number

/-- The buffer that is found under a number has all positions under it, and the file of
the key that came first. -/
inductive Buffered : List (Key × Nat) → Option (KeyType × BufferWrite) → Prop where
  | empty : Buffered [] none
  | under {first : Key × Nat} {rest : List (Key × Nat)} {writer : BufferWrite} :
      writer.close = (first :: rest).map Prod.snd →
      Buffered (first :: rest) (some (first.1.type, writer))

/-- The files in the directory: those from before, and a new one for some of the keys
that came first under their numbers. -/
structure Opened (before : List (Key × IndexFile)) (updates : List (Key × Nat))
    (files : List (Key × IndexFile)) : Prop where
  kept : ∀ entry ∈ before, entry ∈ files
  names : (before.map Prod.fst).Nodup → (files.map Prod.fst).Nodup
  created : ∀ entry ∈ files, entry ∈ before ∨
    ∃ first rest, updatesUnder entry.1.value updates = first :: rest ∧ first.1 = entry.1
  present : ∀ first rest, updatesUnder first.1.value updates = first :: rest →
    first.1 ∈ files.map Prod.fst

structure Collected (before : List (Key × IndexFile)) (updates : List (Key × Nat))
    (state : Rebuild) : Prop where
  counted : ∀ key, (state.keySqn key).getD 0 = (updatesOf key updates).length
  counts : ∀ key, state.keySqn key = none ↔ updatesOf key updates = []
  buffered : ∀ number, Buffered (updatesUnder number updates) (state.rewrite number)
  opened : Opened before updates state.files

section Updates

variable {before : List (Key × IndexFile)} {updates : List (Key × Nat)} {state : Rebuild}

theorem updatesOf_append_singleton (key other : Key) (pos : Nat) :
    updatesOf key (updates ++ [(other, pos)]) =
      updatesOf key updates ++ (if other = key then [(other, pos)] else []) := by
  rw [updatesOf, filter_append]
  congr 1
  split
  next same => simp [same]
  next apart => simp [apart]

theorem updatesUnder_append_singleton (n : UInt32) (key : Key) (pos : Nat) :
    updatesUnder n (updates ++ [(key, pos)]) =
      updatesUnder n updates ++ (if key.value = n then [(key, pos)] else []) := by
  rw [updatesUnder, filter_append]
  congr 1
  split
  next same => simp [same]
  next apart => simp [apart]

theorem Collected.buffered_update (collected : Collected before updates state) (key : Key)
    (pos : Nat) (n : UInt32) : Buffered (updatesUnder n (updates ++ [(key, pos)]))
      ((state.updateLastMsgSqn key pos).rewrite n) := by
  have buffered := collected.buffered n
  rw [updatesUnder_append_singleton]
  by_cases same : key.value = n
  · subst same
    rw [if_pos rfl, Rebuild.updateLastMsgSqn]
    generalize state.rewrite key.value = rewrite at buffered ⊢
    generalize updatesUnder key.value updates = under at buffered ⊢
    cases buffered with dsimp only
    | empty =>
      rw [if_pos rfl]
      exact @Buffered.under (key, pos) [] _ rfl
    | @under first rest writer closed =>
      rw [if_pos rfl]
      refine .under ?_
      rw [BufferWrite.close_write, closed]
      simp
  · rw [if_neg same, append_nil, Rebuild.updateLastMsgSqn]
    have other : ¬ n = key.value := fun equal => same equal.symm
    split
    all_goals
      dsimp only
      rw [if_neg other]
      exact buffered

theorem keySqn_update (state : Rebuild) (key : Key) (pos : Nat) (other : Key) :
    (state.updateLastMsgSqn key pos).keySqn other =
      if other = key then some ((state.keySqn key).getD 0 + 1) else state.keySqn other := by
  rw [Rebuild.updateLastMsgSqn]
  split <;> rfl

variable {number : UInt32} {first : Key × Nat} {rest : List (Key × Nat)}

theorem updatesUnder_append_of_cons (under : updatesUnder number updates = first :: rest)
    (key : Key) (pos : Nat) :
    ∃ more, updatesUnder number (updates ++ [(key, pos)]) = first :: more := by
  rw [updatesUnder_append_singleton, under]
  exact ⟨_, rfl⟩

variable {key : Key}

theorem first_of_append {pos : Nat}
    (under : updatesUnder number (updates ++ [(key, pos)]) = first :: rest) :
    (∃ more, updatesUnder number updates = first :: more) ∨
      (updatesUnder number updates = [] ∧ key.value = number ∧ first = (key, pos)) := by
  rw [updatesUnder_append_singleton] at under
  cases earlier : updatesUnder number updates with
  | cons head more =>
    rw [earlier] at under
    cases under
    exact .inl ⟨more, rfl⟩
  | nil =>
    rw [earlier, nil_append] at under
    split at under <;> cases under
    next same => exact .inr ⟨rfl, same, rfl⟩

theorem Opened.again {files : List (Key × IndexFile)} (opened : Opened before updates files)
    (pos : Nat) (used : updatesUnder key.value updates ≠ []) :
    Opened before (updates ++ [(key, pos)]) files := by
  constructor
  case kept => exact opened.kept
  case names => exact opened.names
  case created =>
    intro entry mem
    cases opened.created entry mem with
    | inl old => exact .inl old
    | inr new =>
      obtain ⟨first, rest, under, same⟩ := new
      obtain ⟨more, still⟩ := updatesUnder_append_of_cons under key pos
      exact .inr ⟨first, more, still, same⟩
  case present =>
    intro first rest under
    cases first_of_append under with
    | inl earlier =>
      obtain ⟨more, earlier⟩ := earlier
      exact opened.present first more earlier
    | inr now =>
      obtain ⟨none, same, _⟩ := now
      exact absurd (same ▸ none) used

theorem Opened.open_ (opened : Opened before updates state.files) (pos : Nat)
    (unused : updatesUnder key.value updates = []) :
    Opened before (updates ++ [(key, pos)]) (state.openFile key) := by
  have first : updatesUnder key.value (updates ++ [(key, pos)]) = [(key, pos)] := by
    rw [updatesUnder_append_singleton, unused, if_pos rfl, nil_append]
  have within : ∀ entry ∈ state.files, entry ∈ state.openFile key := by
    intro entry mem
    rw [Rebuild.openFile]
    split
    next => exact mem
    next => exact mem_append_left _ mem
  have named : key ∈ (state.openFile key).map Prod.fst := by
    rw [Rebuild.openFile]
    split
    next exists_ => exact exists_
    next =>
      rw [map_append]
      exact mem_append_right _ mem_cons_self
  constructor
  case kept => exact fun entry mem => within entry (opened.kept entry mem)
  case names =>
    intro distinct
    rw [Rebuild.openFile]
    split
    next => exact opened.names distinct
    next missing =>
      rw [map_append, nodup_append]
      refine ⟨opened.names distinct, pairwise_singleton _ _, ?_⟩
      intro name inside other single same
      cases mem_singleton.mp single
      cases same
      exact missing inside
  case created =>
    intro entry mem
    have cases_ : entry ∈ state.files ∨ entry = (key, .empty) := by
      rw [Rebuild.openFile] at mem
      split at mem
      next => exact .inl mem
      next =>
        cases mem_append.mp mem with
        | inl old => exact .inl old
        | inr new => exact .inr (mem_singleton.mp new)
    cases cases_ with
    | inl old =>
      cases opened.created entry old with
      | inl before => exact .inl before
      | inr new =>
        obtain ⟨head, rest, under, same⟩ := new
        obtain ⟨more, still⟩ := updatesUnder_append_of_cons under key pos
        exact .inr ⟨head, more, still, same⟩
    | inr new =>
      subst new
      exact .inr ⟨_, _, first, rfl⟩
  case present =>
    intro head rest under
    cases first_of_append under with
    | inl earlier =>
      obtain ⟨more, earlier⟩ := earlier
      obtain ⟨entry, mem, same⟩ := mem_map.mp (opened.present head more earlier)
      exact mem_map.mpr ⟨entry, within entry mem, same⟩
    | inr now =>
      obtain ⟨_, _, same⟩ := now
      subst same
      exact named

theorem Collected.update (collected : Collected before updates state) (key : Key) (pos : Nat) :
    Collected before (updates ++ [(key, pos)]) (state.updateLastMsgSqn key pos) := by
  constructor
  case counted =>
    intro other
    rw [keySqn_update, updatesOf_append_singleton]
    split
    next same =>
      subst same
      rw [if_pos rfl, length_append, ← collected.counted]
      rfl
    next apart =>
      rw [if_neg fun same => apart same.symm, append_nil, collected.counted]
  case counts =>
    intro other
    rw [keySqn_update, updatesOf_append_singleton]
    split
    next same =>
      subst same
      rw [if_pos rfl]
      constructor
      · nofun
      · intro empty
        cases (append_eq_nil_iff.mp empty).2
    next apart =>
      rw [if_neg fun same => apart same.symm, append_nil, collected.counts]
  case buffered => exact collected.buffered_update key pos
  case opened =>
    have buffered := collected.buffered key.value
    rw [Rebuild.updateLastMsgSqn]
    cases rewrite : state.rewrite key.value with rw [rewrite] at buffered
    | none =>
      refine collected.opened.open_ pos ?_
      generalize updatesUnder key.value updates = under at buffered ⊢
      cases buffered
      rfl
    | some opened =>
      refine collected.opened.again pos ?_
      intro unused
      rw [unused] at buffered
      cases buffered

end Updates

namespace TrackSetup

variable (setup : TrackSetup)

def updatesFrom : Nat → List (MsgRecord setup.sizes) → List (Key × Nat)
  | _, [] => []
  | base, record :: rest =>
    (setup.keysOf record).map (fun key => (key, base)) ++
      updatesFrom (base + (setup.recordData record).length) rest

section Positions

variable {setup}

theorem updatesFrom_append (base : Nat) (records more : List (MsgRecord setup.sizes)) :
    setup.updatesFrom base (records ++ more) = setup.updatesFrom base records ++
      setup.updatesFrom (base + (setup.dataOf records).length) more := by
  induction records generalizing base with
  | nil => rfl
  | cons record rest ih =>
    simp [cons_append, updatesFrom, ih, dataOf_cons, length_append,
      Nat.add_assoc, append_assoc]

theorem length_recordData_pos (record : MsgRecord setup.sizes) :
    0 < (setup.recordData record).length := by
  rw [recordData, length_recordBytes_parts, length_appBytes]
  omega

variable {keys : List Key}

variable {key : Key} {record : MsgRecord setup.sizes}

variable {base : Nat}

end Positions

def Valid (record : MsgRecord setup.sizes) : Prop :=
  setup.Readable record ∧ setup.isValid (delivered setup.tag record {}) = true

def NoRecord (tail : List UInt8) : Prop :=
  ∀ crc message reader,
    RecordReader.readNextMessage setup.sizes setup.mode ⟨tail, crc, message⟩ setup.tag =
      .ok reader → setup.isValid reader.message = false

structure Scanned (before : List (Key × IndexFile)) (records : List (MsgRecord setup.sizes))
    (state : Rebuild) : Prop where
  filepos : state.curMsgdataFilepos = (setup.dataOf records).length
  recorded : state.recordedMsgCnt = records.length
  ordinal : state.ordinalIndexWrite.close = setup.ordinalPositions records
  collected : Collected before (setup.updatesFrom 0 records) state

section Scanning

variable {setup} {before : List (Key × IndexFile)} {records : List (MsgRecord setup.sizes)}
  {state : Rebuild}

theorem messageKeys_delivered (record : MsgRecord setup.sizes) (message : AmiMessage) :
    setup.messageKeys (delivered setup.tag record message) = setup.keysOf record := by
  rw [messageKeys, keysOf]
  cases setup.tag with
  | rx | tx => rfl

theorem updateLastMsgSqn_frame (state : Rebuild) (key : Key) (pos : Nat) :
    (state.updateLastMsgSqn key pos).curMsgdataFilepos = state.curMsgdataFilepos ∧
      (state.updateLastMsgSqn key pos).recordedMsgCnt = state.recordedMsgCnt ∧
      (state.updateLastMsgSqn key pos).ordinalIndexWrite = state.ordinalIndexWrite := by
  rw [Rebuild.updateLastMsgSqn]
  split <;> exact ⟨rfl, rfl, rfl⟩

theorem updateKeys_frame (pos : Nat) (keys : List Key) (state : Rebuild) :
    (state.updateKeys pos keys).curMsgdataFilepos = state.curMsgdataFilepos ∧
      (state.updateKeys pos keys).recordedMsgCnt = state.recordedMsgCnt ∧
      (state.updateKeys pos keys).ordinalIndexWrite = state.ordinalIndexWrite := by
  induction keys generalizing state with
  | nil => exact ⟨rfl, rfl, rfl⟩
  | cons key rest ih =>
    obtain ⟨filepos, recorded, ordinal⟩ := ih (state.updateLastMsgSqn key pos)
    obtain ⟨filepos', recorded', ordinal'⟩ := updateLastMsgSqn_frame state key pos
    exact ⟨filepos.trans filepos', recorded.trans recorded', ordinal.trans ordinal'⟩

variable {updates : List (Key × Nat)}

theorem updateKeys_collected (collected : Collected before updates state) (pos : Nat)
    (keys : List Key) :
    Collected before (updates ++ keys.map fun key => (key, pos)) (state.updateKeys pos keys) := by
  induction keys generalizing state updates with
  | nil =>
    rw [map_nil, append_nil]
    exact collected
  | cons key rest ih =>
    have later := ih (collected.update key pos)
    rw [append_assoc] at later
    exact later

theorem reindex_collected (collected : Collected before updates state) (filepos recorded : Nat)
    (last : List (UInt32 × UInt64)) :
    Collected before updates { state with
      curMsgdataFilepos := filepos
      recordedMsgCnt := recorded
      lastMsgSqnMap := last } :=
  { collected with }

theorem Scanned.indexMessage (scanned : setup.Scanned before records state)
    (record : MsgRecord setup.sizes) (message : AmiMessage) :
    setup.Scanned before (records ++ [record])
      (setup.indexMessage (delivered setup.tag record message) state) := by
  have pos := scanned.filepos
  have one : setup.dataOf [record] = setup.recordData record := append_nil _
  rw [TrackSetup.indexMessage]
  constructor
  case filepos =>
    rw [(updateKeys_frame _ _ _).1, recordLength_delivered, pos, dataOf_append,
      length_append, one]
  case recorded =>
    rw [(updateKeys_frame _ _ _).2.1, scanned.recorded, length_append]
    rfl
  case ordinal =>
    rw [BufferWrite.close_write, (updateKeys_frame _ _ _).2.2, scanned.ordinal, pos,
      ordinalPositions, ordinalPositions, positionsWhere_append, Nat.zero_add]
    rfl
  case collected =>
    rw [messageKeys_delivered, updatesFrom_append, Nat.zero_add, pos, updatesFrom, updatesFrom,
      append_nil]
    have later := fun filepos recorded last => updateKeys_collected
      (reindex_collected scanned.collected filepos recorded last) (setup.dataOf records).length
      (setup.keysOf record)
    exact ⟨(later _ _ _).counted, (later _ _ _).counts, (later _ _ _).buffered,
      (later _ _ _).opened⟩

end Scanning

/-- A data file of valid records, with some bytes behind them that no record begins. -/
structure TornData (records : List (MsgRecord setup.sizes)) (directory : Directory) : Prop where
  valid : ∀ record ∈ records, setup.Valid record
  msgdata : ∃ header tail, header.length = setup.headerLength ∧
    directory.msgdata = header ++ (setup.dataOf records ++ tail) ∧ setup.NoRecord tail
  /-- The first entry of the ordinal index is that of the first record. -/
  ordinal : directory.index.entries.head? = some 0
  names : (directory.keyIndex.map Prod.fst).Nodup

section Directories

variable {setup} {records : List (MsgRecord setup.sizes)} {directory : Directory}
  {state : Rebuild}

theorem length_le_dataOf (records : List (MsgRecord setup.sizes)) :
    records.length ≤ (setup.dataOf records).length := by
  induction records with
  | nil => exact Nat.zero_le _
  | cons record rest ih =>
    have positive := length_recordData_pos record
    rw [length_cons, dataOf_cons, length_append]
    omega

variable {key : Key} {files : List (Key × IndexFile)}

variable {count : Nat}

section

variable (scanned : setup.Scanned directory.keyIndex records state)
include scanned

end

end Directories

def rebootDirectory (records : List (MsgRecord smallSetup.sizes)) : Directory where
  msgdata := [7, 7] ++ (smallSetup.dataOf records ++ [1, 0, 0])
  index := .ofEntries [0]
  keyIndex := [(⟨.stream, 4⟩, .ofEntries [0, 5])]

theorem rebootDirectory_tornData {records : List (MsgRecord smallSetup.sizes)}
    (ok : ∀ record ∈ records, smallSetup.Valid record) :
    smallSetup.TornData records (rebootDirectory records) := by
  refine ⟨ok, ⟨[7, 7], [1, 0, 0], rfl, rfl, ?_⟩, rfl, by simp [rebootDirectory]⟩
  nofun

end TrackSetup

end AdkAaf.Recorder
