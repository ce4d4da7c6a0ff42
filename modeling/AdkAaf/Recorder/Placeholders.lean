import AdkAaf.Recorder.Recovery.Numbering

/-! The placeholders that a `TxMessageTrack` records where a number is missing among the
messages it is offered. Each `RecordOneMessage` succeeds. -/

set_option autoImplicit false

namespace AdkAaf.Recorder

open List

def kPlaceHolder : UInt32 := 2

section Records

variable {sizes : Sizes}

def newPlaceHolderMsgRecord (prototype : MsgRecord sizes) : MsgRecord sizes :=
  { prototype with
    appDataLen := 0
    exMsgHeader := { prototype.exMsgHeader with msgProp := kPlaceHolder }
    appData := []
    dataLength := List.length_nil }

def lastTopicSqn (messages : List (MsgRecord sizes)) : Nat :=
  messages.foldr (fun message last => max message.topicSqn.toNat last) 0

/-- The record is the message, apart from `ex_msg_header`. -/
def Stores (record message : MsgRecord sizes) : Prop :=
  ∃ exMsgHeader, record = { message with exMsgHeader }

def IsPlaceHolder (record : MsgRecord sizes) : Prop :=
  record.appDataLen = 0 ∧ record.exMsgHeader.msgProp &&& kPlaceHolder ≠ 0

def offered (messages : List (MsgRecord sizes)) (sqn : Nat) : Option (MsgRecord sizes) :=
  messages.find? fun message => message.topicSqn.toNat = sqn

/-- One record for each number up to the last: the message that was first offered with the
number, or a placeholder. -/
def HolesMarked (messages records : List (MsgRecord sizes)) : Prop :=
  records.length = lastTopicSqn messages ∧
    ∀ index record, records[index]? = some record →
      match offered messages (index + 1) with
      | some message => Stores record message
      | none => IsPlaceHolder record

/-- No message is more than one above the greatest number before it. -/
def NoHole : UInt64 → List (MsgRecord sizes) → Prop
  | _, [] => True
  | last, message :: rest =>
    message.topicSqn ≤ last + 1 ∧
      NoHole (if message.topicSqn ≤ last then last else message.topicSqn) rest

end Records

/-- A running track, with `ignore_lost_msg_` and `last_msg_sqn_`. -/
structure TxMessageTrack (setup : TrackSetup) where
  running : setup.Running := {}
  ignoreLostMsg : Bool
  lastMsgSqn : UInt64 := 0
  filteredMsgCnt : Nat := 0

inductive FilterResult where
  | success
  | canBeIgnored
  | failure

namespace TxMessageTrack

variable {setup : TrackSetup}

def recordOneMessage (track : TxMessageTrack setup) (record : MsgRecord setup.sizes) :
    TxMessageTrack setup :=
  { track with running := setup.recordOneMessage track.running record }

def fillHole (record : MsgRecord setup.sizes) (track : TxMessageTrack setup) :
    TxMessageTrack setup :=
  if track.lastMsgSqn + 1 < record.topicSqn then
    fillHole record { track.recordOneMessage (newPlaceHolderMsgRecord record) with
      lastMsgSqn := track.lastMsgSqn + 1 }
  else
    track
termination_by record.topicSqn.toNat - (track.lastMsgSqn + 1).toNat
decreasing_by
  next hole =>
    rw [UInt64.lt_iff_toNat_lt] at hole
    have bound := record.topicSqn.toNat_lt
    rw [UInt64.toNat_add (track.lastMsgSqn + 1), Nat.mod_eq_of_lt]
    · simp only [UInt64.toNat_one]
      omega
    · simp only [UInt64.toNat_one]
      omega

def filterMessage (record : MsgRecord setup.sizes) (track : TxMessageTrack setup) :
    FilterResult × TxMessageTrack setup :=
  if track.lastMsgSqn + 1 < record.topicSqn ∧ track.ignoreLostMsg = false then
    (.failure, track)
  else
    let track := track.fillHole record
    if record.topicSqn ≤ track.lastMsgSqn then
      (.canBeIgnored, { track with filteredMsgCnt := track.filteredMsgCnt + 1 })
    else
      (.success, { track with lastMsgSqn := record.topicSqn })

def fetchThenRecordOneMessage (track : TxMessageTrack setup) (record : MsgRecord setup.sizes) :
    TxMessageTrack setup :=
  match track.filterMessage record with
  | (.success, track) => track.recordOneMessage record
  | (_, track) => track

def records (track : TxMessageTrack setup) : List (MsgRecord setup.sizes) := track.running.records

def fetchAll (track : TxMessageTrack setup) (messages : List (MsgRecord setup.sizes)) :
    TxMessageTrack setup :=
  messages.foldl fetchThenRecordOneMessage track

theorem prefix_fillHole (record : MsgRecord setup.sizes) (track : TxMessageTrack setup) :
    track.records <+: (track.fillHole record).records := by
  fun_induction fillHole record track with
  | case1 track hole ih => exact (prefix_append _ _).trans ih
  | case2 track noHole => exact prefix_rfl

theorem fetch_cases (track : TxMessageTrack setup) (message : MsgRecord setup.sizes) :
    (track.ignoreLostMsg = false ∧ track.fetchThenRecordOneMessage message = track) ∨
    (message.topicSqn ≤ (track.fillHole message).lastMsgSqn ∧
      track.fetchThenRecordOneMessage message = { track.fillHole message with
          filteredMsgCnt := (track.fillHole message).filteredMsgCnt + 1 }) ∨
    ((track.fillHole message).lastMsgSqn < message.topicSqn ∧
      track.fetchThenRecordOneMessage message =
        { track.fillHole message with lastMsgSqn := message.topicSqn }.recordOneMessage message) := by
  rw [fetchThenRecordOneMessage, filterMessage]
  by_cases refused : track.lastMsgSqn + 1 < message.topicSqn ∧ track.ignoreLostMsg = false
  · rw [if_pos refused]
    exact .inl ⟨refused.2, rfl⟩
  · rw [if_neg refused]
    dsimp only
    by_cases filtered : message.topicSqn ≤ (track.fillHole message).lastMsgSqn
    · rw [if_pos filtered]
      exact .inr (.inl ⟨filtered, rfl⟩)
    · rw [if_neg filtered]
      exact .inr (.inr ⟨UInt64.not_le.mp filtered, rfl⟩)

theorem prefix_fetch (track : TxMessageTrack setup) (message : MsgRecord setup.sizes) :
    track.records <+: (track.fetchThenRecordOneMessage message).records := by
  have filled := prefix_fillHole message track
  obtain ⟨-, same⟩ | ⟨-, same⟩ | ⟨-, same⟩ := fetch_cases track message
  · simp [same, prefix_rfl]
  · rw [same]
    exact filled
  · rw [same]
    exact filled.trans (prefix_append _ _)

theorem prefix_fetchAll (track : TxMessageTrack setup) (messages : List (MsgRecord setup.sizes)) :
    track.records <+: (track.fetchAll messages).records := by
  induction messages generalizing track with
  | nil => exact prefix_rfl
  | cons message rest ih => exact (prefix_fetch track message).trans (ih _)

theorem msgProp_numberHeader (running : setup.Running) (record : MsgRecord setup.sizes) :
    (setup.numberHeader running record).msgProp = 0 := by
  rw [TrackSetup.numberHeader]
  split <;> rfl

variable {track : TxMessageTrack setup}

variable {message : MsgRecord setup.sizes}

theorem exists_unmarked_of_hole (ignores : track.ignoreLostMsg = true)
    (hole : track.lastMsgSqn + 1 < message.topicSqn) :
    ∃ record, (track.fetchThenRecordOneMessage message).records[track.records.length]? =
        some record ∧ record.exMsgHeader.msgProp = 0 ∧ record.topicSqn = message.topicSqn := by
  have first := prefix_fillHole message
    { track.recordOneMessage (newPlaceHolderMsgRecord message) with
      lastMsgSqn := track.lastMsgSqn + 1 }
  have filled : (track.fillHole message).records <+:
      (track.fetchThenRecordOneMessage message).records := by
    obtain ⟨refused, -⟩ | ⟨-, same⟩ | ⟨-, same⟩ := fetch_cases track message
    · rw [ignores] at refused
      cases refused
    · rw [same]
      exact prefix_rfl
    · rw [same]
      exact prefix_append _ _
  rw [fillHole, if_pos hole] at filled
  obtain ⟨rest, same⟩ := first.trans filled
  refine ⟨{ newPlaceHolderMsgRecord message with exMsgHeader := _ }, ?_,
    msgProp_numberHeader track.running (newPlaceHolderMsgRecord message), rfl⟩
  rw [← same]
  exact (List.getElem?_append_left (by simp [records, recordOneMessage,
    TrackSetup.recordOneMessage])).trans List.getElem?_concat_length

theorem lastTopicSqn_append (seen : List (MsgRecord setup.sizes))
    (message : MsgRecord setup.sizes) :
    lastTopicSqn (seen ++ [message]) = max (lastTopicSqn seen) message.topicSqn.toNat := by
  induction seen with
  | nil => exact Nat.max_comm _ _
  | cons first rest ih => exact (congrArg (max _) ih).trans (Nat.max_assoc _ _ _).symm

variable {messages : List (MsgRecord setup.sizes)}

theorem le_lastTopicSqn (mem : message ∈ messages) :
    message.topicSqn.toNat ≤ lastTopicSqn messages := by
  induction messages with
  | nil => cases mem
  | cons first rest ih =>
    cases mem with
    | head => exact Nat.le_max_left _ _
    | tail _ later => exact Nat.le_trans (ih later) (Nat.le_max_right _ _)

structure Complete (seen : List (MsgRecord setup.sizes)) (track : TxMessageTrack setup) :
    Prop where
  ignores : track.ignoreLostMsg = true
  last : track.lastMsgSqn.toNat = lastTopicSqn seen
  count : track.records.length = track.lastMsgSqn.toNat
  stored : ∀ index record, track.records[index]? = some record →
    ∃ message, offered seen (index + 1) = some message ∧ Stores record message

variable {seen : List (MsgRecord setup.sizes)}

theorem complete_fetch (complete : Complete seen track)
    (next : message.topicSqn ≤ track.lastMsgSqn + 1) :
    Complete (seen ++ [message]) (track.fetchThenRecordOneMessage message) ∧
      (track.fetchThenRecordOneMessage message).lastMsgSqn =
        if message.topicSqn ≤ track.lastMsgSqn then track.lastMsgSqn else message.topicSqn := by
  have unfilled : track.fillHole message = track := by
    rw [fillHole, if_neg (UInt64.not_lt.mpr next)]
  have kept : ∀ i record, track.records[i]? = some record →
      ∃ other, offered (seen ++ [message]) (i + 1) = some other ∧ Stores record other := by
    intro i record at_
    obtain ⟨other, found, stores⟩ := complete.stored i record at_
    exact ⟨other, by rw [offered, find?_append, ← offered, found, Option.some_or], stores⟩
  have last := lastTopicSqn_append seen message
  rw [← complete.last] at last
  obtain ⟨refused, -⟩ | ⟨filtered, same⟩ | ⟨new, same⟩ := fetch_cases track message
  · rw [complete.ignores] at refused
    cases refused
  · rw [unfilled] at filtered same
    rw [same]
    refine ⟨⟨complete.ignores, ?_, complete.count, kept⟩, (if_pos filtered).symm⟩
    rw [last, Nat.max_eq_left (UInt64.le_iff_toNat_le.mp filtered)]
  · rw [unfilled] at new same
    have successor : message.topicSqn.toNat = track.lastMsgSqn.toNat + 1 := by
      rw [UInt64.le_iff_toNat_le, UInt64.toNat_add, UInt64.toNat_one] at next
      have above := UInt64.lt_iff_toNat_lt.mp new
      have wraps := Nat.mod_le (track.lastMsgSqn.toNat + 1) (2 ^ 64)
      omega
    have first : offered seen (track.lastMsgSqn.toNat + 1) = none := by
      rw [offered, find?_eq_none]
      intro other mem equal
      have le := complete.last ▸ le_lastTopicSqn mem
      rw [of_decide_eq_true equal] at le
      omega
    rw [same]
    refine ⟨⟨complete.ignores, ?_, ?_, ?_⟩, (if_neg (UInt64.not_le.mpr new)).symm⟩
    · rw [last, successor, Nat.max_eq_right (Nat.le_succ _)]
      exact successor
    · exact length_append.trans ((congrArg (· + 1) complete.count).trans successor.symm)
    · intro i record at_
      change (track.records ++ _)[i]? = some record at at_
      by_cases old : i < track.records.length
      · rw [List.getElem?_append_left old] at at_
        exact kept i record at_
      · rw [List.getElem?_append_right (Nat.le_of_not_lt old), List.getElem?_singleton] at at_
        split at at_ <;> cases at_
        refine ⟨message, ?_, _, rfl⟩
        have place : i = track.lastMsgSqn.toNat := by
          rw [← complete.count]
          omega
        rw [place, offered, find?_append, ← offered, first, Option.none_or,
          find?_singleton, if_pos (decide_eq_true successor)]

theorem complete_fetchAll (complete : Complete seen track)
    (noHole : NoHole track.lastMsgSqn messages) :
    Complete (seen ++ messages) (track.fetchAll messages) := by
  induction messages generalizing seen track with
  | nil => exact (append_nil seen).symm ▸ complete
  | cons message rest ih =>
    obtain ⟨after, last⟩ := complete_fetch complete noHole.1
    have more := ih after (last ▸ noHole.2)
    rwa [append_assoc] at more

theorem exists_unmarked_of_not_noHole (complete : Complete seen track)
    (hole : ¬ NoHole track.lastMsgSqn messages) : ∃ (i : Nat) (record : MsgRecord setup.sizes),
      (track.fetchAll messages).records[i]? = some record ∧
      record.exMsgHeader.msgProp = 0 ∧ record.topicSqn.toNat ≠ i + 1 := by
  induction messages generalizing seen track with
  | nil => exact absurd trivial hole
  | cons message rest ih =>
    by_cases next : message.topicSqn ≤ track.lastMsgSqn + 1
    · obtain ⟨after, last⟩ := complete_fetch complete next
      exact ih after fun noHole => hole ⟨next, last ▸ noHole⟩
    · have above := UInt64.not_le.mp next
      obtain ⟨record, at_, cleared, sqn⟩ := exists_unmarked_of_hole complete.ignores above
      obtain ⟨_, same⟩ := prefix_fetchAll (track.fetchThenRecordOneMessage message) rest
      refine ⟨track.records.length, record, ?_, cleared, ?_⟩
      · refine Eq.trans ?_ at_
        rw [fetchAll, List.foldl_cons, ← fetchAll, ← same]
        exact List.getElem?_append_left (List.getElem?_eq_some_iff.mp at_).1
      · rw [sqn, complete.count]
        rw [UInt64.lt_iff_toNat_lt, UInt64.toNat_add, UInt64.toNat_one] at above
        have bound := message.topicSqn.toNat_lt
        omega

/-- The placeholders lose their flag, so that the track is as it should be exactly when no
placeholder is needed. -/
theorem holesMarked_iff_noHole (messages : List (MsgRecord setup.sizes)) :
    HolesMarked messages (fetchAll { ignoreLostMsg := true } messages).records ↔
      NoHole 0 messages := by
  have complete : Complete [] ({ ignoreLostMsg := true } : TxMessageTrack setup) :=
    ⟨rfl, rfl, rfl, fun _ _ at_ => by cases at_⟩
  constructor
  · intro marked
    by_contra hole
    obtain ⟨index, record, at_, cleared, other⟩ := exists_unmarked_of_not_noHole complete hole
    have stored := marked.2 index record at_
    split at stored
    next message found =>
      obtain ⟨exMsgHeader, same⟩ := stored
      rw [same] at other
      have number := find?_some found
      exact other (of_decide_eq_true number)
    next =>
      have flag := stored.2
      rw [cleared] at flag
      exact flag (UInt32.zero_and)
  · intro noHole
    have final := complete_fetchAll complete noHole
    refine ⟨final.count.trans final.last, ?_⟩
    intro index record at_
    obtain ⟨message, found, stores⟩ := final.stored index record at_
    rw [nil_append] at found
    rw [found]
    exact stores

def txSetup : TrackSetup := { TrackSetup.smallSetup with tag := .tx }

theorem unmarked_below_fourth :
    ¬ HolesMarked [smallRecord 2]
      (({ ignoreLostMsg := true } : TxMessageTrack txSetup).fetchAll [smallRecord 2]).records := by
  intro marked
  obtain ⟨record, at_, cleared, -⟩ := @exists_unmarked_of_hole txSetup
    { ignoreLostMsg := true } (smallRecord 2) rfl (by decide)
  have placeHolder : IsPlaceHolder record := marked.2 0 record at_
  rw [IsPlaceHolder, cleared] at placeHolder
  exact placeHolder.2 UInt32.zero_and

end TxMessageTrack

end AdkAaf.Recorder
