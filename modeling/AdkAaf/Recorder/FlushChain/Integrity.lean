import AdkAaf.Lib.Transition
import AdkAaf.Recorder.FlushChain.Recording

/-! What the files of a track say, and which messages are freed, in every run of its job. -/

set_option autoImplicit false

namespace AdkAaf.Recorder.FlushChain

open Lib Lib.WriteOrder Lib.CrashTriple Lib.CrashTriple.Program MessageTrack OrdinalIndex List

variable {setup : Setup}

def MessageTrack.opened (running : setup.toTrackSetup.Running) (keys : List Key) :
    MessageTrack setup where
  files file := { disk := contentOf setup running.records file }
  keys
  curMsgdataFilepos := (setup.dataOf running.records).length
  running

/-- What a run keeps: the job is killed at any time, takes messages until a call fails, and
syncs afterwards. -/
structure Kept (careful : Prop) (job : Job setup) : Prop where
  safe : job.track.Safe careful
  left : job.killed = false → Left careful job.track
  ready : job.killed = false → job.stopped = false → Ready careful job.track

theorem opened_ready {careful : Prop} {running : setup.toTrackSetup.Running} {keys : List Key}
    (tied : ∀ key, key ∉ keys → setup.keyPositions key running.records = []) :
    Ready careful (MessageTrack.opened running keys : MessageTrack setup) := by
  have stream : (MessageTrack.opened running keys : MessageTrack setup).stream =
      contentOf setup running.records := funext fun file => append_nil _
  have complete : Ordered (contentOf setup) FileId.below running.records
      (contentOf setup running.records) :=
    fun file => Covered.of_complete prefix_rfl fun _ _ => prefix_rfl
  have sound : (MessageTrack.opened running keys : MessageTrack setup).Sound careful [] := by
    constructor
    case toSafe =>
      refine ⟨complete, ?_⟩
      nofun
    case live =>
      nofun
    case accounted => exact fun file => Nat.le_refl 0
    case idle => exact fun file _ => rfl
    case untied =>
      intro key missing
      change FileBuffer.mk (entries (setup.keyPositions key running.records)) [] 0 = {}
      rw [tied key missing]
      rfl
    case stream => exact stream ▸ complete
    case waiting =>
      nofun
  exact ⟨Left.of_sound sound, fun _ => ⟨sound, stream, rfl⟩⟩

variable {operation : Operation setup}

theorem step_cases {job next : Job setup} {answers : List Answer}
    (went : step job (operation, answers) = some next) :
    job.killed = false ∧ (job.stopped = false ∨ operation = .syncToFile) ∧
      ((∃ success track rest, operation.call job.track answers = .done success track rest ∧
          next = { job with track, stopped := job.stopped || !success }) ∨
        ∃ track, operation.call job.track answers = .killed track ∧
          next = { job with track, killed := true }) := by
  rw [step] at went
  split at went
  next => cases went
  next alive =>
    split at went
    next => cases went
    next enabled =>
      refine ⟨Bool.eq_false_iff.mpr alive, ?_, ?_⟩
      · cases operation with
        | syncToFile => exact .inr rfl
        | recordOneMessage record | filterMessage =>
          left
          cases stopped : job.stopped with
          | false => rfl
          | true => exact absurd (by rw [stopped]; rfl) enabled
      · split at went
        next success track rest ran =>
          cases went
          exact .inl ⟨success, track, rest, ran, rfl⟩
        next track ran =>
          cases went
          exact .inr ⟨track, ran, rfl⟩

/-- A call that frees messages to make room is not told to exit. -/
def Unhurried (job : Job setup) (answers : List Answer) : Prop :=
  TrackSetup.kMsgToFreeQMaxLength ≤ job.track.msgsToFree.length → .toExit true ∉ answers

instance (job : Job setup) (answers : List Answer) : Decidable (Unhurried job answers) :=
  inferInstanceAs (Decidable
    (TrackSetup.kMsgToFreeQMaxLength ≤ job.track.msgsToFree.length → .toExit true ∉ answers))

instance (track : MessageTrack setup) : Decidable (Roomy track) :=
  inferInstanceAs (Decidable
    (valueSize ≤ setup.bufLen .ordinal - (track.files .ordinal).filled))

/-- A call before which no message can be lost: a message finds room in the buffer of the
ordinal index, and messages are freed by a `SyncToFile` only when all of them were handed to
the buffers, and it is not told to exit. -/
def Considerate (job : Job setup) : Action setup → Prop
  | (.recordOneMessage _, answers) => Roomy job.track ∧ Unhurried job answers
  | (.filterMessage, answers) => Unhurried job answers
  | (.syncToFile, answers) =>
    .toExit true ∉ answers ∧ ∀ stuff ∈ job.track.msgsToFree, Written job.track.stream stuff

instance (job : Job setup) (action : Action setup) : Decidable (Considerate job action) :=
  match action with
  | (.recordOneMessage _, answers) =>
    inferInstanceAs (Decidable (Roomy job.track ∧ Unhurried job answers))
  | (.filterMessage, answers) => inferInstanceAs (Decidable (Unhurried job answers))
  | (.syncToFile, answers) =>
    inferInstanceAs (Decidable (.toExit true ∉ answers ∧
      ∀ stuff ∈ job.track.msgsToFree, Written job.track.stream stuff))

variable {careful : Prop} {job next : Job setup} {answers : List Answer}

theorem Kept.of_keeps {post : Bool → MessageTrack setup → Prop}
    (keeps : Keeps (· ∈ answers) (Safe careful) operation.call job.track post)
    (left : ∀ success track, post success track → Left careful track)
    (ready : ∀ track, job.stopped = false → post true track → Ready careful track)
    (went : step job (operation, answers) = some next) : Kept careful next := by
  have ran := keeps answers fun _ => id
  obtain ⟨alive, _, done | killed⟩ := step_cases went
  · obtain ⟨success, track, rest, ended, same⟩ := done
    rw [ended] at ran
    subst same
    refine ⟨(left success track ran.1).safe, fun _ => left success track ran.1, ?_⟩
    intro _ running
    obtain ⟨going, succeeded⟩ := Bool.or_eq_false_iff.mp running
    cases success with
    | true => exact ready track going ran.1
    | false => cases succeeded
  · obtain ⟨track, ended, same⟩ := killed
    rw [ended] at ran
    subst same
    refine ⟨ran, ?_, ?_⟩
    all_goals nofun

theorem step_kept (fits : valueSize < setup.bufLen .ordinal)
    (kept : Kept careful job) (live : job.track.Live)
    (considerate : careful → Considerate job (operation, answers))
    (went : step job (operation, answers) = some next) : Kept careful next := by
  obtain ⟨alive, enabled, _⟩ := step_cases went
  cases operation with
  | recordOneMessage record =>
    have going := enabled.resolve_right fun impossible => by cases impossible
    obtain ⟨sound, exact⟩ := (kept.ready alive going).whole live
    have keeps : Keeps (· ∈ answers) (Safe careful) (recordOneMessage record) job.track
        (Ends (Ready careful) (Left careful)) :=
      recordOneMessage_keeps sound exact fits (fun wanted => (considerate wanted).1)
        fun wanted => (considerate wanted).2
    refine Kept.of_keeps keeps ?_ (fun _ _ => id) went
    intro success track ended
    cases success with
    | true => exact ended.toLeft
    | false => exact ended
  | filterMessage =>
    have going := enabled.resolve_right fun impossible => by cases impossible
    obtain ⟨sound, exact⟩ := (kept.ready alive going).whole live
    have keeps : Keeps (· ∈ answers) (Safe careful) filterMessage job.track
        (Ends (Holding careful .filtered job.track) (Left careful)) :=
      pushIntoRecordingMsgQ_keeps sound exact considerate
    have whole : ∀ track, Holding careful .filtered job.track track → track.Sound careful [] := by
      intro track holding
      refine settle holding.sound fun _ stuff mem => ?_
      rw [mem_singleton.mp mem]
      trivial
    refine Kept.of_keeps keeps ?_ ?_ went
    · intro success track ended
      cases success with
      | true => exact Left.of_sound (whole track ended)
      | false => exact ended
    · intro track _ holding
      refine ⟨Left.of_sound (whole track holding), fun _ => ⟨whole track holding, ?_, ?_⟩⟩
      · rw [holding.stream, holding.running]
      · rw [holding.filepos, holding.running]
  | syncToFile =>
    obtain ⟨inHand, sound⟩ := (kept.left alive).sound live
    have handed : job.track.Sound careful [] := by
      refine { sound with waiting := ?_ }
      exact fun wanted stuff mem => .inr ((considerate wanted).2 stuff mem)
    have keeps : Keeps (· ∈ answers) (Safe careful) syncToFile job.track
        (Syncing careful [] job.track) :=
      syncToFile_keeps handed (fun _ => rfl) fun wanted => (considerate wanted).1
    have left : ∀ success track, Syncing careful [] job.track success track →
        Left careful track := by
      intro success track synced
      exact ⟨synced.safe, synced.live, fun live => ⟨[], synced.sound live⟩⟩
    refine Kept.of_keeps keeps left ?_ went
    intro track going synced
    have exact := ((kept.ready alive going).whole live).2
    refine ⟨left true track synced, fun live => ⟨synced.sound live, ?_, ?_⟩⟩
    · rw [synced.stream live, exact.stream, synced.running]
    · rw [synced.curMsgdataFilepos, exact.filepos, synced.running]

variable {positions : List Nat} {filepos : Nat}

theorem hasEntry_entries {sqn : Nat} (entry : positions[sqn]? = some filepos) :
    HasEntry (entries positions) sqn filepos := by
  induction positions generalizing sqn with
  | nil => cases entry
  | cons first rest ih =>
    have split : entries (first :: rest) = entryBytes first ++ entries rest := rfl
    cases sqn with
    | zero =>
      cases entry
      exact prefix_append _ _
    | succ sqn =>
      have behind : (entries (first :: rest)).drop ((sqn + 1) * valueSize) =
          (entries rest).drop (sqn * valueSize) := by
        rw [split, Nat.succ_mul, Nat.add_comm, ← drop_drop, ← length_entryBytes first,
          drop_left]
      rw [HasEntry, behind]
      exact ih entry

theorem entry_of_prefix {bytes : List UInt8} (part : bytes <+: entries positions) {sqn : Nat}
    (complete : (sqn + 1) * valueSize ≤ bytes.length) :
    ∃ filepos ∈ positions, HasEntry bytes sqn filepos := by
  have inside : sqn < positions.length := by
    have length := part.length_le
    rw [length_entries] at length
    exact Nat.lt_of_succ_le (Nat.le_of_mul_le_mul_right (complete.trans length)
      (by decide : 0 < valueSize))
  refine ⟨positions[sqn], getElem_mem inside, ?_⟩
  have entry := hasEntry_entries (getElem?_eq_getElem inside)
  refine prefix_of_prefix_length_le entry (prefix_drop part _) ?_
  rw [length_entryBytes, length_drop]
  exact Nat.le_sub_of_add_le (by rwa [Nat.succ_mul, Nat.add_comm] at complete)

theorem record_of_position {test : MsgRecord setup.sizes → Bool} {base : Nat}
    {records : List (MsgRecord setup.sizes)}
    (mem : filepos ∈ setup.positionsWhere test base records) :
    ∃ before record after, records = before ++ record :: after ∧ test record = true ∧
      filepos = base + (setup.dataOf before).length := by
  induction records generalizing base with
  | nil => cases mem
  | cons record rest ih =>
    have later : filepos ∈ setup.positionsWhere test (base + (setup.recordData record).length)
        rest → ∃ before found after, record :: rest = before ++ found :: after ∧
          test found = true ∧ filepos = base + (setup.dataOf before).length := by
      intro inRest
      obtain ⟨before, found, after, split, passes, same⟩ := ih inRest
      refine ⟨record :: before, found, after, by rw [split]; rfl, passes, ?_⟩
      rw [same, TrackSetup.dataOf_cons, length_append, Nat.add_assoc]
    rw [TrackSetup.positionsWhere] at mem
    split at mem
    next passes =>
      cases mem_cons.mp mem with
      | inl here => exact ⟨[], record, rest, rfl, passes, here⟩
      | inr behind => exact later behind
    next => exact later mem

def OnDisk (track : MessageTrack setup) (before : List (MsgRecord setup.sizes))
    (record : MsgRecord setup.sizes) : Prop :=
  setup.recordData record <+: (track.disk .data).drop (setup.dataOf before).length

/-- The referential integrity of the files: every complete entry of an index is the position
of a message in the data file, and a message in the ordinal index is in all others. -/
structure Integral (track : MessageTrack setup) : Prop where
  ordinal : ∀ sqn, (sqn + 1) * valueSize ≤ (track.disk .ordinal).length →
    ∃ before record after, track.running.records = before ++ record :: after ∧
      HasEntry (track.disk .ordinal) sqn (setup.dataOf before).length ∧
      OnDisk track before record ∧ ∀ key ∈ setup.keysOf record,
        ∃ keySqn, HasEntry (track.disk (.key key)) keySqn (setup.dataOf before).length
  keyIndex : ∀ key sqn, (sqn + 1) * valueSize ≤ (track.disk (.key key)).length →
    ∃ before record after, track.running.records = before ++ record :: after ∧
      HasEntry (track.disk (.key key)) sqn (setup.dataOf before).length ∧
      key ∈ setup.keysOf record ∧ OnDisk track before record

variable {track : MessageTrack setup}

theorem onDisk_of_flushed {flushed before after : List (MsgRecord setup.sizes)}
    {record : MsgRecord setup.sizes} (data : contentOf setup flushed .data <+: track.disk .data)
    (split : flushed = before ++ record :: after) : OnDisk track before record := by
  have whole : (contentOf setup flushed .data).drop (setup.dataOf before).length =
      setup.recordData record ++ setup.dataOf after := by
    rw [contentOf, split, TrackSetup.dataOf_append, drop_left, TrackSetup.dataOf_cons]
  have part := prefix_drop data (setup.dataOf before).length
  rw [whole] at part
  exact (prefix_append _ _).trans part

theorem integral_of_ordered
    (ordered : Ordered (contentOf setup) FileId.below track.running.records track.disk) :
    Integral track := by
  constructor
  case ordinal =>
    intro sqn complete
    obtain ⟨flushed, ⟨later, earlier⟩, here, lower⟩ := ordered .ordinal
    obtain ⟨filepos, mem, entry⟩ := entry_of_prefix here complete
    obtain ⟨before, record, after, split, _, pos⟩ := record_of_position mem
    rw [Nat.zero_add] at pos
    subst pos
    refine ⟨before, record, after ++ later, ?_, entry,
      onDisk_of_flushed (lower .data (by decide : 0 < 2)) split, ?_⟩
    · rw [← earlier, split, append_assoc]
      rfl
    · intro key carried
      have listed : (setup.dataOf before).length ∈ setup.keyPositions key flushed := by
        rw [split, TrackSetup.keyPositions, TrackSetup.positionsWhere_append,
          TrackSetup.positionsWhere, if_pos (decide_eq_true carried), Nat.zero_add]
        exact mem_append_right _ mem_cons_self
      obtain ⟨keySqn, found⟩ := getElem?_of_mem listed
      refine ⟨keySqn, IsPrefix.trans (hasEntry_entries found) ?_⟩
      exact prefix_drop (lower (.key key) (by decide : 1 < 2)) _
  case keyIndex =>
    intro key sqn complete
    obtain ⟨flushed, ⟨later, earlier⟩, here, lower⟩ := ordered (.key key)
    obtain ⟨filepos, mem, entry⟩ := entry_of_prefix here complete
    obtain ⟨before, record, after, split, carried, pos⟩ := record_of_position mem
    rw [Nat.zero_add] at pos
    subst pos
    refine ⟨before, record, after ++ later, ?_, entry, of_decide_eq_true carried,
      onDisk_of_flushed (lower .data (by decide : 0 < 1)) split⟩
    rw [← earlier, split, append_assoc]
    rfl

def smallBuffers (ordinalEntries : Nat) : Setup where
  toTrackSetup := TrackSetup.smallSetup
  bufLen
    | .data => 4096
    | .key _ => 128
    | .ordinal => ordinalEntries * valueSize
  reuse bytes := replicate bytes.length 0
  sameLength := fun _ => length_replicate

def firstMessage (ordinalEntries : Nat) : MsgRecord (smallBuffers ordinalEntries).sizes :=
  smallRecord 9

def recordFirst (ordinalEntries : Nat) : Action (smallBuffers ordinalEntries) :=
  (.recordOneMessage (firstMessage ordinalEntries),
    [.opened true, .opened true, .opened true, .preallocated true])

def fillingRun (answers : List Answer) : List (Action (smallBuffers 2)) :=
  [recordFirst 2, (.recordOneMessage (firstMessage 2), answers)]

def exitingRun : List (Action (smallBuffers 128)) :=
  [recordFirst 128, (.syncToFile, [.wrote 0, .wrote 0, .toExit true])]

def reusingRun : List (Action (smallBuffers 128)) :=
  exitingRun ++ [(.syncToFile, replicate 5 (.wrote 4096))]

def Job.opened (running : setup.toTrackSetup.Running) (keys : List Key) : Job setup where
  track := .opened running keys

section Runs

variable {running : setup.toTrackSetup.Running} {keys : List Key} {actions : List (Action setup)}
  {final : Job setup}

theorem opened_kept (tied : ∀ key, key ∉ keys → setup.keyPositions key running.records = []) :
    Kept careful (Job.opened running keys : Job setup) :=
  have ready := opened_ready tied
  ⟨ready.safe, fun _ => ready.toLeft, fun _ _ => ready⟩

/-- As long as no call is made on a track whose buffers point into released messages, the
files keep their integrity, wherever the recorder is killed. -/
theorem integral_of_live (fits : valueSize < setup.bufLen .ordinal)
    (tied : ∀ key, key ∉ keys → setup.keyPositions key running.records = [])
    (guarded : Guarded step (fun job _ => job.track.Live) (Job.opened running keys) actions)
    (ran : execute step (Job.opened running keys) actions = some final) : Integral final.track := by
  have kept : Kept False final := invariant_of_guarded (fun kept live stepped =>
      step_kept fits kept live (fun impossible => absurd impossible id) stepped)
      (opened_kept tied) guarded ran
  exact integral_of_ordered kept.safe.disk

theorem integral_of_live_killed : ∃ final, execute step (Job.opened {} [])
        (fillingRun [.wrote 4096, .wrote 20, .wrote 3]) = some final ∧
      (final.killed = true ∧ final.track.released.length = 0) ∧ Integral final.track := by
  obtain ⟨final, ran, killed⟩ : ∃ final, execute step (Job.opened {} [])
      (fillingRun [.wrote 4096, .wrote 20, .wrote 3]) = some final ∧
        (final.killed = true ∧ final.track.released.length = 0) :=
    execute_check (by decide +kernel)
  exact ⟨final, ran, killed, integral_of_live (by decide) (fun _ _ => rfl) (by decide +kernel) ran⟩

/-- A buffer that points into released messages writes what their memory holds then: the
entry in the ordinal index is that of no message. -/
theorem reused_memory_breaks_index :
    ∃ final, execute step (Job.opened {} []) reusingRun = some final ∧ ¬ Integral final.track := by
  obtain ⟨final, ran, one, entry, lost⟩ : ∃ final,
      execute step (Job.opened {} []) reusingRun = some final ∧
        (final.track.running.records.length = 1 ∧ valueSize ≤ (final.track.disk .ordinal).length ∧
          ∀ record ∈ final.track.running.records,
            ¬ (smallBuffers 128).recordData record <+: final.track.disk .data) :=
    execute_check (by decide +kernel)
  refine ⟨final, ran, fun integral => ?_⟩
  obtain ⟨before, record, after, split, _, onDisk, _⟩ :=
    integral.ordinal 0 (by rwa [Nat.zero_add, Nat.one_mul])
  have alone : before = [] := by
    rw [split, length_append, length_cons] at one
    exact length_eq_zero_iff.mp (by omega)
  subst alone
  exact lost record (split ▸ mem_cons_self) onDisk

/-- As long as every call is considerate, a message that was freed has its record and its
entry of the ordinal index on the disk. -/
theorem freed_are_written (fits : valueSize < setup.bufLen .ordinal)
    (tied : ∀ key, key ∉ keys → setup.keyPositions key running.records = [])
    (guarded : Guarded step Considerate (Job.opened running keys) actions)
    (ran : execute step (Job.opened running keys) actions = some final) :
    ∀ stuff ∈ final.track.released, Written final.track.disk stuff := by
  have kept : Kept True final := by
    refine invariant_of_guarded ?_ (opened_kept tied) guarded ran
    intro job action next kept considerate stepped
    have live := (kept.left (step_cases stepped).1).live trivial
    exact step_kept fits kept live (fun _ => considerate) stepped
  exact kept.safe.freed trivial

theorem freed_are_written_of_two :
    ∃ final, execute step (Job.opened {} []) (fillingRun [.wrote 4096, .wrote 20, .wrote 3,
        .toExit false, .wrote 4096, .wrote 4096, .wrote 4096, .wrote 4096, .preallocated true]) =
          some final ∧ final.track.released.length = 2 ∧
        ∀ stuff ∈ final.track.released, Written final.track.disk stuff := by
  obtain ⟨final, ran, two⟩ : ∃ final, execute step (Job.opened {} []) (fillingRun [.wrote 4096,
      .wrote 20, .wrote 3, .toExit false, .wrote 4096, .wrote 4096, .wrote 4096, .wrote 4096,
      .preallocated true]) = some final ∧ final.track.released.length = 2 :=
    execute_check (by decide +kernel)
  exact ⟨final, ran, two, freed_are_written (by decide) (fun _ _ => rfl) (by decide +kernel) ran⟩

/-- A message is freed of which nothing was written. -/
theorem exiting_sync_frees_unwritten :
    ∃ final, execute step (Job.opened {} []) exitingRun = some final ∧
      ¬ ∀ stuff ∈ final.track.released, Written final.track.disk stuff :=
  execute_check (by decide +kernel)

end Runs

end AdkAaf.Recorder.FlushChain
