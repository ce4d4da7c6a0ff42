import AdkAaf.Adk.InotifyWrapper.Registry

/-! What a batch of events leaves: the working thread calls from a copy that shows the
live tasks, and its clean-up takes the finished tasks off each watch. -/

set_option autoImplicit false

namespace AdkAaf.Adk.InotifyWrapper.Inotify

open Function Option List

section Calls

variable {inotify : Inotify} {registration : Registration}

theorem Valid.unique (valid : inotify.Valid) {first second : Registration}
    (mem : first ∈ inotify.live) (other : second ∈ inotify.live)
    (same : first.task.address = second.task.address) : first = second :=
  inj_on_of_nodup_map valid.distinct mem other same

theorem mem_dueTasks {map : OnWatchMap} {event : Event} {task : WatchTask} :
    task ∈ dueTasks map event ↔
      ∃ kind : InotifyEvent, kind.mask &&& event.mask ≠ 0 ∧ task ∈ tasksAt map event.wd kind := by
  simp only [dueTasks, mem_flatMap]
  constructor
  · rintro ⟨kind, -, listed⟩
    split at listed
    · cases listed
    · next overlaps => exact ⟨kind, overlaps, listed⟩
  · rintro ⟨kind, overlaps, listed⟩
    refine ⟨kind, InotifyEvent.mem_all kind, ?_⟩
    rw [if_neg overlaps]
    exact listed

theorem Valid.mem_tasksAt (valid : inotify.Valid) {wd : Nat} {kind : InotifyEvent}
    {task : WatchTask} : task ∈ tasksAt inotify.onWatch wd kind ↔
      ⟨task, kind⟩ ∈ inotify.live ∧ inotify.pathWatchId task.pathName = some wd := by
  cases name : inotify.watchIdPath wd with
  | none =>
    have unlisted := valid.tables wd
    simp [tasksAt, watchEvents, unlisted, WatchEvents.empty, valid.inverse, name]
  | some path =>
    have at_ := (valid.inverse path wd).mpr name
    rw [valid.tasksAt_eq at_, mem_view, valid.inverse, name, some.injEq, eq_comm]

theorem Valid.due_iff (valid : inotify.Valid) (mem : registration ∈ inotify.live)
    (event : Event) (holds : WatchTask → Prop) : (∃ task ∈ dueTasks inotify.onWatch event,
        task.address = registration.task.address ∧ holds task) ↔
      (inotify.pathWatchId registration.task.pathName = some event.wd ∧
        registration.event.mask &&& event.mask ≠ 0) ∧ holds registration.task := by
  constructor
  · rintro ⟨task, listed, same, fact⟩
    obtain ⟨kind, overlaps, at_⟩ := mem_dueTasks.mp listed
    obtain ⟨theirs, watched⟩ := valid.mem_tasksAt.mp at_
    have equal := valid.unique theirs mem same
    rw [← equal]
    exact ⟨⟨watched, overlaps⟩, fact⟩
  · rintro ⟨⟨watched, overlaps⟩, fact⟩
    have at_ := valid.mem_tasksAt.mpr ⟨mem, watched⟩
    exact ⟨registration.task, mem_dueTasks.mpr ⟨_, overlaps, at_⟩, rfl, fact⟩

variable {batch : List Event} {answer : Nat → Nat → Bool}

section

variable (valid : inotify.Valid)
include valid

theorem Valid.reaches_iff (mem : registration ∈ inotify.live) (place : Nat) :
    Reaches inotify.onWatch batch registration.task.address place ↔
      inotify.Due batch registration place := by
  refine exists_congr fun event => and_congr .rfl ?_
  have due := valid.due_iff mem event fun _ => True
  simp only [and_true] at due
  exact due

theorem Valid.stops_iff (mem : registration ∈ inotify.live) (place : Nat) :
    Stops inotify.onWatch answer 0 batch registration.task.address place ↔
      inotify.Due batch registration place ∧ ends answer place registration.task = true := by
  unfold Stops Due
  rw [Nat.zero_add, ← exists_and_right]
  refine exists_congr fun event => ?_
  rw [valid.due_iff mem event fun task => ends answer place task = true, and_assoc, and_assoc,
    and_assoc]

theorem Valid.nodup_tasksAt (wd : Nat) (kind : InotifyEvent) :
    ((tasksAt inotify.onWatch wd kind).map WatchTask.address).Nodup := by
  cases name : inotify.watchIdPath wd with
  | none =>
    have unlisted := valid.tables wd
    rw [name, map_none] at unlisted
    simp [tasksAt, watchEvents, unlisted, WatchEvents.empty]
  | some path =>
    rw [valid.tasksAt_eq ((valid.inverse path wd).mpr name), view, List.map_map]
    exact valid.distinct.sublist (List.filter_sublist.map _)

theorem Valid.distinct_onWatch : Distinct inotify.onWatch := by
  intro event
  rw [dueTasks, map_flatMap, nodup_flatMap]
  constructor
  · intro kind _
    split
    · exact nodup_nil
    · exact valid.nodup_tasksAt event.wd kind
  · have apart : ∀ first second : InotifyEvent, first ≠ second → Disjoint
          ((if first.mask &&& event.mask = 0 then []
            else tasksAt inotify.onWatch event.wd first).map WatchTask.address)
          ((if second.mask &&& event.mask = 0 then []
            else tasksAt inotify.onWatch event.wd second).map WatchTask.address) := by
      intro first second different addr here there
      obtain ⟨task, listed, rfl⟩ := mem_map.mp here
      obtain ⟨other, listed', same⟩ := mem_map.mp there
      split at listed
      · cases listed
      split at listed'
      · cases listed'
      have equal := valid.unique (valid.mem_tasksAt.mp listed').1 (valid.mem_tasksAt.mp listed).1
        same
      exact different (congrArg Registration.event equal).symm
    exact pairwise_cons.mpr
      ⟨fun kind _ => apart _ kind (by simp_all), pairwise_singleton _ _⟩

theorem Valid.refreshed_cache : inotify.refreshed.cache = inotify.onWatch := by
  unfold refreshed
  split
  · rfl
  · next fresh => exact valid.cached (Bool.not_eq_true _ ▸ fresh)

theorem Valid.isFinished_dispatched (mem : registration ∈ inotify.live) :
    (inotify.dispatched batch answer).isFinished registration.task.address = true ↔
      ∃ place, inotify.Due batch registration place ∧
        ends answer place registration.task = true := by
  rw [dispatched, isFinished_dispatchEvents, valid.refreshed_cache]
  simp [valid.unfinished _ mem, valid.stops_iff mem, Bool.false_eq_true, false_or]

end

open Classical in
theorem Valid.callsDue (valid : inotify.Valid) : inotify.CallsDue batch answer := by
  intro registration mem place
  have reached : (Reaches inotify.onWatch batch registration.task.address place ∧
      inotify.isFinished registration.task.address = false ∧ ∀ earlier < place,
          ¬ Stops inotify.onWatch answer 0 batch registration.task.address earlier) ↔
      inotify.Due batch registration place ∧ ¬ inotify.Over batch answer registration place := by
    simp [valid.reaches_iff mem, valid.unfinished _ mem, valid.stops_iff mem,
      true_and, Over, not_exists, not_and]
  have counted := @count_calls_dispatchEvents answer _ valid.distinct_onWatch batch 0
    { isFinished := inotify.isFinished } registration.task.address place
  rw [if_congr reached rfl rfl, Nat.zero_add, count_nil, Nat.zero_add] at counted
  rw [dispatched, valid.refreshed_cache, counted]
  constructor
  · intro both
    rw [if_pos both]
  · intro either
    rw [if_neg]
    rintro ⟨due, going⟩
    exact either.elim (fun none => none due) fun ended => going ended

end Calls

/-! ## The clean-up

The lists of a watch are a view of the unfinished tasks once it was cleaned up. -/

section Clean

variable {inotify : Inotify} {shown : String → List Registration} {path : String} {wd last : Nat}

def unfinishedOf (isFinished : Nat → Bool) (live : List Registration) : List Registration :=
  live.filter fun registration => !isFinished registration.task.address

theorem cleanEvents_viewEvents (isFinished : Nat → Bool) (live : List Registration) :
    cleanEvents isFinished (viewEvents live path) =
      viewEvents (unfinishedOf isFinished live) path := by
  funext event
  rw [cleanEvents, viewEvents, viewEvents, unfinishedOf,
    view_filter fun task => !isFinished task.address]
  unfold someTasks
  split
  · next none => simp [none]
  · rfl

structure Cleaned (before after : Inotify) : Prop where
  live : after.live = before.live
  isFinished : after.isFinished = before.isFinished
  allocated : after.allocated = before.allocated
  watchIsUpdate : after.watchIsUpdate = before.watchIsUpdate
  pathEvents : ∀ path events, after.pathEvents path = some events →
    before.pathEvents path = some events

theorem Cleaned.refl (inotify : Inotify) : Cleaned inotify inotify :=
  ⟨rfl, rfl, rfl, rfl, fun _ _ => id⟩

theorem Cleaned.trans {first second third : Inotify} (before : Cleaned first second)
    (after : Cleaned second third) : Cleaned first third :=
  ⟨after.live.trans before.live, after.isFinished.trans before.isFinished,
    after.allocated.trans before.allocated, after.watchIsUpdate.trans before.watchIsUpdate,
    fun path events found => before.pathEvents path events (after.pathEvents path events found)⟩

theorem cleaned_cleanWatch (last : Nat) (fails : Bool) (inotify : Inotify) (wd : Nat) :
    Cleaned inotify (cleanWatch last fails inotify wd) := by
  unfold cleanWatch
  dsimp only
  split
  · refine ⟨rfl, rfl, rfl, rfl, fun path events found => ?_⟩
    simp only [forget, update_apply] at found
    split at found
    · cases found
    · exact found
  · exact ⟨rfl, rfl, rfl, rfl, fun _ _ => id⟩

theorem Tables.cleanWatch (tables : inotify.Tables shown) (at_ : inotify.pathWatchId path = some wd)
    (mine : (viewEvents (unfinishedOf inotify.isFinished (shown path)) path).isEmpty = true →
      wd = last) : Tables (Inotify.cleanWatch last false inotify wd)
        (update shown path (unfinishedOf inotify.isFinished (shown path))) ∧
      ∀ other, other ≠ path → (Inotify.cleanWatch last false inotify wd).pathWatchId other =
          inotify.pathWatchId other := by
  have name := (tables.inverse path wd).mp at_
  have listed : watchEvents inotify.onWatch wd = viewEvents (shown path) path := by
    rw [watchEvents, tables.tables wd, name]
    rfl
  unfold Inotify.cleanWatch
  rw [listed, cleanEvents_viewEvents]
  dsimp only
  split
  · next empty =>
    cases mine empty
    rw [tables.rmWatch at_, name, getD_some, getD_some]
    constructor
    · exact tables.drop at_ empty (AList.lookup_erase _ _) fun other apart =>
        AList.lookup_erase_ne apart
    · intro other apart
      exact update_of_ne apart _ _
  · next lasting =>
    constructor
    · exact tables.keep at_ (Bool.not_eq_true _ ▸ lasting)
    · intro other _
      rfl

theorem Tables.cleanWatches {wds : List Nat} (distinct : wds.Nodup) (tables : inotify.Tables shown)
    (watched : ∀ wd ∈ wds, ∃ path, inotify.pathWatchId path = some wd)
    (mine : ∀ path, ∀ wd ∈ wds, inotify.pathWatchId path = some wd →
      (viewEvents (unfinishedOf inotify.isFinished (shown path)) path).isEmpty = true → wd = last) :
    ∃ shown', Tables (wds.foldl (Inotify.cleanWatch last false) inotify) shown' ∧
      Cleaned inotify (wds.foldl (Inotify.cleanWatch last false) inotify) ∧
      ∀ path, (∀ wd ∈ wds, inotify.pathWatchId path = some wd →
          shown' path = unfinishedOf inotify.isFinished (shown path)) ∧
        ((∀ wd ∈ wds, inotify.pathWatchId path ≠ some wd) → shown' path = shown path) := by
  induction wds generalizing inotify shown with
  | nil =>
    refine ⟨shown, tables, Cleaned.refl inotify, fun path => ⟨?_, fun _ => rfl⟩⟩
    nofun
  | cons wd rest ih =>
    rw [nodup_cons] at distinct
    obtain ⟨path, at_⟩ := watched wd mem_cons_self
    obtain ⟨first, others⟩ := tables.cleanWatch at_ (mine path wd mem_cons_self at_)
    have cleaned := cleaned_cleanWatch last false inotify wd
    -- the ids of the remaining watches belong to other paths
    have elsewhere : ∀ other, ∀ id_ ∈ rest, inotify.pathWatchId other = some id_ →
        other ≠ path := by
      rintro other id_ mem theirs rfl
      rw [at_, some.injEq] at theirs
      exact distinct.1 (theirs ▸ mem)
    have kept : ∀ other, ∀ id_ ∈ rest,
        (Inotify.cleanWatch last false inotify wd).pathWatchId other = some id_ →
        inotify.pathWatchId other = some id_ := by
      intro other id_ mem theirs
      by_cases same : other = path
      · subst same
        have before : inotify.watchIdPath id_ = some other := by
          obtain ⟨name, named⟩ := watched id_ (mem_cons_of_mem _ mem)
          have apart := elsewhere name id_ mem named
          have now := (others name apart).trans named
          rw [first.inverse] at theirs now
          rw [theirs, some.injEq] at now
          exact absurd now.symm apart
        exact (tables.inverse other id_).mpr before
      · rw [← others other same]
        exact theirs
    obtain ⟨shown', done, cleaned', shows⟩ := ih distinct.2 first (fun id_ mem => by
        obtain ⟨name, named⟩ := watched id_ (mem_cons_of_mem _ mem)
        exact ⟨name, (others name (elsewhere name id_ mem named)).trans named⟩)
      (fun other id_ mem theirs => by
        have before := kept other id_ mem theirs
        rw [cleaned.isFinished, update_of_ne (elsewhere other id_ mem before)]
        exact mine other id_ (mem_cons_of_mem _ mem) before)
    refine ⟨shown', done, cleaned.trans cleaned', fun other => ⟨?_, ?_⟩⟩
    · intro id_ mem theirs
      rcases mem_cons.mp mem with rfl | later
      · have same : other = path := by
          have name := (tables.inverse other id_).mp theirs
          rw [(tables.inverse path id_).mp at_, some.injEq] at name
          exact name.symm
        subst same
        rw [(shows other).2 fun wd' member' now => ?_, update_self]
        exact elsewhere other wd' member' (kept other wd' member' now) rfl
      · have apart := elsewhere other id_ later theirs
        rw [(shows other).1 id_ later ((others other apart).trans theirs), cleaned.isFinished,
          update_of_ne apart]
    · intro unwatched
      have apart : other ≠ path := by
        rintro rfl
        exact unwatched wd mem_cons_self at_
      rw [(shows other).2 fun id_ mem now => ?_, update_of_ne apart]
      exact unwatched id_ (mem_cons_of_mem _ mem) (kept other id_ mem now)

end Clean

section Batch

variable {inotify : Inotify} {batch : List Event} {answer : Nat → Nat → Bool} {fails : Bool}

theorem Valid.survives (valid : inotify.Valid) {wd : Nat} {event : InotifyEvent}
    {task : WatchTask} (listed : task ∈ tasksAt inotify.onWatch wd event)
    (survives : Survives wd batch answer event task) :
    (inotify.dispatched batch answer).isFinished task.address = false := by
  obtain ⟨mem, watched⟩ := valid.mem_tasksAt.mp listed
  rw [Bool.eq_false_iff, ne_eq]
  intro finished
  obtain ⟨place, ⟨due, at_, named, overlaps⟩, ended⟩ :=
    (valid.isFinished_dispatched mem).mp finished
  have placed : (due, place) ∈ batch.zipIdx := mk_mem_zipIdx_iff_getElem?.mpr at_
  rw [watched, some.injEq] at named
  rw [survives _ placed named.symm overlaps] at ended
  cases ended

theorem Valid.isFinished_unused (valid : inotify.Valid) {addr : Nat}
    (above : inotify.allocated ≤ addr) :
    (inotify.dispatched batch answer).isFinished addr = false := by
  rw [Bool.eq_false_iff, ne_eq, dispatched, isFinished_dispatchEvents, valid.refreshed_cache]
  rintro (before | ⟨n, event, -, task, listed, rfl, -⟩)
  · exact absurd (valid.unused addr above) (Bool.not_eq_false _ ▸ before)
  · obtain ⟨kind, -, at_⟩ := mem_dueTasks.mp listed
    have below := valid.allocated _ (valid.mem_tasksAt.mp at_).1
    exact absurd below (Nat.not_lt.mpr above)

theorem Valid.refreshed (valid : inotify.Valid) :
    inotify.refreshed.Valid ∧ inotify.refreshed.cache = inotify.refreshed.onWatch := by
  unfold Inotify.refreshed
  split
  · exact ⟨{ valid with cached := fun _ => rfl }, rfl⟩
  · next fresh => exact ⟨valid, valid.cached (Bool.not_eq_true _ ▸ fresh)⟩

theorem refreshed_same (inotify : Inotify) : inotify.refreshed.live = inotify.live ∧
    inotify.refreshed.onWatch = inotify.onWatch ∧
    inotify.refreshed.pathEvents = inotify.pathEvents ∧
    inotify.refreshed.pathWatchId = inotify.pathWatchId ∧
    inotify.refreshed.allocated = inotify.allocated := by
  unfold Inotify.refreshed
  split <;> exact ⟨rfl, rfl, rfl, rfl, rfl⟩

def called (inotify : Inotify) (isFinished : Nat → Bool) (watchIsUpdate : Bool) : Inotify :=
  { inotify.refreshed with
    isFinished := isFinished
    live := unfinishedOf isFinished inotify.live
    watchIsUpdate := watchIsUpdate }

section

variable (valid : inotify.Valid)
include valid

theorem Valid.tables_called (isFinished : Nat → Bool) (watchIsUpdate : Bool) :
    Tables (inotify.called isFinished watchIsUpdate) fun _ => inotify.live := by
  have tables := valid.refreshed.1.tables_live
  rw [(refreshed_same inotify).1] at tables
  exact { tables with }

theorem Valid.behind_batch {after : Inotify} {watchIsUpdate : Bool} (cleaned : Cleaned
      (inotify.called (inotify.dispatched batch answer).isFinished watchIsUpdate) after)
    {shown : String → List Registration} (tables : after.Tables shown)
    (shows : ∀ path, viewEvents (shown path) path =
      viewEvents (unfinishedOf (inotify.dispatched batch answer).isFinished inotify.live) path)
    (cached : watchIsUpdate = false → after.cache = after.onWatch) : after.Valid := by
  obtain ⟨-, -, pathEvents, -, allocated⟩ := refreshed_same inotify
  refine valid.fewer tables (fun path => ?_) ?_ (fun path events found => ?_)
    (cleaned.allocated.trans allocated) (fun registration mem => ?_)
    (fun addr above => ?_) fun fresh => cached (cleaned.watchIsUpdate.symm.trans fresh)
  · rw [cleaned.live]
    exact shows path
  · rw [cleaned.live]
    exact List.filter_sublist
  · rw [← pathEvents]
    exact cleaned.pathEvents path events found
  · rw [cleaned.live] at mem
    rw [cleaned.isFinished]
    have unfinished := (mem_filter.mp mem).2
    rw [Bool.not_eq_true'] at unfinished
    exact unfinished
  · rw [cleaned.isFinished]
    exact valid.isFinished_unused above

theorem Valid.mem_keys (wd : Nat) :
    wd ∈ inotify.onWatch.keys ↔ ∃ path, inotify.pathWatchId path = some wd := by
  rw [← AList.mem_keys, ← AList.lookup_isSome, valid.tables wd, isSome_map, isSome_iff_exists]
  exact exists_congr fun path => (valid.inverse path wd).symm

section

variable (may : inotify.Allowed (.handleEvents batch answer fails))
include may

theorem Valid.emptied {last : Event} (last_ : batch.getLast? = some last) {path : String} {wd : Nat}
    (at_ : inotify.pathWatchId path = some wd)
    (empty : (viewEvents (unfinishedOf (inotify.dispatched batch answer).isFinished inotify.live)
      path).isEmpty = true) : wd = last.wd := by
  by_contra apart
  obtain ⟨event, -, task, listed, survives⟩ :=
    may.2 last (mem_def.mpr last_) wd ((valid.mem_keys wd).mpr ⟨path, at_⟩) apart
  have unfinished := valid.survives listed survives
  rw [valid.tasksAt_eq at_, mem_view] at listed
  have kept : (⟨task, event⟩ : Registration) ∈
      unfinishedOf (inotify.dispatched batch answer).isFinished inotify.live :=
    mem_filter.mpr ⟨listed.1, by simp [unfinished]⟩
  exact viewEvents_isEmpty.mp empty _ kept listed.2

theorem Valid.cleaned {last : Event} (last_ : batch.getLast? = some last) :
    (inotify.onWatch.keys.foldl (cleanWatch last.wd false)
      (inotify.called (inotify.dispatched batch answer).isFinished true)).Valid := by
  have same : ∀ path, (inotify.called (inotify.dispatched batch answer).isFinished
      true).pathWatchId path = inotify.pathWatchId path :=
    congrFun (refreshed_same inotify).2.2.2.1
  have tables := valid.tables_called (inotify.dispatched batch answer).isFinished true
  have watched : ∀ wd ∈ inotify.onWatch.keys, ∃ path, (inotify.called
      (inotify.dispatched batch answer).isFinished true).pathWatchId path = some wd := by
    intro wd mem
    obtain ⟨path, at_⟩ := (valid.mem_keys wd).mp mem
    exact ⟨path, (same path).trans at_⟩
  obtain ⟨shown, done, cleaned, shows⟩ :=
    tables.cleanWatches (AList.keys_nodup inotify.onWatch) watched
      fun path wd _ at_ empty => valid.emptied may last_ ((same path).symm.trans at_) empty
  refine valid.behind_batch cleaned done (fun path => ?_) fun fresh => by cases fresh
  cases at_ : inotify.pathWatchId path with
  | some wd =>
    rw [(shows path).1 wd ((valid.mem_keys wd).mpr ⟨path, at_⟩) ((same path).trans at_)]
    rfl
  | none =>
    have unnamed : ∀ registration ∈ inotify.live, registration.task.pathName ≠ path := by
      intro registration mem named
      have some_ := (valid.needed path).mpr ⟨registration, mem, named⟩
      rw [at_] at some_
      cases some_
    have unwatched : ∀ wd ∈ inotify.onWatch.keys, (inotify.called
        (inotify.dispatched batch answer).isFinished true).pathWatchId path ≠ some wd := by
      intro wd _ some_
      rw [same path, at_] at some_
      cases some_
    rw [(shows path).2 unwatched, viewEvents_of_unnamed unnamed, viewEvents_of_unnamed]
    intro registration mem
    exact unnamed registration (mem_of_mem_filter mem)

theorem Valid.handleEvents : (inotify.handleEvents batch answer fails).Valid := by
  cases may.1
  unfold Inotify.handleEvents
  cases last_ : batch.getLast? with
  | none => exact valid
  | some last =>
    dsimp only
    split
    · have keys : inotify.refreshed.onWatch.keys = inotify.onWatch.keys :=
        congrArg AList.keys (refreshed_same inotify).2.1
      rw [keys]
      exact valid.cleaned may last_
    · next lasting =>
      have same := (hasTaskFinished_dispatchEvents _ (Bool.not_eq_true _ ▸ lasting)).2
      have all : unfinishedOf (inotify.dispatched batch answer).isFinished inotify.live =
          inotify.live := by
        refine filter_eq_self.mpr fun registration mem => ?_
        rw [dispatched, same]
        simp [valid.unfinished registration mem]
      have behind : (inotify.called (inotify.dispatched batch answer).isFinished
          inotify.refreshed.watchIsUpdate).Valid :=
        valid.behind_batch (Cleaned.refl _) (valid.tables_called _ _)
          (fun path => by rw [all]) fun _ => valid.refreshed.2
      exact behind

end

end

end Batch

end AdkAaf.Adk.InotifyWrapper.Inotify
