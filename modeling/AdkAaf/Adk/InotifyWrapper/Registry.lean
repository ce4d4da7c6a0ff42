import AdkAaf.Adk.InotifyWrapper.Dispatch

/-! The tables are a view of the tasks that were added and neither removed nor
finished: each watch lists the tasks of its path, in the order in which they were
added. Every call keeps them so, as long as the clean-up cancels the right watch. -/

set_option autoImplicit false

namespace AdkAaf.Adk.InotifyWrapper.Inotify

open Function Option List

def concerns (path : String) (event : InotifyEvent) (registration : Registration) : Bool :=
  registration.task.pathName = path ∧ registration.event = event

def view (live : List Registration) (path : String) (event : InotifyEvent) : List WatchTask :=
  (live.filter (concerns path event)).map Registration.task

def viewEvents (live : List Registration) (path : String) : WatchEvents := fun event =>
  someTasks (view live path event)

section View

variable {live : List Registration} {path other : String} {event : InotifyEvent}
variable {task : WatchTask}

theorem someTasks_getD (tasks : List WatchTask) : (someTasks tasks).getD [] = tasks := by
  unfold someTasks
  split
  · next none => exact none.symm
  · rfl

theorem mem_view : task ∈ view live path event ↔ ⟨task, event⟩ ∈ live ∧ task.pathName = path := by
  simp only [view, List.mem_map, mem_filter, concerns, Bool.decide_and,
    Bool.and_eq_true, decide_eq_true_eq]
  constructor
  · rintro ⟨⟨_, _⟩, ⟨mem, named, rfl⟩, rfl⟩
    exact ⟨mem, named⟩
  · rintro ⟨mem, named⟩
    exact ⟨_, ⟨mem, named, rfl⟩, rfl⟩

theorem viewEvents_isEmpty : (viewEvents live path).isEmpty = true ↔
      ∀ registration ∈ live, registration.task.pathName ≠ path := by
  have empty : (viewEvents live path).isEmpty = true ↔ ∀ event, view live path event = [] := by
    simp only [WatchEvents.isEmpty, List.all_eq_true, viewEvents, someTasks, isNone_iff_eq_none]
    constructor
    · intro none event
      by_contra some
      have nothing := none event (InotifyEvent.mem_all event)
      rw [if_neg some] at nothing
      cases nothing
    · intro none event _
      rw [if_pos (none event)]
  rw [empty]
  constructor
  · intro none registration mem named
    have listed : registration.task ∈ view live path registration.event :=
      mem_view.mpr ⟨mem, named⟩
    rw [none] at listed
    cases listed
  · intro unnamed event
    refine eq_nil_iff_forall_not_mem.mpr fun task listed => ?_
    obtain ⟨mem, named⟩ := mem_view.mp listed
    exact unnamed _ mem named

theorem viewEvents_of_unnamed (unnamed : ∀ registration ∈ live, registration.task.pathName ≠ path) :
    viewEvents live path = WatchEvents.empty := by
  funext kind
  have none : view live path kind = [] := eq_nil_iff_forall_not_mem.mpr fun task listed =>
      unnamed _ (mem_view.mp listed).1 (mem_view.mp listed).2
  rw [viewEvents, none]
  rfl

theorem viewEvents_append_self : viewEvents (live ++ [⟨task, event⟩]) task.pathName =
      update (viewEvents live task.pathName) event
        (some (view live task.pathName event ++ [task])) := by
  funext kind
  rw [update_apply]
  split
  · next same =>
    subst same
    simp [viewEvents, view, concerns, someTasks]
  · next apart => simp [viewEvents, view, concerns, Ne.symm apart]

theorem viewEvents_append_other (apart : task.pathName ≠ other) :
    viewEvents (live ++ [⟨task, event⟩]) other = viewEvents live other := by
  funext kind
  simp [viewEvents, view, concerns, apart]

theorem view_eraseP_self (watchName : String) :
    view (live.eraseP (named path event watchName)) path event =
      (view live path event).eraseP (·.watchName = watchName) := by
  induction live with
  | nil => rfl
  | cons first rest ih =>
    by_cases here : concerns path event first = true
    · have both := here
      simp only [concerns, Bool.decide_and, Bool.and_eq_true, decide_eq_true_eq] at both
      by_cases same : first.task.watchName = watchName
      · have found : named path event watchName first = true := by
          simp [named, both.1, both.2, same]
        rw [eraseP_cons_of_pos found]
        simp [view, here, same]
      · have passed : ¬ named path event watchName first = true := by
          simp [named, same]
        rw [eraseP_cons_of_neg passed]
        simp only [view] at ih ⊢
        simp [here, same, ih]
    · have passed : ¬ named path event watchName first = true := by
        intro found
        refine here ?_
        simp only [named, Bool.decide_and, Bool.and_eq_true, decide_eq_true_eq] at found
        simp [concerns, found.1, found.2.1]
      rw [eraseP_cons_of_neg passed]
      simp only [view] at ih ⊢
      simp [here, ih]

theorem view_eraseP_other (watchName : String) {kind : InotifyEvent}
    (apart : other ≠ path ∨ kind ≠ event) :
    view (live.eraseP (named path event watchName)) other kind = view live other kind := by
  induction live with
  | nil => rfl
  | cons first rest ih =>
    by_cases found : named path event watchName first = true
    · rw [eraseP_cons_of_pos found]
      simp only [named, Bool.decide_and, Bool.and_eq_true, decide_eq_true_eq] at found
      have elsewhere : concerns other kind first = false := by
        rcases apart with path' | event'
        · simp [concerns, found.1, Ne.symm path']
        · simp [concerns, found.2.1, Ne.symm event']
      simp [view, elsewhere]
    · rw [eraseP_cons_of_neg found]
      simp only [view] at ih ⊢
      by_cases here : concerns other kind first = true
      all_goals simp [here, ih]

theorem view_filter (lasting : WatchTask → Bool) :
    view (live.filter fun registration => lasting registration.task) path event =
      (view live path event).filter lasting := by
  rw [view, view, List.filter_map, List.filter_filter, List.filter_filter]
  congr 1
  refine List.filter_congr fun registration _ => ?_
  exact Bool.and_comm _ _

end View

structure Valid (inotify : Inotify) : Prop where
  inverse : ∀ path wd,
    inotify.pathWatchId path = some wd ↔ inotify.watchIdPath wd = some path
  tables : ∀ wd, inotify.onWatch.lookup wd = (inotify.watchIdPath wd).map (viewEvents inotify.live)
  events : ∀ path, (inotify.pathEvents path).isSome ↔ (inotify.pathWatchId path).isSome
  masks : ∀ registration ∈ inotify.live, ∀ events,
    inotify.pathEvents registration.task.pathName = some events →
      events &&& registration.event.mask ≠ 0
  kernel : ∀ path, inotify.kernel.watches.lookup path = inotify.pathWatchId path
  used : ∀ path wd, inotify.pathWatchId path = some wd → wd < inotify.kernel.fresh
  needed : ∀ path, (inotify.pathWatchId path).isSome ↔
    ∃ registration ∈ inotify.live, registration.task.pathName = path
  distinct : (inotify.live.map fun registration => registration.task.address).Nodup
  allocated : ∀ registration ∈ inotify.live,
    registration.task.address < inotify.allocated
  unfinished : ∀ registration ∈ inotify.live,
    inotify.isFinished registration.task.address = false
  unused : ∀ address, inotify.allocated ≤ address → inotify.isFinished address = false
  cached : inotify.watchIsUpdate = false → inotify.cache = inotify.onWatch

section Preservation

variable {inotify : Inotify} {path : String} {event : InotifyEvent} {watchName : String}
variable {wd : Nat}

theorem Valid.watchEvents_eq (ok : inotify.Valid) (at_ : inotify.pathWatchId path = some wd) :
    watchEvents inotify.onWatch wd = viewEvents inotify.live path := by
  rw [watchEvents, ok.tables wd, (ok.inverse path wd).mp at_]
  rfl

theorem Valid.tasksAt_eq (ok : inotify.Valid) (at_ : inotify.pathWatchId path = some wd) :
    tasksAt inotify.onWatch wd event = view inotify.live path event := by
  rw [tasksAt, ok.watchEvents_eq at_]
  exact someTasks_getD _

variable {pathEvents : String → Option UInt32}

theorem Valid.add (ok : inotify.Valid) {task : WatchTask} {kernel : Kernel}
    {pathWatchId : String → Option Nat} {watchIdPath : Nat → Option String} {onWatch : OnWatchMap}
    (inverse : ∀ other wd, pathWatchId other = some wd ↔ watchIdPath wd = some other)
    (mine : pathWatchId task.pathName = some wd)
    (others : ∀ other, other ≠ task.pathName → pathWatchId other = inotify.pathWatchId other ∧
      pathEvents other = inotify.pathEvents other)
    (table : onWatch.lookup wd = some (update (viewEvents inotify.live task.pathName)
      event (some (view inotify.live task.pathName event ++ [task]))))
    (tables : ∀ other, other ≠ wd → onWatch.lookup other = inotify.onWatch.lookup other ∧
      watchIdPath other = inotify.watchIdPath other)
    (covers : ∃ events, pathEvents task.pathName = some events ∧ events &&& event.mask ≠ 0 ∧
      ∀ before, inotify.pathEvents task.pathName = some before →
        ∀ kind : InotifyEvent, before &&& kind.mask ≠ 0 → events &&& kind.mask ≠ 0)
    (watches : ∀ other, kernel.watches.lookup other = pathWatchId other)
    (used : ∀ other wd, pathWatchId other = some wd → wd < kernel.fresh)
    (addr : task.address = inotify.allocated) :
    ({ inotify with
      pathEvents := pathEvents
      pathWatchId := pathWatchId
      watchIdPath := watchIdPath
      onWatch := onWatch
      kernel := kernel }.added task event).Valid := by
  obtain ⟨events, mask, overlaps, grows⟩ := covers
  exact {
    inverse := inverse
    tables := fun other => by
      simp only [added]
      by_cases same : other = wd
      · rw [same, table, (inverse _ _).mp mine, map_some, viewEvents_append_self]
      · rw [(tables other same).1, (tables other same).2, ok.tables other]
        cases name : inotify.watchIdPath other with
        | none => rfl
        | some path =>
          have apart : task.pathName ≠ path := by
            rintro rfl
            have theirs := (tables other same).2.trans name
            rw [← inverse, mine] at theirs
            exact same (some.inj theirs).symm
          rw [map_some, map_some, viewEvents_append_other apart]
    events := fun other => by
      by_cases same : other = task.pathName
      · simp [added, same, mask, mine, isSome_some]
      · simp only [added, (others other same).1, (others other same).2]
        exact ok.events other
    masks := fun registration mem before at_ => by
      simp only [added] at mem at_
      rcases mem_append.mp mem with old | new
      · by_cases same : registration.task.pathName = task.pathName
        · rw [same, mask, some.injEq] at at_
          have some_ := (ok.events registration.task.pathName).mpr
            ((ok.needed _).mpr ⟨registration, old, rfl⟩)
          obtain ⟨was, found⟩ := isSome_iff_exists.mp some_
          rw [← at_]
          exact grows was (same ▸ found) _ (ok.masks registration old was found)
        · rw [(others _ same).2] at at_
          exact ok.masks registration old before at_
      · rw [mem_singleton.mp new] at at_ ⊢
        rw [mask, some.injEq] at at_
        rw [← at_]
        exact overlaps
    kernel := watches
    used := used
    needed := fun other => by
      simp only [added]
      by_cases same : other = task.pathName
      · rw [same, mine]
        simp only [isSome_some, true_iff]
        exact ⟨⟨task, event⟩, mem_append_right _ mem_cons_self, rfl⟩
      · rw [(others other same).1, ok.needed other]
        simp only [mem_append, mem_singleton]
        constructor
        · rintro ⟨registration, mem, named⟩
          exact ⟨registration, .inl mem, named⟩
        · rintro ⟨registration, mem | rfl, named⟩
          · exact ⟨registration, mem, named⟩
          · exact absurd named.symm same
    distinct := by
      simp only [added, map_append, map_singleton]
      refine Nodup.append ok.distinct (nodup_singleton _) ?_
      rw [disjoint_singleton]
      intro mem
      obtain ⟨registration, old, same⟩ := mem_map.mp mem
      have below := ok.allocated registration old
      omega
    allocated := fun registration mem => by
      rcases mem_append.mp mem with old | new
      · exact Nat.lt_succ_of_lt (ok.allocated registration old)
      · rw [mem_singleton.mp new]
        exact Nat.lt_succ_of_le addr.le
    unfinished := fun registration mem => by
      rcases mem_append.mp mem with old | new
      · exact ok.unfinished registration old
      · rw [mem_singleton.mp new]
        exact ok.unused _ addr.symm.le
    unused := fun other above => ok.unused other (Nat.le_of_succ_le above)
    cached := fun stale => by cases stale }

theorem mask_overlaps (event : InotifyEvent) : event.mask &&& event.mask ≠ 0 := by
  cases event <;> decide

theorem or_and_mask (first second mask : UInt32) :
    (first ||| second) &&& mask = (first &&& mask) ||| (second &&& mask) :=
  UInt32.toBitVec_inj.1 BitVec.and_or_distrib_right

theorem or_overlaps (events mask : UInt32) {kind : UInt32} (overlaps : events &&& kind ≠ 0) :
    (events ||| mask) &&& kind ≠ 0 := by
  rw [or_and_mask]
  exact fun none => overlaps (UInt32.or_eq_zero_iff.mp none).1

theorem or_covers (events : UInt32) (event : InotifyEvent) :
    (events ||| event.mask) &&& event.mask ≠ 0 := by
  rw [or_and_mask]
  exact fun none => mask_overlaps event (UInt32.or_eq_zero_iff.mp none).2

theorem Valid.addWatch_new (ok : inotify.Valid) {isCallOnce : Bool}
    (unwatched : inotify.pathEvents path = none) :
    ({ inotify with
      pathEvents := update inotify.pathEvents path (some event.mask)
      pathWatchId := update inotify.pathWatchId path (some inotify.kernel.fresh)
      watchIdPath := update inotify.watchIdPath inotify.kernel.fresh (some path)
      onWatch := inotify.onWatch.insert inotify.kernel.fresh
        (update WatchEvents.empty event
          (some [inotify.newTask path watchName isCallOnce]))
      kernel :=
        { watches := inotify.kernel.watches.insert path inotify.kernel.fresh
          fresh := inotify.kernel.fresh + 1 } }.added
      (inotify.newTask path watchName isCallOnce) event).Valid := by
  have free : inotify.pathWatchId path = none := by
    rw [← not_isSome_iff_eq_none, ← ok.events, unwatched]
    simp
  have unnamed : ∀ registration ∈ inotify.live, registration.task.pathName ≠ path := by
    intro registration mem named
    have some_ := (ok.needed path).mpr ⟨registration, mem, named⟩
    rw [free] at some_
    cases some_
  have empty := viewEvents_of_unnamed unnamed
  have unlisted : view inotify.live path event = [] := by
    rw [← someTasks_getD (view inotify.live path event)]
    exact congrArg (fun events : WatchEvents => (events event).getD []) empty
  have fresh : inotify.watchIdPath inotify.kernel.fresh = none := by
    cases name : inotify.watchIdPath inotify.kernel.fresh with
    | none => rfl
    | some other =>
      have below := ok.used other _ ((ok.inverse _ _).mpr name)
      exact absurd below (Nat.lt_irrefl _)
  refine ok.add ?_ (update_self path _ _) (fun other apart => ?_) ?_
    (fun other apart => ?_) ⟨event.mask, update_self path _ _, mask_overlaps event,
      ?_⟩ (fun other => ?_) (fun other used at_ => ?_) rfl
  · intro other wd
    simp only [update_apply]
    by_cases same : other = path
    · subst same
      simp only [if_true, some.injEq]
      constructor
      · rintro rfl
        rw [if_pos rfl]
      · intro at_
        split at at_
        · next same => exact same.symm
        · rw [← ok.inverse, free] at at_
          cases at_
    · rw [if_neg same, ok.inverse]
      split
      · next taken =>
        rw [taken, fresh]
        simp [Ne.symm same]
      · exact .rfl
  · exact ⟨update_of_ne apart _ _, update_of_ne apart _ _⟩
  · rw [AList.lookup_insert]
    simp [newTask, empty, unlisted, nil_append]
  · exact ⟨AList.lookup_insert_ne apart, update_of_ne apart _ _⟩
  · intro before was
    simp only [newTask] at was
    rw [unwatched] at was
    cases was
  · by_cases same : other = path
    · rw [same, AList.lookup_insert, update_self]
    · rw [AList.lookup_insert_ne same, update_of_ne same]
      exact ok.kernel other
  · by_cases same : other = path
    · rw [same, update_self, some.injEq] at at_
      rw [← at_]
      exact Nat.lt_succ_self _
    · rw [update_of_ne same] at at_
      exact Nat.lt_succ_of_lt (ok.used other used at_)

theorem Valid.addWatch_watched (ok : inotify.Valid) {isCallOnce : Bool}
    (at_ : inotify.pathWatchId path = some wd) {events : UInt32}
    (covers : events &&& event.mask ≠ 0) (grows : ∀ before, inotify.pathEvents path = some before →
      ∀ kind : InotifyEvent, before &&& kind.mask ≠ 0 → events &&& kind.mask ≠ 0)
    (mask : pathEvents path = some events)
    (others : ∀ other, other ≠ path → pathEvents other = inotify.pathEvents other) :
    ({ inotify with
      pathEvents := pathEvents
      onWatch := setTasks inotify.onWatch wd event
        (view inotify.live path event ++ [inotify.newTask path watchName isCallOnce]) }.added
      (inotify.newTask path watchName isCallOnce) event).Valid := by
  refine ok.add ok.inverse at_ (fun other apart => ⟨rfl, others other apart⟩) ?_
    (fun other apart => ⟨?_, rfl⟩) ⟨events, mask, covers, grows⟩ ok.kernel ok.used rfl
  · rw [setTasks, AList.lookup_insert, ok.watchEvents_eq at_]
    rfl
  · rw [setTasks, AList.lookup_insert_ne apart]

theorem Valid.addWatch (ok : inotify.Valid) (isCallOnce fails : Bool) :
    (inotify.addWatch path event watchName isCallOnce fails).2.Valid ∧
      ((inotify.addWatch path event watchName isCallOnce fails).1 ≠ .success →
        (inotify.addWatch path event watchName isCallOnce fails).2 = inotify) := by
  unfold Inotify.addWatch
  cases known : inotify.pathEvents path with
  | none =>
    have free : inotify.kernel.watches.lookup path = none := by
      rw [ok.kernel, ← not_isSome_iff_eq_none, ← ok.events, known]
      simp
    cases fails with
    | true => exact ⟨ok, fun _ => rfl⟩
    | false =>
      simp only [Kernel.addWatch, free, Bool.false_eq_true, if_false]
      exact ⟨ok.addWatch_new known, fun failed => absurd rfl failed⟩
  | some events =>
    have watched := (ok.events path).mp (by rw [known]; rfl)
    obtain ⟨wd, at_⟩ := isSome_iff_exists.mp watched
    have grows : ∀ after : UInt32, (∀ kind : InotifyEvent, events &&& kind.mask ≠ 0 →
        after &&& kind.mask ≠ 0) → ∀ before, inotify.pathEvents path = some before →
        ∀ kind : InotifyEvent, before &&& kind.mask ≠ 0 → after &&& kind.mask ≠ 0 := by
      intro after more before was
      rw [known, some.injEq] at was
      rw [← was]
      exact more
    dsimp only
    split
    · next uncovered =>
      have unlisted : view inotify.live path event = [] := by
        refine eq_nil_iff_forall_not_mem.mpr fun task listed => ?_
        obtain ⟨mem, named⟩ := mem_view.mp listed
        exact ok.masks _ mem events (named ▸ known) uncovered
      have unset : watchEvents inotify.onWatch wd event = none := by
        rw [ok.watchEvents_eq at_, viewEvents, unlisted]
        rfl
      cases fails with
      | true => exact ⟨ok, fun _ => rfl⟩
      | false =>
        have same := ok.kernel path
        rw [at_] at same
        simp only [Kernel.addWatch, same, Bool.false_eq_true, if_false, unset, getD_none]
        refine ⟨?_, fun failed => absurd rfl failed⟩
        have alone : [inotify.newTask path watchName isCallOnce] =
            view inotify.live path event ++ [inotify.newTask path watchName isCallOnce] := by
          rw [unlisted, nil_append]
        rw [alone]
        exact ok.addWatch_watched at_ (or_covers events event)
          (grows _ fun kind overlaps => or_overlaps events event.mask overlaps)
          (update_self path _ inotify.pathEvents)
          fun other apart => update_of_ne apart _ _
    · next covered =>
      rw [at_, getD_some, ok.tasksAt_eq at_]
      split
      · exact ⟨ok, fun _ => rfl⟩
      · refine ⟨?_, fun failed => absurd rfl failed⟩
        rw [← at_, update_eq_self]
        exact ok.addWatch_watched at_ covered (grows _ fun _ => id) known
          fun _ _ => rfl

end Preservation

/-! ## One watch at a time

Removing a task and cleaning up change the lists of one watch after the other.
`shown` tells which tasks the lists of a path are still a view of. -/

structure Tables (inotify : Inotify) (shown : String → List Registration) : Prop where
  inverse : ∀ path wd,
    inotify.pathWatchId path = some wd ↔ inotify.watchIdPath wd = some path
  tables : ∀ wd, inotify.onWatch.lookup wd =
    (inotify.watchIdPath wd).map fun path => viewEvents (shown path) path
  events : ∀ path, (inotify.pathEvents path).isSome ↔ (inotify.pathWatchId path).isSome
  kernel : ∀ path, inotify.kernel.watches.lookup path = inotify.pathWatchId path
  used : ∀ path wd, inotify.pathWatchId path = some wd → wd < inotify.kernel.fresh
  needed : ∀ path, (inotify.pathWatchId path).isSome ↔
    (viewEvents (shown path) path).isEmpty = false

section Watch

variable {inotify : Inotify} {shown : String → List Registration} {path : String} {wd : Nat}
variable {later : List Registration}

theorem viewEvents_nonempty {live : List Registration} : (viewEvents live path).isEmpty = false ↔
      ∃ registration ∈ live, registration.task.pathName = path := by
  rw [Bool.eq_false_iff, ne_eq, viewEvents_isEmpty]
  simp

theorem Valid.tables_live (ok : inotify.Valid) : inotify.Tables fun _ => inotify.live where
  __ := ok
  needed other := (ok.needed other).trans viewEvents_nonempty.symm

section

variable (tables : inotify.Tables shown) (at_ : inotify.pathWatchId path = some wd)
include tables at_

theorem Tables.keep (lasting : (viewEvents later path).isEmpty = false) :
    Tables { inotify with onWatch := inotify.onWatch.insert wd (viewEvents later path) }
      (update shown path later) where
  __ := tables
  tables other := by
    by_cases same : other = wd
    · rw [same, AList.lookup_insert, (tables.inverse path wd).mp at_, map_some, update_self]
    · rw [AList.lookup_insert_ne same, tables.tables other]
      cases named : inotify.watchIdPath other with
      | none => rfl
      | some name =>
        have apart : name ≠ path := by
          rintro rfl
          rw [← tables.inverse, at_] at named
          exact same (some.inj named).symm
        rw [map_some, map_some, update_of_ne apart]
  needed other := by
    by_cases same : other = path
    · subst same
      simp [at_, isSome_some, update_self, lasting]
    · rw [update_of_ne same]
      exact tables.needed other

theorem Tables.rmWatch :
    inotify.kernel.rmWatch wd false =
      some { inotify.kernel with watches := inotify.kernel.watches.erase path } := by
  have watched : inotify.kernel.watches.lookup path = some wd := (tables.kernel path).trans at_
  have entry := AList.mem_lookup_iff.mp watched
  unfold Kernel.rmWatch
  rw [if_neg (by simp)]
  cases found : inotify.kernel.watches.entries.find? (·.2 = wd) with
  | none =>
    have absent := find?_eq_none.mp found _ entry
    simp at absent
  | some watch =>
    have id_ : watch.2 = wd := by simpa using find?_some found
    have listed := AList.mem_lookup_iff.mpr (mem_of_find?_eq_some found)
    have theirs : inotify.pathWatchId watch.1 = some wd := by
      rw [← tables.kernel, ← id_]
      exact listed
    rw [tables.inverse, (tables.inverse path wd).mp at_, some.injEq] at theirs
    rw [map_some, ← theirs]

theorem Tables.drop (empty : (viewEvents later path).isEmpty = true) {onWatch : OnWatchMap}
    (gone : onWatch.lookup wd = none)
    (others : ∀ other, other ≠ wd → onWatch.lookup other = inotify.onWatch.lookup other) :
    Tables ({ inotify with
        kernel := { inotify.kernel with watches := inotify.kernel.watches.erase path }
        onWatch := onWatch }.forget path wd)
      (update shown path later) where
  inverse other id_ := by
    simp only [forget, update_apply]
    have mine := (tables.inverse path wd).mp at_
    by_cases same : other = path
    · subst same
      rw [if_pos rfl]
      split
      · simp
      · next apart =>
        constructor
        · nofun
        · intro named
          rw [← tables.inverse, at_] at named
          exact absurd (some.inj named).symm apart
    · rw [if_neg same]
      split
      · next taken =>
        rw [taken, tables.inverse, mine]
        simp [Ne.symm same]
      · exact tables.inverse other id_
  tables other := by
    simp only [forget, update_apply]
    by_cases same : other = wd
    · rw [if_pos same, same, gone]
      rfl
    · rw [if_neg same, others other same, tables.tables other]
      cases named : inotify.watchIdPath other with
      | none => rfl
      | some name =>
        have apart : name ≠ path := by
          rintro rfl
          rw [← tables.inverse, at_] at named
          exact same (some.inj named).symm
        rw [map_some, map_some, if_neg apart]
  events other := by
    simp only [forget, update_apply]
    split
    · simp
    · exact tables.events other
  kernel other := by
    simp only [forget, update_apply]
    split
    · next same => rw [same, AList.lookup_erase]
    · next apart =>
      rw [AList.lookup_erase_ne apart]
      exact tables.kernel other
  used other id_ := by
    simp only [forget, update_apply]
    split
    · nofun
    · exact tables.used other id_
  needed other := by
    simp only [forget, update_apply]
    split
    · next same =>
      rw [same, empty]
      simp
    · exact tables.needed other

end

end Watch

section Removal

variable {inotify : Inotify} {path : String} {event : InotifyEvent} {watchName : String}

theorem Valid.fewer (ok : inotify.Valid) {after : Inotify} {shown : String → List Registration}
    (tables : after.Tables shown)
    (shows : ∀ path, viewEvents (shown path) path = viewEvents after.live path)
    (fewer : Sublist after.live inotify.live)
    (kept : ∀ path events, after.pathEvents path = some events →
      inotify.pathEvents path = some events) (allocated : after.allocated = inotify.allocated)
    (unfinished : ∀ registration ∈ after.live, after.isFinished registration.task.address = false)
    (unused : ∀ address, inotify.allocated ≤ address → after.isFinished address = false)
    (cached : after.watchIsUpdate = false → after.cache = after.onWatch) : after.Valid where
  __ := tables
  tables wd := by
    rw [tables.tables wd]
    refine congrArg (fun shows => (after.watchIdPath wd).map shows) ?_
    funext path
    exact shows path
  masks registration mem events at_ :=
    ok.masks registration (fewer.subset mem) events (kept _ events at_)
  needed path := by
    rw [tables.needed path, shows path]
    exact viewEvents_nonempty
  distinct := ok.distinct.sublist (fewer.map _)
  allocated registration mem := by
    rw [allocated]
    exact ok.allocated registration (fewer.subset mem)
  unfinished := unfinished
  unused address above := unused address (allocated ▸ above)
  cached := cached

theorem eq_of_someTasks {tasks listed : List WatchTask} (found : someTasks tasks = some listed) :
    listed = tasks := by
  unfold someTasks at found
  split at found
  · cases found
  · exact (some.inj found).symm

theorem viewEvents_eraseP_self (live : List Registration) :
    viewEvents (live.eraseP (named path event watchName)) path = update (viewEvents live path) event
        (someTasks ((view live path event).eraseP (·.watchName = watchName))) := by
  funext kind
  rw [update_apply]
  split
  · next same => rw [same, viewEvents, view_eraseP_self]
  · next apart => rw [viewEvents, view_eraseP_other _ (.inr apart), viewEvents]

theorem viewEvents_eraseP_other (live : List Registration) {other : String}
    (apart : other ≠ path) :
    viewEvents (live.eraseP (named path event watchName)) other = viewEvents live other := by
  funext kind
  rw [viewEvents, view_eraseP_other _ (.inl apart), viewEvents]

theorem Valid.removed (ok : inotify.Valid) {after : Inotify}
    (tables : after.Tables (update (fun _ => inotify.live) path
      (inotify.live.eraseP (named path event watchName))))
    (kept : ∀ path events, after.pathEvents path = some events →
      inotify.pathEvents path = some events) (allocated : after.allocated = inotify.allocated)
    (finished : after.isFinished = inotify.isFinished) (live : after.live = inotify.live) :
    (after.removed path event watchName).Valid := by
  have same : Tables (after.removed path event watchName) (update (fun _ => inotify.live) path
        (inotify.live.eraseP (named path event watchName))) :=
    { tables with }
  refine ok.fewer same (fun other => ?_) ?_ kept allocated (fun registration mem => ?_)
    (fun addr above => ?_) fun stale => by cases stale
  · simp only [Inotify.removed, live, update_apply]
    split
    · rfl
    · next apart => exact (viewEvents_eraseP_other _ apart).symm
  · rw [Inotify.removed, live]
    exact eraseP_sublist
  · simp only [Inotify.removed, live, finished] at mem ⊢
    exact ok.unfinished registration (mem_of_mem_eraseP mem)
  · simp only [Inotify.removed, finished]
    exact ok.unused addr above

theorem Valid.removeWatch (ok : inotify.Valid) {fails : Bool} (may : fails = false) :
    (inotify.removeWatch path event watchName fails).2.Valid ∧
      ((inotify.removeWatch path event watchName fails).1 ≠ .success →
        (inotify.removeWatch path event watchName fails).2 = inotify) := by
  subst may
  unfold Inotify.removeWatch
  cases at_ : inotify.pathWatchId path with
  | none => exact ⟨ok, fun _ => rfl⟩
  | some wd =>
    have name := (ok.inverse path wd).mp at_
    have table := ok.tables wd
    rw [name, map_some] at table
    dsimp only
    rw [table]
    dsimp only
    cases listed : viewEvents inotify.live path event with
    | none => exact ⟨ok, fun _ => rfl⟩
    | some tasks =>
      have tasks_eq := eq_of_someTasks listed
      dsimp only
      rw [tasks_eq, ← viewEvents_eraseP_self]
      split
      · have tables := ok.tables_live
        split
        · next empty =>
          rw [tables.rmWatch at_, name, getD_some]
          refine ⟨?_, fun failed => absurd rfl failed⟩
          refine ok.removed (tables.drop at_ empty (AList.lookup_erase _ _)
            fun other apart => ?_) (fun other events kept => ?_) rfl rfl rfl
          · rw [AList.lookup_erase_ne apart, AList.lookup_insert_ne apart]
          · simp only [forget, update_apply] at kept
            split at kept
            · cases kept
            · exact kept
        · next lasting =>
          refine ⟨?_, fun failed => absurd rfl failed⟩
          exact ok.removed (tables.keep at_ (Bool.not_eq_true _ ▸ lasting))
            (fun _ _ => id) rfl rfl rfl
      · exact ⟨ok, fun _ => rfl⟩

end Removal

end AdkAaf.Adk.InotifyWrapper.Inotify
