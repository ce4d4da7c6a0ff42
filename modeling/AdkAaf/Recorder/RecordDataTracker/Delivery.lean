import AdkAaf.Recorder.RecordDataTracker.Tasks

/-! Every task of `RecordDataTracker` delivers its messages once and in order. An id
stands in at most one place: in one of the waiting lists, or with one worker thread. The
task of a waiting id has advanced `beginSqn` past everything it delivered. -/

set_option autoImplicit false

namespace AdkAaf.Recorder.RecordDataTracker

open Function Lib Option List

def Task.Settled (task : Task) : Prop := task.beginSqn = task.begin + task.delivered.length

structure Task.Valid (task : Task) : Prop where
  inOrder : task.InOrder
  positive : 1 ≤ task.beginSqn
  beforeEnd : task.endSqn ≠ kMostRecent → task.beginSqn < task.endSqn

/-- A worker thread in the loop of `ReadHisMessage`, with the next number to deliver. -/
structure Task.Loops (entries : Nat) (task : Task) (next endMsgSqn : Nat) : Prop where
  delivered : next = task.begin + task.delivered.length
  inRange : next ≤ endMsgSqn + 1
  started : task.beginSqn ≤ endMsgSqn
  indexed : endMsgSqn ≤ entries
  beforeEnd : task.endSqn ≠ kMostRecent → endMsgSqn < task.endSqn

def PcValid (tasks : List Task) (indexFileSize : Nat → Nat) (pc : Pc) : Prop :=
  ∀ number, pc.task = some number → ∃ task, tasks[number]? = some task ∧
    match pc with
    | .idle | .moving | .popping | .completing _ | .removing _ => True
    | .taken _ | .sizing _ | .again _ | .watching _ => task.Settled
    | .looping _ curMsgSqn endMsgSqn =>
      task.Loops (getMsgSqn (indexFileSize task.file)) curMsgSqn endMsgSqn
    | .fetching _ curMsgSqn endMsgSqn =>
      task.Loops (getMsgSqn (indexFileSize task.file)) curMsgSqn endMsgSqn ∧
        curMsgSqn ≤ endMsgSqn
    | .calling _ curMsgSqn endMsgSqn =>
      task.Loops (getMsgSqn (indexFileSize task.file)) (curMsgSqn + 1) endMsgSqn

def Known (state : State) (id : Int32) (number : Nat) : Prop :=
  state.asyncTasksMap id = some number ∨ (id, number) ∈ state.preAsyncTasksMap

def Refers (state : State) (id : Int32) (number : Nat) : Prop :=
  Known state id number ∨ ∃ pc ∈ state.workers, pc.task = some number ∧
    ∃ task, state.tasks[number]? = some task ∧ task.id = id

structure Invariant (state : State) : Prop where
  once : ∀ id, queued state id + extent (Pc.holds state.tasks id) state.workers ≤ 1
  unique : ∀ id first second, Refers state id first → Refers state id second → first = second
  known : ∀ id number, Known state id number →
    ∃ task, state.tasks[number]? = some task ∧ task.id = id
  moving : ∀ mover, state.preMutex = some mover → ∀ entry ∈ mover.tasks,
    entry ∈ state.preAsyncTasksMap
  settled : ∀ id number task, 0 < queued state id → Known state id number →
    state.tasks[number]? = some task → task.Settled
  workers : ∀ pc ∈ state.workers, PcValid state.tasks state.indexFileSize pc
  tasks : ∀ task ∈ state.tasks, task.Valid
  pending : ∀ reading ∈ state.pending, 1 ≤ reading.begin ∧
    (reading.endSqn ≠ kMostRecent → reading.begin < reading.endSqn)

variable {pc : Pc}

variable {tasks : List Task}

theorem holds_of_task {n : Nat} {task : Task} (at_ : pc.task = some n)
    (found : tasks[n]? = some task) (id : Int32) :
    pc.holds tasks id = if task.id = id then 1 else 0 := by
  simp [Pc.holds, at_, bind_some, found]

theorem holds_of_none (at_ : pc.task = none) (id : Int32) : pc.holds tasks id = 0 := by
  simp [Pc.holds, at_, bind_none]

variable {state : State}

theorem Invariant.apart (ok : Invariant state) {first second n : Nat} {other : Pc}
    (firstAt : state.workers[first]? = some pc) (secondAt : state.workers[second]? = some other)
    (pcTask : pc.task = some n) (otherTask : other.task = some n) : first = second := by
  by_contra apart
  obtain ⟨task, found, _⟩ := ok.workers pc (mem_of_getElem? firstAt) n pcTask
  have once := ok.once task.id
  have without := extent_set (Pc.holds state.tasks task.id) firstAt .idle
  have remains : (state.workers.set first .idle)[second]? = some other := by
    rw [List.getElem?_set_ne apart]
    exact secondAt
  have neither := extent_set (Pc.holds state.tasks task.id) remains .idle
  rw [holds_of_task pcTask found, if_pos rfl, holds_of_none rfl] at without
  rw [holds_of_task otherTask found, if_pos rfl, holds_of_none rfl] at neither
  omega

theorem Invariant.exactlyOnce (ok : Invariant state) : ExactlyOnce state where
  inOrder task mem := (ok.tasks task mem).inOrder
  alone _ _ _ _ _ _ _ firstAt secondAt := ok.apart firstAt secondAt rfl rfl

theorem initialState_invariant (workers : Nat) (indexFileSize : Nat → Nat) :
    Invariant (initialState workers indexFileSize) := by
  have idle : ∀ pc ∈ (initialState workers indexFileSize).workers, pc = .idle :=
    fun pc mem => eq_of_mem_replicate mem
  constructor
  case once =>
    intro id
    have none : extent (Pc.holds [] id) (replicate workers .idle) = 0 :=
      extent_eq_zero _ fun pc mem => by rw [eq_of_mem_replicate mem]; rfl
    change 0 + 0 + extent (Pc.holds [] id) (replicate workers .idle) ≤ 1
    omega
  case unique =>
    intro id first second refers
    rcases refers with (known | known) | ⟨pc, mem, at_, _⟩
    · cases known
    · cases known
    · rw [idle pc mem] at at_
      cases at_
  case known =>
    intro id n known
    cases known with
    | inl known | inr known => cases known
  case moving =>
    nofun
  case settled =>
    intro id n task _ known
    cases known with
    | inl known | inr known => cases known
  case workers =>
    intro pc mem n at_
    rw [idle pc mem] at at_
    cases at_
  case tasks =>
    nofun
  case pending =>
    nofun

section Registry

variable {state : State}

theorem Invariant.shrink {next : State} (ok : Invariant state)
    (tasks : next.tasks = state.tasks) (workers : next.workers = state.workers)
    (sizes : next.indexFileSize = state.indexFileSize) (pending : next.pending = state.pending)
    (fewer : ∀ id, queued next id ≤ queued state id)
    (known : ∀ id number, Known next id number → Known state id number)
    (moving : ∀ mover, next.preMutex = some mover → ∀ entry ∈ mover.tasks,
      entry ∈ next.preAsyncTasksMap) : Invariant next := by
  constructor
  case once =>
    intro id
    rw [tasks, workers]
    exact Nat.le_trans (Nat.add_le_add_right (fewer id) _) (ok.once id)
  case unique =>
    intro id first second firstRefers secondRefers
    have back : ∀ number, Refers next id number → Refers state id number := by
      intro number refers
      unfold Refers at refers ⊢
      rw [tasks, workers] at refers
      exact refers.imp_left (known id number)
    exact ok.unique id first second (back first firstRefers) (back second secondRefers)
  case known =>
    intro id number knows
    rw [tasks]
    exact ok.known id number (known id number knows)
  case moving => exact moving
  case settled =>
    intro id number task waits knows found
    rw [tasks] at found
    exact ok.settled id number task (waits.trans_le (fewer id))
      (known id number knows) found
  case workers =>
    rw [tasks, workers, sizes]
    exact ok.workers
  case tasks =>
    rw [tasks]
    exact ok.tasks
  case pending =>
    rw [pending]
    exact ok.pending

variable {number : Nat}

theorem eraseTask_known {id other : Int32} (known : Known (eraseTask state id) other number) :
    Known state other number := by
  cases known with
  | inr pre => exact .inr pre
  | inl mapped =>
    simp only [eraseTask] at mapped
    by_cases same : other = id
    · rw [same, update_self] at mapped
      cases mapped
    · rw [update_of_ne same] at mapped
      exact .inl mapped

section

variable (ok : Invariant state)
include ok

theorem eraseTask_invariant (id : Int32) : Invariant (eraseTask state id) :=
  ok.shrink rfl rfl rfl rfl (fun _ => .refl) (fun _ _ => eraseTask_known) ok.moving

theorem eraseWatch_invariant (id : Int32) : Invariant (eraseWatch state id) :=
  ok.shrink rfl rfl rfl rfl (fun _ => Nat.le_refl _) (fun _ _ known => known) ok.moving

theorem stopPre_invariant (unlocked : state.preMutex = none) (id : Int32) :
    Invariant (stopPre state id) := by
  have free : ∀ {next : State}, next.preMutex = state.preMutex → ∀ mover,
      next.preMutex = some mover → ∀ entry ∈ mover.tasks, entry ∈ next.preAsyncTasksMap := by
    intro next same mover held
    rw [same, unlocked] at held
    cases held
  unfold stopPre
  split
  next =>
    refine ok.shrink rfl rfl rfl rfl ?_ ?_ (free rfl)
    · intro other
      have fewer : (state.preWaitAsyncTaskIds.erase id).count other ≤
          state.preWaitAsyncTaskIds.count other := erase_sublist.count_le other
      simp only [queued, unlocked]
      omega
    · intro other n known
      cases known with
      | inl mapped => exact .inl mapped
      | inr pre => exact .inr ((mem_filter.mp pre).1)
  next =>
    exact ok.shrink rfl rfl rfl rfl (fun _ => Nat.le_refl _) (fun _ _ known => known) (free rfl)

theorem lockPreMutex_invariant (unlocked : state.preMutex = none) (caller : Caller) :
    Invariant (lockPreMutex state caller) := by
  refine ok.shrink rfl rfl rfl rfl ?_ ?_ ?_
  · intro id
    simp only [queued, lockPreMutex, unlocked]
    exact .refl
  · intro _ _ known
    exact known
  · intro mover held entry mem
    cases held
    exact mem

end

variable {worker : Nat} {old : Pc}

section

variable (ok : Invariant state)
include ok

theorem setPc_invariant (found : state.workers[worker]? = some old)
    (kept : pc.task = old.task ∨ pc.task = none)
    (fine : PcValid state.tasks state.indexFileSize pc) : Invariant (setPc state worker pc) := by
  have place : ∀ id, pc.holds state.tasks id ≤ old.holds state.tasks id := by
    intro id
    rcases kept with same | none
    · simp only [Pc.holds, same]
      exact .refl
    · rw [holds_of_none none]
      exact Nat.zero_le _
  have back : ∀ id number, Refers (setPc state worker pc) id number → Refers state id number := by
    intro id number refers
    rcases refers with known | ⟨other, mem, at_, task⟩
    · exact .inl known
    · rcases mem_or_eq_of_mem_set mem with before | now
      · exact .inr ⟨other, before, at_, task⟩
      · subst now
        rcases kept with same | none
        · exact .inr ⟨old, mem_of_getElem? found, same ▸ at_, task⟩
        · rw [none] at at_
          cases at_
  exact { ok with
    once := by
      intro id
      have changed := extent_set (Pc.holds state.tasks id) found pc
      have before := ok.once id
      have less := place id
      change queued state id + extent (Pc.holds state.tasks id) (state.workers.set worker pc) ≤ 1
      omega
    unique := fun id first second firstRefers secondRefers =>
      ok.unique id first second (back id first firstRefers) (back id second secondRefers)
    known := ok.known
    settled := ok.settled
    workers := by
      intro other mem
      rcases mem_or_eq_of_mem_set mem with before | now
      · exact ok.workers other before
      · exact now ▸ fine }

theorem setPc_free_invariant (worker : Nat) (free : pc.task = none) :
    Invariant (setPc state worker pc) := by
  have fine : PcValid state.tasks state.indexFileSize pc := by
    intro number at_
    rw [free] at at_
    cases at_
  cases found : state.workers[worker]? with
  | some old => exact setPc_invariant ok found (.inr free) fine
  | none =>
    have outside := List.getElem?_eq_none_iff.mp found
    rw [setPc, set_eq_of_length_le outside]
    exact ok

theorem putBack_invariant {task : Task} (found : state.workers[worker]? = some old)
    (at_ : old.task = some number) (stored : state.tasks[number]? = some task)
    (settled : task.Settled) : Invariant (setPc (pushWait state task.id) worker .idle) := by
  have released : Invariant (setPc state worker .idle) := setPc_free_invariant ok worker rfl
  have waiting : ∀ id, queued (setPc (pushWait state task.id) worker .idle) id =
      queued state id + if task.id = id then 1 else 0 := by
    intro id
    simp only [queued, setPc, pushWait, count_append, count_singleton, beq_iff_eq]
    omega
  exact { released with
    once := by
      intro id
      have changed := extent_set (Pc.holds state.tasks id) found .idle
      have before := ok.once id
      rw [holds_of_task at_ stored, holds_of_none rfl] at changed
      rw [waiting]
      change _ + extent (Pc.holds state.tasks id) (state.workers.set worker .idle) ≤ 1
      omega
    unique := released.unique
    known := released.known
    settled := by
      intro id other otherTask waits known otherStored
      by_cases same : task.id = id
      · have refers : Refers state id number :=
          .inr ⟨old, mem_of_getElem? found, at_, task, stored, same⟩
        have equal := ok.unique id other number (.inl known) refers
        subst equal
        have tasks : some otherTask = some task := otherStored.symm.trans stored
        exact some.inj tasks ▸ settled
      · rw [waiting, if_neg same] at waits
        exact ok.settled id other otherTask waits known otherStored }

theorem movePreTask_invariant {mover : Mover} (held : state.preMutex = some mover) :
    Invariant (movePreTask state mover) := by
  have entries := ok.moving mover held
  unfold movePreTask
  split
  next _ id n rest pairs =>
    rw [pairs] at entries
    refine ok.shrink rfl rfl rfl rfl ?_ ?_ ?_
    · intro other
      simp only [queued, held]
      exact .refl
    · intro other otherNumber known
      cases known with
      | inr pre => exact .inr pre
      | inl mapped =>
        by_cases same : other = id
        · simp only [same, update_self, some.injEq] at mapped
          rw [same, ← mapped]
          exact .inr (entries _ mem_cons_self)
        · simp only [update_of_ne same] at mapped
          exact .inl mapped
    · intro next later entry mem
      cases later
      exact entries entry (mem_cons_of_mem _ mem)
  next id rest pairs ids =>
    refine ok.shrink rfl rfl rfl rfl ?_ ?_ ?_
    · intro other
      simp only [queued, held, pushWait, ids, count_append, count_cons, count_nil]
      omega
    · intro _ _ known
      exact known
    · intro next later entry mem
      cases later
      rw [pairs] at mem
      cases mem
  next pairs ids =>
    have moved : Invariant
        { state with preAsyncTasksMap := [], preWaitAsyncTaskIds := [], preMutex := none } := by
      refine ok.shrink rfl rfl rfl rfl ?_ ?_ ?_
      · intro other
        simp only [queued, held, ids, count_nil]
        exact .refl
      · intro other n known
        cases known with
        | inl mapped => exact .inl mapped
        | inr pre => cases pre
      · nofun
    split
    next worker _ => exact setPc_free_invariant moved worker rfl
    next =>
      exact moved.shrink rfl rfl rfl rfl (fun _ => .refl) (fun _ _ => id)
        moved.moving

theorem popTask_invariant (found : state.workers[worker]? = some .popping) :
    Invariant (popTask state worker) := by
  unfold popTask
  split
  next => exact setPc_free_invariant ok worker rfl
  next id rest waiting =>
    have before : ∀ other, queued state other =
        queued { state with waitAsyncTaskIds := rest } other + if id = other then 1 else 0 := by
      intro other
      simp only [queued, waiting, count_cons, beq_iff_eq]
      omega
    have popped : Invariant { state with waitAsyncTaskIds := rest } := by
      refine ok.shrink rfl rfl rfl rfl ?_ (fun _ _ known => known) ok.moving
      intro other
      rw [before other]
      exact Nat.le_add_right _ _
    split
    next => exact setPc_free_invariant popped worker rfl
    next number mapped =>
      obtain ⟨task, stored, same⟩ := ok.known id number (.inl mapped)
      have settled : task.Settled := by
        apply ok.settled id number task _ (.inl mapped) stored
        rw [before id, if_pos rfl]
        exact Nat.succ_pos _
      have back : ∀ other first,
          Refers (setPc { state with waitAsyncTaskIds := rest } worker (.taken number)) other
            first →
            Refers state other first := by
        intro other first refers
        rcases refers with known | ⟨pc, mem, at_, holder⟩
        · exact .inl known
        · rcases mem_or_eq_of_mem_set mem with earlier | now
          · exact .inr ⟨pc, earlier, at_, holder⟩
          · subst now
            cases at_
            obtain ⟨holderTask, holderStored, holderId⟩ := holder
            cases stored.symm.trans holderStored
            rw [← holderId, same]
            exact .inl (.inl mapped)
      exact { popped with
        once := by
          intro other
          have changed := extent_set (Pc.holds state.tasks other) found (.taken number)
          have total := ok.once other
          rw [before other] at total
          have taken :
              Pc.holds state.tasks other (.taken number) = if id = other then 1 else 0 := by
            rw [holds_of_task rfl stored, same]
          change queued { state with waitAsyncTaskIds := rest } other +
            extent (Pc.holds state.tasks other) (state.workers.set worker (.taken number)) ≤ 1
          omega
        unique := fun other first second firstRefers secondRefers =>
          ok.unique other first second (back other first firstRefers)
            (back other second secondRefers)
        __ := popped
        workers := by
          intro pc mem
          rcases mem_or_eq_of_mem_set mem with earlier | now
          · exact popped.workers pc earlier
          · subst now
            intro other at_
            cases at_
            exact ⟨task, stored, settled⟩ }

end

end Registry

section Tasks

variable {state : State}

/-- The same task, but for what only the timing and the stopping of tasks read. -/
def Task.SameProgress (task changed : Task) : Prop :=
  ∃ lastReadTime isRunning, changed = { task with lastReadTime, isRunning }

variable {tasks : List Task}

variable {number : Nat} {task changed : Task}

theorem holds_setTask (stored : tasks[number]? = some task) (same : changed.id = task.id)
    (id : Int32) (pc : Pc) : pc.holds (tasks.set number changed) id = pc.holds tasks id := by
  unfold Pc.holds
  cases at_ : pc.task with
  | none => rfl
  | some other =>
    simp only [bind_some]
    by_cases equal : number = other
    · subst equal
      rw [List.getElem?_set_self (List.getElem?_eq_some_iff.mp stored).1, stored]
      simp [same]
    · rw [List.getElem?_set_ne equal]

variable {other : Nat}

theorem setTask_cases {found : Task} (stored : tasks[number]? = some task)
    (lookup : (tasks.set number changed)[other]? = some found) :
    (other = number ∧ found = changed) ∨ (other ≠ number ∧ tasks[other]? = some found) := by
  by_cases equal : number = other
  · subst equal
    rw [List.getElem?_set_self (List.getElem?_eq_some_iff.mp stored).1] at lookup
    exact .inl ⟨rfl, (some.inj lookup).symm⟩
  · rw [List.getElem?_set_ne equal] at lookup
    exact .inr ⟨Ne.symm equal, lookup⟩

variable {id : Int32}

theorem exists_setTask (stored : tasks[number]? = some task) (same : changed.id = task.id)
    (found : ∃ task, tasks[other]? = some task ∧ task.id = id) :
    ∃ task, (tasks.set number changed)[other]? = some task ∧ task.id = id := by
  obtain ⟨otherTask, otherStored, otherId⟩ := found
  by_cases equal : number = other
  · subst equal
    cases stored.symm.trans otherStored
    exact ⟨changed, List.getElem?_set_self (List.getElem?_eq_some_iff.mp stored).1,
      same.trans otherId⟩
  · exact ⟨otherTask, by rwa [List.getElem?_set_ne equal], otherId⟩

theorem refers_setTask (stored : state.tasks[number]? = some task) (same : changed.id = task.id)
    (refers : Refers (setTask state number changed) id other) : Refers state id other := by
  rcases refers with known | ⟨pc, mem, at_, holder, holderStored, holderId⟩
  · exact .inl known
  · refine .inr ⟨pc, mem, at_, ?_⟩
    rcases setTask_cases stored holderStored with ⟨rfl, rfl⟩ | ⟨_, before⟩
    · exact ⟨task, stored, same ▸ holderId⟩
    · exact ⟨holder, before, holderId⟩

theorem setTask_invariant (ok : Invariant state) (stored : state.tasks[number]? = some task)
    (same : task.SameProgress changed) : Invariant (setTask state number changed) := by
  have sameId : changed.id = task.id := by
    obtain ⟨_, _, rfl⟩ := same
    rfl
  constructor
  case once =>
    intro id
    have before := ok.once id
    change queued state id +
      extent (Pc.holds (state.tasks.set number changed) id) state.workers ≤ 1
    rwa [show Pc.holds (state.tasks.set number changed) id = Pc.holds state.tasks id from
      funext fun pc => holds_setTask stored sameId id pc]
  case unique =>
    intro id first second firstRefers secondRefers
    exact ok.unique id first second (refers_setTask stored sameId firstRefers)
      (refers_setTask stored sameId secondRefers)
  case known =>
    intro id other known
    exact exists_setTask stored sameId (ok.known id other known)
  case moving => exact ok.moving
  case settled =>
    intro id other found waits known lookup
    rcases setTask_cases stored lookup with ⟨rfl, rfl⟩ | ⟨_, before⟩
    · obtain ⟨_, _, rfl⟩ := same
      have settled := ok.settled id other task waits known stored
      exact settled
    · exact ok.settled id other found waits known before
  case workers =>
    intro pc mem other at_
    obtain ⟨held, heldStored, holds⟩ := ok.workers pc mem other at_
    by_cases equal : number = other
    · subst equal
      cases stored.symm.trans heldStored
      obtain ⟨_, _, rfl⟩ := same
      refine ⟨_, List.getElem?_set_self (List.getElem?_eq_some_iff.mp stored).1, ?_⟩
      cases pc with
      | taken | sizing | again | watching => exact holds
      | looping | calling =>
        exact { holds with }
      | fetching =>
        obtain ⟨loops, within⟩ := holds
        exact ⟨{ loops with }, within⟩
      | _ => trivial
    · exact ⟨held, (List.getElem?_set_ne equal).trans heldStored, holds⟩
  case tasks =>
    intro other mem
    rcases mem_or_eq_of_mem_set mem with before | now
    · exact ok.tasks other before
    · have old := ok.tasks task (mem_of_getElem? stored)
      obtain ⟨_, _, rfl⟩ := same
      rw [now]
      exact ⟨{ old.inOrder with }, old.positive, old.beforeEnd⟩
  case pending => exact ok.pending

theorem advance_invariant (ok : Invariant state) {worker : Nat} {old : Pc}
    (found : state.workers[worker]? = some old) (at_ : old.task = some number)
    (goes : pc.task = some number) (stored : state.tasks[number]? = some task)
    (same : changed.id = task.id)
    (fine : PcValid (state.tasks.set number changed) state.indexFileSize pc)
    (right : changed.Valid) : Invariant (setPc (setTask state number changed) worker pc) := by
  have moved : ∀ id, extent (Pc.holds (state.tasks.set number changed) id)
      (state.workers.set worker pc) = extent (Pc.holds state.tasks id) state.workers := by
    intro id
    have changes := extent_set (Pc.holds state.tasks id) found pc
    rw [holds_of_task goes stored, holds_of_task at_ stored] at changes
    rw [show Pc.holds (state.tasks.set number changed) id = Pc.holds state.tasks id from
      funext fun pc => holds_setTask stored same id pc]
    omega
  have held : ∀ id, task.id = id → queued state id = 0 := by
    intro id mine
    have once := ok.once id
    have without := extent_set (Pc.holds state.tasks id) found .idle
    rw [holds_of_task at_ stored, if_pos mine, holds_of_none rfl] at without
    omega
  have back : ∀ id other, Refers (setPc (setTask state number changed) worker pc) id other →
      Refers state id other := by
    intro id other refers
    rcases refers with known | ⟨holder, mem, holderAt, holderTask⟩
    · exact .inl known
    · rcases mem_or_eq_of_mem_set mem with earlier | now
      · exact refers_setTask stored same (.inr ⟨holder, earlier, holderAt, holderTask⟩)
      · subst now
        refine refers_setTask stored same (.inr ⟨old, mem_of_getElem? found, ?_, holderTask⟩)
        rw [at_, ← goes, holderAt]
  constructor
  case once =>
    intro id
    change queued state id + extent (Pc.holds (state.tasks.set number changed) id)
      (state.workers.set worker pc) ≤ 1
    rw [moved id]
    exact ok.once id
  case unique =>
    intro id first second firstRefers secondRefers
    exact ok.unique id first second (back id first firstRefers) (back id second secondRefers)
  case known =>
    intro id other known
    exact exists_setTask stored same (ok.known id other known)
  case moving => exact ok.moving
  case settled =>
    intro id other otherTask waits known lookup
    rcases setTask_cases stored lookup with ⟨rfl, _⟩ | ⟨_, before⟩
    -- the id of the changed task is with its worker thread and does not wait
    · obtain ⟨knownTask, knownStored, knownId⟩ := ok.known id other known
      cases stored.symm.trans knownStored
      have none := held id knownId
      have some : 0 < queued state id := waits
      omega
    · exact ok.settled id other otherTask waits known before
  case workers =>
    intro other mem
    rcases mem_or_eq_of_mem_set mem with earlier | now
    · by_cases same : other.task = some number
      · obtain ⟨index, lookup⟩ := List.getElem?_of_mem mem
        rw [setPc, List.getElem?_set] at lookup
        split at lookup
        next =>
          split at lookup
          next => exact some.inj lookup ▸ fine
          next => cases lookup
        next apart => exact absurd (ok.apart found lookup at_ same) apart
      · intro otherNumber otherAt
        obtain ⟨otherTask, otherStored, holds⟩ := ok.workers other earlier otherNumber otherAt
        have apart : number ≠ otherNumber := fun equal => same (equal ▸ otherAt)
        exact ⟨otherTask, (List.getElem?_set_ne apart).trans otherStored, holds⟩
    · exact now ▸ fine
  case tasks =>
    intro other mem
    rcases mem_or_eq_of_mem_set mem with before | now
    · exact ok.tasks other before
    · exact now ▸ right
  case pending => exact ok.pending

end Tasks

section NewTasks

variable {state : State}

variable {tasks : List Task} {sizes : Nat → Nat}

theorem PcValid.append (ok : PcValid tasks sizes pc) (task : Task) :
    PcValid (tasks ++ [task]) sizes pc := by
  intro n at_
  obtain ⟨held, stored, holds⟩ := ok n at_
  refine ⟨held, ?_, holds⟩
  rw [List.getElem?_append_left (List.getElem?_eq_some_iff.mp stored).1]
  exact stored

theorem holds_append (ok : PcValid tasks sizes pc) (task : Task) (id : Int32) :
    pc.holds (tasks ++ [task]) id = pc.holds tasks id := by
  cases at_ : pc.task with
  | none => rw [holds_of_none at_, holds_of_none at_]
  | some n =>
    obtain ⟨held, stored, _⟩ := ok n at_
    have kept : (tasks ++ [task])[n]? = some held := by
      rw [List.getElem?_append_left (List.getElem?_eq_some_iff.mp stored).1]
      exact stored
    rw [holds_of_task at_ stored, holds_of_task at_ kept]

theorem not_refers_of_free {id : Int32} (free : inUse state id = false) (number : Nat) :
    ¬Refers state id number := by
  simp only [inUse, Bool.or_eq_false_iff, decide_eq_false_iff_not, isSome_eq_false_iff,
    isNone_iff_eq_none, List.any_eq_false] at free
  obtain ⟨⟨none, unmapped⟩, unlisted⟩ := free
  intro refers
  rcases refers with (mapped | listed) | ⟨pc, mem, at_, task, stored, same⟩
  · rw [unmapped] at mapped
    cases mapped
  · exact unlisted _ listed (decide_eq_true rfl)
  · obtain ⟨worker, found⟩ := List.getElem?_of_mem mem
    have without := extent_set (Pc.holds state.tasks id) found .idle
    rw [holds_of_task at_ stored, if_pos same, holds_of_none rfl] at without
    omega

theorem addTask_invariant (ok : Invariant state) (unlocked : state.preMutex = none)
    {n : Nat} {reading : Reading} (found : state.pending[n]? = some reading)
    (free : inUse state reading.id = false) : Invariant (addTask state n reading) := by
  obtain ⟨pos, ends⟩ := ok.pending reading (mem_of_getElem? found)
  have absent := not_refers_of_free free
  have unused : queued state reading.id +
      extent (Pc.holds state.tasks reading.id) state.workers = 0 := by
    simp only [inUse, Bool.or_eq_false_iff, decide_eq_false_iff_not] at free
    omega
  have unlisted : state.preAsyncTasksMap.any (·.1 = reading.id) = false := by
    simp only [inUse, Bool.or_eq_false_iff] at free
    exact free.2
  have waiting : ∀ id, queued (addTask state n reading) id =
      queued state id + if reading.id = id then 1 else 0 := by
    intro id
    simp only [queued, addTask, unlocked, count_append, count_singleton, beq_iff_eq]
    omega
  have held : ∀ id, extent (Pc.holds (addTask state n reading).tasks id) state.workers =
      extent (Pc.holds state.tasks id) state.workers := by
    intro id
    apply congrArg sum
    apply map_congr_left
    intro pc mem
    exact holds_append (ok.workers pc mem) _ id
  have known : ∀ id other, Known (addTask state n reading) id other →
      Known state id other ∨ (id = reading.id ∧ other = state.tasks.length) := by
    intro id other knows
    rcases knows with mapped | listed
    · exact .inl (.inl mapped)
    · simp only [addTask, unlisted, Bool.false_eq_true, ↓reduceIte, mem_append,
        mem_singleton, Prod.mk.injEq] at listed
      exact listed.imp_left .inr
  have old : ∀ {other : Nat} {task : Task}, state.tasks[other]? = some task →
      (addTask state n reading).tasks[other]? = some task := by
    intro other task stored
    exact (List.getElem?_append_left (List.getElem?_eq_some_iff.mp stored).1).trans stored
  have refers : ∀ id other, Refers (addTask state n reading) id other →
      Refers state id other ∨ (id = reading.id ∧ other = state.tasks.length) := by
    intro id other refers
    rcases refers with knows | ⟨pc, mem, at_, task, stored, same⟩
    · exact (known id other knows).imp_left .inl
    · obtain ⟨heldTask, heldStored, _⟩ := ok.workers pc mem other at_
      cases (old heldStored).symm.trans stored
      exact .inl (.inr ⟨pc, mem, at_, task, heldStored, same⟩)
  constructor
  case once =>
    intro id
    have before := ok.once id
    change queued (addTask state n reading) id +
      extent (Pc.holds (addTask state n reading).tasks id) state.workers ≤ 1
    rw [waiting, held]
    split
    next same =>
      subst same
      omega
    next => exact before
  case unique =>
    intro id first second firstRefers secondRefers
    rcases refers id first firstRefers with firstOld | ⟨firstId, firstNew⟩
    · rcases refers id second secondRefers with secondOld | ⟨secondId, _⟩
      · exact ok.unique id first second firstOld secondOld
      · exact absurd (secondId ▸ firstOld) (absent first)
    · rcases refers id second secondRefers with secondOld | ⟨_, secondNew⟩
      · exact absurd (firstId ▸ secondOld) (absent second)
      · rw [firstNew, secondNew]
  case known =>
    intro id other knows
    rcases known id other knows with before | ⟨rfl, rfl⟩
    · obtain ⟨task, stored, same⟩ := ok.known id other before
      exact ⟨task, old stored, same⟩
    · exact ⟨_, List.getElem?_concat_length, rfl⟩
  case moving =>
    intro mover locked
    change state.preMutex = some mover at locked
    rw [unlocked] at locked
    cases locked
  case settled =>
    intro id other task waits knows stored
    rcases known id other knows with before | ⟨_, rfl⟩
    · obtain ⟨knownTask, knownStored, _⟩ := ok.known id other before
      cases (old knownStored).symm.trans stored
      have apart : reading.id ≠ id := fun same => absent other (same ▸ .inl before)
      rw [waiting, if_neg apart] at waits
      exact ok.settled id other task waits before knownStored
    · cases List.getElem?_concat_length.symm.trans stored
      rfl
  case workers =>
    intro pc mem
    exact (ok.workers pc mem).append _
  case tasks =>
    intro task mem
    rcases mem_append.mp mem with before | now
    · exact ok.tasks task before
    · rw [mem_singleton.mp now]
      refine ⟨⟨rfl, ?_, ?_⟩, pos, ends⟩
      all_goals nofun
  case pending =>
    intro other mem
    exact ok.pending other (mem_of_mem_eraseIdx mem)

end NewTasks

section Work

variable {config : Config} {state : State} {worker number : Nat} {old : Pc} {task : Task}

section

variable (ok : Invariant state) (found : state.workers[worker]? = some old)
  (at_ : old.task = some number) (stored : state.tasks[number]? = some task)
include ok found at_ stored

theorem removing_invariant : Invariant (setPc state worker (.removing number)) := by
  refine setPc_invariant ok found (.inl at_.symm) ?_
  intro other same
  cases same
  exact ⟨task, stored, trivial⟩

theorem sizing_invariant (settled : task.Settled) :
    Invariant (setPc state worker (.sizing number)) := by
  refine setPc_invariant ok found (.inl at_.symm) ?_
  intro other same
  cases same
  exact ⟨task, stored, settled⟩

theorem pollTask_invariant (settled : task.Settled) (now : Nat) :
    Invariant (pollTask config state worker number task now) := by
  unfold pollTask
  split
  next =>
    split
    next => exact removing_invariant ok found at_ stored
    next =>
      split
      next => exact putBack_invariant ok found at_ stored settled
      next => exact sizing_invariant ok found at_ stored settled
  next => exact sizing_invariant ok found at_ stored settled

end

theorem tryAgain_pc (task : Task) (number : Nat) :
    (if task.endSqn = kMostRecent then Pc.again number else .sizing number).task = some number := by
  split <;> rfl

theorem tryAgain_fine {tasks : List Task} {sizes : Nat → Nat} {settledTask : Task}
    (stored : tasks[number]? = some settledTask) (settled : settledTask.Settled) (task : Task) :
    PcValid tasks sizes (if task.endSqn = kMostRecent then .again number else .sizing number) := by
  split
  all_goals
    intro other same
    cases same
    exact ⟨settledTask, stored, settled⟩

theorem sizeIndex_invariant (ok : Invariant state) (found : state.workers[worker]? = some old)
    (at_ : old.task = some number) (stored : state.tasks[number]? = some task)
    (settled : task.Settled) : Invariant (sizeIndex state worker number task) := by
  have right := ok.tasks task (mem_of_getElem? stored)
  unfold sizeIndex
  dsimp only
  split
  next =>
    exact setPc_invariant ok found (.inl ((tryAgain_pc task number).trans at_.symm))
      (tryAgain_fine stored settled task)
  next more =>
    refine setPc_invariant ok found (.inl at_.symm) ?_
    intro other same
    cases same
    refine ⟨task, stored, ?_⟩
    change task.Loops (lastMsgSqn state task) task.beginSqn _
    have last : task.beginSqn ≤ lastMsgSqn state task := by omega
    split
    next ended =>
      have before := right.beforeEnd ended.1
      refine ⟨settled, by omega, by omega, ?_, fun _ => by omega⟩
      exact Nat.le_trans (Nat.sub_le _ _) ended.2
    next goesOn =>
      refine ⟨settled, by omega, last, .refl, ?_⟩
      intro ends
      exact Nat.lt_of_not_le fun reached => goesOn ⟨ends, reached⟩

variable {curMsgSqn endMsgSqn : Nat}

section

variable (ok : Invariant state)
include ok

theorem loopHead_invariant
    (found : state.workers[worker]? = some (.looping number curMsgSqn endMsgSqn))
    (stored : state.tasks[number]? = some task)
    (loops : task.Loops (lastMsgSqn state task) curMsgSqn endMsgSqn) :
    Invariant (loopHead state worker number task curMsgSqn endMsgSqn) := by
  have right := ok.tasks task (mem_of_getElem? stored)
  have inside := (List.getElem?_eq_some_iff.mp stored).1
  unfold loopHead
  split
  next within =>
    split
    next =>
      refine setPc_invariant ok found (.inl rfl) ?_
      intro other same
      cases same
      exact ⟨task, stored, loops, within⟩
    next => exact removing_invariant ok found rfl stored
  next past =>
    have delivered := loops.delivered
    have inRange := loops.inRange
    split
    next goesOn =>
      rw [if_pos loops.started]
      have settled : Task.Settled { task with beginSqn := endMsgSqn + 1 } := by
        change endMsgSqn + 1 = task.begin + task.delivered.length
        omega
      refine advance_invariant ok found rfl (tryAgain_pc task number) stored rfl
        (tryAgain_fine (List.getElem?_set_self inside) settled task) ?_
      refine ⟨{ right.inOrder with }, Nat.succ_pos _, ?_⟩
      intro ends
      have less := goesOn.resolve_left ends
      exact Nat.add_lt_of_lt_sub less
    next =>
      refine setPc_invariant ok found (.inl rfl) ?_
      intro other same
      cases same
      exact ⟨task, stored, trivial⟩

theorem deliver_invariant
    (found : state.workers[worker]? = some (.fetching number curMsgSqn endMsgSqn))
    (stored : state.tasks[number]? = some task)
    (loops : task.Loops (lastMsgSqn state task) curMsgSqn endMsgSqn)
    (within : curMsgSqn ≤ endMsgSqn) :
    Invariant (deliver state worker number task curMsgSqn endMsgSqn) := by
  have right := ok.tasks task (mem_of_getElem? stored)
  have inside := (List.getElem?_eq_some_iff.mp stored).1
  have delivered := loops.delivered
  refine advance_invariant ok found rfl rfl stored rfl ?_ ?_
  · intro other same
    cases same
    refine ⟨_, List.getElem?_set_self inside, ?_⟩
    refine { loops with delivered := ?_, inRange := Nat.succ_le_succ within }
    simp only [length_append, length_singleton]
    omega
  · refine ⟨⟨?_, ?_, ?_⟩, right.positive, right.beforeEnd⟩
    · simp only [map_append, map_cons, map_nil, length_append,
        length_singleton]
      rw [right.inOrder.consecutive, range'_1_concat, ← delivered]
    · intro ends call mem
      rcases mem_append.mp mem with before | now
      · exact right.inOrder.beforeEnd ends call before
      · rw [mem_singleton.mp now]
        exact within.trans_lt (loops.beforeEnd ends)
    · intro call mem
      rcases mem_append.mp mem with before | now
      · exact right.inOrder.indexed call before
      · rw [mem_singleton.mp now]
        exact within.trans loops.indexed

theorem again_invariant (found : state.workers[worker]? = some (.again number))
    (stored : state.tasks[number]? = some task) (settled : task.Settled) (now : Nat) :
    Invariant (putBack state worker number task now) := by
  unfold putBack
  split
  next => exact setPc_free_invariant (eraseWatch_invariant ok task.id) worker rfl
  next =>
    have read : Invariant (setTask state number { task with lastReadTime := now }) :=
      setTask_invariant ok stored ⟨now, task.isRunning, rfl⟩
    have kept : (setTask state number { task with lastReadTime := now }).tasks[number]? =
        some { task with lastReadTime := now } :=
      List.getElem?_set_self (List.getElem?_eq_some_iff.mp stored).1
    split
    next =>
      have pushed := putBack_invariant read found rfl kept settled
      exact pushed
    next =>
      refine setPc_invariant read found (.inl rfl) ?_
      intro other same
      cases same
      exact ⟨_, kept, settled⟩

theorem addWatch_invariant (found : state.workers[worker]? = some (.watching number))
    (stored : state.tasks[number]? = some task) (settled : task.Settled) (outcome : Outcome) :
    Invariant (addWatch state worker task outcome) := by
  cases outcome with
  | success =>
    have watched : Invariant { state with
        watchAsyncTaskIds := update state.watchAsyncTaskIds task.id true } :=
      ok.shrink rfl rfl rfl rfl (fun _ => .refl) (fun _ _ => id) ok.moving
    exact putBack_invariant watched found rfl stored settled
  | failure => exact setPc_free_invariant (eraseTask_invariant ok task.id) worker rfl
  | exception => exact setPc_free_invariant ok worker rfl

end

variable {outcome : Outcome} {now : Nat} {next : State}

theorem workTask_invariant (ok : Invariant state) (found : state.workers[worker]? = some old)
    (at_ : old.task = some number) (stored : state.tasks[number]? = some task)
    (went : workTask config state worker outcome now old number task = some next) :
    Invariant next := by
  obtain ⟨held, heldStored, holds⟩ := ok.workers old (mem_of_getElem? found) number at_
  cases stored.symm.trans heldStored
  cases old with
  | idle | moving | popping => cases at_
  | taken =>
    cases at_
    exact some.inj went ▸ pollTask_invariant ok found rfl stored holds now
  | sizing =>
    cases at_
    cases outcome with
    | success => exact some.inj went ▸ sizeIndex_invariant ok found rfl stored holds
    | failure | exception =>
      exact some.inj went ▸ removing_invariant ok found rfl stored
  | looping _ curMsgSqn endMsgSqn =>
    cases at_
    exact some.inj went ▸ loopHead_invariant ok found stored holds
  | fetching _ curMsgSqn endMsgSqn =>
    cases at_
    cases outcome with
    | success =>
      exact some.inj went ▸ deliver_invariant ok found stored holds.1 holds.2
    | failure | exception =>
      exact some.inj went ▸ removing_invariant ok found rfl stored
  | calling _ curMsgSqn endMsgSqn =>
    cases at_
    cases outcome with
    | success =>
      rw [← some.inj went]
      refine setPc_invariant ok found (.inl rfl) ?_
      intro other same
      cases same
      exact ⟨task, stored, holds⟩
    | failure => exact some.inj went ▸ removing_invariant ok found rfl stored
    | exception => exact some.inj went ▸ setPc_free_invariant ok worker rfl
  | again =>
    cases at_
    exact some.inj went ▸ again_invariant ok found stored holds now
  | watching =>
    cases at_
    exact some.inj went ▸ addWatch_invariant ok found stored holds outcome
  | completing =>
    cases at_
    simp only [workTask] at went
    split at went
    next => exact some.inj went ▸ removing_invariant ok found rfl stored
    next => exact some.inj went ▸ setPc_free_invariant ok worker rfl
  | removing =>
    exact some.inj went ▸ setPc_free_invariant
      (eraseWatch_invariant (eraseTask_invariant ok task.id) task.id) worker rfl

theorem work_invariant (ok : Invariant state)
    (went : work config state worker outcome now = some next) : Invariant next := by
  obtain ⟨pc, found, rest⟩ := bind_eq_some_iff.mp went
  split at rest
  next popping =>
    rw [popping] at found
    exact some.inj rest ▸ popTask_invariant ok found
  next =>
    obtain ⟨number, at_, rest⟩ := bind_eq_some_iff.mp rest
    obtain ⟨task, stored, rest⟩ := bind_eq_some_iff.mp rest
    exact workTask_invariant ok found at_ stored rest

end Work

end AdkAaf.Recorder.RecordDataTracker
