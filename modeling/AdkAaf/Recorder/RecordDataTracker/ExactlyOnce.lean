import AdkAaf.Recorder.RecordDataTracker.Delivery

/-! Runs of `RecordDataTracker`: as long as no id is drawn that is still in use, every
task delivers exactly once and in order. The ids are those of a 32-bit counter. -/

set_option autoImplicit false

namespace AdkAaf.Recorder.RecordDataTracker

open Function Lib Option List

section Steps

variable {config : Config} {state next : State}

section

variable (ok : Invariant state)
include ok

theorem asyncRead_invariant (file begin endSqn : Nat) :
    Invariant (asyncRead state file begin endSqn) := by
  unfold asyncRead
  split
  next => exact ok
  next accepted =>
    simp only [not_or, not_and] at accepted
    obtain ⟨_, pos, ends⟩ := accepted
    refine { ok with
      __ := ok
      pending := ?_ }
    intro reading mem
    rcases mem_append.mp mem with before | now
    · exact ok.pending reading before
    · rw [mem_singleton.mp now]
      exact ⟨Nat.pos_of_ne_zero pos, fun some => Nat.lt_of_not_le (ends some)⟩

theorem grow_invariant (file bytes : Nat) :
    Invariant { state with
      indexFileSize :=
        update state.indexFileSize file (state.indexFileSize file + bytes) } := by
  have grows : ∀ other, getMsgSqn (state.indexFileSize other) ≤ getMsgSqn
      (update state.indexFileSize file (state.indexFileSize file + bytes) other) := by
    intro other
    apply Nat.div_le_div_right
    by_cases same : other = file
    · rw [same, update_self]
      exact Nat.le_add_right _ _
    · exact Nat.le_of_eq (update_of_ne same _ _).symm
  have later : ∀ {task : Task} {next endMsgSqn : Nat},
      task.Loops (getMsgSqn (state.indexFileSize task.file)) next endMsgSqn →
      task.Loops (getMsgSqn (update state.indexFileSize file
        (state.indexFileSize file + bytes) task.file)) next endMsgSqn := fun loops =>
    { loops with indexed := loops.indexed.trans (grows _) }
  refine { ok with
    __ := ok
    workers := ?_ }
  intro pc mem n at_
  obtain ⟨task, stored, holds⟩ := ok.workers pc mem n at_
  refine ⟨task, stored, ?_⟩
  cases pc with
  | taken | sizing | again | watching => exact holds
  | looping | calling => exact later holds
  | fetching => exact ⟨later holds.1, holds.2⟩
  | _ => trivial

theorem stopTask_invariant (id : Int32) : Invariant (stopTask state id) := by
  have stopped : Invariant { eraseWatch state id with
      stopping := state.stopping.erase id
      waitAsyncTaskIds := state.waitAsyncTaskIds.erase id } := by
    refine ok.shrink rfl rfl rfl rfl ?_ (fun _ _ known => known) ok.moving
    intro other
    have fewer : (state.waitAsyncTaskIds.erase id).count other ≤
        state.waitAsyncTaskIds.count other := erase_sublist.count_le other
    exact Nat.add_le_add_left fewer _
  unfold stopTask
  split
  next => exact stopped
  next =>
    split
    next => exact eraseTask_invariant stopped id
    next task stored =>
      exact eraseTask_invariant
        (setTask_invariant stopped stored ⟨task.lastReadTime, false, rfl⟩) id

theorem watcher_invariant (watcher : WatchPc) : Invariant { state with watcher } :=
  ok.shrink rfl rfl rfl rfl (fun _ => .refl) (fun _ _ => id) ok.moving

theorem findTask_invariant (id : Int32) : Invariant (findTask state id) := by
  unfold findTask
  split
  next => exact watcher_invariant (eraseWatch_invariant ok id) .idle
  next => exact watcher_invariant ok _

theorem signalTask_invariant (event : WatchEvent) (n : Nat) (id : Int32) :
    Invariant (signalTask state event n id) := by
  cases event with
  | delete => exact watcher_invariant (eraseWatch_invariant ok id) .idle
  | modify =>
    simp only [signalTask]
    split
    next => exact watcher_invariant ok .idle
    next task stored =>
      exact watcher_invariant (setTask_invariant ok stored ⟨0, task.isRunning, rfl⟩) .idle

end

theorem step_invariant {action : Action} (ok : Invariant state)
    (fresh : FreshId state action) (went : step config state action = some next) :
    Invariant next := by
  cases action with
  | grow file bytes => exact some.inj went ▸ grow_invariant ok file bytes
  | stop =>
    exact some.inj went ▸ ok.shrink rfl rfl rfl rfl (fun _ => .refl)
      (fun _ _ => id) ok.moving
  | asyncRead file begin endSqn =>
    exact some.inj went ▸ asyncRead_invariant ok file begin endSqn
  | abandonRead number =>
    rw [← some.inj went]
    exact { ok with
      __ := ok
      pending := fun reading mem => ok.pending reading (mem_of_mem_eraseIdx mem) }
  | addTask number =>
    simp only [step, ite_none_right_eq_some, isNone_iff_eq_none] at went
    obtain ⟨unlocked, mapped⟩ := went
    obtain ⟨reading, found, rfl⟩ := map_eq_some_iff.mp mapped
    exact addTask_invariant ok unlocked found (fresh reading found)
  | stopPre id =>
    simp only [step, ite_none_right_eq_some, isNone_iff_eq_none, some.injEq] at went
    exact went.2 ▸ stopPre_invariant ok went.1 id
  | stopTask id =>
    simp only [step, ite_none_right_eq_some, some.injEq] at went
    exact went.2 ▸ stopTask_invariant ok id
  | getTask worker =>
    simp only [step, ite_none_right_eq_some, isNone_iff_eq_none, some.injEq] at went
    obtain ⟨⟨_, unlocked, _⟩, rfl⟩ := went
    exact setPc_free_invariant (lockPreMutex_invariant ok unlocked (.worker worker)) worker rfl
  | onWatch =>
    simp only [step, ite_none_right_eq_some, isNone_iff_eq_none, some.injEq] at went
    obtain ⟨⟨unlocked, _⟩, rfl⟩ := went
    exact watcher_invariant (lockPreMutex_invariant ok unlocked .watcher) .moving
  | movePreTask =>
    obtain ⟨mover, held, rfl⟩ := map_eq_some_iff.mp went
    exact movePreTask_invariant ok held
  | find id =>
    simp only [step, ite_none_right_eq_some, some.injEq] at went
    exact went.2 ▸ findTask_invariant ok id
  | signal event =>
    simp only [step] at went
    split at went
    next number id _ =>
      exact some.inj went ▸ signalTask_invariant ok event number id
    next => cases went
  | work worker outcome now => exact work_invariant ok went

end Steps

/-- In every interleaving in which no call draws the id of a task that is still waiting,
known or being worked on, each task's callback gets the numbers from its begin on without
gap or repetition, before its end and within the index, from one worker thread at a time. -/
theorem delivers_exactly_once {config : Config} {workers : Nat} {indexFileSize : Nat → Nat}
    {actions : List Action} {final : State}
    (guarded : Guarded (step config) FreshId (initialState workers indexFileSize) actions)
    (ran : execute (step config) (initialState workers indexFileSize) actions = some final) :
    ExactlyOnce final :=
  (invariant_of_guarded step_invariant (initialState_invariant workers indexFileSize) guarded
    ran).exactlyOnce

/-- A subscription reads two messages, is put back, and reads the next one after the index
has grown and its watch has fired. -/
def subscriptionRun : List Action :=
  [.asyncRead 0 1 0, .addTask 0, .getTask 0, .movePreTask, .movePreTask, .movePreTask,
    .work 0 .success 0, .work 0 .success 100, .work 0 .success 0, .work 0 .success 0,
    .work 0 .success 0, .work 0 .success 0, .work 0 .success 0, .work 0 .success 0,
    .work 0 .success 0, .work 0 .success 0, .work 0 .success 101, .work 0 .success 0,
    .grow 0 17, .onWatch, .movePreTask, .find 1, .signal .modify,
    .getTask 1, .movePreTask, .work 1 .success 0, .work 1 .success 102, .work 1 .success 0,
    .work 1 .success 0, .work 1 .success 0]

theorem subscription_delivers_exactly_once :
    ∃ final, execute (step ⟨10, true⟩) (initialState 2 fun _ => 40) subscriptionRun = some final ∧
      (final.tasks.map fun task => task.delivered.map (·.sqn)) = [[1, 2, 3]] ∧
      ExactlyOnce final := by
  have guarded : Guarded (step ⟨10, true⟩) FreshId (initialState 2 fun _ => 40)
      subscriptionRun := by decide +kernel
  have checked : ∃ final, execute (step ⟨10, true⟩) (initialState 2 fun _ => 40)
      subscriptionRun = some final ∧
        (final.tasks.map fun task => task.delivered.map (·.sqn)) = [[1, 2, 3]] :=
    execute_check (by decide +kernel)
  obtain ⟨final, ran, delivered⟩ := checked
  exact ⟨final, ran, delivered, delivers_exactly_once guarded ran⟩

def failedReads (count : Nat) : List Action :=
  (replicate count [Action.asyncRead 0 1 0, .abandonRead 0]).flatten

theorem execute_failedReads {config : Config} {state : State} (count : Nat)
    (running : state.running = true) (none : state.pending = []) :
    execute (step config) state (failedReads count) =
      some { state with asyncReadCount := state.asyncReadCount + Int32.ofNat count } := by
  induction count generalizing state with
  | zero =>
    have same : state.asyncReadCount + Int32.ofNat 0 = state.asyncReadCount := Int32.add_zero _
    rw [same]
    rfl
  | succ count ih =>
    have once : failedReads (count + 1) =
        .asyncRead 0 1 0 :: .abandonRead 0 :: failedReads count := rfl
    have drawn : step config state (.asyncRead 0 1 0) = some { state with
        asyncReadCount := state.asyncReadCount + 1
        pending := [{ id := state.asyncReadCount + 1, file := 0, begin := 1, endSqn := 0 }] } := by
      simp [step, asyncRead, running, none, kMostRecent]
    have numbers : state.asyncReadCount + Int32.ofNat (count + 1) =
        state.asyncReadCount + 1 + Int32.ofNat count := by
      rw [Int32.ofNat_add, Int32.add_comm (Int32.ofNat count), ← Int32.add_assoc]
      rfl
    have rest : execute (step config) { state with
        asyncReadCount := state.asyncReadCount + 1, pending := [] } (failedReads count) = _ :=
      ih running rfl
    rw [once, numbers]
    refine execute_cons.mpr ⟨_, drawn, execute_cons.mpr ⟨_, rfl, rest.trans ?_⟩⟩
    rw [none]

/-- A second task gets the id of the first, which is still waiting: the id stands in the
waiting list twice. -/
def wrappedRun : List Action := flatten
  [[.asyncRead 0 1 0, .addTask 0, .onWatch, .movePreTask, .movePreTask, .movePreTask, .find 1,
      .signal .modify],
    failedReads (2 ^ 32 - 1),
    [.asyncRead 0 1 0, .addTask 0, .getTask 0, .movePreTask, .movePreTask, .movePreTask,
      .work 0 .success 0, .getTask 1, .movePreTask, .work 1 .success 0, .work 0 .success 100,
      .work 1 .success 100, .work 0 .success 0, .work 1 .success 0, .work 0 .success 0,
      .work 1 .success 0, .work 0 .success 0, .work 1 .success 0]]

/-- After `2 ^ 32` calls two worker threads deliver the first message of one task at the
same time. -/
theorem wrapped_id_delivers_twice :
    ∃ final, execute (step ⟨10, true⟩) (initialState 2 fun _ => 16) wrappedRun = some final ∧
      (final.tasks.map fun task => task.delivered.map (·.sqn)) = [[], [1, 1]] ∧
      final.workers = [.calling 1 1 1, .calling 1 1 1] ∧ ¬ExactlyOnce final := by
  have started : ∃ first, execute (step ⟨10, true⟩) (initialState 2 fun _ => 16)
      [.asyncRead 0 1 0, .addTask 0, .onWatch, .movePreTask, .movePreTask, .movePreTask, .find 1,
        .signal .modify] = some first ∧ first.running = true ∧ first.pending = [] ∧
      ((execute (step ⟨10, true⟩)
        { first with asyncReadCount := first.asyncReadCount + Int32.ofNat (2 ^ 32 - 1) }
        [.asyncRead 0 1 0, .addTask 0, .getTask 0, .movePreTask, .movePreTask, .movePreTask,
          .work 0 .success 0, .getTask 1, .movePreTask, .work 1 .success 0, .work 0 .success 100,
          .work 1 .success 100, .work 0 .success 0, .work 1 .success 0, .work 0 .success 0,
          .work 1 .success 0, .work 0 .success 0, .work 1 .success 0]).any fun final =>
        decide ((final.tasks.map fun task => task.delivered.map (·.sqn)) = [[], [1, 1]] ∧
          final.workers = [.calling 1 1 1, .calling 1 1 1])) = true :=
    execute_check (by decide +kernel)
  obtain ⟨first, ran, running, none, checked⟩ := started
  obtain ⟨final, finished, checked⟩ := (any_eq_true _ _).mp checked
  obtain ⟨delivered, workers⟩ := of_decide_eq_true checked
  refine ⟨final, ?_, delivered, workers, ?_⟩
  · refine execute_append.mpr ⟨first, ran, ?_⟩
    refine execute_append.mpr ⟨_, execute_failedReads (2 ^ 32 - 1) running none, ?_⟩
    rw [flatten_cons, flatten_nil, append_nil]
    exact finished
  · intro once
    have same := once.alone 0 1 1 1 1 1 1 (by rw [workers]; rfl) (by rw [workers]; rfl)
    cases same

end AdkAaf.Recorder.RecordDataTracker
