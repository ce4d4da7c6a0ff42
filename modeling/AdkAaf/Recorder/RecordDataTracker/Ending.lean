import AdkAaf.Recorder.RecordDataTracker.ExactlyOnce

/-! How a worker thread of `RecordDataTracker` gets done with a task that has an end. -/

set_option autoImplicit false

namespace AdkAaf.Recorder.RecordDataTracker

open Lib Option

/-- Whatever the file system and the handlers answer of what is `allowed`, the worker gets back
to the head of the loop in `Run`, where `goal` holds. No other thread goes on meanwhile. -/
inductive Ends (config : Config) (worker : Nat) (allowed : Outcome → Prop) (goal : State → Prop) :
    State → Prop where
  | head {state : State} (idle : state.workers[worker]? = some .idle) (reached : goal state) :
    Ends config worker allowed goal state
  | work {state : State} (moves : ∀ outcome now, (work config state worker outcome now).isSome)
    (goes : ∀ outcome now next, allowed outcome → work config state worker outcome now = some next →
      Ends config worker allowed goal next) : Ends config worker allowed goal state

/-- The worker is at `pc` with the task. -/
structure Holds (state : State) (worker : Nat) (pc : Pc) (number : Nat) (task : Task) : Prop where
  found : state.workers[worker]? = some pc
  at_ : pc.task = some number
  stored : state.tasks[number]? = some task

/-- The index has the last message of the task; or the task is stopped and has still a message to
read, at which the worker sees that it is. Where nothing is read there is no condition. -/
def MayEnd (state : State) (task : Task) (pc : Pc) : Prop :=
  let last := lastMsgSqn state task
  let nextSqn := task.begin + task.delivered.length
  match pc with
  | .taken _ | .sizing _ | .looping _ _ _ | .calling _ _ _ =>
    task.endSqn - 1 ≤ last ∨ task.isRunning = false ∧ nextSqn ≤ last
  | .fetching _ _ _ => task.endSqn - 1 ≤ last ∨ task.isRunning = false ∧ nextSqn < last
  | _ => True

/-- Behind the last message the task is removed, if no handler throws. Once the task or the
tracker is stopped, the worker ends. -/
structure BoundedReadEnds (config : Config) (state : State) (worker : Nat) (pc : Pc)
    (number : Nat) (task : Task) : Prop where
  removed : ∀ endMsgSqn, pc = .calling number (task.endSqn - 1) endMsgSqn →
    Ends config worker (· ≠ .exception) (fun final => final.asyncTasksMap task.id = none) state
  stopped : task.isRunning = false ∨ state.running = false →
    Ends config worker (fun _ => True) (fun _ => True) state

/-- What the worker has still to do, if it ends. -/
def toDo (task : Task) : Pc → Nat
  | .idle | .moving | .popping => 0
  | .removing _ | .watching _ => 1
  | .completing _ | .again _ => 2
  | .fetching _ _ _ => 8 * (task.endSqn - task.begin - task.delivered.length) + 3
  | .looping _ curMsgSqn endMsgSqn =>
    8 * (task.endSqn - task.begin - task.delivered.length) +
      if curMsgSqn ≤ endMsgSqn then 4 else 6
  | .sizing _ => 8 * (task.endSqn - task.begin - task.delivered.length) + 5
  | .taken _ => 8 * (task.endSqn - task.begin - task.delivered.length) + 6
  | .calling _ _ _ => 8 * (task.endSqn - task.begin - task.delivered.length) + 7

variable {config : Config} {state : State} {worker number : Nat} {pc : Pc} {task : Task}
  {outcome : Outcome} {now : Nat}

section

variable (holds : Holds state worker pc number task)
include holds

theorem Holds.work_eq (outcome : Outcome) (now : Nat) : work config state worker outcome now =
    workTask config state worker outcome now pc number task := by
  rw [work, holds.found, bind_some, if_neg, holds.at_, bind_some, holds.stored, bind_some]
  intro popping
  cases popping ▸ holds.at_

theorem Holds.setPc {then_ : Pc} (same : then_.task = some number) :
    Holds (setPc state worker then_) worker then_ number task :=
  ⟨List.getElem?_set_self (List.getElem?_eq_some_iff.mp holds.found).1, same, holds.stored⟩

theorem Holds.setTask (changed : Task) :
    Holds (setTask state number changed) worker pc number changed :=
  ⟨holds.found, holds.at_, List.getElem?_set_self (List.getElem?_eq_some_iff.mp holds.stored).1⟩

theorem Holds.idle : (RecordDataTracker.setPc state worker .idle).workers[worker]? = some .idle :=
  List.getElem?_set_self (List.getElem?_eq_some_iff.mp holds.found).1

theorem Holds.work_isSome (outcome : Outcome) (now : Nat) :
    (work config state worker outcome now).isSome = true := by
  rw [holds.work_eq]
  cases pc with
  | idle | moving | popping => cases holds.at_
  | completing =>
    rw [workTask]
    split <;> rfl
  | _ => cases outcome <;> rfl

/-- What a step of the worker with a task that has an end can do. -/
theorem Holds.moves (ok : Invariant state) (bounded : task.endSqn ≠ kMostRecent)
    {next : State} (went : workTask config state worker outcome now pc number task = some next) :
    next.workers[worker]? = some .idle ∧ (outcome = .success → MayEnd state task pc) ∨
      ∃ then_ changed, Holds next worker then_ number changed ∧ changed.endSqn = task.endSqn ∧
      (outcome = .success → MayEnd next changed then_ → MayEnd state task pc) ∧
      (MayEnd state task pc → MayEnd next changed then_ ∧ toDo changed then_ < toDo task pc) := by
  obtain ⟨_, found, here⟩ := ok.workers pc (List.mem_of_getElem? holds.found) number holds.at_
  cases holds.stored.symm.trans found
  obtain ⟨-, positive, before⟩ := ok.tasks task (List.mem_of_getElem? holds.stored)
  have before := before bounded
  have removing := @Holds.setPc _ _ _ _ _ holds (.removing number) rfl
  cases pc with
  | idle | moving | popping => cases holds.at_
  | taken =>
    cases holds.at_
    rw [workTask, pollTask, if_neg bounded] at went
    cases went
    exact .inr ⟨_, _, holds.setPc rfl, rfl, fun _ => id, fun ends => ⟨ends, by simp [toDo]⟩⟩
  | sizing =>
    cases holds.at_
    have last : task.beginSqn = task.begin + task.delivered.length := here
    cases outcome with
    | success =>
      simp only [workTask, sizeIndex, tryAgain, if_neg bounded] at went
      split at went <;> cases went
      next nothing =>
        refine .inr ⟨_, _, holds.setPc rfl, rfl, fun _ => id, fun ends => absurd nothing ?_⟩
        obtain ends | ⟨-, ends⟩ : _ ≤ lastMsgSqn state task ∨ _ ∧ _ ≤ lastMsgSqn state task := ends
        all_goals omega
      next some =>
        refine .inr ⟨_, _, holds.setPc rfl, rfl, fun _ => id, fun ends => ⟨ends, ?_⟩⟩
        have within : task.beginSqn ≤ if task.endSqn ≠ kMostRecent ∧
            task.endSqn ≤ lastMsgSqn state task then task.endSqn - 1 else lastMsgSqn state task := by
          split <;> omega
        simp only [toDo, if_pos within]
        omega
    | failure | exception =>
      exact some.inj went ▸ .inr ⟨_, _, removing, rfl, by simp, fun _ => ⟨trivial, by simp [toDo]⟩⟩
  | looping _ curMsgSqn endMsgSqn =>
    cases holds.at_
    obtain ⟨delivered, inRange, started, indexed, beforeEnd⟩ := here
    have beforeEnd := beforeEnd bounded
    rw [workTask, loopHead] at went
    split at went
    next within =>
      split at went <;> cases went
      next running =>
        refine .inr ⟨_, _, holds.setPc rfl, rfl, fun _ => Or.imp_right ?_, fun ends => ⟨?_, ?_⟩⟩
        · exact fun ends => ⟨ends.1, ends.2.le⟩
        · exact Or.imp_right (fun ends => absurd running (by simp [ends.1])) ends
        · simp [toDo, within]
      next stopped =>
        refine .inr ⟨_, _, removing, rfl, fun _ _ => .inr ⟨by simpa using stopped, ?_⟩,
          fun _ => ⟨trivial, ?_⟩⟩
        · exact delivered ▸ within.trans indexed
        · simp only [toDo, if_pos within]
          omega
    next past =>
      split at went
      next goesOn =>
        simp only [tryAgain, if_neg bounded] at went
        cases went
        exact .inr ⟨_, _, (holds.setTask _).setPc rfl, rfl, fun _ => id,
          fun ends => ⟨ends, by simp [toDo, past]⟩⟩
      next complete =>
        cases went
        refine .inr ⟨_, _, holds.setPc rfl, rfl, fun _ _ => .inl ?_, fun _ => ⟨trivial, ?_⟩⟩
        · show task.endSqn - 1 ≤ getMsgSqn (state.indexFileSize task.file)
          omega
        · simp only [toDo, if_neg past]
          omega
  | fetching _ curMsgSqn endMsgSqn =>
    cases holds.at_
    cases outcome with
    | success =>
      cases went
      obtain ⟨⟨delivered, _, _, _, beforeEnd⟩, within⟩ := here
      have beforeEnd := beforeEnd bounded
      have same : MayEnd (deliver state worker number task curMsgSqn endMsgSqn)
          { task with delivered := task.delivered ++ [⟨curMsgSqn, lastMsgSqn state task⟩] }
          (.calling number curMsgSqn endMsgSqn) ↔
            MayEnd state task (.fetching number curMsgSqn endMsgSqn) := by
        simp only [MayEnd, List.length_append]
        rfl
      refine .inr ⟨_, _, (holds.setTask _).setPc rfl, rfl, fun _ => same.mp,
        fun ends => ⟨same.mpr ends, ?_⟩⟩
      · simp only [toDo, List.length_append, List.length_singleton]
        omega
    | failure | exception =>
      exact some.inj went ▸ .inr ⟨_, _, removing, rfl, by simp, fun _ => ⟨trivial, by simp [toDo]⟩⟩
  | calling _ curMsgSqn endMsgSqn =>
    cases holds.at_
    cases outcome with
    | success =>
      cases went
      refine .inr ⟨_, _, holds.setPc rfl, rfl, fun _ => id, fun ends => ⟨ends, ?_⟩⟩
      rw [toDo, toDo]
      split <;> omega
    | failure =>
      exact some.inj went ▸ .inr ⟨_, _, removing, rfl, by simp, fun _ => ⟨trivial, by simp [toDo]⟩⟩
    | exception => exact .inl (some.inj went ▸ ⟨holds.idle, by simp⟩)
  | again =>
    cases holds.at_
    simp only [workTask, putBack] at went
    split at went
    next => exact .inl (some.inj went ▸ ⟨holds.idle, fun _ => trivial⟩)
    next =>
      split at went <;> cases went
      next => exact .inl ⟨holds.idle, fun _ => trivial⟩
      next =>
        exact .inr ⟨_, _, (holds.setTask _).setPc rfl, rfl, fun _ _ => trivial,
          fun _ => ⟨trivial, Nat.one_lt_two⟩⟩
  | watching => cases outcome <;> exact .inl (some.inj went ▸ ⟨holds.idle, fun _ => trivial⟩)
  | completing =>
    cases holds.at_
    rw [workTask] at went
    split at went <;> cases went
    · exact .inr ⟨_, _, removing, rfl, fun _ _ => trivial, fun _ => ⟨trivial, Nat.one_lt_two⟩⟩
    · exact .inl ⟨holds.idle, fun _ => trivial⟩
  | removing => exact .inl (some.inj went ▸ ⟨holds.idle, fun _ => trivial⟩)

theorem Holds.removing_ends {allowed : Outcome → Prop} (pc_eq : pc = .removing number) :
    Ends config worker allowed (fun final => final.asyncTasksMap task.id = none) state := by
  subst pc_eq
  refine .work holds.work_isSome fun outcome now next _ went => ?_
  rw [holds.work_eq] at went
  cases went
  exact .head holds.idle (Function.update_self ..)

theorem ends_of_mayEnd (ok : Invariant state) (bounded : task.endSqn ≠ kMostRecent)
    (ends : MayEnd state task pc) : Ends config worker (fun _ => True) (fun _ => True) state := by
  induction left : toDo task pc using Nat.strongRecOn generalizing state task pc with
  | ind _ ih =>
    subst left
    refine .work holds.work_isSome fun outcome now next _ went => ?_
    have kept := work_invariant ok went
    rw [holds.work_eq] at went
    obtain ⟨idle, -⟩ | ⟨then_, changed, after, same, -, on⟩ := holds.moves ok bounded went
    · exact .head idle trivial
    · obtain ⟨ends, less⟩ := on ends
      exact ih _ less after kept (same ▸ bounded) ends rfl

end

section

variable {allowed : Outcome → Prop} {goal : State → Prop}
  (ends : Ends config worker allowed goal state)
include ends

theorem Ends.next (holds : Holds state worker pc number task) (outcome : Outcome) (now : Nat)
    (may : allowed outcome)
    {next : State} (went : workTask config state worker outcome now pc number task = some next) :
    Ends config worker allowed goal next := by
  cases ends with
  | head idle => cases Option.some.inj (idle.symm.trans holds.found) ▸ holds.at_
  | work moves goes => exact goes _ _ _ may ((holds.work_eq ..).trans went)

theorem Ends.reached (idle : state.workers[worker]? = some .idle) : goal state := by
  cases ends with
  | head _ reached => exact reached
  | work moves goes =>
    have moves := moves .success 0
    rw [RecordDataTracker.work, idle] at moves
    cases moves

end

theorem mayEnd_of_ends (ends : Ends config worker (fun _ => True) (fun _ => True) state)
    (ok : Invariant state) (holds : Holds state worker pc number task)
    (bounded : task.endSqn ≠ kMostRecent) : MayEnd state task pc := by
  induction ends generalizing pc task with
  | head idle => cases Option.some.inj (idle.symm.trans holds.found) ▸ holds.at_
  | work moves goes ih =>
    -- the loop goes on where every answer is a success
    obtain ⟨next, went⟩ := isSome_iff_exists.mp (moves .success 0)
    have kept := work_invariant ok went
    obtain ⟨-, idle⟩ | ⟨then_, changed, after, same, back, -⟩ :=
      holds.moves ok bounded ((holds.work_eq .success 0).symm.trans went)
    · exact idle rfl
    · exact back rfl (ih .success 0 next trivial went kept after (same ▸ bounded))

theorem removed_iff (ok : Invariant state) {endMsgSqn : Nat}
    (holds : Holds state worker (.calling number (task.endSqn - 1) endMsgSqn) number task)
    (bounded : task.endSqn ≠ kMostRecent) :
    Ends config worker (· ≠ .exception) (fun final => final.asyncTasksMap task.id = none) state ↔
      config.hasOnComplete = true ∨ state.asyncTasksMap task.id = none := by
  obtain ⟨_, found, loops⟩ := ok.workers _ (List.mem_of_getElem? holds.found) number holds.at_
  cases holds.stored.symm.trans found
  have last := loops.inRange
  have before := loops.beforeEnd bounded
  have completes (state : State) : loopHead state worker number task (task.endSqn - 1 + 1)
      endMsgSqn = setPc state worker (.completing number) := by
    rw [loopHead, if_neg (by omega), if_neg]
    exact fun goesOn => goesOn.elim bounded (by omega)
  have looping := @Holds.setPc _ _ _ _ _ holds (.looping number (task.endSqn - 1 + 1) endMsgSqn) rfl
  have completing := @Holds.setPc _ _ _ _ _ looping (.completing number) rfl
  constructor
  · intro ends
    by_contra neither
    obtain ⟨noHandler, kept⟩ := not_or.mp neither
    have ends := (ends.next holds .success 0 nofun rfl).next looping .success 0 nofun
      (congrArg some (completes _))
    exact kept ((ends.next completing .success 0 nofun
      (if_neg fun handler => noHandler handler.1)).reached completing.idle)
  · refine fun condition => .work holds.work_isSome fun outcome now next may went => ?_
    rw [holds.work_eq] at went
    cases outcome with
    | exception => exact absurd rfl may
    | failure =>
      cases went
      exact (holds.setPc rfl).removing_ends rfl
    | success =>
      cases went
      refine .work looping.work_isSome fun outcome now next _ went => ?_
      rw [looping.work_eq, workTask, completes] at went
      cases went
      refine .work completing.work_isSome fun outcome now next may went => ?_
      rw [completing.work_eq, workTask] at went
      split at went <;> cases went
      next => exact (completing.setPc rfl).removing_ends rfl
      next without =>
        exact .head completing.idle (condition.resolve_left fun handler => without ⟨handler, may⟩)

/-- A worker gets done with a bounded task, and the task leaves the map behind its last message,
if and only if a completion handler is there or the task was taken out before, and a task that
is stopped has a message to read still or all it asks for. -/
theorem boundedReadEnds_iff {workers : Nat} {indexFileSize : Nat → Nat} {actions : List Action}
    (guarded : Guarded (step config) FreshId (initialState workers indexFileSize) actions)
    (ran : execute (step config) (initialState workers indexFileSize) actions = some state)
    (holds : Holds state worker pc number task) (bounded : task.endSqn ≠ kMostRecent) :
    BoundedReadEnds config state worker pc number task ↔
      ((∃ endMsgSqn, pc = .calling number (task.endSqn - 1) endMsgSqn) →
        config.hasOnComplete = true ∨ state.asyncTasksMap task.id = none) ∧
      (task.isRunning = false ∨ state.running = false → MayEnd state task pc) := by
  have valid := invariant_of_guarded step_invariant (initialState_invariant workers indexFileSize)
    guarded ran
  constructor
  · rintro ⟨removed, stopped⟩
    refine ⟨?_, fun stop => mayEnd_of_ends (stopped stop) valid holds bounded⟩
    rintro ⟨endMsgSqn, rfl⟩
    exact (removed_iff valid holds bounded).mp (removed endMsgSqn rfl)
  · rintro ⟨removed, stopped⟩
    refine ⟨?_, fun stop => ends_of_mayEnd holds valid bounded (stopped stop)⟩
    rintro endMsgSqn rfl
    exact (removed_iff valid holds bounded).mpr (removed ⟨endMsgSqn, rfl⟩)

/-- Message 1 alone is asked for, and a worker takes the task. -/
def takenRun : List Action :=
  [.asyncRead 0 1 2, .addTask 0, .getTask 0, .movePreTask, .movePreTask, .movePreTask,
    .work 0 .success 0, .work 0 .success 0]

def deliveredRun : List Action := takenRun ++ List.replicate 3 (.work 0 .success 0)

theorem bounded_read_ends : ∃ state, execute (step ⟨10, true⟩) (initialState 1 fun _ => 16)
    deliveredRun = some state ∧ BoundedReadEnds ⟨10, true⟩ state 0 (.calling 0 1 1) 0
      ⟨1, 0, 1, 1, 2, 0, true, [⟨1, 1⟩]⟩ := by
  obtain ⟨state, ran, found, stored, running⟩ : ∃ state, execute (step ⟨10, true⟩)
      (initialState 1 fun _ => 16) deliveredRun = some state ∧
        state.workers[0]? = some (.calling 0 1 1) ∧
        state.tasks[0]? = some ⟨1, 0, 1, 1, 2, 0, true, [⟨1, 1⟩]⟩ ∧ state.running = true :=
    execute_check (by decide +kernel)
  refine ⟨state, ran, (boundedReadEnds_iff (by decide +kernel) ran ⟨found, rfl, stored⟩
    (by decide)).mpr ⟨fun _ => .inl rfl, ?_⟩⟩
  simp [running]

/-- Without a completion handler the task stays in the map. The worker with a task that was
stopped looks at an empty index for ever. -/
theorem bounded_read_endless :
    (∃ state, execute (step ⟨10, false⟩) (initialState 1 fun _ => 16) deliveredRun = some state ∧
      ¬ Ends ⟨10, false⟩ 0 (· ≠ .exception) (fun final => final.asyncTasksMap 1 = none) state) ∧
    ∃ state, execute (step ⟨10, true⟩) (initialState 1 fun _ => 0)
        (takenRun ++ [.stopPre 1, .stopTask 1]) = some state ∧
      ¬ Ends ⟨10, true⟩ 0 (fun _ => True) (fun _ => True) state := by
  constructor
  · obtain ⟨state, ran, found, stored, known⟩ : ∃ state, execute (step ⟨10, false⟩)
        (initialState 1 fun _ => 16) deliveredRun = some state ∧
          state.workers[0]? = some (.calling 0 1 1) ∧
          state.tasks[0]? = some ⟨1, 0, 1, 1, 2, 0, true, [⟨1, 1⟩]⟩ ∧
          state.asyncTasksMap 1 ≠ none := execute_check (by decide +kernel)
    have valid := invariant_of_guarded step_invariant (initialState_invariant 1 fun _ => 16)
      (by decide +kernel) ran
    exact ⟨state, ran, fun ends => (removed_iff valid ⟨found, rfl, stored⟩ (by decide)).mp ends |>.elim
      nofun known⟩
  · obtain ⟨state, ran, found, stored, empty⟩ : ∃ state, execute (step ⟨10, true⟩)
        (initialState 1 fun _ => 0) (takenRun ++ [.stopPre 1, .stopTask 1]) = some state ∧
          state.workers[0]? = some (.sizing 0) ∧
          state.tasks[0]? = some ⟨1, 0, 1, 1, 2, 0, false, []⟩ ∧
          state.indexFileSize 0 = 0 := execute_check (by decide +kernel)
    have valid := invariant_of_guarded step_invariant (initialState_invariant 1 fun _ => 0)
      (by decide +kernel) ran
    refine ⟨state, ran, fun ends => ?_⟩
    have may := mayEnd_of_ends ends valid ⟨found, rfl, stored⟩ (by decide)
    simp [MayEnd, lastMsgSqn, empty, getMsgSqn] at may

end AdkAaf.Recorder.RecordDataTracker
