import AdkAaf.Adk.InotifyWrapper.Basic

/-! What one batch of events makes of the tasks: a task that has not finished is
called for every event that concerns it, until a call fails or it was to be
called once. -/

set_option autoImplicit false

namespace AdkAaf.Adk.InotifyWrapper.Inotify

open List

variable {answer : Nat → Nat → Bool}

theorem isFinished_callTask (place : Nat) (dispatch : Dispatch) (task : WatchTask) (addr : Nat) :
    (callTask answer place dispatch task).isFinished addr = true ↔
      dispatch.isFinished addr = true ∨
        (task.address = addr ∧ ends answer place task = true) := by
  unfold callTask
  split
  · next finished =>
    constructor
    · exact .inl
    · rintro (before | ⟨rfl, -⟩)
      · exact before
      · exact finished
  · dsimp only
    split
    · next ended =>
      rw [Function.update_apply]
      split
      · next same => simp [same, ended]
      · next apart =>
        constructor
        · exact .inl
        · rintro (before | ⟨same, -⟩)
          · exact before
          · exact absurd same.symm apart
    · next lasting =>
      constructor
      · exact .inl
      · rintro (before | ⟨-, ended⟩)
        · exact before
        · exact absurd ended lasting

theorem isFinished_foldl (place : Nat) (tasks : List WatchTask) (dispatch : Dispatch)
    (addr : Nat) : (tasks.foldl (callTask answer place) dispatch).isFinished addr = true ↔
      dispatch.isFinished addr = true ∨
        ∃ task ∈ tasks, task.address = addr ∧ ends answer place task = true := by
  induction tasks generalizing dispatch with
  | nil => simp
  | cons first rest ih =>
    rw [foldl_cons, ih, isFinished_callTask]
    simp [or_assoc]

theorem count_calls_foldl (place : Nat) {tasks : List WatchTask}
    (distinct : (tasks.map WatchTask.address).Nodup) (dispatch : Dispatch) (address at_ : Nat) :
    (tasks.foldl (callTask answer place) dispatch).calls.count (address, at_) =
      dispatch.calls.count (address, at_) + if at_ = place ∧ address ∈ tasks.map WatchTask.address ∧
            dispatch.isFinished address = false then 1 else 0 := by
  induction tasks generalizing dispatch with
  | nil => simp
  | cons first rest ih =>
    rw [map_cons, nodup_cons] at distinct
    rw [foldl_cons, ih distinct.2]
    have others : first.address ≠ address →
        (callTask answer place dispatch first).isFinished address =
          dispatch.isFinished address := by
      intro apart
      rw [Bool.eq_iff_iff, isFinished_callTask]
      simp [apart]
    have counted : (callTask answer place dispatch first).calls.count (address, at_) =
        dispatch.calls.count (address, at_) +
          if at_ = place ∧ first.address = address ∧ dispatch.isFinished address = false
            then 1 else 0 := by
      unfold callTask
      split
      · next finished =>
        rw [if_neg, Nat.add_zero]
        rintro ⟨-, rfl, lasting⟩
        rw [finished] at lasting
        cases lasting
      · next lasting =>
        rw [count_append, count_singleton]
        congr 1
        refine if_congr ?_ rfl rfl
        simp only [beq_iff_eq, Prod.mk.injEq]
        constructor
        · rintro ⟨rfl, rfl⟩
          exact ⟨rfl, rfl, by simpa using lasting⟩
        · rintro ⟨rfl, rfl, -⟩
          exact ⟨rfl, rfl⟩
    simp only [counted, map_cons, mem_cons]
    by_cases own : first.address = address
    · subst own
      have absent := distinct.1
      simp [absent]
    · rw [others own]
      simp [own, Ne.symm own]

theorem hasTaskFinished_callTask {place : Nat} {dispatch : Dispatch} {task : WatchTask}
    (lasting : (callTask answer place dispatch task).hasTaskFinished = false) :
    dispatch.hasTaskFinished = false ∧
      (callTask answer place dispatch task).isFinished = dispatch.isFinished := by
  unfold callTask at lasting ⊢
  split at lasting
  · next finished => exact ⟨lasting, by rw [if_pos finished]⟩
  · next unfinished =>
    obtain ⟨before, going⟩ := Bool.or_eq_false_iff.mp lasting
    refine ⟨before, ?_⟩
    rw [if_neg unfinished]
    simp [going, Bool.false_eq_true]

theorem hasTaskFinished_foldl {place : Nat} {tasks : List WatchTask} {dispatch : Dispatch}
    (lasting : (tasks.foldl (callTask answer place) dispatch).hasTaskFinished = false) :
    dispatch.hasTaskFinished = false ∧
      (tasks.foldl (callTask answer place) dispatch).isFinished = dispatch.isFinished := by
  induction tasks generalizing dispatch with
  | nil => exact ⟨lasting, rfl⟩
  | cons first rest ih =>
    obtain ⟨called, same⟩ := ih lasting
    obtain ⟨before, same'⟩ := hasTaskFinished_callTask called
    exact ⟨before, same.trans same'⟩

section Batch

variable (map : OnWatchMap)

def Reaches (batch : List Event) (address number : Nat) : Prop :=
  ∃ event, batch[number]? = some event ∧ ∃ task ∈ dueTasks map event, task.address = address

def Stops (answer : Nat → Nat → Bool) (place : Nat) (batch : List Event)
    (address number : Nat) : Prop :=
  ∃ event, batch[number]? = some event ∧
    ∃ task ∈ dueTasks map event, task.address = address ∧
      ends answer (place + number) task = true

theorem reaches_zero (event : Event) (rest : List Event) (addr : Nat) :
    Reaches map (event :: rest) addr 0 ↔
      addr ∈ (dueTasks map event).map WatchTask.address := by
  simp [Reaches]

theorem reaches_succ (event : Event) (rest : List Event) (address number : Nat) :
    Reaches map (event :: rest) address (number + 1) ↔ Reaches map rest address number := by
  simp [Reaches]

theorem stops_zero (place : Nat) (event : Event) (rest : List Event) (addr : Nat) :
    Stops map answer place (event :: rest) addr 0 ↔
      ∃ task ∈ dueTasks map event, task.address = addr ∧ ends answer place task = true := by
  simp [Stops]

theorem stops_succ (place : Nat) (event : Event) (rest : List Event) (address number : Nat) :
    Stops map answer place (event :: rest) address (number + 1) ↔
      Stops map answer (place + 1) rest address number := by
  have sum : place + (number + 1) = place + 1 + number := by omega
  simp [Stops, sum]

theorem isFinished_dispatchEvents (batch : List Event) (place : Nat) (dispatch : Dispatch)
    (address : Nat) : (dispatchEvents answer map place batch dispatch).isFinished address = true ↔
      dispatch.isFinished address = true ∨
        ∃ number, Stops map answer place batch address number := by
  induction batch generalizing place dispatch with
  | nil => simp [dispatchEvents, Stops]
  | cons event rest ih =>
    rw [dispatchEvents, ih, isFinished_foldl, or_assoc]
    refine or_congr .rfl ?_
    rw [← stops_zero map place event rest]
    constructor
    · rintro (now | ⟨number, later⟩)
      · exact ⟨0, now⟩
      · exact ⟨number + 1, (stops_succ map place event rest address number).mpr later⟩
    · rintro ⟨number, stops⟩
      cases number with
      | zero => exact .inl stops
      | succ number =>
        exact .inr ⟨number, (stops_succ map place event rest address number).mp stops⟩

theorem hasTaskFinished_dispatchEvents {batch : List Event} {place : Nat} {dispatch : Dispatch}
    (lasting : (dispatchEvents answer map place batch dispatch).hasTaskFinished = false) :
    dispatch.hasTaskFinished = false ∧
      (dispatchEvents answer map place batch dispatch).isFinished = dispatch.isFinished := by
  induction batch generalizing place dispatch with
  | nil => exact ⟨lasting, rfl⟩
  | cons event rest ih =>
    obtain ⟨called, same⟩ := ih lasting
    obtain ⟨before, same'⟩ := hasTaskFinished_foldl called
    exact ⟨before, same.trans same'⟩

def Distinct : Prop := ∀ event, ((dueTasks map event).map WatchTask.address).Nodup

variable {map}

theorem count_calls_before (distinct : Distinct map) (batch : List Event) {place at_ : Nat}
    (before : at_ < place) (dispatch : Dispatch) (addr : Nat) :
    (dispatchEvents answer map place batch dispatch).calls.count (addr, at_) =
      dispatch.calls.count (addr, at_) := by
  induction batch generalizing place dispatch with
  | nil => rfl
  | cons event rest ih =>
    rw [dispatchEvents, ih (Nat.lt_succ_of_lt before), count_calls_foldl _ (distinct event),
      if_neg (fun both => Nat.ne_of_lt before both.1), Nat.add_zero]

open Classical in
theorem count_calls_dispatchEvents (distinct : Distinct map) (batch : List Event) (place : Nat)
    (dispatch : Dispatch) (address number : Nat) :
    (dispatchEvents answer map place batch dispatch).calls.count (address, place + number) =
      dispatch.calls.count (address, place + number) +
        if Reaches map batch address number ∧ dispatch.isFinished address = false ∧
            ∀ earlier < number, ¬ Stops map answer place batch address earlier then 1 else 0 := by
  induction batch generalizing place dispatch number with
  | nil => simp [dispatchEvents, Reaches]
  | cons event rest ih =>
    rw [dispatchEvents]
    cases number with
    | zero =>
      rw [Nat.add_zero, count_calls_before distinct rest (Nat.lt_succ_self place),
        count_calls_foldl place (distinct event)]
      congr 1
      refine if_congr ?_ rfl rfl
      rw [reaches_zero]
      simp
    | succ number =>
      have sum : place + (number + 1) = place + 1 + number := by omega
      rw [sum, ih, count_calls_foldl place (distinct event), if_neg (by omega), Nat.add_zero]
      congr 1
      refine if_congr ?_ rfl rfl
      rw [reaches_succ]
      refine and_congr .rfl ?_
      rw [Bool.eq_false_iff, Bool.eq_false_iff, ne_eq, isFinished_foldl,
        ← stops_zero map place event rest address, not_or]
      constructor
      · rintro ⟨⟨going, unstopped⟩, later⟩
        refine ⟨going, fun earlier before => ?_⟩
        cases earlier with
        | zero => exact unstopped
        | succ earlier =>
          rw [stops_succ]
          exact later earlier (Nat.lt_of_succ_lt_succ before)
      · rintro ⟨going, unstopped⟩
        refine ⟨⟨going, unstopped 0 (Nat.succ_pos number)⟩, fun earlier before => ?_⟩
        rw [← stops_succ]
        exact unstopped (earlier + 1) (Nat.succ_lt_succ before)

end Batch

end AdkAaf.Adk.InotifyWrapper.Inotify
