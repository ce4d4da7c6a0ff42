import AdkAaf.Adk.ThreadPool.Basic
import Mathlib.Algebra.GroupWithZero.Nat

/-! What one statement of a worker or of the dispatcher does with the jobs, and the invariant
of the pool: every job is held at one place, and a service without a limit has one job at a
time. -/

set_option autoImplicit false

namespace AdkAaf.Adk.ThreadPool

open Option List

theorem sum_map_set {Item : Type} (count : Item → Nat) {items : List Item} {i : Nat}
    {item : Item} (at_ : items[i]? = some item) (next : Item) :
    ((items.set i next).map count).sum + count item = (items.map count).sum + count next := by
  induction items generalizing i with
  | nil => cases at_
  | cons first rest ih =>
    cases i with
    | zero =>
      cases at_
      simp only [set_cons_zero, map_cons, sum_cons]
      omega
    | succ i =>
      have tail := @ih i at_
      simp only [set_cons_succ, map_cons, sum_cons]
      omega

namespace Service

variable {settings : Settings} {service next : Service} {answer : Answer}

theorem count_jobs (service : Service) (job : Job) :
    service.jobs.count job = service.jobQueue.count job +
      (service.idleQueue.count job + service.worker.hands.count job) := by
  rw [jobs, count_append, count_append]

theorem jobs_eq_nil : service.jobs = [] ↔
    service.jobQueue = [] ∧ service.idleQueue = [] ∧ service.worker.hands = [] := by
  simp [jobs, append_eq_nil_iff]

theorem push_of_room {slots : Nat} {queue : List Job} (room : queue.length < slots) (job : Job) :
    push slots queue job = queue ++ [job] := if_pos room

section

variable (worked : service.work settings answer = some next)
include worked

theorem count_work (room : service.Room settings) (job : Job) :
    next.jobs.count job + (service.done answer).toList.count job = service.jobs.count job := by
  have target : ∀ {queue}, service.target = some queue → queue.length < settings.serviceSlots :=
    fun found => room _ (mem_def.mpr found)
  simp only [count_jobs]
  unfold Service.target at target
  cases worker : service.worker with
  | loop =>
    simp only [work, worker] at worked
    cases worked
    split <;> simp [Service.done, worker, WorkerPc.hands]
  | pop =>
    simp only [work, worker] at worked
    cases queue : service.jobQueue with simp only [queue] at worked
    | nil =>
      cases worked
      simp [Service.done, worker, WorkerPc.hands]
    | cons first rest =>
      cases worked
      simp only [Service.done, worker, WorkerPc.hands, count_cons, count_nil, toList]
      omega
  | examine held =>
    cases answer <;> simp only [work, worker, reduceCtorEq] at worked
    all_goals
      cases worked
      simp [Service.done, worker, WorkerPc.hands]
  | running held =>
    cases answer <;> simp only [work, worker, reduceCtorEq] at worked
    all_goals
      cases worked
      simp only [Service.done, worker, WorkerPc.hands, toList, count_nil]
      try omega
  | finished =>
    simp only [work, worker] at worked
    cases worked
    simp [Service.done, worker, WorkerPc.hands]
  | pushIdle held | drainPush held =>
    simp only [work, worker] at worked target
    cases worked
    rw [push_of_room (target rfl)]
    simp only [Service.done, worker, WorkerPc.hands, count_append, toList, count_nil]
    omega
  | pushJob held =>
    simp only [work, worker] at worked target
    rw [push_of_room (target rfl)] at worked
    split at worked
    all_goals
      cases worked
      simp only [Service.done, worker, WorkerPc.hands, count_append, toList, count_nil]
      omega
  | drain =>
    simp only [work, worker] at worked
    cases queue : service.idleQueue with simp only [queue] at worked
    | nil =>
      cases worked
      simp [Service.done, worker, WorkerPc.hands]
    | cons first rest =>
      cases worked
      simp only [Service.done, worker, WorkerPc.hands, count_cons, count_nil, toList]
      omega
  | stopped =>
    simp only [work, worker] at worked
    cases worked

theorem length_work (room : service.Room settings) :
    next.jobs.length + (service.done answer).toList.length = service.jobs.length := by
  rw [← length_append]
  apply Perm.length_eq
  rw [perm_iff_count]
  intro job
  rw [count_append]
  exact count_work worked room job

structure Worked (settings : Settings) (service next : Service) (answer : Answer) : Prop where
  working : service.worker ≠ .stopped
  isRunning : next.isRunning = service.isRunning
  oneShotDone : next.oneShotDone = service.oneShotDone ∨
    settings.unlimited = true ∧ service.worker = .finished ∧ next.worker = .loop
  stops : next.worker = .stopped →
    service.worker = .loop ∧ service.isRunning = false ∧ next.jobs = service.jobs
  finished : next.worker = .finished → ∃ job, service.done answer = some job
  done : ∀ job, service.done answer = some job → service.worker = .running job

theorem worked_work : Worked settings service next answer := by
  have done : ∀ job, service.done answer = some job → service.worker = .running job := by
    intro job found
    unfold Service.done at found
    split at found
    · next held worker => rw [worker, some.inj found]
    · cases found
  cases worker : service.worker with
  | stopped =>
    simp only [work, worker] at worked
    cases worked
  | loop =>
    simp only [work, worker] at worked
    cases worked
    refine ⟨by simp [worker], rfl, .inl rfl, fun stopped => ⟨worker, ?_, ?_⟩, ?_, done⟩
    · by_contra running
      simp [running] at stopped
    · dsimp only at stopped
      simp [jobs, stopped, worker, WorkerPc.hands]
    · intro finished
      split at finished <;> cases finished
  | pop | pushJob held | drain =>
    simp only [work, worker] at worked
    split at worked
    all_goals
      cases worked
      exact ⟨by simp [worker], rfl, .inl rfl, by simp, by simp, done⟩
  | examine held =>
    cases answer <;> simp only [work, worker, reduceCtorEq] at worked
    all_goals
      cases worked
      exact ⟨by simp [worker], rfl, .inl rfl, by simp, by simp, done⟩
  | running held =>
    cases answer <;> simp only [work, worker, reduceCtorEq] at worked
    all_goals
      cases worked
      exact ⟨by simp [worker], rfl, .inl rfl, by simp, by simp [Service.done, worker], done⟩
  | finished =>
    simp only [work, worker] at worked
    cases worked
    refine ⟨by simp [worker], rfl, ?_, by simp, by simp, done⟩
    cases unlimited : settings.unlimited with
    | true => exact .inr ⟨rfl, worker, rfl⟩
    | false => exact .inl (by simp)
  | pushIdle held | drainPush held =>
    simp only [work, worker] at worked
    cases worked
    exact ⟨by simp [worker], rfl, .inl rfl, by simp, by simp, done⟩

end

def weight (service : Service) : Nat :=
  service.jobs.length + if service.worker = .finished then 1 else 0

structure Single (service : Service) : Prop where
  weight : service.weight ≤ 1
  done : service.oneShotDone = true → service.weight = 0
  running : service.oneShotDone = false → service.isRunning = true

theorem weight_eq_zero : service.weight = 0 ↔ service.jobs = [] ∧ service.worker ≠ .finished := by
  unfold weight
  rw [Nat.add_eq_zero_iff, length_eq_zero_iff]
  refine and_congr .rfl ?_
  split
  · next finished => simp [finished]
  · next other => simp [other]

theorem room_of_weight (light : service.weight ≤ 1) (slots : 0 < settings.serviceSlots) :
    service.Room settings := by
  intro queue found
  have few : service.jobs.length ≤ 1 := Nat.le_trans (Nat.le_add_right _ _) light
  rw [jobs, length_append, length_append] at few
  unfold target at found
  split at found
  case h_4 => cases found
  all_goals
    next job worker =>
      cases found
      rw [worker] at few
      simp only [WorkerPc.hands, length_singleton] at few
      omega

theorem weight_work (worked : service.work settings answer = some next)
    (room : service.Room settings) : next.weight ≤ service.weight := by
  have length := length_work worked room
  have effect := worked_work worked
  unfold weight
  by_cases finished : next.worker = .finished
  · obtain ⟨job, done⟩ := effect.finished finished
    rw [done] at length
    rw [if_pos finished]
    simp only [toList, length_singleton] at length
    omega
  · rw [if_neg finished]
    omega

theorem Single.work (single : service.Single) (slots : 0 < settings.serviceSlots)
    (worked : service.work settings answer = some next) : next.Single := by
  have room := room_of_weight single.weight slots
  have light := weight_work worked room
  have effect := worked_work worked
  refine ⟨light.trans single.weight, fun done => ?_, fun undone => ?_⟩
  · rcases effect.oneShotDone with same | ⟨-, finished, loop⟩
    · rw [same] at done
      exact Nat.le_zero.mp (light.trans ((single.done done).le))
    · -- the job is done, and it was the only one
      have only := single.weight
      have length := length_work worked room
      unfold Service.weight at only
      rw [if_pos finished] at only
      rw [weight_eq_zero, loop]
      refine ⟨length_eq_zero_iff.mp (by omega), by simp⟩
  · rw [effect.isRunning]
    rcases effect.oneShotDone with same | ⟨unlimited, finished, -⟩
    · exact single.running (same ▸ undone)
    · have heavy : service.weight ≠ 0 := by
        rw [ne_eq, weight_eq_zero]
        exact fun none => none.2 finished
      refine single.running ?_
      by_contra done
      exact heavy (single.done (Bool.not_eq_false _ ▸ done))

end Service

end AdkAaf.Adk.ThreadPool
