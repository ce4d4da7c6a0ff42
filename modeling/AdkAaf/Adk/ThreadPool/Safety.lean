import AdkAaf.Adk.ThreadPool.Conservation
import Mathlib.Algebra.Order.BigOperators.Group.List
import Mathlib.Algebra.Order.Ring.Nat
import Mathlib.Data.List.Nodup

/-! Every step of the dispatcher and of the workers keeps the invariant: without a limit
always, with a limit as long as no push meets a full queue, no worker with jobs is reaped and
no service is added beyond the limit. -/

set_option autoImplicit false

namespace AdkAaf.Adk.ThreadPool

open Lib Option Service List

theorem Settings.serviceSlots_pos (settings : Settings) : 0 < settings.serviceSlots := by
  have bounds : 1 ≤ settings.ccJobPerSrv ∧ settings.ccJobPerSrv ≤ 2 ^ 31 := by
    unfold Settings.ccJobPerSrv
    split
    · decide
    · next n limit =>
      have small := settings.nrMaxCcJobs_lt
      have quotient := Nat.div_le_self settings.nrMaxCcJobs n
      dsimp only
      split <;> omega
  have size : settings.ccJobPerSrv.toUInt32.toNat = settings.ccJobPerSrv :=
    Nat.mod_eq_of_lt (show settings.ccJobPerSrv < 2 ^ 32 by omega)
  obtain ⟨exponent, -, power, -⟩ :=
    @roundToPowerOf2_of_le settings.ccJobPerSrv.toUInt32 (by omega) (by omega)
  rw [Settings.serviceSlots, Settings.slots, power]
  exact Nat.two_pow_pos exponent

namespace Pool

def held (pool : Pool) (job : Job) : Nat :=
  pool.dispatchQueue.count job + pool.newJob.toList.count job +
    (pool.services.map fun service => service.jobs.count job).sum

def Done (pool : Pool) (index : Nat) : Prop :=
  ∃ service, pool.services[index]? = some service ∧ service.oneShotDone = true

def Waits (pool : Pool) (index : Nat) : Prop :=
  ∃ service, pool.services[index]? = some service ∧ service.isRunning = true ∧
    service.weight = 0 ∧ service.oneShotDone = false

def Dispatches (settings : Settings) (pool : Pool) : Prop :=
  match pool.dispatcher with
  | .pushNew index => pool.Waits index
  | .load _ _ _ _ | .loadIdle _ _ _ _ _ | .pushLeast _ => settings.unlimited = false
  | .scan _ => settings.unlimited = true
  | .reuse index => settings.unlimited = true ∧ pool.Done index
  | .reapScan _ reaps | .reap reaps | .join _ reaps =>
    settings.unlimited = true → ∀ index ∈ reaps, pool.Done index
  | _ => True

structure Valid (settings : Settings) (pool : Pool) : Prop where
  kept : ∀ job, pool.held job + pool.finished.count job = pool.accepted.count job
  accepted : pool.accepted.Nodup
  stopped : ∀ (index : Nat) service, pool.services[index]? = some service →
    service.worker = .stopped → service.isRunning = false ∧ service.jobs = []
  single : settings.unlimited = true →
    ∀ (index : Nat) service, pool.services[index]? = some service → service.Single
  dispatcher : pool.Dispatches settings
  limit : ∀ number ∈ settings.nrMaxThr, pool.nrWorkers ≤ max settings.nrInitThr number

section Update

variable {settings : Settings} {pool next : Pool} {index : Nat} {service after : Service}

theorem held_update (at_ : pool.services[index]? = some service) (after : Service) (job : Job) :
    (pool.update index after).held job + service.jobs.count job =
      pool.held job + after.jobs.count job := by
  have sum := sum_map_set (fun service => service.jobs.count job) at_ after
  simp only [held, update]
  omega

theorem countP_eq_sum (services : List Service) : services.countP isWorking =
      (services.map fun service => if isWorking service then 1 else 0).sum := by
  induction services with
  | nil => rfl
  | cons first rest ih =>
    rw [countP_cons, ih, map_cons, sum_cons, Nat.add_comm]

theorem nrWorkers_update (at_ : pool.services[index]? = some service) (after : Service) :
    (pool.update index after).nrWorkers + (if isWorking service then 1 else 0) =
      pool.nrWorkers + if isWorking after then 1 else 0 := by
  rw [nrWorkers, nrWorkers, countP_eq_sum, countP_eq_sum]
  exact sum_map_set (fun service => if isWorking service then 1 else 0) at_ after

theorem getElem?_update (at_ : pool.services[index]? = some service) (after : Service)
    (place : Nat) : (pool.update index after).services[place]? =
      if index = place then some after else pool.services[place]? := by
  have below := (List.getElem?_eq_some_iff.mp at_).1
  rw [update, List.getElem?_set]
  by_cases same : index = place
  · rw [if_pos same, if_pos same, if_pos below]
  · rw [if_neg same, if_neg same]

theorem forall_update {fact : Service → Prop} (at_ : pool.services[index]? = some service)
    (all : ∀ (place : Nat) service, pool.services[place]? = some service → fact service)
    (own : fact after) (place : Nat) (other : Service)
    (found : (pool.update index after).services[place]? = some other) : fact other := by
  rw [getElem?_update at_] at found
  split at found
  · exact some.inj found ▸ own
  · exact all place other found

theorem Done.update (done : pool.Done index) {place : Nat}
    (at_ : pool.services[place]? = some service)
    (kept : service.oneShotDone = true → after.oneShotDone = true) :
    (pool.update place after).Done index := by
  obtain ⟨other, found, flag⟩ := done
  by_cases same : place = index
  · subst same
    rw [at_, some.injEq] at found
    subst found
    exact ⟨after, by rw [getElem?_update at_, if_pos rfl], kept flag⟩
  · exact ⟨other, by rw [getElem?_update at_, if_neg same, found], flag⟩

end Update

section Work

variable {settings : Settings} {pool : Pool} {index : Nat} {service next : Service}
variable {answer : Answer}

section

variable (valid : pool.Valid settings) (at_ : pool.services[index]? = some service)
include valid at_

theorem Valid.room (may : pool.Allowed settings (.work index answer)) :
    service.Room settings := by
  cases unlimited : settings.unlimited with
  | true =>
    exact room_of_weight (valid.single unlimited index service at_).weight
      settings.serviceSlots_pos
  | false => exact (may unlimited service (mem_def.mpr at_)).1

theorem Valid.leaves (may : pool.Allowed settings (.work index answer)) : service.Leaves := by
  cases unlimited : settings.unlimited with
  | true =>
    intro _ halted
    have single := valid.single unlimited index service at_
    have done : service.oneShotDone = true := by
      by_contra undone
      rw [single.running (Bool.not_eq_true _ ▸ undone)] at halted
      cases halted
    exact (weight_eq_zero.mp (single.done done)).1
  | false => exact (may unlimited service (mem_def.mpr at_)).2

theorem Valid.dispatches_work (room : service.Room settings)
    (worked : service.work settings answer = some next) {finished : List Job} :
    Dispatches settings { pool.update index next with finished := finished } := by
  have effect := worked_work worked
  have stays : ∀ {place : Nat}, pool.Done place →
      (pool.update index next).Done place := by
    intro place done
    refine done.update at_ fun flag => ?_
    rcases effect.oneShotDone with same | ⟨unlimited, finished, loop⟩
    · exact same.trans flag
    · -- a worker that is done does not take the flag back
      have single := valid.single unlimited index service at_
      exact absurd finished (weight_eq_zero.mp (single.done flag)).2
  have known := valid.dispatcher
  unfold Dispatches at known ⊢
  dsimp only [update]
  split at known
  · next place _ =>
    obtain ⟨other, found, running, weight, flag⟩ := known
    by_cases same : index = place
    · subst same
      rw [at_, some.injEq] at found
      subst found
      refine ⟨next, ?_, effect.isRunning.trans running, ?_, ?_⟩
      · exact (getElem?_update at_ next _).trans (if_pos rfl)
      · exact Nat.le_zero.mp (Nat.le_trans (weight_work worked room)
          weight.le)
      · rcases effect.oneShotDone with same | ⟨-, finished, -⟩
        · exact same.trans flag
        · exact absurd finished (weight_eq_zero.mp weight).2
    · refine ⟨other, ?_, running, weight, flag⟩
      exact ((getElem?_update at_ next _).trans (if_neg same)).trans found
  · exact known
  · exact known
  · exact known
  · exact known
  · exact ⟨known.1, stays known.2⟩
  · exact fun unlimited place mem => stays (known unlimited place mem)
  · exact fun unlimited place mem => stays (known unlimited place mem)
  · exact fun unlimited place mem => stays (known unlimited place mem)
  · trivial

theorem Valid.work (may : pool.Allowed settings (.work index answer))
    (worked : service.work settings answer = some next) :
    Valid settings
      { pool.update index next with
        finished := (service.done answer).toList ++ pool.finished } := by
  have room := valid.room at_ may
  have effect := worked_work worked
  have working : isWorking service = true := by simp [isWorking, effect.working]
  exact {
    kept := fun job => by
      have counted := held_update at_ next job
      have jobs := count_work worked room job
      have before := valid.kept job
      have same : held { pool.update index next with
          finished := (service.done answer).toList ++ pool.finished } job =
          (pool.update index next).held job := rfl
      rw [same, count_append]
      dsimp only [update] at counted ⊢
      omega
    accepted := valid.accepted
    stopped := by
      refine forall_update at_ valid.stopped fun stops => ?_
      obtain ⟨loop, halted, jobs⟩ := effect.stops stops
      rw [effect.isRunning, jobs]
      exact ⟨halted, valid.leaves at_ may loop halted⟩
    single := fun unlimited =>
      forall_update at_ (valid.single unlimited)
        ((valid.single unlimited index service at_).work settings.serviceSlots_pos worked)
    dispatcher := valid.dispatches_work at_ room worked
    limit := fun number limited => by
      have workers := nrWorkers_update at_ next
      have before := valid.limit number limited
      rw [if_pos working] at workers
      have less : (pool.update index next).nrWorkers ≤ pool.nrWorkers := by
        split at workers <;> omega
      exact less.trans before }

end

end Work

section Dispatch

variable {settings : Settings} {pool next : Pool} {index : Nat} {service after : Service}

section

variable (valid : pool.Valid settings)
include valid

variable {dispatcher : DispatcherPc}

theorem Valid.goto (idleCounter : Nat)
    (known :
      Dispatches settings { pool with dispatcher := dispatcher, idleCounter := idleCounter }) :
    Valid settings { pool with dispatcher := dispatcher, idleCounter := idleCounter } :=
  { valid with dispatcher := known }

theorem Valid.known (at_ : pool.dispatcher = dispatcher) :
    ({ pool with dispatcher } : Pool).Dispatches settings := by
  subst at_
  exact valid.dispatcher

theorem Valid.give (at_ : pool.services[index]? = some service) {job : Job}
    (new : pool.newJob = some job) (running : service.isRunning = true)
    (single : settings.unlimited = true →
      Single { service with jobQueue := service.jobQueue ++ [job] }) (idleCounter : Nat)
    (known : ∀ given : Pool, given.dispatcher = dispatcher → given.Dispatches settings) :
    Valid settings
      { pool.update index { service with jobQueue := service.jobQueue ++ [job] } with
        newJob := none
        idleCounter := idleCounter
        dispatcher := dispatcher } where
  kept other := by
    have counted := held_update at_ { service with jobQueue := service.jobQueue ++ [job] } other
    have kept := valid.kept other
    simp only [held, update, count_jobs, count_append, new, toList,
      List.count_nil] at counted kept ⊢
    omega
  accepted := valid.accepted
  stopped := by
    refine forall_update at_ valid.stopped fun stops => ?_
    have halted := (valid.stopped index service at_ stops).1
    rw [running] at halted
    cases halted
  single unlimited := forall_update at_ (valid.single unlimited) (single unlimited)
  dispatcher := known _ rfl
  limit number limited := by
    have workers := nrWorkers_update at_ { service with jobQueue := service.jobQueue ++ [job] }
    exact ((Nat.add_right_cancel workers).le).trans (valid.limit number limited)

theorem Valid.take (at_ : pool.services[index]? = some service)
    (unlimited : settings.unlimited = true) (done : service.oneShotDone = true)
    (flag : after.oneShotDone = false) (running : after.isRunning = true) (jobs : after.jobs = [])
    (working : after.worker ≠ .finished ∧ after.worker ≠ .stopped) :
    Valid settings { pool.update index after with dispatcher := .pushNew index } where
  kept job := by
    have single := valid.single unlimited index service at_
    have none := (weight_eq_zero.mp (single.done done)).1
    have counted := held_update at_ after job
    rw [none, jobs] at counted
    have kept := valid.kept job
    rw [← Nat.add_right_cancel counted] at kept
    exact kept
  accepted := valid.accepted
  stopped := forall_update at_ valid.stopped fun stops => absurd stops working.2
  single _ := forall_update at_ (valid.single unlimited) (by
    have weight := weight_eq_zero.mpr ⟨jobs, working.1⟩
    exact ⟨weight ▸ Nat.zero_le 1, fun _ => weight, fun _ => running⟩)
  dispatcher := ⟨after, (getElem?_update at_ after index).trans (if_pos rfl), running,
    weight_eq_zero.mpr ⟨jobs, working.1⟩, flag⟩
  limit number limited := by
    rw [Settings.unlimited, isNone_iff_eq_none] at unlimited
    rw [unlimited] at limited
    cases limited

variable (went : pool.dispatch settings = some next)

include went

theorem Valid.round (at_ : pool.dispatcher = .round) : next.Valid settings := by
  have started : ∀ {services : List Service} {queue : List Job} {job : Option Job}
      {counter : Nat} {accepted finished : List Job},
      Dispatches settings
        { services := services
          dispatchQueue := queue
          newJob := job
          dispatcher := if settings.unlimited then .scan 0 else .load 0 0 (2 ^ 32 - 1) 0
          idleCounter := counter
          accepted := accepted
          finished := finished } := by
    intros
    unfold Dispatches
    cases unlimited : settings.unlimited with
    | true | false => exact rfl
  simp only [dispatch, at_] at went
  split at went
  · cases went
    exact { valid with dispatcher := started }
  · next job rest free queued =>
    cases went
    refine { valid with kept := fun other => ?_, dispatcher := started }
    have kept := valid.kept other
    unfold held at kept ⊢
    rw [free, queued] at kept
    simp only [toList, List.count_nil, count_cons] at kept ⊢
    omega
  · cases went
    exact valid.goto _ trivial

theorem Valid.load {total minLoad minService : Nat}
    (at_ : pool.dispatcher = .load index total minLoad minService) : next.Valid settings := by
  have limited : settings.unlimited = false := valid.known at_
  simp only [dispatch, at_] at went
  split at went <;> cases went
  · exact valid.goto _ limited
  · apply valid.goto
    unfold decideLoad
    split
    · exact trivial
    · split
      · exact limited
      · exact trivial

theorem Valid.loadIdle {jobLoad total minLoad minService : Nat}
    (at_ : pool.dispatcher = .loadIdle index jobLoad total minLoad minService) :
    next.Valid settings := by
  have limited : settings.unlimited = false := valid.known at_
  simp only [dispatch, at_] at went
  obtain ⟨service, -, rfl⟩ := map_eq_some_iff.mp went
  apply valid.goto
  split <;> exact limited

theorem Valid.pushLeast (at_ : pool.dispatcher = .pushLeast index)
    (may : pool.Allowed settings .dispatch) : next.Valid settings := by
  have limited : settings.unlimited = false := valid.known at_
  simp only [dispatch, at_] at went
  split at went
  · next service job found new =>
    split at went <;> cases went
    · have running : service.isRunning = true := by
        obtain ⟨number, bound⟩ : ∃ number, settings.nrMaxThr = some number := by
          cases bound : settings.nrMaxThr with
          | none =>
            rw [Settings.unlimited, bound] at limited
            cases limited
          | some number => exact ⟨number, rfl⟩
        have least : index ∈ pool.least := by
          unfold least
          rw [at_]
          rfl
        exact (may number bound).1 index least service (mem_def.mpr found)
      refine valid.give found new running (fun unlimited => ?_) 0 fun given round => ?_
      · rw [limited] at unlimited
        cases unlimited
      · unfold Dispatches
        rw [round]
        trivial
    · exact valid.goto _ trivial
  · cases went

theorem Valid.newService (at_ : pool.dispatcher = .newService)
    (may : pool.Allowed settings .dispatch) : next.Valid settings := by
  simp only [dispatch, at_] at went
  cases went
  have last : (pool.services ++ [({} : Service)])[pool.services.length]? = some {} :=
    List.getElem?_concat_length
  have every : ∀ {fact : Service → Prop},
      (∀ (place : Nat) service, pool.services[place]? = some service → fact service) →
      fact {} → ∀ (place : Nat) service,
        (pool.services ++ [({} : Service)])[place]? = some service → fact service := by
    intro fact all own place service found
    by_cases before : place < pool.services.length
    · rw [List.getElem?_append_left before] at found
      exact all place service found
    · have below := (List.getElem?_eq_some_iff.mp found).1
      rw [List.length_append, List.length_singleton] at below
      have same : place = pool.services.length :=
        (Nat.le_of_lt_succ below).antisymm (Nat.le_of_not_lt before)
      rw [same, last, some.injEq] at found
      exact found ▸ own
  exact {
    kept := fun job => by
      have kept := valid.kept job
      simp only [held, map_append, map_singleton, sum_append, sum_singleton,
        Service.jobs, WorkerPc.hands, append_nil, List.count_nil, Nat.add_zero] at kept ⊢
      exact kept
    accepted := valid.accepted
    stopped := every valid.stopped (by simp)
    single := fun unlimited => every (valid.single unlimited) (by
      refine ⟨by decide, fun done => ?_, fun _ => rfl⟩
      cases done)
    dispatcher := ⟨{}, last, rfl, rfl, rfl⟩
    limit := fun n limited => by
      have more := (may n limited).2 at_
      rw [nrWorkers, countP_append]
      exact more }

theorem Valid.pushNew (at_ : pool.dispatcher = .pushNew index) : next.Valid settings := by
  have waits : pool.Waits index := valid.known at_
  obtain ⟨fresh, found, running, weight, flag⟩ := waits
  obtain ⟨empty, working⟩ := weight_eq_zero.mp weight
  obtain ⟨queue, idle, hands⟩ := jobs_eq_nil.mp empty
  simp only [dispatch, at_, found] at went
  split at went
  · next service job same new =>
    cases same
    cases went
    have room : fresh.jobQueue.length < settings.serviceSlots := by
      rw [queue]
      exact settings.serviceSlots_pos
    rw [push_of_room room]
    refine valid.give found new running (fun _ => ?_) _ fun given round => ?_
    · refine ⟨?_, fun done => ?_, fun _ => running⟩
      · simp [Service.weight, Service.jobs, queue, idle, hands, working]
      · dsimp only at done
        rw [flag] at done
        cases done
    · unfold Dispatches
      rw [round]
      trivial
  · cases went

theorem Valid.scan (at_ : pool.dispatcher = .scan index) : next.Valid settings := by
  have unlimited : settings.unlimited = true := valid.known at_
  simp only [dispatch, at_] at went
  split at went
  · next service found =>
    cases went
    apply valid.goto
    split
    · next done => exact ⟨unlimited, service, found, done⟩
    · exact unlimited
  · cases went
    exact valid.goto _ trivial

theorem Valid.reuse (at_ : pool.dispatcher = .reuse index) : next.Valid settings := by
  obtain ⟨unlimited, service, found, done⟩ : settings.unlimited = true ∧ pool.Done index :=
    valid.known at_
  have single := valid.single unlimited index service found
  obtain ⟨none, working⟩ := weight_eq_zero.mp (single.done done)
  simp only [dispatch, at_, found, bind_some] at went
  split at went
  · next running =>
    cases went
    refine valid.take found unlimited done rfl running none ⟨working, fun stops => ?_⟩
    have halted := (valid.stopped index service found stops).1
    rw [running] at halted
    cases halted
  · split at went
    · cases went
      refine valid.take found unlimited done rfl rfl ?_ ⟨by simp, by simp⟩
      obtain ⟨queue, idle, -⟩ := jobs_eq_nil.mp none
      exact jobs_eq_nil.mpr ⟨queue, idle, rfl⟩
    · cases went

theorem Valid.idle (at_ : pool.dispatcher = .idle) : next.Valid settings := by
  simp only [dispatch, at_] at went
  split at went <;> cases went
  · exact valid.goto _ fun _ place mem => absurd mem not_mem_nil
  · exact valid.goto _ trivial

variable {reaps : List Nat}

theorem Valid.reapScan (at_ : pool.dispatcher = .reapScan index reaps) : next.Valid settings := by
  have known := valid.known at_
  simp only [dispatch, at_] at went
  split at went
  · next service found =>
    cases went
    refine valid.goto _ fun unlimited place mem => ?_
    split at mem
    · next reaped =>
      rcases mem_append.mp mem with old | own
      · exact known unlimited place old
      · rw [mem_singleton.mp own]
        rw [Bool.and_eq_true, Bool.and_eq_true] at reaped
        exact ⟨service, found, reaped.1.1⟩
    · exact known unlimited place mem
  · cases went
    exact valid.goto _ known

theorem Valid.reap (at_ : pool.dispatcher = .reap reaps) : next.Valid settings := by
  have known := valid.known at_
  simp only [dispatch, at_] at went
  split at went
  · cases went
    exact valid.goto _ trivial
  · next index rest =>
    obtain ⟨service, found, rfl⟩ := map_eq_some_iff.mp went
    exact {
      kept := fun job => by
        have counted := held_update found { service with isRunning := false } job
        have kept := valid.kept job
        rw [← Nat.add_right_cancel counted] at kept
        exact kept
      accepted := valid.accepted
      stopped := forall_update found valid.stopped fun stops =>
        ⟨rfl, (valid.stopped index service found stops).2⟩
      single := fun unlimited => forall_update found (valid.single unlimited) (by
        have single := valid.single unlimited index service found
        obtain ⟨other, same, done⟩ := known unlimited index mem_cons_self
        rw [found, some.injEq] at same
        subst same
        refine ⟨single.weight, single.done, fun undone => ?_⟩
        rw [done] at undone
        cases undone)
      dispatcher := fun unlimited place mem =>
        (known unlimited place (mem_cons_of_mem _ mem)).update found id
      limit := fun number limited => by
        have workers := nrWorkers_update found { service with isRunning := false }
        exact Nat.le_trans ((Nat.add_right_cancel workers).le)
          (valid.limit number limited) }

theorem Valid.join (at_ : pool.dispatcher = .join index reaps) : next.Valid settings := by
  have known := valid.known at_
  simp only [dispatch, at_] at went
  obtain ⟨service, -, went⟩ := bind_eq_some_iff.mp went
  split at went <;> cases went
  exact valid.goto _ known

end

end Dispatch

section Runs

variable {settings : Settings} {pool next : Pool}

theorem Valid.step (valid : pool.Valid settings) {action : Action}
    (may : pool.Allowed settings action) (went : pool.step settings action = some next) :
    next.Valid settings := by
  cases action with
  | schedule job =>
    simp only [Pool.step] at went
    split at went <;> cases went
    refine { valid with
      kept := fun other => ?_
      accepted := nodup_cons.mpr ⟨may, valid.accepted⟩ }
    have kept := valid.kept other
    simp only [held, count_append, count_cons, List.count_nil] at kept ⊢
    omega
  | dispatch =>
    have dispatched : pool.dispatch settings = some next := went
    cases at_ : pool.dispatcher with
    | round => exact valid.round dispatched at_
    | load index total minLoad minService => exact valid.load dispatched at_
    | loadIdle index jobLoad total minLoad minService => exact valid.loadIdle dispatched at_
    | pushLeast index => exact valid.pushLeast dispatched at_ may
    | newService => exact valid.newService dispatched at_ may
    | pushNew index => exact valid.pushNew dispatched at_
    | scan index => exact valid.scan dispatched at_
    | reuse index => exact valid.reuse dispatched at_
    | idle => exact valid.idle dispatched at_
    | reapScan index reaps => exact valid.reapScan dispatched at_
    | reap reaps => exact valid.reap dispatched at_
    | join index reaps => exact valid.join dispatched at_
  | work index answer =>
    obtain ⟨service, at_, rest⟩ := bind_eq_some_iff.mp went
    obtain ⟨after, worked, rfl⟩ := map_eq_some_iff.mp rest
    exact valid.work at_ may worked

theorem start_valid (settings : Settings) : (start settings).Valid settings := by
  have every : ∀ (i : Nat) service, (start settings).services[i]? = some service →
      service = { oneShotDone := true } := by
    intro i service found
    exact eq_of_mem_replicate (mem_of_getElem? found)
  have empty : ∀ (n : Nat) (job : Job), ((replicate n
      ({ oneShotDone := true } : Service)).map fun service => service.jobs.count job).sum = 0 := by
    intro n job
    simp [Service.jobs, WorkerPc.hands]
  exact {
    kept := fun job => by
      simp only [held, start, empty, List.count_nil, toList]
    accepted := nodup_nil
    stopped := fun i service found stops => by
      rw [every i service found] at stops
      cases stops
    single := fun _ i service found => by
      rw [every i service found]
      exact ⟨by decide, fun _ => rfl, fun undone => by cases undone⟩
    dispatcher := trivial
    limit := fun n _ => by
      refine Nat.le_trans ?_ (Nat.le_max_left _ _)
      exact countP_le_length.trans length_replicate.le }

end Runs

section Safe

variable {settings : Settings} {pool : Pool}

section

variable (valid : pool.Valid settings)
include valid

/-- A stopped worker has no job, so that the services with a worker have them all. -/
theorem Valid.count_working (job : Job) :
    ((pool.services.filter isWorking).flatMap Service.jobs).count job =
      (pool.services.map fun service => service.jobs.count job).sum := by
  have idle : ∀ service ∈ pool.services, isWorking service = false →
      service.jobs.count job = 0 := by
    intro service mem halted
    obtain ⟨i, below, at_⟩ := mem_iff_getElem.mp mem
    have stopped : service.worker = .stopped := by
      by_contra working
      simp [isWorking, working] at halted
    have none := (valid.stopped i service
      (List.getElem?_eq_some_iff.mpr ⟨below, at_⟩) stopped).2
    rw [none, List.count_nil]
  generalize pool.services = services at idle
  induction services with
  | nil => rfl
  | cons first rest ih =>
    have tail := ih fun service mem => idle service (mem_cons_of_mem first mem)
    rw [map_cons, sum_cons, ← tail]
    cases working : isWorking first with
    | true => rw [filter_cons_of_pos working, flatMap_cons, count_append]
    | false =>
      rw [filter_cons_of_neg (by rw [working]; exact Bool.false_ne_true),
        idle first mem_cons_self working, Nat.zero_add]

theorem Valid.count_places (job : Job) : pool.places.count job = pool.held job := by
  rw [places, count_append, count_append, valid.count_working, held, Nat.add_assoc]

theorem Valid.apart {first second : Nat} {service other : Service}
    (at_ : pool.services[first]? = some service) (their : pool.services[second]? = some other)
    {job : Job} (mine : job ∈ service.jobs) (theirs : job ∈ other.jobs) : first = second := by
  by_contra distinct
  -- without its job the first service leaves the count of the second one
  have counted := held_update at_ {} job
  have left : (pool.update first {}).services[second]? = some other := by
    rw [getElem?_update at_, if_neg distinct, their]
  have empty : Service.jobs {} = [] := rfl
  have remains : other.jobs.count job ≤ (pool.update first {}).held job := by
    refine Nat.le_trans ?_ (Nat.le_add_left _ _)
    exact le_sum_of_mem
      (mem_map.mpr ⟨other, mem_of_getElem? left, rfl⟩)
  have once := nodup_iff_count_le_one.mp valid.accepted job
  have kept := valid.kept job
  have one := count_pos_iff.mpr mine
  have another := count_pos_iff.mpr theirs
  rw [empty, List.count_nil] at counted
  omega

theorem Valid.safe : pool.Safe settings where
  conserved job accepted unfinished := by
    have kept := valid.kept job
    rw [count_eq_zero_of_not_mem unfinished,
      count_eq_one_of_mem valid.accepted accepted] at kept
    rw [valid.count_places]
    exact kept
  once job finished present := by
    have kept := valid.kept job
    have once := nodup_iff_count_le_one.mp valid.accepted job
    have done := count_pos_iff.mpr finished
    have place := count_pos_iff.mpr present
    rw [valid.count_places] at place
    omega
  alone first second service other job at_ their running running' := by
    have hands : ∀ {any : Service}, any.worker = .running job → job ∈ any.jobs := by
      intro any worker
      rw [Service.jobs, worker]
      exact mem_append_right _ (mem_append_right _ (mem_singleton_self job))
    exact valid.apart at_ their (hands running) (hands running')
  limit := valid.limit

end

theorem jobs_safe_of_allowed (settings : Settings) (actions : List Action) (final : Pool)
    (allowed : Guarded (step settings) (Allowed settings) (start settings) actions)
    (ran : execute (step settings) (start settings) actions = some final) :
    final.Safe settings := by
  have steps : ∀ {before : Pool} {action : Action} {next : Pool}, before.Valid settings →
      before.Allowed settings action → before.step settings action = some next →
      next.Valid settings :=
    fun valid allowed stepped => valid.step allowed stepped
  exact (invariant_of_guarded steps (start_valid settings) allowed ran).safe

end Safe

def oneWorker : Settings where
  nrInitThr := 1
  nrMaxThr := some 1
  nrMaxCcJobs := 4096
  workerReapNrounds := 600000
  nrInitThr_pos := by decide
  nrMaxThr_pos := by decide
  nrMaxCcJobs_pos := by decide
  nrMaxCcJobs_lt := by decide
  workerReapNrounds_pos := by decide

def giveJob (job : Job) : List Action :=
  [.schedule job, .dispatch, .dispatch, .dispatch, .dispatch, .dispatch]

def twoJobsRun : List Action :=
  giveJob 7 ++ giveJob 8 ++
    [.work 0 .run, .work 0 .run, .work 0 .run, .work 0 .idle, .work 0 .idle, .work 0 .run,
      .work 0 .run, .work 0 .run, .work 0 .done, .work 0 .done, .work 0 .run, .work 0 .run,
      .work 0 .run, .work 0 .run, .work 0 .run, .work 0 .run, .work 0 .run, .work 0 .run,
      .schedule 9]

theorem twoJobsRun_safe :
    Guarded (step oneWorker) (Allowed oneWorker) (start oneWorker) twoJobsRun ∧
      ∃ final, execute (step oneWorker) (start oneWorker) twoJobsRun = some final ∧
        (final.finished = [8] ∧ final.places = [9, 7] ∧
          final.services.map worker = [.running 7]) ∧ final.Safe oneWorker := by
  have allowed :
      Guarded (step oneWorker) (Allowed oneWorker) (start oneWorker) twoJobsRun := by
    decide +kernel
  obtain ⟨final, ran, facts⟩ :
      ∃ final, execute (step oneWorker) (start oneWorker) twoJobsRun = some final ∧
        (final.finished = [8] ∧ final.places = [9, 7] ∧
          final.services.map worker = [.running 7]) :=
    execute_check (by decide +kernel)
  exact ⟨allowed, final, ran, facts, jobs_safe_of_allowed oneWorker twoJobsRun final allowed ran⟩

/-- The fifth job that waits makes a service, whatever the limit is. -/
def fiveJobsRun : List Action :=
  giveJob 1 ++ giveJob 2 ++ giveJob 3 ++ giveJob 4 ++ giveJob 5

theorem fiveJobsRun_not_safe :
    ∃ final, execute (step oneWorker) (start oneWorker) fiveJobsRun = some final ∧
      final.nrWorkers = 2 ∧ ¬ final.Safe oneWorker := by
  obtain ⟨final, ran, workers⟩ :
      ∃ final, execute (step oneWorker) (start oneWorker) fiveJobsRun = some final ∧
        final.nrWorkers = 2 :=
    execute_check (by decide +kernel)
  refine ⟨final, ran, workers, fun safe => ?_⟩
  have few : final.nrWorkers ≤ 1 := safe.limit 1 rfl
  rw [workers] at few
  exact absurd few (by decide)

end Pool

end AdkAaf.Adk.ThreadPool
