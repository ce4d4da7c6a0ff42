import AdkAaf.Lib.Transition
import AdkAaf.Sharding.SeqLock.Basic
import Mathlib.Data.Fintype.Basic

/-! The sharded use of `ShmSeqLock`: `PollingMessage` delivers a message to the
application, which may lock and unlock the message's total-order number, and
then unlocks that number once more. Calls are single steps here; a `Lock` that
is not granted stays pending. Nothing ties the messages of different shards
together, so one number may go to any set of shards. -/

set_option autoImplicit false

namespace AdkAaf.Sharding.SeqLockUse

open Function Lib

/-- A delivered message: its number, and whether the application locks it. -/
structure Message where
  totalOrderSqn : Int
  locks : Bool
  positive : 1 ≤ totalOrderSqn

inductive Phase where
  | delivered
  | critical
  | unlocked
  deriving DecidableEq

def Message.returned (message : Message) : Phase :=
  if message.locks then .unlocked else .delivered

structure Shard where
  messages : List Message
  phase : Phase := .delivered

structure System (Id : Type) where
  seqLock : ShmSeqLock
  shard : Id → Shard

inductive Action (Id : Type) where
  | lock (shard : Id)
  | unLock (shard : Id)
  | frameworkUnLock (shard : Id)

variable {Id : Type} [DecidableEq Id]

namespace System

def setShard (system : System Id) (id : Id) (value : Shard) : System Id :=
  { system with shard := update system.shard id value }

def step (system : System Id) : Action Id → Option (System Id)
  | .lock id =>
    match system.shard id with
    | { messages := message :: rest, phase := .delivered } =>
      if message.locks then
        let (granted, seqLock) := system.seqLock.lock message.totalOrderSqn
        some ({ system with seqLock }.setShard id
          { messages := message :: rest
            phase := if granted then .critical else .delivered })
      else
        none
    | _ => none
  | .unLock id =>
    match system.shard id with
    | { messages := message :: rest, phase := .critical } =>
      some ({ system with seqLock := system.seqLock.unLock message.totalOrderSqn }.setShard id
        { messages := message :: rest, phase := .unlocked })
    | _ => none
  | .frameworkUnLock id =>
    match system.shard id with
    | { messages := message :: rest, phase } =>
      if phase = message.returned then
        some ({ system with seqLock := system.seqLock.unLock message.totalOrderSqn }.setShard id
          { messages := rest })
      else
        none
    | _ => none

end System

def Shard.criticalSqn : Shard → Option Int
  | { messages := message :: _, phase := .critical } => some message.totalOrderSqn
  | _ => none

def MutualExclusion (system : System Id) : Prop :=
  ∀ first second, (system.shard first).criticalSqn.isSome →
    (system.shard second).criticalSqn.isSome → first = second

def unlockedSqn (system : System Id) : Action Id → Option (Id × Int)
  | .lock _ => none
  | .unLock id | .frameworkUnLock id =>
    (system.shard id).messages.head?.map fun message => (id, message.totalOrderSqn)

/-- No number is unlocked while another shard is in its critical section for it. -/
def UnlocksOwn (system : System Id) (action : Action Id) : Prop :=
  match unlockedSqn system action with
  | none => True
  | some (id, sqn) => ∀ other, other ≠ id → (system.shard other).criticalSqn ≠ some sqn

instance UnlocksOwn.decidable [Fintype Id] (system : System Id) (action : Action Id) :
    Decidable (UnlocksOwn system action) := by
  unfold UnlocksOwn
  exact match unlockedSqn system action with
    | none => inferInstanceAs (Decidable True)
    | some (id, sqn) => inferInstanceAs
        (Decidable (∀ other, other ≠ id → (system.shard other).criticalSqn ≠ some sqn))

variable {system : System Id} {action : Action Id} {id : Id}

omit [DecidableEq Id] in
theorem UnlocksOwn.of_unlockedSqn {sqn : Int} (own : UnlocksOwn system action)
    (unlocks : unlockedSqn system action = some (id, sqn)) :
    ∀ other, other ≠ id → (system.shard other).criticalSqn ≠ some sqn := by
  simpa only [UnlocksOwn, unlocks] using own

def start (cacheSize : UInt32) (memory : Nat → Int) (routing : Id → List Message) : System Id :=
  { seqLock := .create cacheSize memory, shard := fun id => { messages := routing id } }

section LockWord

open ShmSeqLock

variable {seqLock : ShmSeqLock}

theorem unlockCache_lockSqn (totalSeq : Int) :
    (seqLock.unlockCache totalSeq).lockSqn = seqLock.lockSqn := by
  unfold ShmSeqLock.unlockCache
  split
  · rfl
  · split <;> rfl

variable {totalSeq : Int}

theorem unLock_of_held_other (held : seqLock.lockSqn < 0) (other : seqLock.lockSqn ≠ -totalSeq) :
    (seqLock.unLock totalSeq).lockSqn = seqLock.lockSqn := by
  have notReleased : ¬ (0 ≤ seqLock.lockSqn ∧
      seqLock.lockSqn < max totalSeq seqLock.prevLockSqn) := by omega
  simp only [ShmSeqLock.unLock, if_neg other, if_neg notReleased, unlockCache_lockSqn]

theorem lockSpin_of_held (totalSeq : Int) (held : seqLock.lockSqn < 0) :
    seqLock.lockSpin totalSeq = seqLock :=
  if_neg (by omega)

theorem lock_granted (granted : (seqLock.lock totalSeq).1 = true) (pos : 1 ≤ totalSeq) :
    0 ≤ seqLock.lockSqn ∧ (seqLock.lock totalSeq).2.lockSqn = -totalSeq := by
  unfold ShmSeqLock.lock at granted ⊢
  dsimp only at granted ⊢
  split at granted
  · next free =>
    refine ⟨?_, by rw [if_pos free]⟩
    by_contra held
    rw [lockSpin_of_held totalSeq (by omega)] at free
    omega
  · cases granted

theorem lock_refused (refused : (seqLock.lock totalSeq).1 = false)
    (held : seqLock.lockSqn < 0) : (seqLock.lock totalSeq).2.lockSqn = seqLock.lockSqn := by
  unfold ShmSeqLock.lock at refused ⊢
  dsimp only at refused ⊢
  split at refused
  · cases refused
  · next busy => rw [if_neg busy, lockSpin_of_held totalSeq held]

end LockWord

/-- While a shard is in its critical section the lock word carries its number,
and nobody else is in one. -/
def Exclusive (system : System Id) : Prop :=
  ∀ id sqn, (system.shard id).criticalSqn = some sqn →
    system.seqLock.lockSqn = -sqn ∧ 1 ≤ sqn ∧
      ∀ other, other ≠ id → (system.shard other).criticalSqn = none

omit [DecidableEq Id] in
theorem Exclusive.mutualExclusion (exclusive : Exclusive system) : MutualExclusion system := by
  intro first second firstCritical secondCritical
  obtain ⟨sqn, critical⟩ := Option.isSome_iff_exists.mp firstCritical
  by_contra apart
  have outside := (exclusive first sqn critical).2.2 second (Ne.symm apart)
  simp [outside] at secondCritical

variable {value : Shard}

theorem Exclusive.of_setShard_outside (outside : value.criticalSqn = none)
    (others : ∀ other sqn, other ≠ id → (system.shard other).criticalSqn = some sqn →
      system.seqLock.lockSqn = -sqn ∧ 1 ≤ sqn ∧
        ∀ third, third ≠ other → third ≠ id → (system.shard third).criticalSqn = none) :
    Exclusive (system.setShard id value) := by
  intro other sqn critical
  by_cases same : other = id
  · simp [System.setShard, same, outside] at critical
  · simp only [System.setShard, update_of_ne same] at critical
    obtain ⟨word, pos, alone⟩ := others other sqn same critical
    refine ⟨word, pos, fun third apart => ?_⟩
    by_cases own : third = id
    · simp [System.setShard, own, outside]
    · simpa only [System.setShard, update_of_ne own] using alone third apart own

theorem Exclusive.unlock_step (exclusive : Exclusive system) {totalSeq : Int}
    (outside : value.criticalSqn = none)
    (own : ∀ other, other ≠ id → (system.shard other).criticalSqn ≠ some totalSeq) :
    Exclusive ({ system with seqLock := system.seqLock.unLock totalSeq }.setShard id value) := by
  apply Exclusive.of_setShard_outside outside
  intro other sqn apart critical
  obtain ⟨word, pos, alone⟩ := exclusive other sqn critical
  refine ⟨?_, pos, fun third notOther _ => alone third notOther⟩
  -- the holder is another shard, hence another number, and its lock survives
  have otherNumber : sqn ≠ totalSeq := by
    intro same
    exact own other apart (same ▸ critical)
  exact (unLock_of_held_other (by omega) (by omega)).trans word

theorem Exclusive.step {next : System Id} (exclusive : Exclusive system)
    (may : UnlocksOwn system action) (went : system.step action = some next) :
    Exclusive next := by
  cases action with simp only [System.step] at went
  | lock id =>
    split at went
    · next message rest delivered =>
      split at went
      · have positive := message.positive
        cases went
        cases granted : (system.seqLock.lock message.totalOrderSqn).1 with
        | true =>
          obtain ⟨free, word⟩ := lock_granted granted positive
          -- the lock was free, so nobody was inside
          have empty : ∀ other, (system.shard other).criticalSqn = none := by
            intro other
            cases critical : (system.shard other).criticalSqn with
            | none => rfl
            | some sqn =>
              obtain ⟨held, positive, _⟩ := exclusive other sqn critical
              omega
          intro other sqn critical
          by_cases same : other = id
          · simp [System.setShard, same, Shard.criticalSqn] at critical
            subst sqn
            refine ⟨word, positive, fun third apart => ?_⟩
            have away : third ≠ id := same ▸ apart
            simpa only [System.setShard, update_of_ne away] using empty third
          · simp [System.setShard, update_of_ne same, empty other] at critical
        | false =>
          apply Exclusive.of_setShard_outside (by simp [Shard.criticalSqn])
          intro other sqn _ critical
          obtain ⟨held, above, alone⟩ := exclusive other sqn critical
          exact ⟨(lock_refused granted (by omega)).trans held, above,
            fun third apart _ => alone third apart⟩
      · cases went
    · cases went
  | unLock id =>
    split at went
    · next message rest critical =>
      cases went
      exact exclusive.unlock_step (by simp [Shard.criticalSqn])
        (may.of_unlockedSqn (by simp [unlockedSqn, critical]))
    · cases went
  | frameworkUnLock id =>
    split at went
    · next message rest phase handled =>
      split at went <;> cases went
      exact exclusive.unlock_step (by simp [Shard.criticalSqn])
        (may.of_unlockedSqn (by simp [unlockedSqn, handled]))
    · cases went

/-- In every run in which no shard unlocks a number while another shard is in
its critical section for that number, at most one shard is ever inside. -/
theorem mutualExclusion_of_unlocksOwn (cacheSize : UInt32) (memory : Nat → Int)
    (routing : Id → List Message) {actions : List (Action Id)} {final : System Id}
    (own : Guarded System.step UnlocksOwn (start cacheSize memory routing) actions)
    (ran : execute System.step (start cacheSize memory routing) actions = some final) :
    MutualExclusion final := by
  have initial : Exclusive (start cacheSize memory routing) := by
    intro id sqn critical
    cases messages : routing id <;> simp [start, Shard.criticalSqn, messages] at critical
  exact (invariant_of_guarded Exclusive.step initial own ran).mutualExclusion

/-! ## A broadcast number

Number `1` goes to both shards and is locked by both, number `2` to the first
only. -/

def first : Message := ⟨1, true, by decide⟩
def second : Message := ⟨2, true, by decide⟩

def broadcastRouting : Bool → List Message
  | true => [first, second]
  | false => [first]

/-- The first shard is done with number `1` before the second locks it, but its
framework unlock comes after that and frees the second shard's lock. -/
def overlappingRun : List (Action Bool) :=
  [.lock true, .unLock true, .lock false, .frameworkUnLock true, .lock true]

theorem overlappingRun_both_critical : (∀ id, (broadcastRouting id).Pairwise (fun before after =>
      before.totalOrderSqn < after.totalOrderSqn)) ∧
    ∃ final, execute System.step (start 16 (fun _ => 0) broadcastRouting) overlappingRun =
      some final ∧ ¬ MutualExclusion final := by
  have ordered : ∀ id, (broadcastRouting id).Pairwise (fun before after =>
      before.totalOrderSqn < after.totalOrderSqn) := by decide
  have inside : (execute System.step (start 16 (fun _ => 0) broadcastRouting)
      overlappingRun).map (fun final => ((final.shard true).criticalSqn,
        (final.shard false).criticalSqn)) = some (some 2, some 1) := by decide +kernel
  obtain ⟨final, ran, critical⟩ := Option.map_eq_some_iff.mp inside
  obtain ⟨firstInside, secondInside⟩ := Prod.mk.inj critical
  refine ⟨ordered, final, ran, fun exclusive => ?_⟩
  have same := exclusive true false (by rw [firstInside]; rfl) (by rw [secondInside]; rfl)
  cases same

def orderlyRun : List (Action Bool) :=
  [.lock true, .unLock true, .frameworkUnLock true, .lock false, .lock true, .unLock false,
    .frameworkUnLock false, .lock true]

theorem orderlyRun_mutualExclusion :
    ∃ final, execute System.step (start 16 (fun _ => 0) broadcastRouting) orderlyRun =
      some final ∧ (final.shard true).criticalSqn = some 2 ∧ MutualExclusion final := by
  have inside : (execute System.step (start 16 (fun _ => 0) broadcastRouting)
      orderlyRun).map (fun final => (final.shard true).criticalSqn) = some (some 2) := by
    decide +kernel
  obtain ⟨final, ran, critical⟩ := Option.map_eq_some_iff.mp inside
  exact ⟨final, ran, critical, mutualExclusion_of_unlocksOwn 16 (fun _ => 0) broadcastRouting
    (by decide +kernel) ran⟩

end AdkAaf.Sharding.SeqLockUse
