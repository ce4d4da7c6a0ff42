import AdkAaf.Lib.Transition
import Mathlib.Data.UInt

/-! `LeakyBucket` of `adk/src/leaky_bucket.cpp`, with time in the nanoseconds of
`std::chrono::steady_clock`. -/

set_option autoImplicit false

namespace AdkAaf.Adk.LeakyBucket

open Lib List

/-- A call that got past the loop: the reading that let it through, and the later one from which
`next_leak_timepoint_` is counted. -/
structure Grant where
  len : UInt32
  length : UInt32
  checked : Nat
  counted : Nat

/-- The grants are history, the last one first. -/
structure State where
  leakIntervalMicro : UInt32
  leakLength : UInt32
  nextLeakTimepoint : Nat
  grants : List Grant := []

/-- The end of both functions, with the two readings of the clock. -/
def grant (bucket : State) (len : UInt32) (now later : Nat) : State :=
  if len < bucket.leakLength then
    let intervalMicro := len * bucket.leakIntervalMicro / bucket.leakLength
    { bucket with
      nextLeakTimepoint := later + 1000 * intervalMicro.toNat
      grants := ⟨len, len, now, later⟩ :: bucket.grants }
  else
    { bucket with
      nextLeakTimepoint := later + 1000 * bucket.leakIntervalMicro.toNat
      grants := ⟨len, bucket.leakLength, now, later⟩ :: bucket.grants }

def tryLeak (bucket : State) (len : UInt32) (now later : Nat) : State :=
  if len = 0 ∨ now < bucket.nextLeakTimepoint then bucket else grant bucket len now later

/-- `now` is the reading that ends the loop. -/
def leak (bucket : State) (len : UInt32) (now later : Nat) : Option State :=
  if len = 0 then
    some bucket
  else if now < bucket.nextLeakTimepoint then
    none
  else
    some (grant bucket len now later)

inductive Call where
  | tryLeak (len : UInt32) (now later : Nat)
  | leak (len : UInt32) (now later : Nat)

def Call.len : Call → UInt32
  | tryLeak len _ _ | leak len _ _ => len

def step (bucket : State) : Call → Option State
  | .tryLeak len now later => if now ≤ later then some (tryLeak bucket len now later) else none
  | .leak len now later => if now ≤ later then leak bucket len now later else none

/-- The product of a length below `leak_length_` and `leak_interval_micro_` fits `uint32_t`. -/
def Fits (bucket : State) (call : Call) : Prop :=
  call.len < bucket.leakLength → call.len.toNat * bucket.leakIntervalMicro.toNat < 2 ^ 32

section

variable (bucket : State)

/-- The nanoseconds for what was granted, without overflow. -/
def pause (grant : Grant) : Nat :=
  1000 * (grant.length.toNat * bucket.leakIntervalMicro.toNat / bucket.leakLength.toNat)

/-- The later grant is let through when the pause of the earlier one is over. -/
def Apart (later earlier : Grant) : Prop :=
  earlier.counted + pause bucket earlier ≤ later.checked

structure KeepsRate : Prop where
  limited : ∀ grant ∈ bucket.grants, grant.length ≤ grant.len ∧ grant.length ≤ bucket.leakLength
  apart : bucket.grants.Pairwise (Apart bucket)
  sum : ∀ last between first, last :: (between ++ [first]) <:+: bucket.grants →
    first.counted + ((between ++ [first]).map (pause bucket)).sum ≤ last.checked

structure Valid : Prop where
  limited : ∀ grant ∈ bucket.grants, grant.length ≤ grant.len ∧ grant.length ≤ bucket.leakLength
  ordered : ∀ grant ∈ bucket.grants, grant.checked ≤ grant.counted
  ended : ∀ grant ∈ bucket.grants, grant.counted + pause bucket grant ≤ bucket.nextLeakTimepoint
  apart : bucket.grants.Pairwise (Apart bucket)

end

variable {bucket next : State} {call : Call}

theorem sum_le {last : Grant} {between : List Grant} {first : Grant}
    (ordered : ∀ grant ∈ between, grant.checked ≤ grant.counted)
    (apart : (last :: (between ++ [first])).Pairwise (Apart bucket)) :
    first.counted + ((between ++ [first]).map (pause bucket)).sum ≤ last.checked := by
  induction between generalizing last with
  | nil => exact (pairwise_cons.mp apart).1 first mem_cons_self
  | cons second between ih =>
    obtain ⟨before, apart⟩ := pairwise_cons.mp apart
    have rest := ih (fun grant mem => ordered grant (mem_cons_of_mem _ mem)) apart
    have here : second.counted + pause bucket second ≤ last.checked := before second mem_cons_self
    have own := ordered second mem_cons_self
    simp only [cons_append, map_cons, sum_cons]
    omega

theorem Valid.keepsRate (valid : Valid bucket) : KeepsRate bucket where
  limited := valid.limited
  apart := valid.apart
  sum last between first infix_ := by
    refine sum_le (fun grant mem => valid.ordered grant (infix_.subset ?_))
      (valid.apart.sublist infix_.sublist)
    simp [mem]

theorem Valid.add (valid : Valid bucket) {len length : UInt32} {now later interval : Nat}
    (order : now ≤ later) (ended : bucket.nextLeakTimepoint ≤ now)
    (limited : length ≤ len ∧ length ≤ bucket.leakLength)
    (enough : pause bucket ⟨len, length, now, later⟩ ≤ interval) :
    Valid { bucket with
      nextLeakTimepoint := later + interval
      grants := ⟨len, length, now, later⟩ :: bucket.grants } where
  limited := forall_mem_cons.mpr ⟨limited, valid.limited⟩
  ordered := forall_mem_cons.mpr ⟨order, valid.ordered⟩
  ended := forall_mem_cons.mpr ⟨Nat.add_le_add_left enough later, fun grant mem =>
    (valid.ended grant mem).trans (by dsimp only; omega)⟩
  apart := pairwise_cons.mpr ⟨fun grant mem => (valid.ended grant mem).trans ended, valid.apart⟩

theorem grant_valid (valid : Valid bucket) {len : UInt32} {now later : Nat} (order : now ≤ later)
    (ended : bucket.nextLeakTimepoint ≤ now) (fits : len < bucket.leakLength →
      len.toNat * bucket.leakIntervalMicro.toNat < 2 ^ 32) :
    Valid (grant bucket len now later) := by
  rw [grant]
  split
  next below =>
    refine valid.add order ended ⟨UInt32.le_refl _, UInt32.le_of_lt below⟩ ?_
    rw [pause, UInt32.toNat_div, UInt32.toNat_mul, Nat.mod_eq_of_lt (fits below)]
  next above =>
    refine valid.add order ended ⟨UInt32.not_lt.mp above, UInt32.le_refl _⟩ ?_
    exact Nat.mul_le_mul_left _ (Nat.div_le_of_le_mul .refl)

theorem step_valid (valid : Valid bucket) (fits : Fits bucket call)
    (went : step bucket call = some next) : Valid next := by
  cases call with
  | tryLeak len now later =>
    simp only [step, tryLeak] at went
    split at went
    next order =>
      split at went <;> cases went
      · exact valid
      · exact grant_valid valid order (by omega) fits
    next => cases went
  | leak len now later =>
    simp only [step, leak] at went
    repeat' split at went
    all_goals cases went
    · exact valid
    · exact grant_valid valid (by assumption) (by omega) fits

/-- While no product of a length and the interval overflows, the grants are apart by what the
rate asks for each of them. -/
theorem keeps_rate {leakIntervalMicro leakLength : UInt32} {now : Nat} {calls : List Call}
    (guarded : Guarded step Fits ⟨leakIntervalMicro, leakLength, now, []⟩ calls)
    (ran : execute step ⟨leakIntervalMicro, leakLength, now, []⟩ calls = some bucket) :
    KeepsRate bucket := by
  have valid : Valid bucket :=
    invariant_of_guarded step_valid ⟨by simp, by simp, by simp, .nil⟩ guarded ran
  exact valid.keepsRate

/-- Half of what the bucket lets through is granted for half of the interval. -/
theorem half_keeps_rate : ∃ bucket, execute step ⟨1000000, 200, 0, []⟩
    [.tryLeak 100 0 1, .leak 300 500000001 500000002] = some bucket ∧
      bucket.grants.length = 2 ∧ KeepsRate bucket :=
  have guarded : Guarded step Fits ⟨1000000, 200, 0, []⟩
      [.tryLeak 100 0 1, .leak 300 500000001 500000002] :=
    ⟨fun _ => by decide, fun _ => by decide, trivial⟩
  ⟨_, rfl, rfl, keeps_rate guarded rfl⟩

/-- 5000 of 10000 are granted for 70503 microseconds instead of half a second. -/
theorem product_overflows : ∃ bucket, execute step ⟨1000000, 10000, 0, []⟩
    [.tryLeak 5000 0 0, .tryLeak 1 70503000 70503000] = some bucket ∧ ¬ KeepsRate bucket := by
  refine ⟨_, rfl, fun keeps => ?_⟩
  have apart : 0 + 1000 * (5000 * 1000000 / 10000) ≤ 70503000 :=
    (pairwise_cons.mp keeps.apart).1 _ mem_cons_self
  omega

end AdkAaf.Adk.LeakyBucket
