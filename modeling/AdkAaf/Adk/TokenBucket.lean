import AdkAaf.Adk.ArchGeneric
import AdkAaf.Lib.Transition
import Mathlib.Data.UInt

/-! `TokenBucket` of `adk/include/adk/token_buckets.h`: threads take tokens by a
compare-and-swap, and the worker thread of `RateControl` feeds the bucket. Each access to
`token_num_` and `capacity_` is a step. The product of the elapsed time and `rate_limit_` is a
`double` in the source and an argument of `feed` here, so that `last_time_` is left out.

A bucket overflows when the capacity is lowered below the tokens that the worker has seen while
threads take tokens: `capacity_ - token_num` is negative then. -/

set_option autoImplicit false

namespace AdkAaf.Adk.TokenBucket

open Function Lib

inductive AcquirePc where
  | idle
  | loading (require : UInt32)
  | swapping (require tokenNum : UInt32)

/-- Where `DoPeriodFeed` is, with its local variables. -/
inductive FeedPc where
  | idle
  | loading (totalAdden adden : UInt64)
  | comparing (totalAdden adden : UInt64) (tokenNum : UInt32)
  | subtracting (totalAdden : UInt64) (tokenNum : UInt32)
  | filling (totalAdden : UInt64) (tokenNum capacity : UInt32)
  | adding (totalAdden adden : UInt64)

structure State (Thread : Type) where
  capacity : UInt32
  tokenNum : UInt32 := 0
  historyToken : UInt64 := 0
  feed : FeedPc := .idle
  threads : Thread → AcquirePc := fun _ => .idle
  /-- The largest capacity that has been set, which the code does not store. -/
  largest : UInt32

variable {Thread : Type}

def State.setThread [DecidableEq Thread] (state : State Thread) (thread : Thread) (pc : AcquirePc) :
    State Thread :=
  { state with threads := update state.threads thread pc }

inductive Action (Thread : Type) where
  | setCapacity (capacity : UInt32)
  | acquire (thread : Thread) (require : UInt32)
  | thread (thread : Thread)
  | feed (totalAdden : UInt64)
  | feeder

def tryAcquire [DecidableEq Thread] (state : State Thread) (thread : Thread) :
    Option (State Thread) :=
  match state.threads thread with
  | .idle => none
  | .loading require =>
    if state.tokenNum < require then some (state.setThread thread .idle)
    else some (state.setThread thread (.swapping require state.tokenNum))
  | .swapping require tokenNum =>
    if state.tokenNum = tokenNum then
      some ({ state with tokenNum := tokenNum - require }.setThread thread .idle)
    else some (state.setThread thread (.loading require))

def doPeriodFeed (state : State Thread) : Option (State Thread) :=
  match state.feed with
  | .idle => none
  | .loading totalAdden adden =>
    some { state with feed := .comparing totalAdden adden state.tokenNum }
  | .comparing totalAdden adden tokenNum =>
    if state.capacity.toUInt64 < tokenNum.toUInt64 + adden then
      some { state with feed := .subtracting totalAdden tokenNum }
    else some { state with feed := .adding totalAdden adden }
  | .subtracting totalAdden tokenNum =>
    some { state with feed := .filling totalAdden tokenNum state.capacity }
  | .filling totalAdden tokenNum capacity =>
    some { state with
      tokenNum := state.tokenNum + (capacity - tokenNum)
      historyToken := if tokenNum = state.tokenNum then 0 else totalAdden
      feed := .idle }
  | .adding totalAdden adden =>
    some { state with
      tokenNum := state.tokenNum + adden.toUInt32, historyToken := totalAdden, feed := .idle }

def step [DecidableEq Thread] (state : State Thread) : Action Thread → Option (State Thread)
  | .setCapacity capacity => some { state with capacity, largest := max state.largest capacity }
  | .acquire thread require =>
    match state.threads thread with
    | .idle => some (state.setThread thread (.loading require))
    | .loading _ | .swapping _ _ => none
  | .thread thread => tryAcquire state thread
  | .feed totalAdden =>
    match state.feed with
    | .idle =>
      if state.historyToken < totalAdden then
        some { state with feed := .loading totalAdden (totalAdden - state.historyToken) }
      else some state
    | .loading _ _ | .comparing _ _ _ | .subtracting _ _ | .filling _ _ _ | .adding _ _ => none
  | .feeder => doPeriodFeed state

def start (capacity : UInt32) : State Thread := { capacity, largest := capacity }

/-- The sum of the tokens that were seen and the new ones is below `2 ^ 64`, and the bucket still
has the tokens that the step takes away where the capacity is smaller than what was seen. -/
def Sound (state : State Thread) : Action Thread → Prop
  | .feeder =>
    match state.feed with
    | .comparing _ adden tokenNum => tokenNum.toNat + adden.toNat < 2 ^ 64
    | .filling _ tokenNum capacity => tokenNum.toNat ≤ state.tokenNum.toNat + capacity.toNat
    | _ => True
  | _ => True

/-- What the worker relies on: in between only the other threads change the tokens. -/
def FeedValid (tokenNum largest : Nat) : FeedPc → Prop
  | .idle | .loading _ _ => True
  | .comparing _ _ seen | .subtracting _ seen => tokenNum ≤ seen.toNat
  | .filling _ seen capacity => tokenNum ≤ seen.toNat ∧ capacity.toNat ≤ largest
  | .adding _ adden => tokenNum + adden.toNat ≤ largest

def ThreadValid : AcquirePc → Prop
  | .idle | .loading _ => True
  | .swapping require tokenNum => require.toNat ≤ tokenNum.toNat

structure Valid (state : State Thread) : Prop where
  capacity : state.capacity.toNat ≤ state.largest.toNat
  tokens : state.tokenNum.toNat ≤ state.largest.toNat
  feed : FeedValid state.tokenNum.toNat state.largest.toNat state.feed
  threads : ∀ thread, ThreadValid (state.threads thread)

theorem FeedValid.mono {tokenNum largest fewer larger : Nat} {pc : FeedPc}
    (ok : FeedValid tokenNum largest pc) (less : fewer ≤ tokenNum) (more : largest ≤ larger) :
    FeedValid fewer larger pc := by
  cases pc with
  | idle | loading => trivial
  | comparing | subtracting => exact less.trans ok
  | filling => exact ⟨less.trans ok.1, ok.2.trans more⟩
  | adding => exact Nat.le_trans (Nat.add_le_add_right less _) (ok.trans more)

namespace Valid

variable {state next : State Thread}

theorem setThread [DecidableEq Thread] (ok : Valid state) (thread : Thread) {pc : AcquirePc}
    (threadValid : ThreadValid pc) : Valid (state.setThread thread pc) where
  capacity := ok.capacity
  tokens := ok.tokens
  feed := ok.feed
  threads other := by
    simp only [State.setThread]
    by_cases own : other = thread
    · rw [own, update_self]
      exact threadValid
    · rw [update_of_ne own]
      exact ok.threads other

theorem tryAcquire [DecidableEq Thread] (ok : Valid state) {thread : Thread}
    (went : tryAcquire state thread = some next) : Valid next := by
  have threadValid := ok.threads thread
  unfold TokenBucket.tryAcquire at went
  split at went
  next => cases went
  next require _ =>
    split at went
    next => cases went; exact ok.setThread thread trivial
    next enough =>
      cases went
      exact ok.setThread thread (Nat.le_of_not_lt enough)
  next require tokenNum at_ =>
    rw [at_] at threadValid
    split at went
    next same =>
      cases went
      have taken : (tokenNum - require).toNat ≤ state.tokenNum.toNat := by
        rw [same, UInt32.toNat_sub_of_le _ _ threadValid]
        exact Nat.sub_le _ _
      have kept : Valid { state with tokenNum := tokenNum - require } :=
        ⟨ok.capacity, taken.trans ok.tokens, ok.feed.mono taken .refl,
          ok.threads⟩
      exact kept.setThread thread trivial
    next => cases went; exact ok.setThread thread trivial

theorem doPeriodFeed (ok : Valid state) (sound : Sound state (.feeder : Action Thread))
    (went : doPeriodFeed state = some next) : Valid next := by
  have feed := ok.feed
  unfold TokenBucket.doPeriodFeed at went
  simp only [Sound] at sound
  split at went
  next => cases went
  next =>
    cases went
    exact ⟨ok.capacity, ok.tokens, .refl, ok.threads⟩
  next totalAdden adden tokenNum at_ =>
    rw [at_] at feed
    simp only [at_] at sound
    split at went
    next => cases went; exact ⟨ok.capacity, ok.tokens, feed, ok.threads⟩
    next below =>
      cases went
      refine ⟨ok.capacity, ok.tokens, ?_, ok.threads⟩
      rw [UInt64.lt_iff_toNat_lt, UInt64.toNat_add, UInt32.toNat_toUInt64, UInt32.toNat_toUInt64,
        Nat.mod_eq_of_lt sound] at below
      have capacity := ok.capacity
      change state.tokenNum.toNat ≤ tokenNum.toNat at feed
      change state.tokenNum.toNat + adden.toNat ≤ state.largest.toNat
      omega
  next totalAdden tokenNum at_ =>
    rw [at_] at feed
    cases went
    exact ⟨ok.capacity, ok.tokens, ⟨feed, ok.capacity⟩, ok.threads⟩
  next totalAdden tokenNum capacity at_ =>
    rw [at_] at feed
    simp only [at_] at sound
    cases went
    obtain ⟨seen, small⟩ := feed
    refine ⟨ok.capacity, ?_, trivial, ok.threads⟩
    change (state.tokenNum + (capacity - tokenNum)).toNat ≤ state.largest.toNat
    have bound := capacity.toNat_lt
    have seenBound := tokenNum.toNat_lt
    rw [UInt32.toNat_add, UInt32.toNat_sub]
    omega
  next totalAdden adden at_ =>
    rw [at_] at feed
    cases went
    change state.tokenNum.toNat + adden.toNat ≤ state.largest.toNat at feed
    refine ⟨ok.capacity, ?_, trivial, ok.threads⟩
    change (state.tokenNum + adden.toUInt32).toNat ≤ state.largest.toNat
    have bound := state.largest.toNat_lt
    rw [UInt32.toNat_add, UInt64.toNat_toUInt32]
    omega

theorem step [DecidableEq Thread] (ok : Valid state) {action : Action Thread}
    (sound : Sound state action) (went : step state action = some next) : Valid next := by
  cases action with
  | setCapacity capacity =>
    cases went
    have larger : state.largest.toNat ≤ (max state.largest capacity).toNat := by
      rw [toNat_max]
      exact Nat.le_max_left _ _
    refine ⟨?_, ok.tokens.trans larger, ok.feed.mono .refl larger,
      ok.threads⟩
    rw [toNat_max]
    exact Nat.le_max_right _ _
  | acquire thread require =>
    simp only [TokenBucket.step] at went
    split at went <;> cases went
    exact ok.setThread thread trivial
  | thread thread => exact ok.tryAcquire went
  | feed totalAdden =>
    simp only [TokenBucket.step] at went
    split at went <;> try cases went
    split at went <;> cases went
    · exact ⟨ok.capacity, ok.tokens, trivial, ok.threads⟩
    · exact ok
  | feeder => exact ok.doPeriodFeed sound went

end Valid

theorem valid_start (capacity : UInt32) : Valid (start capacity : State Thread) :=
  ⟨.refl, Nat.zero_le _, trivial, fun _ => trivial⟩

theorem tokens_le_largest [DecidableEq Thread] (capacity : UInt32) {actions : List (Action Thread)}
    {state : State Thread} (sound : Guarded step Sound (start capacity) actions)
    (ran : execute step (start capacity) actions = some state) :
    state.tokenNum.toNat ≤ state.largest.toNat :=
  (invariant_of_guarded (fun valid sound stepped => Valid.step valid sound stepped)
    (valid_start capacity) sound ran).tokens

def fedRun (between : List (Action Unit)) : List (Action Unit) :=
  .feed 3 :: List.replicate 3 .feeder ++ between ++ [.feed 4, .feeder, .acquire () 3] ++
    List.replicate 2 (.thread ()) ++ List.replicate 3 .feeder

theorem fedRun_tokens_le_largest : ∃ state : State Unit,
    execute step (start 3) (fedRun []) = some state ∧
      state.tokenNum.toNat ≤ state.largest.toNat := by
  have finishes : (execute step (start 3) (fedRun [])).isSome = true := by decide +kernel
  have allowed : Guarded step Sound (start 3) (fedRun []) := by
    simp [fedRun, Guarded, step, doPeriodFeed, tryAcquire, start, Sound, State.setThread,
      List.replicate]
  obtain ⟨state, ran⟩ := Option.isSome_iff_exists.mp finishes
  exact ⟨state, ran, tokens_le_largest 3 allowed ran⟩

theorem lowered_capacity_overflows : ∃ state : State Unit,
    execute step (start 3) (fedRun [.setCapacity 1]) = some state ∧
      ¬state.tokenNum.toNat ≤ state.largest.toNat :=
  execute_check (by decide +kernel)

end AdkAaf.Adk.TokenBucket
