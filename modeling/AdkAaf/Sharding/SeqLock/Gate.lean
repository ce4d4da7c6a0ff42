import AdkAaf.Sharding.SeqLock.Interleaving
import Mathlib.Algebra.Order.Group.Int
import Mathlib.Data.UInt

/-! The total-order gate: a released number is never ahead of the numbers that
were unlocked. The invariant relates the lock word, `prev_lock_sqn_`, every
cache entry and the locals of every thread to the calls made so far. -/

set_option autoImplicit false

namespace AdkAaf.Sharding.SeqLockInterleaving

open Function List

def UnlockedTo (called : List Int) (value : Int) : Prop :=
  ∀ number, 1 ≤ number → number ≤ value → number ∈ called

structure TotalOrderGate {Thread : Type} (machine : Machine Thread) : Prop where
  released : 0 ≤ machine.seqLock.lockSqn → UnlockedTo machine.called machine.seqLock.lockSqn
  granted : ∀ totalSeq expectValue, (totalSeq, expectValue) ∈ machine.grants →
    UnlockedTo machine.called expectValue
  inOrder : ∀ totalSeq expectValue, (totalSeq, expectValue) ∈ machine.grants →
    ∀ earlier, 1 ≤ earlier → earlier < totalSeq → earlier ∈ machine.called

variable {called : List Int} {seqLock : ShmSeqLock}

variable {value : Int}

theorem UnlockedTo.mono {smaller : Int} (gate : UnlockedTo called value) (le : smaller ≤ value) :
    UnlockedTo called smaller :=
  fun number pos below => gate number pos (below.trans le)

theorem UnlockedTo.succ (gate : UnlockedTo called value) (next : value + 1 ∈ called) :
    UnlockedTo called (value + 1) := by
  intro number pos below
  by_cases last : number = value + 1
  · exact last ▸ next
  · exact gate number pos (by omega)

theorem UnlockedTo.cons (gate : UnlockedTo called value) (n : Int) :
    UnlockedTo (n :: called) value :=
  fun other pos below => mem_cons_of_mem _ (gate other pos below)

structure SharedGate (called : List Int) (seqLock : ShmSeqLock) : Prop where
  word : 0 ≤ seqLock.lockSqn → UnlockedTo called seqLock.lockSqn
  held : seqLock.lockSqn < 0 → UnlockedTo called (-seqLock.lockSqn - 1)
  previous : UnlockedTo called seqLock.prevLockSqn
  parked : ∀ slot ≤ seqLock.queueMask, 0 < seqLock.entries slot → seqLock.entries slot ∈ called

def CallerGate : Caller → Prop
  | .application | .unLock _ => True
  | .lock totalSeq expectValue => 1 ≤ totalSeq ∧ totalSeq - 1 ≤ expectValue

def LocalGate (called : List Int) : PC → Prop
  | .idle => True
  | .lockCas totalSeq expectValue => 1 ≤ totalSeq ∧ totalSeq - 1 ≤ expectValue
  | .lockStorePrev expectValue => UnlockedTo called expectValue
  | .unLockLoadPrev totalSeq => 1 ≤ totalSeq ∧ totalSeq ∈ called
  | .unLockCas totalSeq released =>
    1 ≤ totalSeq ∧ totalSeq ∈ called ∧ totalSeq ≤ released ∧
      (released = totalSeq ∨ UnlockedTo called released)
  | .cacheCas _ released _ | .cacheLoad _ released _ | .cacheReplace _ released _ _ =>
    1 ≤ released ∧ released ∈ called
  | .releaseLoad currLock caller => 0 ≤ currLock ∧ CallerGate caller
  | .releaseCas currLock caller => 0 ≤ currLock ∧ currLock + 1 ∈ called ∧ CallerGate caller
  | .releaseClear currLock caller => 0 ≤ currLock ∧ CallerGate caller

def EventGate (called : List Int) : Event → Prop
  | .silent | .unLocked _ => True
  | .granted totalSeq expectValue => totalSeq - 1 ≤ expectValue ∧ UnlockedTo called expectValue

structure OutcomeGate (called : List Int) (outcome : Outcome) : Prop where
  shared : SharedGate called outcome.seqLock
  thread : LocalGate called outcome.pc
  event : EventGate called outcome.event

theorem SharedGate.cons (shared : SharedGate called seqLock) (n : Int) :
    SharedGate (n :: called) seqLock where
  word free := (shared.word free).cons n
  held locked := (shared.held locked).cons n
  previous := shared.previous.cons n
  parked slot within positive := mem_cons_of_mem _ (shared.parked slot within positive)

variable {pc : PC}

theorem LocalGate.cons (thread : LocalGate called pc) (n : Int) :
    LocalGate (n :: called) pc := by
  cases pc with
  | idle => trivial
  | lockCas totalSeq expectValue | releaseLoad currLock caller => exact thread
  | lockStorePrev expectValue => exact UnlockedTo.cons thread n
  | unLockLoadPrev totalSeq => exact ⟨thread.1, mem_cons_of_mem _ thread.2⟩
  | unLockCas totalSeq released =>
    obtain ⟨pos, mem, le, source⟩ := thread
    exact ⟨pos, mem_cons_of_mem _ mem, le,
      source.imp_right fun gate => gate.cons n⟩
  | cacheCas totalSeq released lockValue => exact ⟨thread.1, mem_cons_of_mem _ thread.2⟩
  | cacheLoad totalSeq released lockValue => exact ⟨thread.1, mem_cons_of_mem _ thread.2⟩
  | cacheReplace totalSeq released lockValue curVal =>
    exact ⟨thread.1, mem_cons_of_mem _ thread.2⟩
  | releaseCas currLock caller =>
    exact ⟨thread.1, mem_cons_of_mem _ thread.2.1, thread.2.2⟩
  | releaseClear currLock caller => exact thread

variable {index : Int}

section

variable (shared : SharedGate called seqLock)
include shared

theorem SharedGate.setEntry (known : 0 < value → value ∈ called) :
    SharedGate called (seqLock.setEntry index value) where
  __ := shared
  parked slot within positive := by
    by_cases same : slot = seqLock.getInQueueIndex index
    · simp only [ShmSeqLock.setEntry, same, update_self] at positive ⊢
      exact known positive
    · simp only [ShmSeqLock.setEntry, update_of_ne same] at positive ⊢
      exact shared.parked slot within positive

theorem SharedGate.entryAt (pos : 0 < seqLock.entryAt index) :
    seqLock.entryAt index ∈ called :=
  shared.parked _ Nat.and_le_right pos

theorem SharedGate.return {caller : Caller} (waiting : CallerGate caller) :
    OutcomeGate called (caller.return seqLock) := by
  cases caller with
  | application | unLock totalSeq => exact ⟨shared, trivial, trivial⟩
  | lock totalSeq expectValue => exact ⟨shared, waiting, trivial⟩

theorem SharedGate.afterCache (totalSeq released lockValue : Int) :
    OutcomeGate called (afterCache seqLock totalSeq released lockValue) := by
  unfold SeqLockInterleaving.afterCache
  split
  · next behind => exact ⟨shared, ⟨behind.1, trivial⟩, trivial⟩
  · exact shared.return trivial

end

variable {totalSeq : Int}

section

variable (shared : SharedGate called seqLock)
include shared

theorem SharedGate.take {expectValue : Int} (pos : 1 ≤ totalSeq)
    (behind : totalSeq - 1 ≤ expectValue) (gate : UnlockedTo called expectValue) :
    OutcomeGate called ⟨{ seqLock with lockSqn := -totalSeq }, .lockStorePrev expectValue,
        .granted totalSeq expectValue⟩ := by
  refine ⟨⟨?_, ?_, shared.previous, shared.parked⟩, gate, behind, gate⟩
  · intro nonnegative
    simp only at nonnegative
    omega
  · intro _
    simp only [Int.neg_neg]
    exact gate.mono behind

theorem SharedGate.releaseTo (nonnegative : 0 ≤ value) (gate : UnlockedTo called value) :
    SharedGate called { seqLock with lockSqn := value } := by
  refine ⟨fun _ => gate, ?_, shared.previous, shared.parked⟩
  intro negative
  simp only at negative
  omega

theorem SharedGate.unlockedTo_of_own (pos : 1 ≤ totalSeq) (own : seqLock.lockSqn = -totalSeq)
    (mem : totalSeq ∈ called) : UnlockedTo called totalSeq := by
  have before := shared.held (by omega)
  have predecessor : -seqLock.lockSqn - 1 = totalSeq - 1 := by omega
  rw [predecessor] at before
  have last := before.succ (by simpa using mem)
  simpa using last

theorem SharedGate.run {outcome : Outcome} (thread : LocalGate called pc)
    (ran : pc.run seqLock = some outcome) : OutcomeGate called outcome := by
  cases pc with
  | idle => cases ran
  | lockCas totalSeq expectValue =>
    obtain ⟨pos, behind⟩ := thread
    simp only [PC.run] at ran
    split at ran
    · next free =>
      cases ran
      have gate := shared.word (by omega)
      rw [free] at gate
      exact shared.take pos behind gate
    · split at ran
      · cases ran
        exact ⟨shared, ⟨pos, behind⟩, trivial⟩
      · split at ran
        · next ahead =>
          cases ran
          exact ⟨shared, ⟨pos, by omega⟩, trivial⟩
        · next unheld _ =>
          cases ran
          exact ⟨shared, ⟨by omega, pos, behind⟩, trivial⟩
  | lockStorePrev expectValue =>
    cases ran
    exact ⟨{ shared with previous := thread }, trivial, trivial⟩
  | unLockLoadPrev totalSeq =>
    cases ran
    refine ⟨shared, ⟨thread.1, thread.2, le_max_left _ _, ?_⟩, trivial⟩
    rcases max_choice totalSeq seqLock.prevLockSqn with own | previous
    · exact .inl own
    · exact .inr (by simpa only [previous] using shared.previous)
  | unLockCas totalSeq released =>
    obtain ⟨pos, mem, le, source⟩ := thread
    simp only [PC.run] at ran
    split at ran
    · next own =>
      cases ran
      have gate : UnlockedTo called released := by
        rcases source with rfl | gate
        · exact shared.unlockedTo_of_own pos own mem
        · exact gate
      exact ⟨shared.releaseTo (by omega) gate, ⟨by omega, trivial⟩, trivial⟩
    · cases ran
      refine ⟨shared, ⟨by omega, ?_⟩, trivial⟩
      rcases source with rfl | gate
      · exact mem
      · exact gate released (by omega) le_rfl
  | cacheCas totalSeq released lockValue | cacheReplace totalSeq released lockValue curVal =>
    simp only [PC.run] at ran
    split at ran <;> cases ran
    · exact (shared.setEntry fun _ => thread.2).afterCache _ _ _
    · exact ⟨shared, thread, trivial⟩
  | cacheLoad totalSeq released lockValue =>
    simp only [PC.run] at ran
    split at ran
    · split at ran
      · cases ran
        exact ⟨shared, thread, trivial⟩
      · cases ran
        exact shared.afterCache _ _ _
    · cases ran
      exact ⟨shared, thread, trivial⟩
  | releaseLoad currLock caller =>
    simp only [PC.run] at ran
    split at ran
    · next parked =>
      cases ran
      have known : seqLock.entryAt (currLock + 1) ∈ called :=
        shared.entryAt (by have := thread.1; omega)
      exact ⟨shared, ⟨thread.1, parked ▸ known, thread.2⟩, trivial⟩
    · cases ran
      exact shared.return thread.2
  | releaseCas currLock caller =>
    simp only [PC.run] at ran
    split at ran
    · next free =>
      cases ran
      have gate := shared.word (by have := thread.1; omega)
      rw [free] at gate
      exact ⟨shared.releaseTo (by have := thread.1; omega) (gate.succ thread.2.1),
        ⟨thread.1, thread.2.2⟩, trivial⟩
    · cases ran
      exact shared.return thread.2.2
  | releaseClear currLock caller =>
    cases ran
    exact ⟨shared.setEntry fun pos => absurd pos (lt_irrefl 0),
      ⟨by have := thread.1; omega, thread.2⟩, trivial⟩

end

structure Gated {Thread : Type} (machine : Machine Thread) : Prop where
  shared : SharedGate machine.called machine.seqLock
  threads : ∀ thread, LocalGate machine.called (machine.pc thread)
  grants : ∀ totalSeq expectValue, (totalSeq, expectValue) ∈ machine.grants →
    totalSeq - 1 ≤ expectValue ∧ UnlockedTo machine.called expectValue

section

variable {Thread : Type} [DecidableEq Thread] {machine next : Machine Thread}

omit [DecidableEq Thread] in
theorem Gated.totalOrderGate (gated : Gated machine) : TotalOrderGate machine where
  released := gated.shared.word
  granted totalSeq expectValue mem := (gated.grants totalSeq expectValue mem).2
  inOrder totalSeq expectValue mem earlier positive before := by
    obtain ⟨behind, gate⟩ := gated.grants totalSeq expectValue mem
    exact gate earlier positive (by omega)

theorem Gated.setPC (gated : Gated machine) (thread : Thread)
    (ok : LocalGate machine.called pc) : Gated (machine.setPC thread pc) where
  shared := gated.shared
  threads other := by
    by_cases same : other = thread
    · simpa only [Machine.setPC, same, update_self] using ok
    · simpa only [Machine.setPC, update_of_ne same] using gated.threads other
  grants := gated.grants

omit [DecidableEq Thread] in
theorem Gated.call (gated : Gated machine) (n : Int) :
    Gated { machine with called := n :: machine.called } where
  shared := gated.shared.cons n
  threads thread := (gated.threads thread).cons n
  grants totalSeq expectValue mem :=
    (gated.grants totalSeq expectValue mem).imp_right fun gate => gate.cons n

theorem Gated.commit (gated : Gated machine) {thread : Thread} {outcome : Outcome}
    (ok : OutcomeGate machine.called outcome) : Gated (machine.commit thread outcome) := by
  have accessed : Gated { machine with
      seqLock := outcome.seqLock
      released := if 0 ≤ outcome.seqLock.lockSqn then outcome.seqLock.lockSqn
        else machine.released } := ⟨ok.shared, gated.threads, gated.grants⟩
  have moved := accessed.setPC thread ok.thread
  have event := ok.event
  unfold Machine.commit
  cases recorded : outcome.event with
  | silent => exact moved
  | unLocked totalSeq => exact { moved with }
  | granted totalSeq expectValue =>
    rw [recorded] at event
    refine ⟨moved.shared, moved.threads, ?_⟩
    intro n val mem
    rcases mem_cons.mp mem with new | old
    · obtain ⟨rfl, rfl⟩ := Prod.mk.inj new
      exact event
    · exact moved.grants n val old

theorem Gated.step {action : Action Thread} (gated : Gated machine)
    (went : machine.step action = some next) : Gated next := by
  cases action with
  | call thread call =>
    simp only [Machine.step] at went
    split at went
    · cases call with
      | lock totalSeq =>
        dsimp only at went
        split at went
        · next pos =>
          cases went
          exact gated.setPC thread ⟨pos, le_rfl⟩
        · cases went
      | unLock totalSeq =>
        dsimp only at went
        split at went
        · next pos =>
          cases went
          exact (gated.call totalSeq).setPC thread ⟨pos, mem_cons_self⟩
        · cases went
      | tryRelease currLock =>
        dsimp only at went
        split at went
        · next nonnegative =>
          cases went
          exact gated.setPC thread ⟨nonnegative, trivial⟩
        · cases went
    · cases went
  | run thread =>
    obtain ⟨outcome, ran, rfl⟩ := Option.map_eq_some_iff.mp went
    exact gated.commit (gated.shared.run (gated.threads thread) ran)

end

/-- The gate over all initial memory contents, all thread sets and all runs. -/
def GateHolds (cacheSize : UInt32) : Prop :=
  ∀ (Thread : Type) [DecidableEq Thread] (memory : Nat → Int) (actions : List (Action Thread))
    (final : Machine Thread),
    Lib.execute Machine.step (start cacheSize memory) actions = some final → TotalOrderGate final

variable {cacheSize : UInt32}

theorem start_gated {Thread : Type} (memory : Nat → Int) (pos : 1 ≤ cacheSize.toNat)
    (fits : cacheSize.toNat ≤ 2 ^ 31) : Gated (start cacheSize memory : Machine Thread) := by
  obtain ⟨_, _, empty⟩ := ShmSeqLock.create_of_le memory pos fits
  refine ⟨⟨?_, ?_, ?_, ?_⟩, fun _ => trivial, ?_⟩
  · intro _ n first last
    simp only [start, ShmSeqLock.create] at last
    omega
  · intro negative
    simp only [start, ShmSeqLock.create] at negative
    omega
  · intro n first last
    simp only [start, ShmSeqLock.create] at last
    omega
  · intro slot within filled
    have unset := empty slot within
    simp only [start] at filled
    omega
  · intro totalSeq expectValue mem
    cases mem

/-- Memory that happens to hold a `1` where the entry of number `1` lies. -/
def staleMemory (slot : Nat) : Int := if slot = 1 then 1 else 0

theorem gate_fails_of_wrapped (wrapped : 2 ^ 31 < cacheSize.toNat) : ¬ GateHolds cacheSize := by
  intro gate
  have empty := Adk.roundToPowerOf2_of_gt wrapped
  -- one `TryRelease(0)` of a lock nobody has used releases n `1`
  have ran := gate Unit staleMemory [.call () (.tryRelease 0), .run (), .run ()]
  simp only [start, ShmSeqLock.create, ShmSeqLock.queueSizeAlign, empty] at ran
  have opened := (ran _ rfl).released (by decide) 1 le_rfl (by decide)
  cases opened

/-- The gate holds for all runs exactly when the requested cache size can be
rounded to a power of two in 32 bits. Above `2 ^ 31` the queue size wraps to
zero, `Create` initialises no entry, and what the memory held before counts as
unlocked. -/
theorem gateHolds_iff (cacheSize : UInt32) (atLeastTwo : 2 ≤ cacheSize) :
    GateHolds cacheSize ↔ cacheSize ≤ 2 ^ 31 := by
  have positive : 2 ≤ cacheSize.toNat := UInt32.le_iff_toNat_le.mp atLeastTwo
  rw [UInt32.le_iff_toNat_le]
  constructor
  · intro gate
    by_contra wrapped
    exact gate_fails_of_wrapped (Nat.lt_of_not_le wrapped) gate
  · intro fits Thread decidable memory actions final ran
    exact (Lib.invariant_of_execute Gated.step
      (start_gated memory (by omega) fits) ran).totalOrderGate

theorem gateHolds_sixteen : GateHolds 16 :=
  (gateHolds_iff 16 (by decide)).mpr (by decide)

theorem gate_fails_beyond_two_pow_31 : ¬ GateHolds 2147483649 :=
  gate_fails_of_wrapped (by decide)

end AdkAaf.Sharding.SeqLockInterleaving
