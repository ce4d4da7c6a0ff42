import AdkAaf.Adk.ArchGeneric
import Mathlib.Logic.Function.Basic
import Mathlib.Algebra.Group.Int.Defs

/-! `ShmSeqLock` of `aaf/code/sharding/seq_lock.h`. The lock word `lock_sqn_` is
the last released number, or `-n` while the lock is held for number `n`.
Numbers unlocked ahead of their turn are parked in a ring of cache entries.

`lock_name`, `curr_lock_index_` and the `index` arguments are never read by the
lock and are left out. Numbers are `int64_t`, modelled as integers. -/

set_option autoImplicit false

namespace AdkAaf.Sharding

open Function

structure ShmSeqLock where
  lockSqn : Int := 0
  prevLockSqn : Int := 0
  queueMask : Nat
  entries : Nat → Int

namespace ShmSeqLock

def queueSizeAlign (cacheSize : UInt32) : UInt32 := Adk.roundToPowerOf2 cacheSize

/-- `Create` on memory with the given contents behind the header; only the
first `queue_size_` entries are overwritten. -/
def create (cacheSize : UInt32) (memory : Nat → Int) : ShmSeqLock :=
  let queueSize := queueSizeAlign cacheSize
  { queueMask := (queueSize - 1).toNat
    entries := fun slot => if slot < queueSize.toNat then 0 else memory slot }

theorem create_of_le {cacheSize : UInt32} (memory : Nat → Int)
    (pos : 1 ≤ cacheSize.toNat) (fits : cacheSize.toNat ≤ 2 ^ 31) :
    ∃ exponent, (create cacheSize memory).queueMask = 2 ^ exponent - 1 ∧
      ∀ slot ≤ (create cacheSize memory).queueMask, (create cacheSize memory).entries slot = 0 := by
  obtain ⟨exponent, small, size, _⟩ := Adk.roundToPowerOf2_of_le pos fits
  have mask : (Adk.roundToPowerOf2 cacheSize - 1).toNat = 2 ^ exponent - 1 := by
    rw [UInt32.toNat_sub_of_le _ 1 (UInt32.le_iff_toNat_le.mpr (by
      simp only [UInt32.toNat_one, size]; omega)), size]
    rfl
  refine ⟨exponent, mask, fun slot within => if_pos ?_⟩
  simp only [create, queueSizeAlign, mask] at within
  simp only [queueSizeAlign, size]
  omega

-- every index passed is at least one, so the conjunction is one of naturals
def getInQueueIndex (lock : ShmSeqLock) (index : Int) : Nat := index.toNat &&& lock.queueMask

def entryAt (lock : ShmSeqLock) (index : Int) : Int := lock.entries (lock.getInQueueIndex index)

def setEntry (lock : ShmSeqLock) (index value : Int) : ShmSeqLock :=
  { lock with entries := update lock.entries (lock.getInQueueIndex index) value }

section Fields

variable (lock : ShmSeqLock) (index value : Int)

@[simp] theorem setEntry_queueMask : (lock.setEntry index value).queueMask = lock.queueMask := rfl

end Fields

theorem entryAt_setEntry_self (lock : ShmSeqLock) (i value : Int) :
    (lock.setEntry i value).entryAt i = value := by
  simp [entryAt, setEntry, getInQueueIndex]

theorem entryAt_setEntry_of_ne (lock : ShmSeqLock) {i other : Int} (val : Int)
    (apart : lock.getInQueueIndex other ≠ lock.getInQueueIndex i) :
    (lock.setEntry i val).entryAt other = lock.entryAt other := by
  exact update_of_ne apart _ _

/-! ## Whole calls

The functions below run a call without interruption, the way a caller that is
alone with the lock executes it. -/

def tryReleaseLoop : Nat → Int → ShmSeqLock → ShmSeqLock
  | 0, _, lock => lock
  | fuel + 1, currLock, lock =>
    if lock.entryAt (currLock + 1) = currLock + 1 then
      if lock.lockSqn = currLock then
        tryReleaseLoop fuel (currLock + 1)
          ({ lock with lockSqn := currLock + 1 }.setEntry (currLock + 1) 0)
      else
        lock
    else
      lock

/-- `TryRelease`. Every iteration empties one of the `queue_mask_ + 1` slots it
looks at, so one lap ends the loop. -/
def tryRelease (currLock : Int) (lock : ShmSeqLock) : ShmSeqLock :=
  tryReleaseLoop (lock.queueMask + 1) currLock lock

def unlockCache (totalSeq : Int) (lock : ShmSeqLock) : ShmSeqLock :=
  if lock.entryAt totalSeq = 0 then
    lock.setEntry totalSeq totalSeq
  else if 0 < lock.entryAt totalSeq ∧ lock.entryAt totalSeq < totalSeq then
    lock.setEntry totalSeq totalSeq
  else
    lock

def unLock (totalSeq : Int) (lock : ShmSeqLock) : ShmSeqLock :=
  let released := max totalSeq lock.prevLockSqn
  if lock.lockSqn = -totalSeq then
    tryRelease released { lock with lockSqn := released }
  else
    let cached := lock.unlockCache released
    if 0 ≤ lock.lockSqn ∧ lock.lockSqn < released then
      tryRelease lock.lockSqn cached
    else
      cached

/-- What a `Lock` that spins does to the lock: it releases parked numbers. A
second round in the resulting state finds nothing more to release. -/
def lockSpin (totalSeq : Int) (lock : ShmSeqLock) : ShmSeqLock :=
  if 0 ≤ lock.lockSqn ∧ lock.lockSqn < totalSeq - 1 then tryRelease lock.lockSqn lock else lock

/-- `Lock` in one step: granted, or still spinning. It accepts the predecessor
of its number, or any released number that is not smaller than its own. -/
def lock (totalSeq : Int) (lock : ShmSeqLock) : Bool × ShmSeqLock :=
  let tried := lock.lockSpin totalSeq
  if tried.lockSqn = totalSeq - 1 ∨ 0 ≤ tried.lockSqn ∧ totalSeq ≤ tried.lockSqn then
    (true, { tried with lockSqn := -totalSeq, prevLockSqn := tried.lockSqn })
  else
    (false, tried)

end ShmSeqLock

end AdkAaf.Sharding
