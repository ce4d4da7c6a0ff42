import AdkAaf.Sharding.SeqLock.Interleaving
import Mathlib.Algebra.Order.Group.Int

/-! A thread that runs alone. Its accesses, taken one after the other, end after
finitely many of them in the state that the whole-call functions of
`ShmSeqLock` compute. -/

set_option autoImplicit false

namespace AdkAaf.Sharding.SeqLockInterleaving

inductive Solo : ShmSeqLock → PC → ShmSeqLock → PC → Prop where
  | done {seqLock : ShmSeqLock} {pc : PC} : Solo seqLock pc seqLock pc
  | access {seqLock final : ShmSeqLock} {pc last : PC} {outcome : Outcome}
      (ran : pc.run seqLock = some outcome)
      (rest : Solo outcome.seqLock outcome.pc final last) : Solo seqLock pc final last

section Machine

variable {Thread : Type} [DecidableEq Thread]

@[simp] theorem Machine.commit_seqLock (machine : Machine Thread) (thread : Thread)
    (outcome : Outcome) : (machine.commit thread outcome).seqLock = outcome.seqLock := by
  unfold Machine.commit
  cases outcome.event <;> rfl

@[simp] theorem Machine.commit_pc_self (machine : Machine Thread) (thread : Thread)
    (outcome : Outcome) : (machine.commit thread outcome).pc thread = outcome.pc := by
  unfold Machine.commit
  cases outcome.event <;> exact Function.update_self _ _ _

theorem Solo.execute {machine : Machine Thread} {thread : Thread} {final : ShmSeqLock} {last : PC}
    (solo : Solo machine.seqLock (machine.pc thread) final last) : ∃ count after,
      Lib.execute Machine.step machine (List.replicate count (.run thread)) = some after ∧
        after.seqLock = final ∧ after.pc thread = last := by
  generalize lockEq : machine.seqLock = seqLock at solo
  generalize pcEq : machine.pc thread = pc at solo
  induction solo generalizing machine with
  | done => exact ⟨0, machine, rfl, lockEq, pcEq⟩
  | access ran _ ih =>
    obtain ⟨count, after, executed, shared, stopped⟩ :=
      ih (machine.commit_seqLock thread _) (machine.commit_pc_self thread _)
    refine ⟨count + 1, after, ?_, shared, stopped⟩
    refine Lib.execute_cons.mpr ⟨_, ?_, executed⟩
    simp [Machine.step, pcEq, lockEq, ran, Option.map_some]

end Machine

variable {seqLock : ShmSeqLock}

theorem Solo.release {caller : Caller} {pc : PC}
    (ran : pc.run seqLock = some (caller.return seqLock)) :
    Solo seqLock pc seqLock (caller.return seqLock).pc := by
  cases caller <;> exact .access ran .done

theorem Caller.return_pc (caller : Caller) (seqLock other : ShmSeqLock) :
    (caller.return seqLock).pc = (caller.return other).pc := by
  cases caller <;> rfl

theorem entryAt_next_lap {exponent : Nat} {index : Int}
    (mask : seqLock.queueMask = 2 ^ exponent - 1) (nonnegative : 0 ≤ index) :
    seqLock.entryAt (index + (seqLock.queueMask + 1)) = seqLock.entryAt index := by
  have pos : 0 < 2 ^ exponent := Nat.two_pow_pos exponent
  have lap : (index + (seqLock.queueMask + 1)).toNat = index.toNat + 2 ^ exponent := by omega
  simp only [ShmSeqLock.entryAt, ShmSeqLock.getInQueueIndex, lap]
  simp [mask, Nat.and_two_pow_sub_one_eq_mod, Nat.add_mod_right]

/-- The loop of `TryRelease`. The entries behind `currLock` are empty back to
where the call began, so the lap it may take cannot be exceeded. -/
theorem solo_tryReleaseLoop {exponent fuel : Nat} {origin currLock : Int}
    (caller : Caller) (mask : seqLock.queueMask = 2 ^ exponent - 1) (nonnegative : 0 ≤ origin)
    (distance : currLock + fuel = origin + (seqLock.queueMask + 1)) (started : origin ≤ currLock)
    (swept : ∀ n, origin < n → n ≤ currLock → seqLock.entryAt n = 0) :
    Solo seqLock (.releaseLoad currLock caller) (seqLock.tryReleaseLoop fuel currLock)
      (caller.return seqLock).pc := by
  induction fuel generalizing seqLock currLock with
  | zero =>
    -- a whole lap is swept, so the next entry is the empty one the call began with
    have wrapped : seqLock.entryAt (currLock + 1) = 0 := by
      have lap : currLock + 1 = origin + 1 + (seqLock.queueMask + 1) := by omega
      rw [lap, entryAt_next_lap mask (by omega)]
      exact swept _ (by omega) (by omega)
    refine .release ?_
    simp only [PC.run]
    rw [if_neg (by omega)]
  | succ fuel ih =>
    by_cases parked : seqLock.entryAt (currLock + 1) = currLock + 1
    · by_cases free : seqLock.lockSqn = currLock
      · simp only [ShmSeqLock.tryReleaseLoop, if_pos parked, if_pos free]
        have loaded : (PC.releaseLoad currLock caller).run seqLock =
            some { seqLock, pc := .releaseCas currLock caller } := if_pos parked
        have advanced : (PC.releaseCas currLock caller).run seqLock = some
            { seqLock := { seqLock with lockSqn := currLock + 1 }
              pc := .releaseClear currLock caller } := if_pos free
        refine .access loaded (.access advanced (.access rfl ?_))
        rw [caller.return_pc _ ({ seqLock with lockSqn := currLock + 1 }.setEntry (currLock + 1) 0)]
        refine ih mask (by simp only [ShmSeqLock.setEntry_queueMask]; omega) (by omega)
          fun n after upTo => ?_
        by_cases sameSlot :
            seqLock.getInQueueIndex n = seqLock.getInQueueIndex (currLock + 1)
        · simp [ShmSeqLock.entryAt, ShmSeqLock.setEntry, ShmSeqLock.getInQueueIndex] at sameSlot ⊢
          simp [sameSlot]
        · have earlier : n ≠ currLock + 1 := fun same => sameSlot (by rw [same])
          have kept := ShmSeqLock.entryAt_setEntry_of_ne { seqLock with lockSqn := currLock + 1 }
            0 sameSlot
          exact kept.trans (swept n after (by omega))
      · simp only [ShmSeqLock.tryReleaseLoop, if_pos parked, if_neg free]
        have loaded : (PC.releaseLoad currLock caller).run seqLock =
            some { seqLock, pc := .releaseCas currLock caller } := if_pos parked
        exact .access loaded (.release (if_neg free))
    · simp only [ShmSeqLock.tryReleaseLoop, if_neg parked]
      exact .release (if_neg parked)

theorem solo_tryRelease {exponent : Nat} {currLock : Int}
    (caller : Caller) (mask : seqLock.queueMask = 2 ^ exponent - 1) (nonnegative : 0 ≤ currLock) :
    Solo seqLock (.releaseLoad currLock caller) (seqLock.tryRelease currLock)
      (caller.return seqLock).pc := by
  refine solo_tryReleaseLoop caller mask nonnegative ?_ le_rfl fun n after upTo => ?_
  all_goals omega

theorem solo_lockGranted {totalSeq : Int}
    (free : seqLock.lockSqn = totalSeq - 1 ∨ 0 ≤ seqLock.lockSqn ∧ totalSeq ≤ seqLock.lockSqn) :
    Solo seqLock (.lockCas totalSeq (totalSeq - 1))
      { seqLock with lockSqn := -totalSeq, prevLockSqn := seqLock.lockSqn } .idle := by
  rcases free with predecessor | ⟨nonnegative, repeated⟩
  · refine .access (if_pos predecessor) (.access rfl ?_)
    rw [predecessor]
    exact .done
  · have refused : (PC.lockCas totalSeq (totalSeq - 1)).run seqLock =
        some { seqLock, pc := .lockCas totalSeq seqLock.lockSqn } := by
      simp only [PC.run]
      rw [if_neg (by omega), if_neg (by omega), if_pos repeated]
    exact .access refused (.access (if_pos rfl) (.access rfl .done))

end AdkAaf.Sharding.SeqLockInterleaving
