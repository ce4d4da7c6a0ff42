import AdkAaf.Sharding.SeqLock.Solo

/-! What happens to a number between its `UnLock` and its release. A number is
settled once it is released or parked in its own cache entry. Two accesses can
unsettle one: the clearing store of `TryRelease`, which comes after the
compare-exchange and may hit a number parked in the meantime, and an `UnLock`
that frees the lock with a `prev_lock_sqn_` read before `Lock` stored it. -/

set_option autoImplicit false

namespace AdkAaf.Sharding.SeqLockInterleaving

open Function Lib Option List

def queueSize (seqLock : ShmSeqLock) : Int := seqLock.queueMask + 1

def Settled (seqLock : ShmSeqLock) (released number : Int) : Prop :=
  number ≤ released ∨ seqLock.entryAt number = number

variable {seqLock : ShmSeqLock} {released : Int}

theorem lap_le {exponent : Nat} (mask : seqLock.queueMask = 2 ^ exponent - 1) {low high : Int}
    (nonnegative : 0 ≤ low) (less : low < high)
    (sameSlot : seqLock.getInQueueIndex low = seqLock.getInQueueIndex high) :
    low + queueSize seqLock ≤ high := by
  simp only [ShmSeqLock.getInQueueIndex, mask, Nat.and_two_pow_sub_one_eq_mod] at sameSlot
  have divisible : 2 ^ exponent ∣ high.toNat - low.toNat :=
    Nat.dvd_of_mod_eq_zero (Nat.sub_mod_eq_zero_of_mod_eq sameSlot.symm)
  have apart := Nat.le_of_dvd (by omega) divisible
  simp only [queueSize, mask]
  omega

variable {index value : Int}

theorem Settled.setEntry {number : Int} (settled : Settled seqLock released number)
    (harmless : seqLock.entryAt index = number → number ≤ released) :
    Settled (seqLock.setEntry index value) released number := by
  rcases settled with done | parked
  · exact .inl done
  · by_cases sameSlot : seqLock.getInQueueIndex number = seqLock.getInQueueIndex index
    · refine .inl (harmless ?_)
      rwa [ShmSeqLock.entryAt, ← sameSlot]
    · exact .inr ((seqLock.entryAt_setEntry_of_ne value sameSlot).trans parked)

structure SharedKept (released : Int) (seqLock : ShmSeqLock) : Prop where
  mask : ∃ exponent, seqLock.queueMask = 2 ^ exponent - 1
  nonnegative : 0 ≤ released
  word : 0 ≤ seqLock.lockSqn → seqLock.lockSqn = released
  previous : seqLock.prevLockSqn ≤ released
  sign : ∀ slot ≤ seqLock.queueMask, 0 ≤ seqLock.entries slot
  window : ∀ slot ≤ seqLock.queueMask, seqLock.entries slot ≤ released + queueSize seqLock
  home : ∀ slot ≤ seqLock.queueMask, seqLock.entries slot ≠ 0 →
    seqLock.getInQueueIndex (seqLock.entries slot) = slot

/-- The local `total_seq` of an `UnLock` in progress: the argument, or a number
that is released already. -/
structure Pending (released : Int) (seqLock : ShmSeqLock) (totalSeq argument : Int) : Prop where
  positive : 1 ≤ totalSeq
  above : totalSeq ≤ argument
  window : argument ≤ released + queueSize seqLock
  source : argument = totalSeq ∨ argument ≤ released

def CallerKept (released : Int) (seqLock : ShmSeqLock) : Caller → Prop
  | .application => True
  | .lock totalSeq expectValue => 1 ≤ totalSeq ∧ 0 ≤ expectValue
  | .unLock totalSeq => 1 ≤ totalSeq ∧ Settled seqLock released totalSeq

def LocalKept (released : Int) (seqLock : ShmSeqLock) : PC → Prop
  | .idle => True
  | .lockCas totalSeq expectValue => 1 ≤ totalSeq ∧ 0 ≤ expectValue
  | .lockStorePrev expectValue => expectValue ≤ released
  | .unLockLoadPrev totalSeq => 1 ≤ totalSeq ∧ totalSeq ≤ released + queueSize seqLock
  | .unLockCas totalSeq argument | .cacheCas totalSeq argument _
  | .cacheLoad totalSeq argument _ => Pending released seqLock totalSeq argument
  | .cacheReplace totalSeq argument _ curVal =>
    Pending released seqLock totalSeq argument ∧ 0 < curVal ∧ curVal < argument
  | .releaseLoad currLock caller | .releaseCas currLock caller
  | .releaseClear currLock caller => 0 ≤ currLock ∧ CallerKept released seqLock caller

def EventKept (released : Int) (seqLock : ShmSeqLock) : Event → Prop
  | .silent | .granted _ _ => True
  | .unLocked totalSeq => 1 ≤ totalSeq ∧ Settled seqLock released totalSeq

/-- How the shared state may change under the other threads. -/
structure Progress (released : Int) (seqLock : ShmSeqLock) (released' : Int)
    (seqLock' : ShmSeqLock) : Prop where
  grows : released ≤ released'
  mask : seqLock'.queueMask = seqLock.queueMask
  settled : ∀ number, 1 ≤ number → Settled seqLock released number →
    Settled seqLock' released' number

theorem Progress.refl : Progress released seqLock released seqLock :=
  ⟨le_rfl, rfl, fun _ _ => id⟩

section Frame

variable {released' : Int} {seqLock' : ShmSeqLock}

theorem Progress.queueSize_eq (progress : Progress released seqLock released' seqLock') :
    queueSize seqLock' = queueSize seqLock := by
  simp [queueSize, progress.mask]

theorem Pending.frame {totalSeq argument : Int}
    (pending : Pending released seqLock totalSeq argument)
    (progress : Progress released seqLock released' seqLock') :
    Pending released' seqLock' totalSeq argument := by
  have grows := progress.grows
  have window := pending.window
  refine ⟨pending.positive, pending.above, ?_, pending.source.imp_right fun done => by omega⟩
  rw [progress.queueSize_eq]
  omega

theorem CallerKept.frame {caller : Caller} (waiting : CallerKept released seqLock caller)
    (progress : Progress released seqLock released' seqLock') :
    CallerKept released' seqLock' caller := by
  cases caller with
  | application => trivial
  | lock totalSeq expectValue => exact waiting
  | unLock totalSeq => exact ⟨waiting.1, progress.settled totalSeq waiting.1 waiting.2⟩

theorem LocalKept.frame {pc : PC} (thread : LocalKept released seqLock pc)
    (progress : Progress released seqLock released' seqLock') :
    LocalKept released' seqLock' pc := by
  have grows := progress.grows
  cases pc with
  | idle => trivial
  | lockCas totalSeq expectValue => exact thread
  | lockStorePrev expectValue =>
    have le : expectValue ≤ released := thread
    show expectValue ≤ released'
    omega
  | unLockLoadPrev totalSeq =>
    refine ⟨thread.1, ?_⟩
    have window := thread.2
    rw [progress.queueSize_eq]
    omega
  | unLockCas totalSeq argument | cacheCas totalSeq argument lockValue
  | cacheLoad totalSeq argument lockValue =>
    exact Pending.frame thread progress
  | cacheReplace totalSeq argument lockValue curVal =>
    exact ⟨Pending.frame thread.1 progress, thread.2⟩
  | releaseLoad currLock caller | releaseCas currLock caller | releaseClear currLock caller =>
    exact ⟨thread.1, thread.2.frame progress⟩

end Frame

/-- The two accesses that lose a number: clearing an entry that holds one not
yet released, and freeing the lock with a value below the released number. -/
def AccessKeeps (released : Int) (seqLock : ShmSeqLock) : PC → Prop
  | .releaseClear currLock _ => seqLock.entryAt (currLock + 1) ≤ released
  | .unLockCas totalSeq argument => seqLock.lockSqn = -totalSeq → released ≤ argument
  | _ => True

instance AccessKeeps.decidable (released : Int) (seqLock : ShmSeqLock) (pc : PC) :
    Decidable (AccessKeeps released seqLock pc) := by
  cases pc <;> unfold AccessKeeps <;> infer_instance

def nextReleased (released : Int) (seqLock : ShmSeqLock) : Int :=
  if 0 ≤ seqLock.lockSqn then seqLock.lockSqn else released

structure OutcomeKept (released : Int) (seqLock : ShmSeqLock) (outcome : Outcome) : Prop where
  shared : SharedKept (nextReleased released outcome.seqLock) outcome.seqLock
  thread : LocalKept (nextReleased released outcome.seqLock) outcome.seqLock outcome.pc
  event : EventKept (nextReleased released outcome.seqLock) outcome.seqLock outcome.event
  progress : Progress released seqLock (nextReleased released outcome.seqLock) outcome.seqLock

variable {pc : PC}
variable {totalSeq : Int}

section

variable (shared : SharedKept released seqLock)
include shared

theorem SharedKept.nextReleased_eq : nextReleased released seqLock = released := by
  unfold nextReleased
  split
  · next free => exact shared.word free
  · rfl

theorem SharedKept.unchanged {event : Event} (thread : LocalKept released seqLock pc)
    (recorded : EventKept released seqLock event) :
    OutcomeKept released seqLock ⟨seqLock, pc, event⟩ := by
  have same := shared.nextReleased_eq
  exact ⟨by rwa [same], by rwa [same], by rwa [same], by rw [same]; exact .refl⟩

theorem SharedKept.return {caller : Caller} (waiting : CallerKept released seqLock caller) :
    OutcomeKept released seqLock (caller.return seqLock) := by
  cases caller with
  | application => exact shared.unchanged trivial trivial
  | lock totalSeq expectValue => exact shared.unchanged waiting trivial
  | unLock totalSeq => exact shared.unchanged trivial waiting

theorem SharedKept.afterCache (argument lockValue : Int) (pos : 1 ≤ totalSeq)
    (settled : Settled seqLock released totalSeq) :
    OutcomeKept released seqLock (afterCache seqLock totalSeq argument lockValue) := by
  unfold SeqLockInterleaving.afterCache
  split
  · next behind => exact shared.unchanged ⟨behind.1, pos, settled⟩ trivial
  · exact shared.return ⟨pos, settled⟩

end

theorem SharedKept.getInQueueIndex_le (seqLock : ShmSeqLock) (i : Int) :
    seqLock.getInQueueIndex i ≤ seqLock.queueMask := Nat.and_le_right

variable {argument : Int}

theorem SharedKept.entry_apart (shared : SharedKept released seqLock) (pos : 1 ≤ argument)
    (filled : seqLock.entryAt argument ≠ 0) :
    seqLock.entryAt argument = argument ∨ argument + queueSize seqLock ≤ seqLock.entryAt argument ∨
      seqLock.entryAt argument + queueSize seqLock ≤ argument := by
  obtain ⟨exponent, mask⟩ := shared.mask
  have within := getInQueueIndex_le seqLock argument
  have sign : 0 ≤ seqLock.entryAt argument := shared.sign _ within
  have home : seqLock.getInQueueIndex (seqLock.entryAt argument) =
      seqLock.getInQueueIndex argument :=
    shared.home _ within filled
  rcases lt_trichotomy (seqLock.entryAt argument) argument with less | same | more
  · exact .inr (.inr (lap_le mask sign less home))
  · exact .inl same
  · exact .inr (.inl (lap_le mask (by omega) more home.symm))

theorem SharedKept.setEntry (shared : SharedKept released seqLock) (nonnegative : 0 ≤ value)
    (window : value ≤ released + queueSize seqLock) (home : value ≠ 0 → value = index) :
    SharedKept released (seqLock.setEntry index value) where
  __ := shared
  sign slot within := by
    by_cases same : slot = seqLock.getInQueueIndex index
    · simpa [ShmSeqLock.setEntry, same] using nonnegative
    · simpa [ShmSeqLock.setEntry, update_of_ne same] using shared.sign slot within
  window slot within := by
    by_cases same : slot = seqLock.getInQueueIndex index
    · simpa [ShmSeqLock.setEntry, queueSize, same] using window
    · simpa [ShmSeqLock.setEntry, queueSize, update_of_ne same] using shared.window slot within
  home slot within filled := by
    by_cases same : slot = seqLock.getInQueueIndex index
    · simp only [ShmSeqLock.setEntry, same, update_self] at filled ⊢
      rw [home filled]
      rfl
    · simp only [ShmSeqLock.setEntry, update_of_ne same] at filled ⊢
      exact shared.home slot within filled

theorem Progress.setEntry
    (harmless : 1 ≤ seqLock.entryAt index → seqLock.entryAt index ≤ released) :
    Progress released seqLock released (seqLock.setEntry index value) :=
  ⟨le_rfl, rfl, fun _ pos settled => settled.setEntry fun stored =>
    stored ▸ harmless (stored ▸ pos)⟩

variable {outcome : Outcome}

theorem OutcomeKept.after {changed : ShmSeqLock} (kept : OutcomeKept released changed outcome)
    (progress : Progress released seqLock released changed) :
    OutcomeKept released seqLock outcome :=
  ⟨kept.shared, kept.thread, kept.event,
    ⟨progress.grows.trans kept.progress.grows, kept.progress.mask.trans progress.mask,
      fun n pos settled =>
        kept.progress.settled n pos (progress.settled n pos settled)⟩⟩

theorem SharedKept.park (shared : SharedKept released seqLock) (lockValue : Int)
    (pending : Pending released seqLock totalSeq argument)
    (stale : 1 ≤ seqLock.entryAt argument → seqLock.entryAt argument ≤ released) :
    OutcomeKept released seqLock
      (SeqLockInterleaving.afterCache (seqLock.setEntry argument argument) totalSeq argument
        lockValue) := by
  have positive := pending.positive
  have above := pending.above
  have parked := shared.setEntry (by omega) pending.window fun _ => rfl
  have settled : Settled (seqLock.setEntry argument argument) released totalSeq := by
    rcases pending.source with rfl | done
    · exact .inr (seqLock.entryAt_setEntry_self _ _)
    · exact .inl (by omega)
  exact (parked.afterCache argument lockValue positive settled).after (.setEntry stale)

theorem SharedKept.take (shared : SharedKept released seqLock) {expectValue : Int}
    (pos : 1 ≤ totalSeq) (le : expectValue ≤ released) :
    OutcomeKept released seqLock ⟨{ seqLock with lockSqn := -totalSeq }, .lockStorePrev expectValue,
        .granted totalSeq expectValue⟩ := by
  have unreleased : nextReleased released { seqLock with lockSqn := -totalSeq } = released :=
    if_neg (by simp only; omega)
  refine ⟨?_, ?_, trivial, ?_⟩ <;> rw [unreleased]
  · exact { shared with word := fun free => absurd free (by simp only; omega) }
  · exact le
  · exact ⟨le_rfl, rfl, fun _ _ => id⟩

theorem Progress.releaseTo (grows : released ≤ value) :
    Progress released seqLock value { seqLock with lockSqn := value } :=
  ⟨grows, rfl, fun _ _ settled => settled.imp (fun done => done.trans grows) id⟩

theorem SharedKept.releaseTo (shared : SharedKept released seqLock) (grows : released ≤ value)
    (thread : LocalKept value { seqLock with lockSqn := value } pc) :
    OutcomeKept released seqLock ⟨{ seqLock with lockSqn := value }, pc, .silent⟩ := by
  have nonnegative := shared.nonnegative
  have freed : nextReleased released { seqLock with lockSqn := value } = value :=
    if_pos (by simp only; omega)
  refine ⟨?_, ?_, trivial, ?_⟩ <;> rw [freed]
  · refine ⟨shared.mask, by omega, fun _ => rfl, shared.previous.trans grows, shared.sign,
      fun slot within => ?_, shared.home⟩
    have bound := shared.window slot within
    simp only [queueSize] at bound ⊢
    omega
  · exact thread
  · exact .releaseTo grows

theorem SharedKept.settled_of_parked (shared : SharedKept released seqLock)
    (pending : Pending released seqLock totalSeq argument) (filled : 0 < seqLock.entryAt argument)
    (notBehind : argument ≤ seqLock.entryAt argument) : Settled seqLock released totalSeq := by
  have positive := pending.positive
  have above := pending.above
  rcases pending.source with rfl | done
  · have bound : seqLock.entryAt argument ≤ released + queueSize seqLock :=
      shared.window _ (getInQueueIndex_le seqLock argument)
    rcases shared.entry_apart positive (by omega) with same | ahead | behind
    · exact .inr same
    · exact .inl (by omega)
    · have size : 0 < queueSize seqLock := by unfold queueSize; omega
      omega
  · exact .inl (by omega)

theorem SharedKept.run (shared : SharedKept released seqLock)
    (thread : LocalKept released seqLock pc) (keeps : AccessKeeps released seqLock pc)
    (ran : pc.run seqLock = some outcome) : OutcomeKept released seqLock outcome := by
  have nonnegative := shared.nonnegative
  cases pc with
  | idle => cases ran
  | lockCas totalSeq expectValue =>
    obtain ⟨positive, ok⟩ := thread
    simp only [PC.run] at ran
    split at ran
    · next free =>
      cases ran
      have word := shared.word (by omega)
      exact shared.take positive (by omega)
    · split at ran
      · cases ran
        exact shared.unchanged ⟨positive, ok⟩ trivial
      · split at ran
        · cases ran
          exact shared.unchanged ⟨positive, by omega⟩ trivial
        · cases ran
          exact shared.unchanged ⟨by omega, positive, ok⟩ trivial
  | lockStorePrev expectValue =>
    cases ran
    have stored : SharedKept released { seqLock with prevLockSqn := expectValue } :=
      { shared with nonnegative := nonnegative, previous := thread }
    have kept : OutcomeKept released { seqLock with prevLockSqn := expectValue }
        ⟨{ seqLock with prevLockSqn := expectValue }, .idle, .silent⟩ :=
      stored.unchanged trivial trivial
    exact kept.after ⟨le_rfl, rfl, fun _ _ => id⟩
  | unLockLoadPrev totalSeq =>
    obtain ⟨positive, window⟩ := thread
    cases ran
    have previous := shared.previous
    have size : 0 ≤ queueSize seqLock := by unfold queueSize; omega
    refine shared.unchanged ⟨positive, le_max_left _ _, max_le window (by omega), ?_⟩ trivial
    rcases max_choice totalSeq seqLock.prevLockSqn with own | earlier
    · exact .inl own
    · exact .inr (by omega)
  | unLockCas totalSeq argument =>
    have pending : Pending released seqLock totalSeq argument := thread
    have positive := pending.positive
    have above := pending.above
    simp only [PC.run] at ran
    split at ran
    · next own =>
      cases ran
      exact shared.releaseTo (keeps own) ⟨by omega, positive, .inl above⟩
    · cases ran
      exact shared.unchanged pending trivial
  | cacheCas totalSeq argument lockValue =>
    have pending : Pending released seqLock totalSeq argument := thread
    simp only [PC.run] at ran
    split at ran
    · next empty =>
      cases ran
      exact shared.park lockValue pending fun filled => by omega
    · cases ran
      exact shared.unchanged pending trivial
  | cacheLoad totalSeq argument lockValue =>
    have pending : Pending released seqLock totalSeq argument := thread
    simp only [PC.run] at ran
    split at ran
    · next filled =>
      split at ran
      · next behind =>
        cases ran
        exact shared.unchanged ⟨pending, filled, behind⟩ trivial
      · next notBehind =>
        cases ran
        exact shared.afterCache argument lockValue pending.positive
          (shared.settled_of_parked pending filled (Int.not_lt.mp notBehind))
    · cases ran
      exact shared.unchanged pending trivial
  | cacheReplace totalSeq argument lockValue curVal =>
    have pending : Pending released seqLock totalSeq argument := thread.1
    have window := pending.window
    have older : curVal < argument := thread.2.2
    simp only [PC.run] at ran
    split at ran
    · next stored =>
      cases ran
      refine shared.park lockValue pending fun filled => ?_
      have apart := shared.entry_apart (show 1 ≤ argument by omega) (by omega)
      omega
    · cases ran
      exact shared.unchanged pending trivial
  | releaseLoad currLock caller =>
    simp only [PC.run] at ran
    split at ran <;> cases ran
    · exact shared.unchanged thread trivial
    · exact shared.return thread.2
  | releaseCas currLock caller =>
    obtain ⟨ok, waiting⟩ := thread
    simp only [PC.run] at ran
    split at ran
    · next free =>
      cases ran
      have word := shared.word (by omega)
      have grows : released ≤ currLock + 1 := by omega
      exact shared.releaseTo grows ⟨ok, waiting.frame (.releaseTo grows)⟩
    · cases ran
      exact shared.return waiting
  | releaseClear currLock caller =>
    obtain ⟨ok, waiting⟩ := thread
    cases ran
    have size : 0 < queueSize seqLock := by unfold queueSize; omega
    have progress : Progress released seqLock released (seqLock.setEntry (currLock + 1) 0) :=
      .setEntry fun _ => keeps
    have cleared : SharedKept released (seqLock.setEntry (currLock + 1) 0) :=
      shared.setEntry le_rfl (by omega) fun nonzero => absurd rfl nonzero
    have kept : OutcomeKept released (seqLock.setEntry (currLock + 1) 0)
        ⟨seqLock.setEntry (currLock + 1) 0, .releaseLoad (currLock + 1) caller, .silent⟩ :=
      cleared.unchanged ⟨by omega, waiting.frame progress⟩ trivial
    exact kept.after progress

section

variable {Thread : Type}

structure Kept (machine : Machine Thread) : Prop where
  shared : SharedKept machine.released machine.seqLock
  threads : ∀ thread, LocalKept machine.released machine.seqLock (machine.pc thread)
  returned : ∀ number ∈ machine.returned,
    1 ≤ number ∧ Settled machine.seqLock machine.released number

/-- A number is unlocked at most one lap ahead of the released number. -/
def WithinLap (machine : Machine Thread) : Action Thread → Prop
  | .call _ (.unLock totalSeq) => totalSeq ≤ machine.released + queueSize machine.seqLock
  | _ => True

def NothingLost (machine : Machine Thread) : Action Thread → Prop
  | .run thread => AccessKeeps machine.released machine.seqLock (machine.pc thread)
  | .call _ _ => True

variable [DecidableEq Thread] {machine : Machine Thread}

theorem Kept.setPC (kept : Kept machine) (thread : Thread)
    (ready : LocalKept machine.released machine.seqLock pc) : Kept (machine.setPC thread pc) where
  shared := kept.shared
  threads other := by
    simp only [Machine.setPC]
    by_cases same : other = thread
    · rw [same, update_self]
      exact ready
    · rw [update_of_ne same]
      exact kept.threads other
  returned := kept.returned

theorem Kept.commit (kept : Kept machine) (thread : Thread)
    (ran : OutcomeKept machine.released machine.seqLock outcome) :
    Kept (machine.commit thread outcome) := by
  have moved : Kept ({ machine with
      seqLock := outcome.seqLock
      released := nextReleased machine.released outcome.seqLock }.setPC thread outcome.pc) := by
    refine ⟨ran.shared, fun other => ?_, fun n mem => ?_⟩
    · simp only [Machine.setPC]
      by_cases same : other = thread
      · rw [same, update_self]
        exact ran.thread
      · rw [update_of_ne same]
        exact (kept.threads other).frame ran.progress
    · obtain ⟨pos, settled⟩ := kept.returned n mem
      exact ⟨pos, ran.progress.settled n pos settled⟩
  unfold Machine.commit
  cases event : outcome.event with
  | silent => exact moved
  | granted totalSeq expectValue => exact { moved with }
  | unLocked totalSeq =>
    refine ⟨moved.shared, moved.threads, fun n mem => ?_⟩
    rcases mem_cons.mp mem with rfl | earlier
    · have recorded := ran.event
      rwa [event] at recorded
    · exact moved.returned n earlier

theorem Kept.step {action : Action Thread} {next : Machine Thread} (kept : Kept machine)
    (may : WithinLap machine action ∧ NothingLost machine action)
    (went : machine.step action = some next) : Kept next := by
  cases action with
  | call thread call =>
    simp only [Machine.step] at went
    split at went
    · cases call with
      | lock totalSeq =>
        simp only at went
        split at went
        · next pos =>
          cases went
          exact kept.setPC thread ⟨pos, by omega⟩
        · cases went
      | unLock totalSeq =>
        simp only at went
        split at went
        · next pos =>
          cases went
          have called : Kept { machine with called := totalSeq :: machine.called } := { kept with }
          exact called.setPC thread ⟨pos, may.1⟩
        · cases went
      | tryRelease currLock =>
        simp only at went
        split at went
        · next nonnegative =>
          cases went
          exact kept.setPC thread ⟨nonnegative, trivial⟩
        · cases went
    · cases went
  | run thread =>
    obtain ⟨outcome, ran, rfl⟩ := map_eq_some_iff.mp went
    exact kept.commit thread (kept.shared.run (kept.threads thread) may.2 ran)

end

theorem start_kept {Thread : Type} {cacheSize : UInt32} (memory : Nat → Int)
    (pos : 1 ≤ cacheSize.toNat) (fits : cacheSize.toNat ≤ 2 ^ 31) :
    Kept (start cacheSize memory : Machine Thread) := by
  obtain ⟨exponent, mask, empty⟩ := ShmSeqLock.create_of_le memory pos fits
  refine ⟨⟨⟨exponent, mask⟩, le_rfl, fun _ => rfl, le_rfl, ?_, ?_, ?_⟩, fun _ => trivial, ?_⟩
  · intro slot within
    exact (empty slot within).ge
  · intro slot within
    simp only [start, empty slot within, queueSize]
    omega
  · intro slot within filled
    exact absurd (empty slot within) filled
  · nofun

variable {fuel : Nat} {currLock : Int}

theorem le_lockSqn_tryReleaseLoop (free : seqLock.lockSqn = currLock) :
    currLock ≤ (seqLock.tryReleaseLoop fuel currLock).lockSqn := by
  induction fuel generalizing seqLock currLock with
  | zero => exact free.ge
  | succ fuel ih =>
    simp only [ShmSeqLock.tryReleaseLoop]
    split
    · have stored : ({ seqLock with lockSqn := currLock + 1 }.setEntry (currLock + 1) 0).lockSqn =
          currLock + 1 := rfl
      have later := ih stored
      omega
    · exact free.ge

variable {last : Int}

theorem tryReleaseLoop_reaches (free : seqLock.lockSqn = currLock) (enough : last ≤ currLock + fuel)
    (parked : ∀ n, currLock < n → n ≤ last → seqLock.entryAt n = n) :
    last ≤ (seqLock.tryReleaseLoop fuel currLock).lockSqn := by
  induction fuel generalizing seqLock currLock with
  | zero =>
    simp only [ShmSeqLock.tryReleaseLoop]
    omega
  | succ fuel ih =>
    by_cases finished : last ≤ currLock
    · exact finished.trans (le_lockSqn_tryReleaseLoop free)
    · have next := parked (currLock + 1) (by omega) (by omega)
      simp only [ShmSeqLock.tryReleaseLoop, if_pos next, if_pos free]
      refine ih rfl (by omega) fun n after upTo => ?_
      have stored := parked n (by omega) upTo
      have apart : seqLock.getInQueueIndex n ≠ seqLock.getInQueueIndex (currLock + 1) := by
        intro sameSlot
        have same : seqLock.entryAt n = seqLock.entryAt (currLock + 1) := by
          rw [ShmSeqLock.entryAt, sameSlot, ShmSeqLock.entryAt]
        omega
      exact (ShmSeqLock.entryAt_setEntry_of_ne { seqLock with lockSqn := currLock + 1 } 0
        apart).trans stored

theorem Kept.tryRelease_reaches {Thread : Type} {machine : Machine Thread} (kept : Kept machine)
    (free : 0 ≤ machine.seqLock.lockSqn)
    (completed : ∀ number, 1 ≤ number → number ≤ last → number ∈ machine.returned) :
    last ≤ (machine.seqLock.tryRelease machine.seqLock.lockSqn).lockSqn := by
  have word := kept.shared.word free
  have parked : ∀ number, machine.seqLock.lockSqn < number → number ≤ last →
      machine.seqLock.entryAt number = number := by
    intro number after upTo
    obtain ⟨_, done | stored⟩ := kept.returned number (completed number (by omega) upTo)
    · omega
    · exact stored
  refine tryReleaseLoop_reaches rfl ?_ parked
  by_cases finished : last ≤ machine.seqLock.lockSqn
  · omega
  · have stored := parked last (by omega) le_rfl
    have window := kept.shared.window _ (SharedKept.getInQueueIndex_le machine.seqLock last)
    simp only [ShmSeqLock.entryAt] at stored
    simp only [queueSize] at window
    omega

/-- A thread that calls `TryRelease` with the current lock word and then
`Lock(last + 1)`, undisturbed, has released every number up to `last` when the
first call returns and holds the lock when the second does. -/
def ReleasesUpTo {Thread : Type} [DecidableEq Thread] (machine : Machine Thread) (thread : Thread)
    (last : Int) : Prop :=
  ∃ count after, execute Machine.step machine
      (.call thread (.tryRelease machine.seqLock.lockSqn) :: replicate count (.run thread)) =
        some after ∧
    after.pc thread = .idle ∧ last ≤ after.seqLock.lockSqn ∧
    ∃ count' locked, execute Machine.step after
        (.call thread (.lock (last + 1)) :: replicate count' (.run thread)) = some locked ∧
      locked.pc thread = .idle ∧ locked.seqLock.lockSqn = -(last + 1)

theorem Kept.releasesUpTo {Thread : Type} [DecidableEq Thread] {machine : Machine Thread}
    {thread : Thread} (kept : Kept machine) (natural : 0 ≤ last)
    (free : 0 ≤ machine.seqLock.lockSqn) (idle : machine.pc thread = .idle)
    (completed : ∀ n, 1 ≤ n → n ≤ last → n ∈ machine.returned) :
    ReleasesUpTo machine thread last := by
  obtain ⟨exponent, mask⟩ := kept.shared.mask
  have reached := kept.tryRelease_reaches free completed
  have called : machine.step (.call thread (.tryRelease machine.seqLock.lockSqn)) =
      some (machine.setPC thread (.releaseLoad machine.seqLock.lockSqn .application)) := by
    simp only [Machine.step, if_pos idle, if_pos free]
  have alone : Solo
      (machine.setPC thread (.releaseLoad machine.seqLock.lockSqn .application)).seqLock
      ((machine.setPC thread (.releaseLoad machine.seqLock.lockSqn .application)).pc thread)
      (machine.seqLock.tryRelease machine.seqLock.lockSqn) .idle := by
    simp only [Machine.setPC, update_self]
    exact solo_tryRelease .application mask free
  obtain ⟨count, after, ran, shared, stopped⟩ := alone.execute
  refine ⟨count, after, execute_cons.mpr ⟨_, called, ran⟩, stopped, shared ▸ reached, ?_⟩
  have locking : after.step (.call thread (.lock (last + 1))) =
      some (after.setPC thread (.lockCas (last + 1) (last + 1 - 1))) := by
    simp only [Machine.step, if_pos stopped, if_pos (show 1 ≤ last + 1 by omega)]
  have granted : Solo (after.setPC thread (.lockCas (last + 1) (last + 1 - 1))).seqLock
      ((after.setPC thread (.lockCas (last + 1) (last + 1 - 1))).pc thread)
      { after.seqLock with lockSqn := -(last + 1), prevLockSqn := after.seqLock.lockSqn }
      .idle := by
    simp only [Machine.setPC, update_self]
    exact solo_lockGranted (by rw [shared]; omega)
  obtain ⟨count', locked, ran', shared', stopped'⟩ := granted.execute
  exact ⟨count', locked, execute_cons.mpr ⟨_, locking, ran'⟩, stopped', by rw [shared']⟩

theorem not_releasesUpTo_of_missing {Thread : Type} [DecidableEq Thread] {machine : Machine Thread}
    {thread : Thread}
    (missing : machine.seqLock.entryAt (machine.seqLock.lockSqn + 1) ≠ machine.seqLock.lockSqn + 1)
    (behind : machine.seqLock.lockSqn < last) : ¬ ReleasesUpTo machine thread last := by
  rintro ⟨count, after, ran, stopped, reached, -⟩
  obtain ⟨called, went, alone⟩ := execute_cons.mp ran
  have entered : called =
      machine.setPC thread (.releaseLoad machine.seqLock.lockSqn .application) := by
    simp only [Machine.step] at went
    split at went
    · split at went
      · exact (some.inj went).symm
      · cases went
    · cases went
  subst entered
  cases count with
  | zero =>
    obtain rfl := some.inj alone
    simp only [Machine.setPC, update_self, reduceCtorEq] at stopped
  | succ count =>
    obtain ⟨returned, first, rest⟩ := execute_cons.mp alone
    obtain ⟨outcome, access, rfl⟩ := map_eq_some_iff.mp first
    have here : (machine.setPC thread
        (.releaseLoad machine.seqLock.lockSqn .application)).pc thread =
          .releaseLoad machine.seqLock.lockSqn .application := update_self _ _ _
    have left : some (Caller.return machine.seqLock .application) = some outcome := by
      rw [here] at access
      exact (if_neg missing).symm.trans access
    obtain rfl := some.inj left
    cases count with
    | zero =>
      obtain rfl := some.inj rest
      rw [Machine.commit_seqLock] at reached
      exact absurd reached (by simp only [Caller.return]; omega)
    | succ count =>
      obtain ⟨_, second, _⟩ := execute_cons.mp rest
      obtain ⟨_, access, _⟩ := map_eq_some_iff.mp second
      rw [Machine.commit_pc_self] at access
      cases access

/-- No unlock is lost in a run in which the clearing store of `TryRelease` never
meets a number that is not released yet and no `UnLock` frees the lock below
the released number. -/
theorem releasesUpTo_of_nothingLost {Thread : Type} [DecidableEq Thread] (cacheSize : UInt32)
    (positive : 1 ≤ cacheSize.toNat) (fits : cacheSize.toNat ≤ 2 ^ 31) (memory : Nat → Int)
    (actions : List (Action Thread)) (final : Machine Thread) (guarded : Guarded Machine.step
      (fun machine action => WithinLap machine action ∧ NothingLost machine action)
      (start cacheSize memory) actions)
    (ran : execute Machine.step (start cacheSize memory) actions = some final)
    (last : Int) (natural : 0 ≤ last)
    (completed : ∀ number, 1 ≤ number → number ≤ last → number ∈ final.returned)
    (free : 0 ≤ final.seqLock.lockSqn) (thread : Thread) (idle : final.pc thread = .idle) :
    ReleasesUpTo final thread last :=
  (invariant_of_guarded Kept.step (start_kept memory positive fits) guarded ran).releasesUpTo
    natural free idle completed

section Decidable

variable {Thread : Type} (machine : Machine Thread)

instance WithinLap.decidable : ∀ action : Action Thread, Decidable (WithinLap machine action)
  | .call _ (.unLock _) => inferInstanceAs (Decidable (_ ≤ _))
  | .call _ (.lock _) | .call _ (.tryRelease _) | .run _ => inferInstanceAs (Decidable True)

instance NothingLost.decidable : ∀ action : Action Thread, Decidable (NothingLost machine action)
  | .run thread => AccessKeeps.decidable machine.released machine.seqLock (machine.pc thread)
  | .call _ _ => inferInstanceAs (Decidable True)

end Decidable

def parkedRun : List (Action Unit) :=
  flatten
    [[.call () (.unLock 2)], replicate 4 (.run ()),
      [.call () (.unLock 1)], replicate 10 (.run ())]

theorem parkedRun_releases : ∃ final,
    execute Machine.step (start 2 fun _ => 0) parkedRun = some final ∧ ReleasesUpTo final () 2 := by
  obtain ⟨final, ran, free, idle, first, second⟩ :
      ∃ final, execute Machine.step (start 2 fun _ => 0) parkedRun = some final ∧
        0 ≤ final.seqLock.lockSqn ∧ final.pc () = .idle ∧ 1 ∈ final.returned ∧
        2 ∈ final.returned := execute_check (by decide +kernel)
  refine ⟨final, ran, releasesUpTo_of_nothingLost 2 (by decide) (by decide) (fun _ => 0) parkedRun
    final (by decide +kernel) ran 2 (by decide) ?_ free () idle⟩
  intro number atLeast upTo
  have listed : number = 1 ∨ number = 2 := by omega
  rcases listed with rfl | rfl
  · exact first
  · exact second

/-- With two entries: `false` releases number one and is about to clear its
entry, `true` parks number three there, the clearing store wipes it out, and
number two is unlocked in between. -/
def wipedRun : List (Action Bool) :=
  flatten
    [[.call false (.unLock 1)], replicate 5 (.run false),
      [.call true (.unLock 3)], replicate 6 (.run true), replicate 2 (.run false),
      [.call false (.unLock 2)], replicate 7 (.run false)]

theorem wipedRun_loses_three : ∃ final,
    Guarded Machine.step WithinLap (start 2 fun _ => 0) wipedRun ∧
      execute Machine.step (start 2 fun _ => 0) wipedRun = some final ∧
      (∀ number, 1 ≤ number → number ≤ 3 → number ∈ final.returned) ∧
      0 ≤ final.seqLock.lockSqn ∧ (∀ thread, final.pc thread = .idle) ∧
      ¬ ReleasesUpTo final false 3 := by
  obtain ⟨final, ran, returned, free, idle, missing, behind⟩ :
      ∃ final, execute Machine.step (start 2 fun _ => 0) wipedRun = some final ∧
        final.returned = [2, 1, 3] ∧ 0 ≤ final.seqLock.lockSqn ∧
        (∀ thread, final.pc thread = .idle) ∧
        final.seqLock.entryAt (final.seqLock.lockSqn + 1) ≠ final.seqLock.lockSqn + 1 ∧
        final.seqLock.lockSqn < 3 := execute_check (by decide +kernel)
  refine ⟨final, by decide +kernel, ran, ?_, free, idle, not_releasesUpTo_of_missing missing behind⟩
  intro number first upTo
  have listed : number = 1 ∨ number = 2 ∨ number = 3 := by omega
  rw [returned]
  rcases listed with rfl | rfl | rfl <;> decide

end AdkAaf.Sharding.SeqLockInterleaving
