import AdkAaf.Lib.Transition
import AdkAaf.Sharding.SeqLock.Basic

/-! `ShmSeqLock` with every atomic access as one step: the compare-exchanges of
`lock_sqn_`, the load and store of `prev_lock_sqn_`, and the load, the
compare-and-swaps and the clearing store of a cache entry. Any number of
threads run `Lock`, `UnLock` and `TryRelease` against one lock. -/

set_option autoImplicit false

namespace AdkAaf.Sharding.SeqLockInterleaving

inductive Call where
  | lock (totalSeq : Int)
  | unLock (totalSeq : Int)
  | tryRelease (currLock : Int)

/-- Where `TryRelease` returns to. -/
inductive Caller where
  | application
  | lock (totalSeq expectValue : Int)
  | unLock (totalSeq : Int)
  deriving DecidableEq

/-- The access a thread performs next, with the locals it needs. `released` is
the local `total_seq` of `UnLock` after `std::max`, `lockValue` the lock word
its failed compare-exchange observed. -/
inductive PC where
  | idle
  | lockCas (totalSeq expectValue : Int)
  | lockStorePrev (expectValue : Int)
  | unLockLoadPrev (totalSeq : Int)
  | unLockCas (totalSeq released : Int)
  | cacheCas (totalSeq released lockValue : Int)
  | cacheLoad (totalSeq released lockValue : Int)
  | cacheReplace (totalSeq released lockValue curVal : Int)
  | releaseLoad (currLock : Int) (caller : Caller)
  | releaseCas (currLock : Int) (caller : Caller)
  | releaseClear (currLock : Int) (caller : Caller)
  deriving DecidableEq

/-- What an access contributes to the history of the run. -/
inductive Event where
  | silent
  | granted (totalSeq expectValue : Int)
  | unLocked (totalSeq : Int)

structure Outcome where
  seqLock : ShmSeqLock
  pc : PC
  event : Event := .silent

variable (seqLock : ShmSeqLock)

def Caller.return : Caller → Outcome
  | .application => { seqLock, pc := .idle }
  | .lock totalSeq expectValue => { seqLock, pc := .lockCas totalSeq expectValue }
  | .unLock totalSeq => { seqLock, pc := .idle, event := .unLocked totalSeq }

/-- `UnLock` behind `UnlockCache`. -/
def afterCache (totalSeq released lockValue : Int) : Outcome :=
  if 0 ≤ lockValue ∧ lockValue < released then
    { seqLock, pc := .releaseLoad lockValue (.unLock totalSeq) }
  else
    Caller.return seqLock (.unLock totalSeq)

def PC.run : PC → Option Outcome
  | .idle => none
  | .lockCas totalSeq expectValue =>
    if seqLock.lockSqn = expectValue then
      some { seqLock := { seqLock with lockSqn := -totalSeq }
             pc := .lockStorePrev expectValue
             event := .granted totalSeq expectValue }
    else if seqLock.lockSqn < 0 then
      some { seqLock, pc := .lockCas totalSeq expectValue }
    else if totalSeq ≤ seqLock.lockSqn then
      some { seqLock, pc := .lockCas totalSeq seqLock.lockSqn }
    else
      some { seqLock, pc := .releaseLoad seqLock.lockSqn (.lock totalSeq expectValue) }
  | .lockStorePrev expectValue =>
    some { seqLock := { seqLock with prevLockSqn := expectValue }, pc := .idle }
  | .unLockLoadPrev totalSeq =>
    some { seqLock, pc := .unLockCas totalSeq (max totalSeq seqLock.prevLockSqn) }
  | .unLockCas totalSeq released =>
    if seqLock.lockSqn = -totalSeq then
      some { seqLock := { seqLock with lockSqn := released }
             pc := .releaseLoad released (.unLock totalSeq) }
    else
      some { seqLock, pc := .cacheCas totalSeq released seqLock.lockSqn }
  | .cacheCas totalSeq released lockValue =>
    if seqLock.entryAt released = 0 then
      some (afterCache (seqLock.setEntry released released) totalSeq released lockValue)
    else
      some { seqLock, pc := .cacheLoad totalSeq released lockValue }
  | .cacheLoad totalSeq released lockValue =>
    if 0 < seqLock.entryAt released then
      if seqLock.entryAt released < released then
        some
          { seqLock
            pc := .cacheReplace totalSeq released lockValue (seqLock.entryAt released) }
      else
        some (afterCache seqLock totalSeq released lockValue)
    else
      some { seqLock, pc := .cacheCas totalSeq released lockValue }
  | .cacheReplace totalSeq released lockValue curVal =>
    if seqLock.entryAt released = curVal then
      some (afterCache (seqLock.setEntry released released) totalSeq released lockValue)
    else
      some { seqLock, pc := .cacheCas totalSeq released lockValue }
  | .releaseLoad currLock caller =>
    if seqLock.entryAt (currLock + 1) = currLock + 1 then
      some { seqLock, pc := .releaseCas currLock caller }
    else
      some (caller.return seqLock)
  | .releaseCas currLock caller =>
    if seqLock.lockSqn = currLock then
      some { seqLock := { seqLock with lockSqn := currLock + 1 }
             pc := .releaseClear currLock caller }
    else
      some (caller.return seqLock)
  | .releaseClear currLock caller =>
    some { seqLock := seqLock.setEntry (currLock + 1) 0
           pc := .releaseLoad (currLock + 1) caller }

/-- The lock, its threads, and the history of the run: the numbers `UnLock` was
called with, those whose `UnLock` has returned, the successful `Lock`s with the
value each was taken from, and the last released number. -/
structure Machine (Thread : Type) where
  seqLock : ShmSeqLock
  pc : Thread → PC
  called : List Int := []
  returned : List Int := []
  grants : List (Int × Int) := []
  released : Int := 0

inductive Action (Thread : Type) where
  | call (thread : Thread) (call : Call)
  | run (thread : Thread)

namespace Machine

variable {Thread : Type} [DecidableEq Thread]

variable (machine : Machine Thread) (thread : Thread)

def setPC (pc : PC) : Machine Thread :=
  { machine with pc := Function.update machine.pc thread pc }

def record : Event → Machine Thread
  | .silent => machine
  | .granted totalSeq expectValue =>
    { machine with grants := (totalSeq, expectValue) :: machine.grants }
  | .unLocked totalSeq => { machine with returned := totalSeq :: machine.returned }

def commit (outcome : Outcome) : Machine Thread :=
  ({ machine with
      seqLock := outcome.seqLock
      released := if 0 ≤ outcome.seqLock.lockSqn then outcome.seqLock.lockSqn
        else machine.released }.setPC thread outcome.pc).record outcome.event

/-- Numbers are at least one; the argument of `TryRelease` is asserted to be
nonnegative. -/
def step : Action Thread → Option (Machine Thread)
  | .call thread call =>
    if machine.pc thread = .idle then
      match call with
      | .lock totalSeq =>
        if 1 ≤ totalSeq then some (machine.setPC thread (.lockCas totalSeq (totalSeq - 1)))
        else none
      | .unLock totalSeq =>
        if 1 ≤ totalSeq then
          some ({ machine with called := totalSeq :: machine.called }.setPC thread
            (.unLockLoadPrev totalSeq))
        else none
      | .tryRelease currLock =>
        if 0 ≤ currLock then some (machine.setPC thread (.releaseLoad currLock .application))
        else none
    else
      none
  | .run thread => ((machine.pc thread).run machine.seqLock).map (machine.commit thread)

end Machine

def start {Thread : Type} (cacheSize : UInt32) (memory : Nat → Int) : Machine Thread :=
  { seqLock := .create cacheSize memory, pc := fun _ => .idle }

end AdkAaf.Sharding.SeqLockInterleaving
