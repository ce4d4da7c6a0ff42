import AdkAaf.Adk.HashMap.Invariant
import AdkAaf.Lib.Transition

/-! `Insert` by any number of threads, one shared access at a time. The key and value
of a bucket and an overflow map are accessed under their locks only, so each locked
section is one step; `inusing`, `hash_code` and `child` are accessed without a lock.

History variables record which key claimed a bucket, which claimed buckets are not
set yet, and the last value stored for a key. -/

set_option autoImplicit false

namespace AdkAaf.Adk.HashMap

open Function

variable {Key1 Key2 Value : Type}

structure Request (Key1 Key2 Value : Type) where
  key : Key1 × Key2
  value : Value
  cover : CallBack Value
  start : Nat

inductive Pc where
  | loadInusing
  | casInusing
  | setHash
  | setKeys
  | compareHash
  | compareKeys
  | loadChild
  | casChild
  | followChild
  | setAlt
  | returning
  deriving DecidableEq

structure Thread (Key1 Key2 Value : Type) where
  request : Request Key1 Key2 Value
  place : Address
  tempHash : UInt64
  curDeep : UInt16
  pc : Pc

structure Completed (Key1 Key2 Value : Type) where
  request : Request Key1 Key2 Value
  finish : Nat

structure Write (Key1 Key2 Value : Type) where
  request : Request Key1 Key2 Value
  time : Nat

structure State (Key1 Key2 Value : Type) where
  memory : Memory Key1 Key2 Value
  threads : Nat → Option (Thread Key1 Key2 Value) := fun _ => none
  completed : List (Completed Key1 Key2 Value) := []
  clock : Nat := 0
  claims : Claims Key1 Key2 := fun _ => none
  setting : Claims Key1 Key2 := fun _ => none
  lastWrite : Key1 × Key2 → Option (Write Key1 Key2 Value) := fun _ => none

inductive Action (Key1 Key2 Value : Type) where
  | call (id : Nat) (key1 : Key1) (key2 : Key2) (value : Value) (cover : CallBack Value)
  | step (id : Nat)

def Action.id : Action Key1 Key2 Value → Nat
  | .call id .. => id
  | .step id => id

def initialState (config : Config Key1 Key2 Value) : State Key1 Key2 Value :=
  { memory := config.memory }

namespace State

def setThread (state : State Key1 Key2 Value) (id : Nat)
    (thread : Option (Thread Key1 Key2 Value)) : State Key1 Key2 Value :=
  { state with threads := update state.threads id thread, clock := state.clock + 1 }

def setBucket (state : State Key1 Key2 Value) (place : Address)
    (bucket : Bucket Key1 Key2 Value) : State Key1 Key2 Value :=
  { state with memory := state.memory.setBucket place bucket }

def setAlt (state : State Key1 Key2 Value) (position : Nat)
    (alt : AltBucket Key1 Key2 Value) : State Key1 Key2 Value :=
  { state with memory := state.memory.setAlt position alt }

def setSetting (state : State Key1 Key2 Value) (place : Address)
    (key : Option (Key1 × Key2)) : State Key1 Key2 Value :=
  { state with setting := update state.setting place key }

variable [DecidableEq Key1] [DecidableEq Key2]

def write (state : State Key1 Key2 Value) (request : Request Key1 Key2 Value) :
    State Key1 Key2 Value :=
  { state with
    lastWrite := update state.lastWrite request.key (some ⟨request, state.clock⟩) }

end State

section Steps

variable [DecidableEq Key1] [DecidableEq Key2] (geometry : Geometry Key1 Key2)

/-- The thread after a comparison that failed: `++cur_deep > deep_limit_` decides
between the next level and the overflow map. -/
def Thread.mismatch (thread : Thread Key1 Key2 Value) : Thread Key1 Key2 Value :=
  if geometry.deepLimit < thread.curDeep + 1 then
    { thread with curDeep := thread.curDeep + 1, pc := .setAlt }
  else
    { thread with curDeep := thread.curDeep + 1, pc := .loadChild }

def stepThread (state : State Key1 Key2 Value) (id : Nat) (thread : Thread Key1 Key2 Value) :
    State Key1 Key2 Value :=
  let request := thread.request
  let origHash := geometry.keyHash request.key
  let bucket := state.memory.bucket thread.place
  match thread.pc with
  | .loadInusing =>
    state.setThread id (some { thread with
      pc := if bucket.inusing then .compareHash else .casInusing })
  | .casInusing =>
    if bucket.inusing then
      state.setThread id (some { thread with pc := .loadInusing })
    else
      { (state.setBucket thread.place bucket.setInusing).setSetting thread.place
          (some request.key) with
        claims := update state.claims thread.place (some request.key) }.setThread id
          (some { thread with pc := .setHash })
  | .setHash =>
    (state.setBucket thread.place (bucket.setHash origHash)).setThread id
      (some { thread with pc := .setKeys })
  | .setKeys =>
    (((state.setBucket thread.place (bucket.setKeys request.key request.value)).setSetting
      thread.place none).write request).setThread id (some { thread with pc := .returning })
  | .compareHash =>
    if origHash ≠ bucket.hashCode then
      state.setThread id (some (thread.mismatch geometry))
    else
      state.setThread id (some { thread with pc := .compareKeys })
  | .compareKeys =>
    if bucket.key1 ≠ request.key.1 ∨ bucket.key2 ≠ request.key.2 then
      state.setThread id (some (thread.mismatch geometry))
    else if covers request.cover bucket.value then
      ((state.setBucket thread.place (bucket.cover request.value request.cover)).write
        request).setThread id (some { thread with pc := .returning })
    else
      state.setThread id (some { thread with pc := .returning })
  | .loadChild =>
    state.setThread id (some { thread with
      pc := if bucket.child then .followChild else .casChild })
  | .casChild =>
    (state.setBucket thread.place bucket.setChild).setThread id
      (some { thread with pc := .followChild })
  | .followChild =>
    state.setThread id (some { thread with
      place := geometry.extSlot thread.tempHash :: thread.place
      tempHash := geometry.nextHash thread.tempHash
      pc := .loadInusing })
  | .setAlt =>
    let position := geometry.level0Pos origHash
    let alt := state.memory.bucketAlt position
    let stored := state.setAlt position (alt.setNode request.key request.value request.cover)
    (if alt.keeps request.key request.cover then stored else stored.write request).setThread id
      (some { thread with pc := .returning })
  | .returning =>
    { state with completed := ⟨request, state.clock⟩ :: state.completed }.setThread id none

def step (state : State Key1 Key2 Value) : Action Key1 Key2 Value → Option (State Key1 Key2 Value)
  | .call id key1 key2 value cover =>
    match state.threads id with
    | some _ => none
    | none =>
      let origHash := geometry.hash key1 key2
      some (state.setThread id (some {
        request := { key := (key1, key2), value, cover, start := state.clock }
        place := [geometry.level0Pos origHash]
        tempHash := geometry.firstHash origHash
        curDeep := 0
        pc := .loadInusing }))
  | .step id => (state.threads id).map (stepThread geometry state id)

/-- A comparison with a bucket that another thread has claimed and not set yet
gives the answer it would give once the bucket is set. -/
def SoundComparison (state : State Key1 Key2 Value) : Action Key1 Key2 Value → Prop
  | .call .. => True
  | .step id =>
    ∀ thread ∈ state.threads id, ∀ claimant ∈ state.setting thread.place,
      (thread.pc = .compareHash → claimant = thread.request.key →
        geometry.keyHash thread.request.key = (state.memory.bucket thread.place).hashCode) ∧
      (thread.pc = .compareKeys → (claimant = thread.request.key ↔
        (state.memory.bucket thread.place).keys = thread.request.key))

instance soundComparisonDecidable (state : State Key1 Key2 Value) :
    ∀ action, Decidable (SoundComparison geometry state action)
  | .call .. => inferInstanceAs (Decidable True)
  | .step id => inferInstanceAs (Decidable (∀ thread ∈ state.threads id,
      ∀ claimant ∈ state.setting thread.place, _ ∧ _))

end Steps

inductive Place where
  | bucket (place : Address)
  | overflow (position : Nat)

def Memory.StoresAt (memory : Memory Key1 Key2 Value) (key : Key1 × Key2) : Place → Prop
  | .bucket place => (memory.bucket place).inusing = true ∧ (memory.bucket place).keys = key
  | .overflow position => (memory.bucketAlt position).find key ≠ none

/-- One map: every key of a finished call has one place, `Find` of it succeeds, and
unless some call for the key had a callback the value found is one of a call that no
call for the key follows. -/
def OneMap [DecidableEq Key1] [DecidableEq Key2] (geometry : Geometry Key1 Key2)
    (state : State Key1 Key2 Value) : Prop :=
  ∀ call ∈ state.completed,
    (∃! place, state.memory.StoresAt call.request.key place) ∧
    ∃ value, (∃ enough, ∀ fuel ≥ enough,
      find geometry fuel call.request.key.1 call.request.key.2 state.memory =
        some (.kSuccess, some value)) ∧
      ((∀ other ∈ state.completed, other.request.key = call.request.key →
          other.request.cover = none) →
        ∃ last ∈ state.completed, last.request.key = call.request.key ∧
          last.request.value = value ∧
          ∀ other ∈ state.completed, other.request.key = call.request.key →
            ¬last.finish < other.request.start)

section Invariant

variable {geometry : Geometry Key1 Key2} {state after : State Key1 Key2 Value}
variable {thread : Thread Key1 Key2 Value}

def Thread.Setting (thread : Thread Key1 Key2 Value) : Prop :=
  thread.pc = .setHash ∨ thread.pc = .setKeys

/-- The thread stands before the bucket of a depth that its walk has reached. -/
structure Looking (geometry : Geometry Key1 Key2) (state : State Key1 Key2 Value)
    (thread : Thread Key1 Key2 Value) (depth : Nat) : Prop where
  place : thread.place = geometry.probing.probe thread.request.key depth
  hash : thread.tempHash = geometry.tempHash (geometry.keyHash thread.request.key) depth
  reached : WellFormed.Reached geometry state.claims state.memory thread.request.key depth
  within : geometry.Within depth
  curDeep : thread.curDeep = UInt16.ofNat depth

/-- The thread has found the bucket of a depth taken and goes one level down. -/
structure Descending (geometry : Geometry Key1 Key2) (state : State Key1 Key2 Value)
    (thread : Thread Key1 Key2 Value) (depth : Nat) : Prop where
  place : thread.place = geometry.probing.probe thread.request.key depth
  hash : thread.tempHash = geometry.tempHash (geometry.keyHash thread.request.key) depth
  passed : geometry.probing.Passed state.claims thread.request.key (depth + 1)
  within : geometry.Within (depth + 1)
  curDeep : thread.curDeep = UInt16.ofNat (depth + 1)

/-- The key of the request has a place, and a request without callback has stored its
value. -/
structure Done (state : State Key1 Key2 Value) (request : Request Key1 Key2 Value) : Prop where
  placed : (∃ place, state.claims place = some request.key) ∨
    ∃ position, (state.memory.bucketAlt position).find request.key ≠ none
  written : request.cover = none →
    ∃ write, state.lastWrite request.key = some write ∧ request.start ≤ write.time

def PcValid (geometry : Geometry Key1 Key2) (state : State Key1 Key2 Value)
    (thread : Thread Key1 Key2 Value) : Prop :=
  match thread.pc with
  | .loadInusing | .casInusing => ∃ depth, Looking geometry state thread depth
  | .compareHash | .compareKeys =>
    (∃ depth, Looking geometry state thread depth) ∧ ∃ owner, state.claims thread.place = some owner
  | .setHash => state.setting thread.place = some thread.request.key
  | .setKeys =>
    state.setting thread.place = some thread.request.key ∧
      (state.memory.bucket thread.place).hashCode = geometry.keyHash thread.request.key
  | .loadChild | .casChild => ∃ depth, Descending geometry state thread depth
  | .followChild =>
    (∃ depth, Descending geometry state thread depth) ∧
      (state.memory.bucket thread.place).child = true
  | .setAlt =>
    geometry.deepLimit ≠ 65535 ∧
      geometry.probing.Passed state.claims thread.request.key (geometry.deepLimit.toNat + 1)
  | .returning => Done state thread.request

/-- A stored value comes from a call that is running or that finished after it. -/
def Origin (state : State Key1 Key2 Value) (write : Write Key1 Key2 Value) : Prop :=
  (∃ id thread, state.threads id = some thread ∧ thread.request = write.request) ∨
    ∃ call ∈ state.completed, call.request = write.request ∧ write.time ≤ call.finish

structure Valid (geometry : Geometry Key1 Key2) (state : State Key1 Key2 Value) : Prop where
  formed : WellFormed geometry state.claims state.memory
  threads : ∀ id thread, state.threads id = some thread →
    thread.request.start ≤ state.clock ∧ PcValid geometry state thread
  setter : ∀ place key, state.setting place = some key → state.claims place = some key ∧
    ∃ id thread, state.threads id = some thread ∧ thread.Setting ∧ thread.place = place
  setter_unique : ∀ id other thread peer, state.threads id = some thread →
    state.threads other = some peer → thread.Setting → peer.Setting →
    thread.place = peer.place → id = other
  contents : ∀ place key, state.claims place = some key → state.setting place = none →
    (state.memory.bucket place).hashCode = geometry.keyHash key ∧
    (state.memory.bucket place).keys = key ∧
    ∃ write, state.lastWrite key = some write ∧
      (state.memory.bucket place).value = write.request.value
  overflow : ∀ position key value, (state.memory.bucketAlt position).find key = some value →
    ∃ write, state.lastWrite key = some write ∧ value = write.request.value
  writes : ∀ key write, state.lastWrite key = some write →
    write.request.key = key ∧ write.time ≤ state.clock ∧ Origin state write
  completed : ∀ call ∈ state.completed, Done state call.request

theorem valid_initial (config : Config Key1 Key2 Value) :
    Valid config.geometry (initialState config) where
  formed := wellFormed_create config
  threads := by
    nofun
  setter := by
    nofun
  setter_unique := by
    nofun
  contents := by
    nofun
  overflow := by
    nofun
  writes := by
    nofun
  completed := by
    nofun

/-- What every step leaves in place: claims, child arrays, overflow entries and the
fact that a key has been written. -/
structure Grows (state after : State Key1 Key2 Value) : Prop where
  claims : Lib.Probing.Extends state.claims after.claims
  child : ∀ place, (state.memory.bucket place).child = true →
    (after.memory.bucket place).child = true
  overflow : ∀ position key, (state.memory.bucketAlt position).find key ≠ none →
    (after.memory.bucketAlt position).find key ≠ none
  writes : ∀ key write, state.lastWrite key = some write →
    ∃ later, after.lastWrite key = some later ∧ write.time ≤ later.time

theorem Looking.grow {depth : Nat} (looking : Looking geometry state thread depth)
    (grows : Grows state after) : Looking geometry after thread depth where
  __ := looking
  reached := by
    refine ⟨looking.reached.passed.extend grows.claims, fun before here => ?_⟩
    exact grows.child _ (looking.reached.linked before here)

theorem Descending.grow {depth : Nat} (descending : Descending geometry state thread depth)
    (grows : Grows state after) : Descending geometry after thread depth where
  __ := descending
  passed := descending.passed.extend grows.claims

theorem Done.grow {request : Request Key1 Key2 Value} (done : Done state request)
    (grows : Grows state after) : Done after request where
  placed := by
    cases done.placed with
    | inl claimed =>
      obtain ⟨place, taken⟩ := claimed
      exact .inl ⟨place, grows.claims _ _ taken⟩
    | inr overflowed =>
      obtain ⟨index, held⟩ := overflowed
      exact .inr ⟨index, grows.overflow _ _ held⟩
  written := by
    intro uncovered
    obtain ⟨write, stored, before⟩ := done.written uncovered
    obtain ⟨later, last, order⟩ := grows.writes _ _ stored
    exact ⟨later, last, before.trans order⟩

theorem PcValid.grow (ok : PcValid geometry state thread) (grows : Grows state after)
    (undisturbed : thread.Setting → after.setting thread.place = state.setting thread.place ∧
      (after.memory.bucket thread.place).hashCode = (state.memory.bucket thread.place).hashCode) :
    PcValid geometry after thread := by
  unfold PcValid at *
  split at ok
  case h_1 | h_2 =>
      obtain ⟨depth, looking⟩ := ok
      exact ⟨depth, looking.grow grows⟩
  case h_3 | h_4 =>
      obtain ⟨⟨depth, looking⟩, owner, taken⟩ := ok
      exact ⟨⟨depth, looking.grow grows⟩, owner, grows.claims _ _ taken⟩
  case h_5 here => rw [(undisturbed (.inl here)).1]; exact ok
  case h_6 here =>
      obtain ⟨pending, code⟩ := undisturbed (.inr here)
      rw [pending, code]
      exact ok
  case h_7 | h_8 =>
      obtain ⟨depth, descending⟩ := ok
      exact ⟨depth, descending.grow grows⟩
  case h_9 =>
      obtain ⟨⟨depth, descending⟩, linked⟩ := ok
      exact ⟨⟨depth, descending.grow grows⟩, grows.child _ linked⟩
  case h_10 => exact ⟨ok.1, ok.2.extend grows.claims⟩
  case h_11 => exact Done.grow ok grows

end Invariant

end AdkAaf.Adk.HashMap
