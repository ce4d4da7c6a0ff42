import AdkAaf.Adk.HashMap.Concurrent

/-! Inserts whose comparisons with unfinished buckets are sound build one map: the
invariant of `Concurrent` is kept by every step, one lemma for each kind of step. -/

set_option autoImplicit false

namespace AdkAaf.Adk.HashMap

open Function Lib Option List

variable {Key1 Key2 Value : Type}
variable {geometry : Geometry Key1 Key2} {state : State Key1 Key2 Value}
variable {thread : Thread Key1 Key2 Value} {id : Nat} {place : Address}

theorem State.threads_setThread (state : State Key1 Key2 Value) (id other : Nat)
    (new : Option (Thread Key1 Key2 Value)) : (state.setThread id new).threads other =
      if other = id then new else state.threads other :=
  update_apply _ _ _ _

theorem State.setting_setSetting (state : State Key1 Key2 Value) (place other : Address)
    (key : Option (Key1 × Key2)) : (state.setSetting place key).setting other =
      if other = place then key else state.setting other :=
  update_apply _ _ _ _

theorem State.setAlt_self (state : State Key1 Key2 Value) (index : Nat) :
    state.setAlt index (state.memory.bucketAlt index) = state := by
  simp [State.setAlt, Memory.setAlt, update_eq_self]

theorem State.lastWrite_write [DecidableEq Key1] [DecidableEq Key2]
    (state : State Key1 Key2 Value) (request : Request Key1 Key2 Value) (key : Key1 × Key2) :
    (state.write request).lastWrite key =
      if key = request.key then some ⟨request, state.clock⟩ else state.lastWrite key :=
  update_apply _ _ _ _

theorem Done.write [DecidableEq Key1] [DecidableEq Key2] {request : Request Key1 Key2 Value}
    (placed : (∃ place, state.claims place = some request.key) ∨
      ∃ index, (state.memory.bucketAlt index).find request.key ≠ none)
    (started : request.start ≤ state.clock) : Done (state.write request) request where
  placed := placed
  written := fun _ =>
    ⟨⟨request, state.clock⟩, (state.lastWrite_write _ _).trans (if_pos rfl), started⟩

theorem Bucket.cover_of_covers {bucket : Bucket Key1 Key2 Value} {value : Value}
    {cover : CallBack Value} (accepted : covers cover bucket.value = true) :
    bucket.cover value cover = { bucket with value := value } :=
  if_pos accepted

theorem Grows.setThread (state : State Key1 Key2 Value) (id : Nat)
    (new : Option (Thread Key1 Key2 Value)) : Grows state (state.setThread id new) where
  claims := fun _ _ taken => taken
  child := fun _ linked => linked
  overflow := fun _ _ held => held
  writes := fun _ write stored => ⟨write, stored, .refl⟩

variable {next : Thread Key1 Key2 Value}

theorem Origin.setThread {write : Write Key1 Key2 Value} (origin : Origin state write)
    (source : ∀ old, state.threads id = some old → old.request = next.request) :
    Origin (state.setThread id (some next)) write := by
  cases origin with
  | inr finished => exact .inr finished
  | inl running =>
    obtain ⟨other, peer, active, request⟩ := running
    by_cases self : other = id
    · refine .inl ⟨id, next, ?_, ?_⟩
      · rw [State.threads_setThread, if_pos rfl]
      · rw [← request]
        exact (source peer (self ▸ active)).symm
    · refine .inl ⟨other, peer, ?_, request⟩
      rw [State.threads_setThread, if_neg self, active]

theorem Origin.stepThread (active : state.threads id = some thread) {write : Write Key1 Key2 Value}
    (origin : Origin state write) (same : thread.request = next.request) :
    Origin (state.setThread id (some next)) write := by
  apply origin.setThread
  intro peer running
  cases active.symm.trans running
  exact same

namespace Valid

/-- What a step of one thread has to keep so that the others find the map as before. -/
theorem advance (valid : Valid geometry state) {middle : State Key1 Key2 Value}
    {next : Option (Thread Key1 Key2 Value)} (grows : Grows state (middle.setThread id next))
    (kept : middle.threads = state.threads ∧ middle.clock = state.clock)
    (formed : WellFormed geometry middle.claims middle.memory)
    (own : ∀ after, next = some after → after.request.start ≤ state.clock ∧
      PcValid geometry (middle.setThread id next) after)
    (apart : ∀ other peer, other ≠ id → state.threads other = some peer → peer.Setting →
      (middle.setting peer.place = state.setting peer.place ∧
        (middle.memory.bucket peer.place).hashCode = (state.memory.bucket peer.place).hashCode) ∧
      ∀ after, next = some after → after.Setting → peer.place ≠ after.place)
    (setter : ∀ place key, middle.setting place = some key → (middle.claims place = some key ∧
        ∃ after, next = some after ∧ after.Setting ∧ after.place = place) ∨
      state.setting place = some key ∧
        ∀ old, state.threads id = some old → old.Setting → old.place ≠ place)
    (contents : ∀ place key, middle.claims place = some key → middle.setting place = none →
      (middle.memory.bucket place).hashCode = geometry.keyHash key ∧
      (middle.memory.bucket place).keys = key ∧ ∃ write, middle.lastWrite key = some write ∧
        (middle.memory.bucket place).value = write.request.value)
    (overflow : ∀ index key val, (middle.memory.bucketAlt index).find key = some val →
        ∃ write, middle.lastWrite key = some write ∧ val = write.request.value)
    (writes : ∀ key write, middle.lastWrite key = some write →
      write.request.key = key ∧ write.time ≤ state.clock ∧ Origin state write)
    (origin : ∀ write, write.time ≤ state.clock → Origin state write →
      Origin (middle.setThread id next) write)
    (completed : ∀ call ∈ middle.completed, Done state call.request) :
    Valid geometry (middle.setThread id next) where
  formed := formed
  threads := by
    intro other peer active
    rw [State.threads_setThread, kept.1] at active
    change peer.request.start ≤ middle.clock + 1 ∧ _
    rw [kept.2]
    split at active
    next =>
      obtain ⟨started, pcValid⟩ := own peer active
      exact ⟨Nat.le_succ_of_le started, pcValid⟩
    next different =>
      obtain ⟨before, peerValid⟩ := valid.threads other peer active
      exact ⟨Nat.le_succ_of_le before, peerValid.grow grows fun setting =>
        (apart other peer different active setting).1⟩
  setter := by
    intro place key pending
    rcases setter place key pending with ⟨taken, after, rfl, setting, here⟩ | ⟨before, elsewhere⟩
    · exact ⟨taken, id, after, by rw [State.threads_setThread, if_pos rfl], setting, here⟩
    · obtain ⟨taken, other, peer, active, setting, here⟩ := valid.setter place key before
      refine ⟨grows.claims _ _ taken, other, peer, ?_, setting, here⟩
      rw [State.threads_setThread, if_neg, kept.1]
      · exact active
      · rintro rfl
        exact elsewhere peer active setting here
  setter_unique := by
    intro first second one two firstActive secondActive firstSetting secondSetting same
    rw [State.threads_setThread, kept.1] at firstActive secondActive
    split at firstActive <;> split at secondActive
    next firstSelf secondSelf => exact firstSelf.trans secondSelf.symm
    next _ different =>
      exact absurd same.symm ((apart second two different secondActive secondSetting).2 one
        firstActive firstSetting)
    next different _ =>
      exact absurd same ((apart first one different firstActive firstSetting).2 two secondActive
        secondSetting)
    next =>
      exact valid.setter_unique _ _ one two firstActive secondActive firstSetting secondSetting same
  contents := contents
  overflow := overflow
  writes := by
    intro key write stored
    obtain ⟨same, before, from_⟩ := writes key write stored
    exact ⟨same, Nat.le_succ_of_le (kept.2 ▸ before), origin write before from_⟩
  completed := by
    intro call finished
    exact (completed call finished).grow grows

theorem move (valid : Valid geometry state) (source : ∀ old, state.threads id = some old →
      ¬old.Setting ∧ old.request = next.request) (started : next.request.start ≤ state.clock)
    (unset : ¬next.Setting) (pcValid : PcValid geometry state next) :
    Valid geometry (state.setThread id (some next)) := by
  refine valid.advance (.setThread _ _ _) ⟨rfl, rfl⟩ valid.formed ?_ ?_ ?_ valid.contents
    valid.overflow valid.writes ?_ valid.completed
  · rintro _ ⟨⟩
    exact ⟨started, pcValid.grow (.setThread _ _ _) fun setting => absurd setting unset⟩
  · refine fun other peer _ _ _ => ⟨⟨rfl, rfl⟩, ?_⟩
    rintro _ ⟨⟩ setting
    exact absurd setting unset
  · exact fun place key pending =>
      .inr ⟨pending, fun old active setting => absurd setting (source old active).1⟩
  · exact fun write _ origin => origin.setThread fun old active => (source old active).2

theorem link (valid : Valid geometry state) (used : (state.memory.bucket place).inusing = true)
    (within : geometry.deepLimit ≠ 65535 → place.length ≤ geometry.deepLimit.toNat) :
    Valid geometry (state.setBucket place (state.memory.bucket place).setChild) := by
  have kept : ∀ other, ((state.memory.setBucket place
        (state.memory.bucket place).setChild).bucket other).hashCode =
        (state.memory.bucket other).hashCode ∧
      ((state.memory.setBucket place (state.memory.bucket place).setChild).bucket other).keys =
        (state.memory.bucket other).keys ∧
      ((state.memory.setBucket place (state.memory.bucket place).setChild).bucket other).value =
        (state.memory.bucket other).value := by
    intro other
    rw [Memory.setBucket_bucket]
    split
    next here => exact here ▸ ⟨rfl, rfl, rfl⟩
    next => exact ⟨rfl, rfl, rfl⟩
  have grows : Grows state (state.setBucket place (state.memory.bucket place).setChild) := by
    constructor
    · exact fun _ _ => id
    · intro other linked
      simp only [State.setBucket]
      rw [Memory.setBucket_bucket]
      split
      next => rfl
      next => exact linked
    · exact fun _ _ => id
    · exact fun _ write stored => ⟨write, stored, .refl⟩
  constructor
  · exact valid.formed.link used within
  · intro other peer active
    obtain ⟨before, peerValid⟩ := valid.threads other peer active
    exact ⟨before, peerValid.grow grows fun _ => ⟨rfl, (kept _).1⟩⟩
  · exact valid.setter
  · exact valid.setter_unique
  · intro other key taken unset
    simp only [State.setBucket]
    rw [(kept other).1, (kept other).2.1, (kept other).2.2]
    exact valid.contents other key taken unset
  · exact valid.overflow
  · exact valid.writes
  · intro call finished
    exact (valid.completed call finished).grow grows

variable {key : Key1 × Key2}

theorem apart (valid : Valid geometry state) {other : Key1 × Key2} {index : Nat} {val : Value}
    (taken : state.claims place = some key)
    (found : (state.memory.bucketAlt index).find other = some val) : other ≠ key := by
  rintro rfl
  exact valid.formed.not_claimed_of_overflow found taken

section Stores

variable [DecidableEq Key1] [DecidableEq Key2]

section

variable (valid : Valid geometry state)
include valid

theorem grows_write (request : Request Key1 Key2 Value) {write : Write Key1 Key2 Value}
    (stored : state.lastWrite key = some write) :
    ∃ later, (state.write request).lastWrite key = some later ∧ write.time ≤ later.time := by
  rw [State.lastWrite_write]
  split
  next => exact ⟨_, rfl, (valid.writes key write stored).2.1⟩
  next => exact ⟨write, stored, .refl⟩

section

variable (active : state.threads id = some thread)
include active

theorem writes_write {write : Write Key1 Key2 Value}
    (stored : (state.write thread.request).lastWrite key = some write) :
    write.request.key = key ∧ write.time ≤ state.clock ∧ Origin state write := by
  rw [State.lastWrite_write] at stored
  split at stored
  next same =>
    cases stored
    exact ⟨same.symm, .refl, .inl ⟨id, thread, active, rfl⟩⟩
  next => exact valid.writes key write stored

theorem cover (taken : state.claims place = some thread.request.key)
    (accepted : covers thread.request.cover (state.memory.bucket place).value = true) :
    Valid geometry ((state.setBucket place ((state.memory.bucket place).cover
      thread.request.value thread.request.cover)).write thread.request) := by
  rw [Bucket.cover_of_covers accepted]
  have grows : Grows state ((state.setBucket place { state.memory.bucket place with
      value := thread.request.value }).write thread.request) := by
    constructor
    · exact fun _ _ claimed => claimed
    · intro other linked
      simp only [State.write, State.setBucket]
      rw [Memory.setBucket_bucket]
      split
      next here => exact here ▸ linked
      next => exact linked
    · exact fun _ _ held => held
    · exact fun _ _ stored => valid.grows_write thread.request stored
  constructor
  · exact valid.formed.setContents rfl rfl
  · intro other peer running
    obtain ⟨before, peerValid⟩ := valid.threads other peer running
    refine ⟨before, peerValid.grow grows fun _ => ⟨rfl, ?_⟩⟩
    simp only [State.write, State.setBucket]
    rw [Memory.setBucket_bucket]
    split
    next here => rw [here]
    next => rfl
  · exact valid.setter
  · exact valid.setter_unique
  · intro other key claimed unset
    obtain ⟨code, keys, write, stored, value⟩ := valid.contents other key claimed unset
    rw [State.lastWrite_write]
    simp only [State.write, State.setBucket]
    rw [Memory.setBucket_bucket]
    split
    next here =>
      have same : key = thread.request.key := some.inj (claimed.symm.trans (here ▸ taken))
      rw [if_pos same]
      exact ⟨here ▸ code, here ▸ keys, _, rfl, rfl⟩
    next elsewhere =>
      have apart : key ≠ thread.request.key := by
        rintro rfl
        exact elsewhere (valid.formed.settled.unique claimed taken)
      rw [if_neg apart]
      exact ⟨code, keys, write, stored, value⟩
  · intro index key value found
    rw [State.lastWrite_write, if_neg (valid.apart taken found)]
    exact valid.overflow index key value found
  · exact fun _ _ stored => valid.writes_write active stored
  · intro call finished
    exact (valid.completed call finished).grow grows

theorem storeOverflow (proper : geometry.deepLimit ≠ 65535)
    (passed : geometry.probing.Passed state.claims thread.request.key
      (geometry.deepLimit.toNat + 1)) {index : Nat}
    (home : index = geometry.level0Pos (geometry.keyHash thread.request.key))
    (replaced : (state.memory.bucketAlt index).keeps thread.request.key
      thread.request.cover = false) :
    Valid geometry ((state.setAlt index ((state.memory.bucketAlt index).setNode
      thread.request.key thread.request.value thread.request.cover)).write thread.request) := by
  have entry : ∀ other key, ((state.memory.setAlt index
      ((state.memory.bucketAlt index).setNode thread.request.key thread.request.value
        thread.request.cover)).bucketAlt other).find key =
      if other = index ∧ key = thread.request.key then some thread.request.value
      else (state.memory.bucketAlt other).find key := by
    intro other key
    rw [Memory.setAlt_bucketAlt]
    by_cases here : other = index
    · rw [if_pos here, AltBucket.find_setNode, AltBucket.inserted_of_keeps_eq_false _ replaced]
      simp [here, true_and]
    · rw [if_neg here, if_neg fun both => here both.1]
  have absent : ∀ other, state.claims other ≠ some thread.request.key := by
    intro other taken
    obtain ⟨further, rfl, _⟩ := valid.formed.settled other _ taken
    have inside := valid.formed.depth_le proper (valid.formed.inusing_of_claim taken)
    have past := passed.lt_of_claim taken
    omega
  have grows : Grows state ((state.setAlt index ((state.memory.bucketAlt index).setNode
      thread.request.key thread.request.value thread.request.cover)).write thread.request) := by
    constructor
    · exact fun _ _ claimed => claimed
    · exact fun _ linked => linked
    · intro other key held
      simp only [State.write, State.setAlt]
      rw [entry]
      split
      next => exact some_ne_none _
      next => exact held
    · exact fun _ _ stored => valid.grows_write thread.request stored
  constructor
  · subst home
    exact valid.formed.setOverflow proper passed _ _
  · intro other peer running
    obtain ⟨before, peerValid⟩ := valid.threads other peer running
    exact ⟨before, peerValid.grow grows fun _ => ⟨rfl, rfl⟩⟩
  · exact valid.setter
  · exact valid.setter_unique
  · intro other key claimed unset
    have apart : key ≠ thread.request.key := fun same => absent other (same ▸ claimed)
    rw [State.lastWrite_write, if_neg apart]
    exact valid.contents other key claimed unset
  · intro other key value found
    rw [State.lastWrite_write]
    simp only [State.write, State.setAlt] at found
    rw [entry] at found
    split at found
    next here =>
      cases found
      exact ⟨_, if_pos here.2, rfl⟩
    next elsewhere =>
      -- the key of the request sits in the overflow map of its own root slot only
      have apart : key ≠ thread.request.key := by
        rintro rfl
        exact elsewhere ⟨(valid.formed.overflow _ _ _ found).1.trans home.symm, rfl⟩
      rw [if_neg apart]
      exact valid.overflow other key value found
  · exact fun _ _ stored => valid.writes_write active stored
  · intro call finished
    exact (valid.completed call finished).grow grows

end

end

end Stores

variable {depth : Nat} {owner : Key1 × Key2}

theorem mismatch_request (geometry : Geometry Key1 Key2) (thread : Thread Key1 Key2 Value) :
    (thread.mismatch geometry).request = thread.request ∧ ¬(thread.mismatch geometry).Setting := by
  unfold Thread.mismatch
  split <;> exact ⟨rfl, by simp [Thread.Setting]⟩

theorem mismatch_pcValid (looking : Looking geometry state thread depth)
    (taken : state.claims thread.place = some owner) (apart : owner ≠ thread.request.key) :
    PcValid geometry state (thread.mismatch geometry) := by
  have passed := looking.reached.passed.succ (looking.place ▸ taken) apart
  have counted : thread.curDeep + 1 = UInt16.ofNat (depth + 1) := by
    rw [looking.curDeep, UInt16.ofNat_add, UInt16.ofNat_one]
  have exceeds_iff := looking.within.exceeds_iff
  rw [← looking.curDeep] at exceeds_iff
  unfold Thread.mismatch
  split
  next exceeds =>
    obtain ⟨proper, limit⟩ := exceeds_iff.mp exceeds
    exact ⟨proper, limit ▸ passed⟩
  next inside =>
    have within : geometry.Within (depth + 1) := by
      intro proper
      apply Nat.lt_of_le_of_ne (looking.within proper)
      intro limit
      exact inside (exceeds_iff.mpr ⟨proper, limit⟩)
    exact ⟨depth, looking.place, looking.hash, passed, within, counted⟩

section Active

variable (valid : Valid geometry state) (active : state.threads id = some thread)

include valid active

theorem setting_apart (setting : thread.Setting) {other : Nat}
    {peer : Thread Key1 Key2 Value} (running : state.threads other = some peer)
    (peerSetting : peer.Setting) (apart : other ≠ id) : peer.place ≠ thread.place := by
  intro same
  exact apart (valid.setter_unique _ _ _ _ running active peerSetting setting same)

theorem setting_of_thread (setting : thread.Setting) :
    state.setting thread.place = some thread.request.key := by
  have pcValid := (valid.threads id thread active).2
  unfold PcValid at pcValid
  cases setting with
  | inl here =>
    rw [here] at pcValid
    exact pcValid
  | inr here =>
    rw [here] at pcValid
    exact pcValid.1

theorem claim (unset : ¬thread.Setting) (looking : Looking geometry state thread depth)
    (free : (state.memory.bucket thread.place).inusing = false) :
    Valid geometry ({ (state.setBucket thread.place
        (state.memory.bucket thread.place).setInusing).setSetting thread.place
          (some thread.request.key) with
      claims := update state.claims thread.place
        (some thread.request.key) }.setThread id (some { thread with pc := .setHash })) := by
  have unclaimed := (valid.formed.free_iff _).mp free
  have claims : update state.claims thread.place (some thread.request.key) =
      geometry.probing.claim state.claims thread.request.key depth := by
    rw [looking.place]
    rfl
  have extends_claims : Probing.Extends state.claims
      (update state.claims thread.place (some thread.request.key)) := by
    rw [claims]
    exact Probing.extends_claim (looking.place ▸ unclaimed)
  have elsewhere : ∀ other peer, state.threads other = some peer → peer.Setting →
      peer.place ≠ thread.place := by
    intro other peer running setting same
    have taken := (valid.setter _ _ (valid.setting_of_thread running setting)).1
    rw [same, unclaimed] at taken
    cases taken
  have kept : ∀ other, ((state.memory.setBucket thread.place
        (state.memory.bucket thread.place).setInusing).bucket other).hashCode =
        (state.memory.bucket other).hashCode ∧
      ((state.memory.setBucket thread.place
        (state.memory.bucket thread.place).setInusing).bucket other).child =
        (state.memory.bucket other).child := by
    intro other
    rw [Memory.setBucket_bucket]
    split
    next here => exact here ▸ ⟨rfl, rfl⟩
    next => exact ⟨rfl, rfl⟩
  refine valid.advance ⟨extends_claims, fun other linked => (kept other).2.trans linked,
      fun _ _ held => held, fun _ write stored => ⟨write, stored, Nat.le_refl _⟩⟩
    ⟨rfl, rfl⟩ ?_ ?_ ?_ ?_ ?_ valid.overflow valid.writes
    (fun _ _ origin => origin.stepThread active rfl) valid.completed
  · have formed := valid.formed.claim looking.reached (looking.place ▸ free)
    rw [← claims, ← looking.place] at formed
    exact formed
  · rintro _ ⟨⟩
    exact ⟨(valid.threads id thread active).1, update_self _ _ _⟩
  · intro other peer different running setting
    have apart := elsewhere other peer running setting
    refine ⟨⟨update_of_ne apart _ _, (kept _).1⟩, ?_⟩
    rintro _ ⟨⟩ -
    exact apart
  · intro place key pending
    by_cases here : place = thread.place
    · subst here
      have self : thread.request.key = key := some.inj
        ((update_self _ _ state.setting).symm.trans pending)
      exact .inl ⟨(update_self _ _ state.claims).trans (congrArg some self), _, rfl, .inl rfl, rfl⟩
    · refine .inr ⟨(update_of_ne here _ state.setting).symm.trans pending, ?_⟩
      intro peer running setting
      cases active.symm.trans running
      exact absurd setting unset
  · intro place key taken settled
    have apart : place ≠ thread.place := by
      rintro rfl
      exact absurd ((update_self _ _ state.setting).symm.trans settled) (some_ne_none _)
    have claimed : state.claims place = some key :=
      (update_of_ne apart _ state.claims).symm.trans taken
    have unpending : state.setting place = none :=
      (update_of_ne apart _ state.setting).symm.trans settled
    have bucket := state.memory.setBucket_bucket thread.place place
      (state.memory.bucket thread.place).setInusing
    rw [if_neg apart] at bucket
    simp only [State.setSetting, State.setBucket]
    rw [bucket]
    exact valid.contents place key claimed unpending

theorem storeHash (here : thread.pc = .setHash) :
    Valid geometry ((state.setBucket thread.place ((state.memory.bucket thread.place).setHash
      (geometry.keyHash thread.request.key))).setThread id
        (some { thread with pc := .setKeys })) := by
  have setting : thread.Setting := .inl here
  have pending := valid.setting_of_thread active setting
  have bucket := fun other => state.memory.setBucket_bucket thread.place other
    ((state.memory.bucket thread.place).setHash (geometry.keyHash thread.request.key))
  refine valid.advance ⟨fun _ _ taken => taken, ?_, fun _ _ held => held,
      fun _ write stored => ⟨write, stored, Nat.le_refl _⟩⟩
    ⟨rfl, rfl⟩ (valid.formed.setContents rfl rfl) ?_ ?_ ?_ ?_ valid.overflow valid.writes
    (fun _ _ origin => origin.stepThread active rfl) valid.completed
  · intro other linked
    simp only [State.setThread, State.setBucket]
    rw [bucket]
    split
    next at_place => exact at_place ▸ linked
    next => exact linked
  · rintro _ ⟨⟩
    refine ⟨(valid.threads id thread active).1, pending, ?_⟩
    simp only [State.setThread, State.setBucket]
    rw [bucket, if_pos rfl]
    rfl
  · intro other peer different running peerSetting
    have apart := valid.setting_apart active setting running peerSetting different
    refine ⟨⟨rfl, ?_⟩, ?_⟩
    · simp only [State.setBucket]
      rw [bucket, if_neg apart]
    · rintro _ ⟨⟩ -
      exact apart
  · intro place key wanted
    by_cases own : place = thread.place
    · subst own
      exact .inl ⟨(valid.setter _ _ wanted).1, _, rfl, .inr rfl, rfl⟩
    · refine .inr ⟨wanted, ?_⟩
      rintro peer running -
      cases active.symm.trans running
      exact Ne.symm own
  · intro place key taken settled
    have apart : place ≠ thread.place := by
      rintro rfl
      exact absurd (pending.symm.trans settled) (some_ne_none _)
    simp only [State.setBucket]
    rw [bucket, if_neg apart]
    exact valid.contents place key taken settled

theorem storeKeys [DecidableEq Key1] [DecidableEq Key2] (here : thread.pc = .setKeys) :
    Valid geometry ((((state.setBucket thread.place ((state.memory.bucket thread.place).setKeys
      thread.request.key thread.request.value)).setSetting thread.place none).write
        thread.request).setThread id (some { thread with pc := .returning })) := by
  have setting : thread.Setting := .inr here
  have pending := valid.setting_of_thread active setting
  have owned := (valid.setter _ _ pending).1
  have code : (state.memory.bucket thread.place).hashCode =
      geometry.keyHash thread.request.key := by
    have pcValid := (valid.threads id thread active).2
    unfold PcValid at pcValid
    rw [here] at pcValid
    exact pcValid.2
  have bucket := fun other => state.memory.setBucket_bucket thread.place other
    ((state.memory.bucket thread.place).setKeys thread.request.key thread.request.value)
  have settings := fun other => state.setting_setSetting thread.place other none
  have last := state.lastWrite_write thread.request
  refine valid.advance ⟨fun _ _ taken => taken, ?_, fun _ _ held => held,
      fun _ _ stored => valid.grows_write thread.request stored⟩
    ⟨rfl, rfl⟩ (valid.formed.setContents rfl rfl) ?_ ?_ ?_ ?_ ?_
    (fun _ _ stored => valid.writes_write active stored)
    (fun _ _ origin => origin.stepThread active rfl) valid.completed
  · intro other linked
    simp only [State.setThread, State.write, State.setSetting, State.setBucket]
    rw [bucket]
    split
    next at_place => exact at_place ▸ linked
    next => exact linked
  · rintro _ ⟨⟩
    have started := (valid.threads id thread active).1
    have done := Done.write (.inl ⟨thread.place, owned⟩) started
    exact ⟨started, done.placed, done.written⟩
  · intro other peer different running peerSetting
    have apart := valid.setting_apart active setting running peerSetting different
    refine ⟨⟨(settings peer.place).trans (if_neg apart), ?_⟩, ?_⟩
    · simp only [State.write, State.setSetting, State.setBucket]
      rw [bucket, if_neg apart]
    · rintro _ ⟨⟩ -
      exact apart
  · intro place key wanted
    have apart : place ≠ thread.place := by
      rintro rfl
      exact absurd (wanted.symm.trans ((settings thread.place).trans (if_pos rfl))) (some_ne_none _)
    refine .inr ⟨((settings place).trans (if_neg apart)).symm.trans wanted, ?_⟩
    rintro peer running -
    cases active.symm.trans running
    exact apart.symm
  · intro place key taken settled
    simp only [State.write, State.setSetting, State.setBucket] at taken ⊢
    rw [bucket, update_apply]
    split
    next at_place =>
      have same : key = thread.request.key := some.inj (taken.symm.trans (at_place ▸ owned))
      rw [if_pos same]
      subst same
      exact ⟨code, rfl, _, rfl, rfl⟩
    next elsewhere =>
      have different : key ≠ thread.request.key := by
        rintro rfl
        exact elsewhere (valid.formed.settled.unique taken owned)
      rw [if_neg different]
      exact valid.contents place key taken
        (((settings place).trans (if_neg elsewhere)).symm.trans settled)
  · intro index key value found
    have kept := (last key).trans (if_neg (valid.apart owned found))
    obtain ⟨write, stored, same⟩ := valid.overflow index key value found
    exact ⟨write, kept.trans stored, same⟩

theorem finish (here : thread.pc = .returning) :
    Valid geometry ({ state with
      completed := ⟨thread.request, state.clock⟩ :: state.completed }.setThread id none) := by
  have done : Done state thread.request := by
    have pcValid := (valid.threads id thread active).2
    unfold PcValid at pcValid
    rwa [here] at pcValid
  refine valid.advance ⟨fun _ _ taken => taken, fun _ linked => linked, fun _ _ held => held,
      fun _ write stored => ⟨write, stored, Nat.le_refl _⟩⟩
    ⟨rfl, rfl⟩ valid.formed (fun _ impossible => by cases impossible) ?_ ?_ valid.contents
    valid.overflow valid.writes ?_ ?_
  · exact fun _ _ _ _ _ => ⟨⟨rfl, rfl⟩, fun _ impossible => by cases impossible⟩
  · refine fun place key pending => .inr ⟨pending, fun peer running setting => ?_⟩
    cases active.symm.trans running
    cases setting with
    | inl wrong | inr wrong => cases here.symm.trans wrong
  · intro write before origin
    cases origin with
    | inr finished =>
      obtain ⟨call, mem, request, order⟩ := finished
      exact .inr ⟨call, mem_cons_of_mem _ mem, request, order⟩
    | inl running =>
      obtain ⟨other, peer, active', request⟩ := running
      by_cases self : other = id
      · subst self
        cases active.symm.trans active'
        exact .inr ⟨_, mem_cons_self, request, before⟩
      · refine .inl ⟨other, peer, ?_, request⟩
        rw [State.threads_setThread, if_neg self]
        exact active'
  · intro call finished
    cases mem_cons.mp finished with
    | inl this => exact this ▸ done
    | inr before => exact valid.completed call before

theorem compareHash_sound (here : thread.pc = .compareHash)
    (sound : SoundComparison geometry state (.step id))
    (differs : geometry.keyHash thread.request.key ≠ (state.memory.bucket thread.place).hashCode)
    (taken : state.claims thread.place = some owner) : owner ≠ thread.request.key := by
  rintro rfl
  cases pending : state.setting thread.place with
  | none => exact differs (valid.contents _ _ taken pending).1.symm
  | some claimant =>
    have claimed := (valid.setter _ _ pending).1
    exact differs ((sound thread active claimant pending).1 here
      (some.inj (claimed.symm.trans taken)))

theorem compareKeys_sound (here : thread.pc = .compareKeys)
    (sound : SoundComparison geometry state (.step id))
    (taken : state.claims thread.place = some owner) :
    owner = thread.request.key ↔ (state.memory.bucket thread.place).keys = thread.request.key := by
  cases pending : state.setting thread.place with
  | none => rw [(valid.contents _ _ taken pending).2.1]
  | some claimant =>
    have claimed := (valid.setter _ _ pending).1
    have same : claimant = owner := some.inj (claimed.symm.trans taken)
    exact same ▸ (sound thread active claimant pending).2 here

theorem moveThread
    (unset : ¬thread.Setting) (same : next.request = thread.request) (nextUnset : ¬next.Setting)
    (pcValid : PcValid geometry state next) : Valid geometry (state.setThread id (some next)) := by
  apply valid.move _ _ nextUnset pcValid
  · intro peer running
    rw [active] at running
    cases running
    exact ⟨unset, same.symm⟩
  · rw [same]
    exact (valid.threads id thread active).1

variable [DecidableEq Key1] [DecidableEq Key2]

theorem stepThread_valid (sound : SoundComparison geometry state (.step id)) :
    Valid geometry (stepThread geometry state id thread) := by
  have pcValid := (valid.threads id thread active).2
  unfold PcValid at pcValid
  unfold stepThread
  cases here : thread.pc with
  | loadInusing =>
    rw [here] at pcValid
    obtain ⟨depth, looking⟩ := pcValid
    refine valid.moveThread active (by simp [Thread.Setting, here]) rfl ?_ ?_
    · simp only [Thread.Setting]
      split <;> simp
    · cases used : (state.memory.bucket thread.place).inusing with
      | true => exact ⟨⟨depth, looking.place, looking.hash, looking.reached, looking.within,
          looking.curDeep⟩, (valid.formed.inusing_iff _).mp used⟩
      | false => exact ⟨depth, looking.place, looking.hash, looking.reached, looking.within,
          looking.curDeep⟩
  | casInusing =>
    rw [here] at pcValid
    obtain ⟨depth, looking⟩ := pcValid
    have unset : ¬thread.Setting := by simp [Thread.Setting, here]
    dsimp only
    split
    next =>
      refine valid.moveThread active unset rfl (by simp [Thread.Setting]) ?_
      exact ⟨depth, looking.place, looking.hash, looking.reached, looking.within, looking.curDeep⟩
    next free => exact valid.claim active unset looking (Bool.not_eq_true _ ▸ free)
  | setHash => exact valid.storeHash active here
  | setKeys => exact valid.storeKeys active here
  | compareHash =>
    rw [here] at pcValid
    obtain ⟨⟨depth, looking⟩, owner, taken⟩ := pcValid
    have unset : ¬thread.Setting := by simp [Thread.Setting, here]
    dsimp only
    split
    next differs =>
      obtain ⟨same, nextUnset⟩ := mismatch_request geometry thread
      apply valid.moveThread active unset same nextUnset
      exact mismatch_pcValid looking taken (valid.compareHash_sound active here sound differs taken)
    next =>
      refine valid.moveThread active unset rfl (by simp [Thread.Setting]) ?_
      exact ⟨⟨depth, looking.place, looking.hash, looking.reached, looking.within,
        looking.curDeep⟩, owner, taken⟩
  | compareKeys =>
    rw [here] at pcValid
    obtain ⟨⟨depth, looking⟩, owner, taken⟩ := pcValid
    have unset : ¬thread.Setting := by simp [Thread.Setting, here]
    have agrees := valid.compareKeys_sound active here sound taken
    dsimp only
    split
    next differs =>
      obtain ⟨same, nextUnset⟩ := mismatch_request geometry thread
      apply valid.moveThread active unset same nextUnset
      apply mismatch_pcValid looking taken
      intro self
      have keys := agrees.mp self
      cases differs with
      | inl first => exact first (congrArg Prod.fst keys)
      | inr second => exact second (congrArg Prod.snd keys)
    next equal =>
      rw [not_or, not_not, not_not] at equal
      have self : owner = thread.request.key := agrees.mpr (Prod.ext equal.1 equal.2)
      subst self
      split
      next accepted =>
        have stored := valid.cover active taken accepted
        refine stored.moveThread active unset rfl (by simp [Thread.Setting]) ?_
        exact Done.write (.inl ⟨thread.place, taken⟩) (valid.threads id thread active).1
      next refused =>
        refine valid.moveThread active unset rfl (by simp [Thread.Setting]) ?_
        refine ⟨.inl ⟨thread.place, taken⟩, fun uncovered => ?_⟩
        have null : thread.request.cover = none := uncovered
        simp [null, covers] at refused
  | loadChild =>
    rw [here] at pcValid
    obtain ⟨depth, descending⟩ := pcValid
    refine valid.moveThread active (by simp [Thread.Setting, here]) rfl ?_ ?_
    · simp only [Thread.Setting]
      split <;> simp
    · cases linked : (state.memory.bucket thread.place).child with
      | true => exact ⟨⟨depth, descending.place, descending.hash, descending.passed,
          descending.within, descending.curDeep⟩, linked⟩
      | false => exact ⟨depth, descending.place, descending.hash, descending.passed,
          descending.within, descending.curDeep⟩
  | casChild =>
    rw [here] at pcValid
    obtain ⟨depth, descending⟩ := pcValid
    obtain ⟨owner, taken, _⟩ := descending.passed depth (Nat.lt_succ_self depth)
    rw [← descending.place] at taken
    have len : thread.place.length = depth + 1 := by
      rw [descending.place, geometry.length_probe]
    have linked := valid.link (valid.formed.inusing_of_claim taken) (len ▸ descending.within)
    refine linked.moveThread active (by simp [Thread.Setting, here]) rfl
      (by simp [Thread.Setting]) ?_
    refine ⟨⟨depth, descending.place, descending.hash, descending.passed, descending.within,
      descending.curDeep⟩, ?_⟩
    simp [State.setBucket, Memory.setBucket_bucket, Bucket.setChild]
  | followChild =>
    rw [here] at pcValid
    obtain ⟨⟨depth, descending⟩, linked⟩ := pcValid
    refine valid.moveThread active (by simp [Thread.Setting, here]) rfl
      (by simp [Thread.Setting]) ?_
    refine ⟨depth + 1, ?_, ?_, ⟨descending.passed, fun before same => ?_⟩,
      descending.within, descending.curDeep⟩
    · simp only [descending.place, descending.hash]
      rfl
    · simp only [descending.hash]
      rfl
    · cases same
      exact descending.place ▸ linked
  | setAlt =>
    rw [here] at pcValid
    obtain ⟨proper, passed⟩ := pcValid
    have unset : ¬thread.Setting := by simp [Thread.Setting, here]
    dsimp only
    split
    next kept =>
      rw [AltBucket.setNode_of_keeps _ kept, State.setAlt_self]
      refine valid.moveThread active unset rfl (by simp [Thread.Setting]) ?_
      refine ⟨.inr ⟨geometry.level0Pos (geometry.keyHash thread.request.key), ?_⟩,
        fun uncovered => ?_⟩
      · intro absent
        simp [AltBucket.keeps, absent] at kept
      · have null : thread.request.cover = none := uncovered
        simp [AltBucket.keeps, null, covers] at kept
    next replaced =>
      have stored := valid.storeOverflow active proper passed rfl (Bool.not_eq_true _ ▸ replaced)
      refine stored.moveThread active unset rfl (by simp [Thread.Setting]) ?_
      refine Done.write (.inr ⟨geometry.level0Pos (geometry.keyHash thread.request.key), ?_⟩)
        (valid.threads id thread active).1
      simp [State.setAlt, Memory.setAlt_bucketAlt, AltBucket.find_setNode]
  | returning => exact valid.finish active here

end Active

section Steps

variable [DecidableEq Key1] [DecidableEq Key2]

theorem step_valid {action : Action Key1 Key2 Value} {next : State Key1 Key2 Value}
    (valid : Valid geometry state) (sound : SoundComparison geometry state action)
    (went : step geometry state action = some next) : Valid geometry next := by
  cases action with
  | call id key1 key2 value cover =>
    simp only [step] at went
    split at went <;> cases went
    next idle =>
      apply valid.move
      · intro thread active
        rw [idle] at active
        cases active
      · exact .refl
      · simp [Thread.Setting]
      · refine ⟨0, rfl, rfl, ⟨Probing.Passed.zero, fun before here => ?_⟩,
          fun _ => Nat.zero_le _, rfl⟩
        cases here
  | step id =>
    obtain ⟨thread, active, rfl⟩ := map_eq_some_iff.mp went
    exact valid.stepThread_valid active sound

end Steps

variable (valid : Valid geometry state) (quiet : ∀ id, state.threads id = none)

include valid quiet

theorem nothing_setting :
    ∀ place, state.setting place = none := by
  intro place
  cases pending : state.setting place with
  | none => rfl
  | some key =>
    obtain ⟨_, id, thread, active, _⟩ := valid.setter place key pending
    rw [quiet id] at active
    cases active

theorem unique_place (placed : (∃ place, state.claims place = some key) ∨
      ∃ index, (state.memory.bucketAlt index).find key ≠ none) :
    ∃! place, state.memory.StoresAt key place := by
  have claimed : ∀ place, (state.memory.bucket place).inusing = true →
      (state.memory.bucket place).keys = key → state.claims place = some key := by
    intro place used keys
    obtain ⟨owner, taken⟩ := (valid.formed.inusing_iff place).mp used
    have owns := (valid.contents place owner taken (valid.nothing_setting quiet place)).2.1
    rw [taken, ← owns, keys]
  cases placed with
  | inl claims =>
    obtain ⟨place, taken⟩ := claims
    refine ⟨.bucket place, ⟨valid.formed.inusing_of_claim taken,
      (valid.contents place key taken (valid.nothing_setting quiet place)).2.1⟩, ?_⟩
    intro other stored
    cases other with
    | bucket second =>
      have again := claimed second stored.1 stored.2
      rw [valid.formed.settled.unique again taken]
    | overflow index =>
      obtain ⟨val, found⟩ := ne_none_iff_exists'.mp stored
      exact absurd taken (valid.formed.not_claimed_of_overflow found)
  | inr overflows =>
    obtain ⟨index, held⟩ := overflows
    obtain ⟨val, found⟩ := ne_none_iff_exists'.mp held
    refine ⟨.overflow index, held, ?_⟩
    intro other stored
    cases other with
    | bucket place =>
      exact absurd (claimed place stored.1 stored.2) (valid.formed.not_claimed_of_overflow found)
    | overflow second =>
      obtain ⟨_, again⟩ := ne_none_iff_exists'.mp stored
      rw [(valid.formed.overflow _ _ _ again).1, (valid.formed.overflow _ _ _ found).1]

variable [DecidableEq Key1] [DecidableEq Key2]

theorem find_lastWrite (placed : (∃ place, state.claims place = some key) ∨
      ∃ index, (state.memory.bucketAlt index).find key ≠ none) :
    ∃ write, state.lastWrite key = some write ∧ ∃ enough, ∀ fuel ≥ enough,
      find geometry fuel key.1 key.2 state.memory = some (.kSuccess, some write.request.value) := by
  have settled : Filled geometry state.claims state.memory := by
    intro place key taken
    obtain ⟨code, keys, _⟩ := valid.contents place key taken (valid.nothing_setting quiet place)
    exact ⟨code, keys⟩
  cases placed with
  | inl claims =>
    obtain ⟨place, taken⟩ := claims
    obtain ⟨_, _, write, stored, val⟩ :=
      valid.contents place key taken (valid.nothing_setting quiet place)
    refine ⟨write, stored, ?_⟩
    rw [← val]
    exact valid.formed.find_claimed settled taken
  | inr overflows =>
    obtain ⟨index, held⟩ := overflows
    obtain ⟨val, found⟩ := ne_none_iff_exists'.mp held
    obtain ⟨write, stored, same⟩ := valid.overflow index key val found
    refine ⟨write, stored, ?_⟩
    have answered := valid.formed.find_unclaimed settled
      fun place => valid.formed.not_claimed_of_overflow found
    rw [← (valid.formed.overflow _ _ _ found).1, found, same] at answered
    exact answered

theorem oneMap :
    OneMap geometry state := by
  intro call finished
  have done := valid.completed call finished
  obtain ⟨write, stored, finds⟩ := valid.find_lastWrite quiet done.placed
  refine ⟨valid.unique_place quiet done.placed, write.request.value, finds, fun uncovered => ?_⟩
  obtain ⟨same, _, origin⟩ := valid.writes _ _ stored
  cases origin with
  | inl running =>
    obtain ⟨id, thread, active, _⟩ := running
    rw [quiet id] at active
    cases active
  | inr completed =>
    obtain ⟨last, mem, request, order⟩ := completed
    refine ⟨last, mem, request ▸ same, congrArg Request.value request, ?_⟩
    intro other otherFinished otherKey later
    obtain ⟨newest, recorded, before⟩ :=
      (valid.completed other otherFinished).written (uncovered other otherFinished otherKey)
    rw [otherKey, stored] at recorded
    cases recorded
    exact absurd (later.trans_le (before.trans order)) (Nat.lt_irrefl _)

end Valid

/-- Runs in which no comparison with an unfinished bucket misleads: once all calls
have returned they have built one map. -/
theorem inserts_build_one_map [DecidableEq Key1] [DecidableEq Key2]
    (config : Config Key1 Key2 Value) {actions : List (Action Key1 Key2 Value)}
    {final : State Key1 Key2 Value}
    (ran : execute (step config.geometry) (initialState config) actions = some final)
    (sound : Guarded (step config.geometry) (SoundComparison config.geometry)
      (initialState config) actions)
    (quiet : ∀ id, final.threads id = none) : OneMap config.geometry final := by
  have valid : Valid config.geometry final :=
    invariant_of_guarded (fun valid allowed stepped => valid.step_valid allowed stepped)
      (valid_initial config) sound ran
  exact valid.oneMap quiet

section Runs

variable [DecidableEq Key1] [DecidableEq Key2]

variable {other : Nat}

theorem step_threads_of_ne {action : Action Key1 Key2 Value} {next : State Key1 Key2 Value}
    (went : step geometry state action = some next) (apart : other ≠ action.id) :
    next.threads other = state.threads other := by
  cases action with
  | call id key1 key2 val cover =>
    simp only [step] at went
    split at went <;> cases went
    rw [State.threads_setThread]
    exact if_neg apart
  | step id =>
    obtain ⟨old, _, rfl⟩ := map_eq_some_iff.mp went
    have moved : ∃ (middle : State Key1 Key2 Value) (left : Option (Thread Key1 Key2 Value)),
        stepThread geometry state id old = middle.setThread id left ∧
          middle.threads = state.threads := by
      unfold stepThread
      dsimp only
      split <;> (try split) <;> (try split) <;> exact ⟨_, _, rfl, rfl⟩
    obtain ⟨middle, left, same, kept⟩ := moved
    rw [same, State.threads_setThread, kept]
    exact if_neg apart

variable {actions : List (Action Key1 Key2 Value)} {final : State Key1 Key2 Value}

theorem execute_threads_of_ne (ran : execute (step geometry) state actions = some final)
    (unnamed : ∀ action ∈ actions, other ≠ action.id) :
    final.threads other = state.threads other := by
  induction actions generalizing state with
  | nil =>
    cases ran
    rfl
  | cons action rest ih =>
    obtain ⟨next, went, continued⟩ := execute_cons.mp ran
    rw [ih continued fun later mem => unnamed later (mem_cons_of_mem _ mem)]
    exact step_threads_of_ne went (unnamed action mem_cons_self)

theorem quiet_of_two {config : Config Key1 Key2 Value}
    (ran : execute (step geometry) (initialState config) actions = some final)
    (named : ∀ action ∈ actions, action.id = 0 ∨ action.id = 1)
    (first : (final.threads 0).isNone = true) (second : (final.threads 1).isNone = true) :
    ∀ id, final.threads id = none := by
  intro id
  by_cases known : id = 0 ∨ id = 1
  · cases known with
    | inl zero => exact zero ▸ isNone_iff_eq_none.mp first
    | inr one => exact one ▸ isNone_iff_eq_none.mp second
  · exact execute_threads_of_ne ran fun action mem same => known (same ▸ named action mem)

end Runs

/-- Every key has the same hash, one that differs from the zero of a fresh bucket. -/
def collidingConfig : Config Bool Bool Nat where
  bucketInitNum := 2
  deepLimit := 4
  bucketExtNum := 2
  hash := fun _ _ => 1
  initKey1 := false
  initKey2 := false
  initValue := 0
  counterSlack := false
  bucketInitNum_power := ⟨1, rfl⟩
  bucketExtNum_power := ⟨1, rfl⟩

/-- The second insert meets the bucket that the first has claimed and, under the stale
hash code, goes on to the next level. -/
def duplicateRun : List (Action Bool Bool Nat) :=
  flatten [[.call 0 true true 1 none], replicate 2 (.step 0),
    [.call 1 true true 2 none], replicate 10 (.step 1), replicate 3 (.step 0)]

theorem inserts_store_key_twice : ∃ final,
    execute (step collidingConfig.geometry) (initialState collidingConfig) duplicateRun =
      some final ∧ (∀ id, final.threads id = none) ∧ ¬OneMap collidingConfig.geometry final := by
  have stored : ∃ final,
      execute (step collidingConfig.geometry) (initialState collidingConfig) duplicateRun =
        some final ∧
      (final.threads 0).isNone ∧ (final.threads 1).isNone ∧
      final.completed.map (·.request.key) = [(true, true), (true, true)] ∧
      (final.memory.bucket [1]).inusing = true ∧
      (final.memory.bucket [1]).keys = (true, true) ∧
      (final.memory.bucket [0, 1]).inusing = true ∧
      (final.memory.bucket [0, 1]).keys = (true, true) :=
    execute_check (by decide +kernel)
  obtain ⟨final, ran, first, second, finished, rootUsed, rootKeys, childUsed, childKeys⟩ := stored
  refine ⟨final, ran, quiet_of_two ran (by decide +kernel) first second, fun oneMap => ?_⟩
  have member : (true, true) ∈ final.completed.map (·.request.key) := by
    rw [finished]
    exact mem_cons_self
  obtain ⟨call, completed, key⟩ := mem_map.mp member
  have unique := (oneMap call completed).1
  rw [key] at unique
  have same : Place.bucket [1] = Place.bucket [0, 1] :=
    unique.unique ⟨rootUsed, rootKeys⟩ ⟨childUsed, childKeys⟩
  cases same

def orderlyRun : List (Action Bool Bool Nat) :=
  flatten [[.call 0 true true 1 none], replicate 4 (.step 0),
    [.call 1 true true 2 none], replicate 3 (.step 1), [.step 0, .step 1]]

theorem orderly_inserts_build_one_map : ∃ final,
    execute (step collidingConfig.geometry) (initialState collidingConfig) orderlyRun =
      some final ∧ OneMap collidingConfig.geometry final := by
  have finished : ∃ final,
      execute (step collidingConfig.geometry) (initialState collidingConfig) orderlyRun =
        some final ∧ (final.threads 0).isNone ∧ (final.threads 1).isNone :=
    execute_check (by decide +kernel)
  obtain ⟨final, ran, first, second⟩ := finished
  have quiet := quiet_of_two ran (by decide +kernel) first second
  exact ⟨final, ran, inserts_build_one_map collidingConfig ran (by decide +kernel) quiet⟩

end AdkAaf.Adk.HashMap
