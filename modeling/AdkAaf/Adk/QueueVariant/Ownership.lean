import AdkAaf.Adk.QueueVariant.Basic

/-! A slot is at the turn of at most one index of one role, and only the thread that
holds this index moves it on. -/

set_option autoImplicit false

namespace AdkAaf.Adk.QueueVariant

open Function Lib List

variable {Value : Type} {config : Config} {state next : State Value} {actor : Actor}
  {thread : Thread}

def assigned : Pc → Option Nat
  | .waiting index | .alerting index | .accessing index | .accessed index
  | .storing index _ => some index
  | .idle | .loading | .checking _ | .rechecking _ | .swapping _ => none

def Unaccessed (state : State Value) (role : Role) (index : Nat) : Prop :=
  ∀ value, (index, value) ∉ state.accesses role

def Turn (config : Config) (state : State Value) (role : Role) (index : Nat) : Prop :=
  Ready config role index (state.pos (config.getInQueueIndex index))

def Written (config : Config) (state : State Value) (role : Role) (index : Nat) : Prop :=
  role = .producer →
    (index, state.buffer (config.getInQueueIndex index)) ∈ state.accesses .producer

def PcValid (config : Config) (state : State Value) (role : Role) (sawRefused : Bool) : Pc → Prop
  | .idle | .loading => True
  | .waiting index | .alerting index =>
    index < state.cursor role ∧ Unaccessed state role index
  | .checking index => index ≤ state.cursor role
  | .rechecking index =>
    index ≤ state.cursor role ∧ (state.cursor role = index → sawRefused = true)
  | .swapping index =>
    index ≤ state.cursor role ∧ (state.cursor role = index → Turn config state role index)
  | .accessing index =>
    index < state.cursor role ∧ Unaccessed state role index ∧ Turn config state role index
  | .accessed index =>
    index < state.cursor role ∧ Turn config state role index ∧ Written config state role index
  | .storing index pos =>
    index < state.cursor role ∧ Turn config state role index ∧
      Written config state role index ∧ pos = state.pos (config.getInQueueIndex index)

structure ThreadValid (config : Config) (state : State Value) (actor : Actor)
    (thread : Thread) : Prop where
  refused : thread.returned = some (refusal actor.role) → thread.sawRefused = true
  pc : PcValid config state actor.role thread.sawRefused thread.pc

def Unique (threads : Actor → Thread) : Prop :=
  ∀ left right, left.role = right.role → ∀ index, assigned (threads left).pc = some index →
    assigned (threads right).pc = some index → left = right

structure Shared (config : Config) (state : State Value) : Prop where
  apart : ∀ slot, state.pos slot < 0 ∨ config.queueSize < state.pos slot
  granted : ∀ role, (state.granted role).Nodup
  passed : ∀ role, ∀ index ∈ state.granted role, index < state.cursor role
  once : ∀ role, ((state.accesses role).map Prod.fst).Nodup
  started : ∀ role, ∀ access ∈ state.accesses role, access.1 < state.cursor role
  posted : ∀ slot (index : Nat), state.pos slot = index →
    (index, state.buffer slot) ∈ state.accesses .producer
  follows : ∀ access ∈ state.accesses .consumer, access ∈ state.accesses .producer
  freed : ∀ index ∈ state.handed .producer,
    index ∈ state.handed .consumer ∨ state.pos (config.getInQueueIndex index) = index

structure Valid (config : Config) (state : State Value) : Prop extends Shared config state where
  unique : Unique state.threads
  threads : ∀ actor, ThreadValid config state actor (state.threads actor)

def Observed (config : Config) (state : State Value) : Prop :=
  ∀ actor, (state.threads actor).pc ≠ .idle → Refused config state actor.role →
    (state.threads actor).sawRefused = true

theorem valid_initial (config : Config) (buffer : Nat → Value) :
    Valid config (initialState config buffer) where
  apart := by
    intro slot
    have positive := config.queueSize_pos
    simp only [initialState, Config.initEntries]
    omega
  granted := fun _ => nodup_nil
  passed := by simp [initialState]
  unique := by simp [Unique, initialState, assigned]
  threads := fun _ => ⟨by simp [initialState], trivial⟩
  once := fun _ => nodup_nil
  started := by simp [initialState]
  posted := by
    intro slot i same
    have positive := config.queueSize_pos
    simp only [initialState, Config.initEntries] at same
    omega
  follows := by simp [initialState]
  freed := by simp [initialState]

theorem observed_observe (config : Config) (state : State Value) :
    Observed config (observe config state) := by
  intro actor running refused
  have refused : Refused config state actor.role := refused
  simp only [observe] at running ⊢
  split
  next idle =>
    rw [if_pos idle] at running
    exact absurd idle running
  next => simp [refused]

variable {other : Role} {otherIndex : Nat}

theorem ready_unique {pos : Int} (apart : pos < 0 ∨ config.queueSize < pos) {role : Role}
    {index : Nat} (left : Ready config role index pos) (right : Ready config other otherIndex pos) :
    role = other ∧ index = otherIndex := by
  cases role with
  | producer =>
    cases other with
    | producer =>
      simp only [Ready] at left right
      exact ⟨rfl, by omega⟩
    | consumer =>
      simp only [Ready] at left right
      omega
  | consumer =>
    cases other with simp only [Ready] at left right
    | producer => omega
    | consumer => exact ⟨rfl, by omega⟩

variable {role : Role} {sawRefused : Bool}

variable {pc : Pc}

section

variable (valid : PcValid config state role sawRefused pc)
include valid

theorem PcValid.assigned_lt {i : Nat} (held : assigned pc = some i) :
    i < state.cursor role := by
  cases pc with cases held
  | _ => exact valid.1

theorem PcValid.stable (grows : state.cursor role ≤ next.cursor role)
    (turn : ∀ i, assigned pc = some i ∨ state.cursor role = i ∧
      next.cursor role = i → Turn config state role i → Turn config next role i)
    (same : ∀ i, assigned pc = some i → Turn config state role i →
      state.pos (config.getInQueueIndex i) = next.pos (config.getInQueueIndex i))
    (fresh : ∀ i, assigned pc = some i → Unaccessed state role i →
      Unaccessed next role i)
    (written : ∀ i, assigned pc = some i → Turn config state role i →
      Written config state role i → Written config next role i) :
    PcValid config next role sawRefused pc := by
  cases pc with
  | idle | loading => trivial
  | waiting i | alerting i =>
    exact ⟨valid.1.trans_le grows, fresh i rfl valid.2⟩
  | checking i => exact valid.trans grows
  | rechecking i =>
    refine ⟨valid.1.trans grows, ?_⟩
    intro reached
    exact valid.2 ((reached ▸ grows).antisymm valid.1)
  | swapping i =>
    refine ⟨valid.1.trans grows, ?_⟩
    intro reached
    have still := (reached ▸ grows).antisymm valid.1
    exact turn i (.inr ⟨still, reached⟩) (valid.2 still)
  | accessing i =>
    exact ⟨valid.1.trans_le grows, fresh i rfl valid.2.1,
      turn i (.inl rfl) valid.2.2⟩
  | accessed i =>
    exact ⟨valid.1.trans_le grows, turn i (.inl rfl) valid.2.1,
      written i rfl valid.2.1 valid.2.2⟩
  | storing i pos =>
    obtain ⟨passed, atTurn, stored, loaded⟩ := valid
    exact ⟨passed.trans_le grows, turn i (.inl rfl) atTurn,
      written i rfl atTurn stored, loaded.trans (same i rfl atTurn)⟩

theorem PcValid.observed (more : Bool) : PcValid config state role (sawRefused || more) pc := by
  cases pc with
  | rechecking j =>
    refine ⟨valid.1, ?_⟩
    intro reached
    rw [valid.2 reached, Bool.true_or]
  | _ =>
    exact valid

end

variable {threads : Actor → Thread}

theorem Unique.update (unique : Unique threads)
    (alone : ∀ j, assigned thread.pc = some j → ∀ other ≠ actor,
      other.role = actor.role → assigned (threads other).pc ≠ some j) :
    Unique (update threads actor thread) := by
  intro left right same j
  by_cases isLeft : left = actor
  · subst isLeft
    by_cases isRight : right = left
    · exact fun _ _ => isRight.symm
    · rw [update_self, update_of_ne isRight]
      intro held other
      exact absurd other (alone j held right isRight same.symm)
  · by_cases isRight : right = actor
    · subst isRight
      rw [update_self, update_of_ne isLeft]
      intro other held
      exact absurd other (alone j held left isLeft same)
    · rw [update_of_ne isLeft, update_of_ne isRight]
      exact unique left right same j

theorem Unique.keep (unique : Unique threads)
    (kept : ∀ j, assigned thread.pc = some j → assigned (threads actor).pc = some j) :
    Unique (Function.update threads actor thread) := by
  apply unique.update
  intro j held other apart same taken
  exact apart (unique other actor same j taken (kept j held))

theorem mem_recordAccess {i : Nat} {val : Value} {access : Nat × Value} :
    access ∈ (recordAccess state role i val).accesses other ↔
      access ∈ state.accesses other ∨ other = role ∧ access = (i, val) := by
  simp only [recordAccess]
  by_cases same : other = role
  · subst same
    simp
  · simp [same]

theorem once_recordAccess {index : Nat} (val : Value)
    (once : ∀ other, ((state.accesses other).map Prod.fst).Nodup)
    (unaccessed : Unaccessed state role index) (other : Role) :
    (((recordAccess state role index val).accesses other).map Prod.fst).Nodup := by
  simp only [recordAccess]
  by_cases same : other = role
  · subst same
    rw [update_self, map_append]
    apply nodup_append.mpr
    refine ⟨once other, nodup_singleton _, ?_⟩
    rintro earlier mem _ added rfl
    obtain ⟨⟨accessed, before⟩, found, rfl⟩ := mem_map.mp mem
    have same : accessed = index := mem_singleton.mp added
    exact unaccessed before (same ▸ found)
  · rw [update_of_ne same]
    exact once other

theorem Unaccessed.recordAccess {i : Nat} (val : Value)
    (unaccessed : Unaccessed state other otherIndex) (apart : other = role → otherIndex ≠ i) :
    Unaccessed (recordAccess state role i val) other otherIndex := by
  intro written mem
  rcases mem_recordAccess.mp mem with earlier | ⟨same, added⟩
  · exact unaccessed written earlier
  · exact apart same (congrArg Prod.fst added)

section HandOver

variable {index : Nat} (shared : Shared config state)

include shared

theorem Shared.apart_storePos {pos : Int}
    (stored : handOver config role pos < 0 ∨ config.queueSize < handOver config role pos)
    (slot : Nat) : (storePos config state role index pos).pos slot < 0 ∨
      config.queueSize < (storePos config state role index pos).pos slot := by
  simp only [storePos]
  by_cases same : slot = config.getInQueueIndex index
  · rw [same, update_self]
    exact stored
  · rw [update_of_ne same]
    exact shared.apart slot

theorem Shared.post (turn : Turn config state .producer index)
    (written : Written config state .producer index) :
    Shared config (storePos config state .producer index
      (state.pos (config.getInQueueIndex index))) := by
  have apart := shared.apart (config.getInQueueIndex index)
  have posted : handOver config .producer (state.pos (config.getInQueueIndex index)) = index := by
    simp only [Turn, Ready, handOver, postPos] at turn ⊢
    omega
  refine { shared with apart := ?_, posted := ?_, freed := ?_ }
  · apply shared.apart_storePos
    simp only [Turn, Ready] at turn
    omega
  · intro slot other
    simp only [storePos]
    by_cases same : slot = config.getInQueueIndex index
    · rw [same, update_self, posted]
      intro sameIndex
      rw [← Int.ofNat_inj.mp sameIndex]
      exact written rfl
    · rw [update_of_ne same]
      exact shared.posted slot other
  · intro other mem
    simp only [storePos] at mem ⊢
    rcases mem_append.mp mem with earlier | added
    · refine (shared.freed other earlier).imp_right ?_
      intro waiting
      rw [update_of_ne]
      · exact waiting
      · intro same
        have consumer : Ready config .consumer other
            (state.pos (config.getInQueueIndex index)) := same ▸ waiting.symm
        cases (ready_unique apart turn consumer).1
    · right
      rw [mem_singleton.mp added, update_self]
      exact posted

theorem Shared.free (turn : Turn config state .consumer index) :
    Shared config (storePos config state .consumer index
      (state.pos (config.getInQueueIndex index))) := by
  have apart := shared.apart (config.getInQueueIndex index)
  have negative : handOver config .consumer (state.pos (config.getInQueueIndex index)) < 0 := by
    simp only [Turn, Ready, handOver, freePos] at turn ⊢
    omega
  refine { shared with apart := ?_, posted := ?_, freed := ?_ }
  · exact shared.apart_storePos (.inl negative)
  · intro slot other
    simp only [storePos]
    by_cases same : slot = config.getInQueueIndex index
    · rw [same, update_self]
      intro impossible
      omega
    · rw [update_of_ne same]
      exact shared.posted slot other
  · intro other mem
    simp only [storePos] at mem ⊢
    rcases shared.freed other mem with freed | waiting
    · exact .inl (mem_append_left _ freed)
    · by_cases same : config.getInQueueIndex other = config.getInQueueIndex index
      · have consumer : Ready config .consumer other
            (state.pos (config.getInQueueIndex index)) := same ▸ waiting.symm
        rw [(ready_unique apart consumer turn).2]
        exact .inl (mem_append_right _ (mem_singleton_self index))
      · rw [update_of_ne same]
        exact .inr waiting

end HandOver

theorem Shared.withThreads (shared : Shared config state) (threads : Actor → Thread) :
    Shared config { state with threads } :=
  { shared with }

namespace Valid

theorem ofShared (shared : Shared config state)
    (unique : Unique (update state.threads actor thread))
    (threadValid : ThreadValid config state actor thread)
    (others : ∀ other ≠ actor, ThreadValid config state other (state.threads other)) :
    Valid config (setThread state actor thread) := by
  refine ⟨shared.withThreads _, unique, ?_⟩
  intro other
  simp only [setThread]
  by_cases same : other = actor
  · subst same
    rw [update_self]
    exact ⟨threadValid.refused, threadValid.pc⟩
  · rw [update_of_ne same]
    exact ⟨(others other same).refused, (others other same).pc⟩

variable (valid : Valid config state)

include valid

theorem observe : Valid config (observe config state) := by
  have pcs : ∀ actor, ((QueueVariant.observe config state).threads actor).pc =
      (state.threads actor).pc := by
    intro actor
    simp only [QueueVariant.observe]
    split
    all_goals rfl
  refine ⟨valid.toShared.withThreads _, ?_, ?_⟩
  · intro left right same j
    rw [pcs, pcs]
    exact valid.unique left right same j
  · intro actor
    have before := valid.threads actor
    simp only [QueueVariant.observe]
    split
    next => exact ⟨before.refused, before.pc⟩
    next =>
      constructor
      · intro returned
        rw [before.refused returned, Bool.true_or]
      · exact before.pc.observed _

theorem setThread (threadValid : ThreadValid config state actor thread)
    (unique : Unique (update state.threads actor thread)) :
    Valid config (setThread state actor thread) :=
  ofShared valid.toShared unique threadValid fun other _ => valid.threads other

theorem setPc (pcValid : PcValid config state actor.role (state.threads actor).sawRefused pc)
    (kept : ∀ j, assigned pc = some j → assigned (state.threads actor).pc = some j) :
    Valid config (setPc state actor pc) :=
  valid.setThread ⟨(valid.threads actor).refused, pcValid⟩ (valid.unique.keep kept)

theorem exit {code : ReturnCode}
    (pcValid : PcValid config state actor.role (state.threads actor).sawRefused pc)
    (refused : code = refusal actor.role → (state.threads actor).sawRefused = true)
    (kept : ∀ j, assigned pc = some j → assigned (state.threads actor).pc = some j) :
    Valid config (exit state actor code pc) :=
  valid.setThread ⟨fun same => refused (Option.some.inj same), pcValid⟩ (valid.unique.keep kept)

theorem grant (role : Role) : Valid config (grant state role) := by
  have grows : ∀ other, state.cursor other ≤ (QueueVariant.grant state role).cursor other := by
    intro other
    simp only [QueueVariant.grant]
    by_cases same : other = role
    · subst same
      rw [update_self]
      exact Nat.le_succ _
    · exact Nat.le_of_eq (update_of_ne same _ _).symm
  refine ⟨{ valid with granted := ?_, passed := ?_, started := ?_ }, valid.unique, ?_⟩
  · intro other
    simp only [QueueVariant.grant]
    by_cases same : other = role
    · subst same
      rw [update_self]
      apply nodup_append.mpr
      refine ⟨valid.granted other, nodup_singleton _, ?_⟩
      rintro earlier mem _ added rfl
      rw [mem_singleton.mp added] at mem
      exact Nat.lt_irrefl _ (valid.passed other _ mem)
    · rw [update_of_ne same]
      exact valid.granted other
  · intro other j mem
    simp only [QueueVariant.grant] at mem ⊢
    by_cases same : other = role
    · subst same
      rw [update_self] at mem ⊢
      rcases mem_append.mp mem with earlier | added
      · exact Nat.lt_succ_of_lt (valid.passed other j earlier)
      · rw [mem_singleton.mp added]
        exact Nat.lt_succ_self _
    · rw [update_of_ne same] at mem ⊢
      exact valid.passed other j mem
  · intro other access mem
    exact (valid.started other access mem).trans_le (grows other)
  · intro actor
    refine ⟨(valid.threads actor).refused, (valid.threads actor).pc.stable (grows _) ?_ ?_ ?_ ?_⟩
    · exact fun _ _ => id
    · exact fun _ _ _ => rfl
    · exact fun _ _ => id
    · exact fun _ _ _ => id

theorem cursor_unassigned (other : Actor) :
    assigned (state.threads other).pc ≠ some (state.cursor other.role) := by
  intro held
  exact Nat.lt_irrefl _ ((valid.threads other).pc.assigned_lt held)

theorem cursor_unaccessed (role : Role) : Unaccessed state role (state.cursor role) := by
  intro val mem
  exact Nat.lt_irrefl _ (valid.started role _ mem)

theorem takeCursor {returned : Option ReturnCode}
    (held : assigned pc = some (state.cursor actor.role))
    (refused : returned ≠ some (refusal actor.role))
    (pcValid : PcValid config (QueueVariant.grant state actor.role) actor.role sawRefused pc) :
    Valid config (QueueVariant.setThread (QueueVariant.grant state actor.role) actor
      { pc, returned, sawRefused }) := by
  apply (valid.grant actor.role).setThread
  · exact ⟨fun same => absurd same refused, pcValid⟩
  · apply valid.unique.update
    intro j same other _ sameRole
    rw [held] at same
    cases same
    rw [← sameRole]
    exact valid.cursor_unassigned other

variable {index : Nat}

theorem slot_ne {other : Actor} (held : assigned (state.threads actor).pc = some index)
    (turn : Turn config state actor.role index)
    (otherTurn : Turn config state other.role otherIndex) (apart : other ≠ actor)
    (user : assigned (state.threads other).pc = some otherIndex ∨
      state.cursor other.role = otherIndex) :
    config.getInQueueIndex otherIndex ≠ config.getInQueueIndex index := by
  intro same
  unfold Turn at turn otherTurn
  rw [same] at otherTurn
  obtain ⟨sameRole, rfl⟩ := ready_unique (valid.apart _) otherTurn turn
  rcases user with taken | atCursor
  · exact apart (valid.unique other actor sameRole _ taken held)
  · rw [sameRole] at atCursor
    exact valid.cursor_unassigned actor (atCursor ▸ held)

variable {id : Nat}

theorem writeEntry {value : Value}
    (accessing : (state.threads ⟨.producer, id⟩).pc = .accessing index) :
    Valid config (writeEntry config state id index value) := by
  obtain ⟨refused, own⟩ := valid.threads ⟨.producer, id⟩
  rw [accessing] at own
  obtain ⟨passed, unaccessed, turn⟩ := own
  have held : assigned (state.threads ⟨.producer, id⟩).pc = some index := by
    rw [accessing]
    rfl
  apply ofShared
  · refine ⟨valid.apart, valid.granted, valid.passed,
      once_recordAccess value valid.once unaccessed, ?_, ?_, ?_, valid.freed⟩
    · intro role access mem
      rcases mem_recordAccess.mp mem with earlier | ⟨rfl, rfl⟩
      · exact valid.started role access earlier
      · exact passed
    · -- the slot is at a producer's turn, so that no posted elem is in it
      intro slot posted atPosted
      have apart : slot ≠ config.getInQueueIndex index := by
        rintro rfl
        have consumed : Ready config .consumer posted
            (state.pos (config.getInQueueIndex index)) := atPosted.symm
        cases (ready_unique (valid.apart _) turn consumed).1
      apply mem_recordAccess.mpr
      left
      change (posted, update state.buffer _ value _) ∈ _
      rw [update_of_ne apart]
      exact valid.posted slot posted atPosted
    · intro access mem
      apply mem_recordAccess.mpr
      rcases mem_recordAccess.mp mem with earlier | ⟨impossible, _⟩
      · exact .inl (valid.follows access earlier)
      · cases impossible
  · apply valid.unique.keep
    intro other same
    cases same
    exact held
  · refine ⟨refused, passed, turn, ?_⟩
    intro _
    apply mem_recordAccess.mpr
    refine .inr ⟨rfl, ?_⟩
    exact congrArg (index, ·) (update_self _ _ _)
  · intro other different
    refine ⟨(valid.threads other).refused,
      (valid.threads other).pc.stable .refl ?_ ?_ ?_ ?_⟩
    · exact fun _ _ atTurn => atTurn
    · exact fun _ _ _ => rfl
    · intro otherIndex taken fresh
      apply Unaccessed.recordAccess value fresh
      rintro sameRole rfl
      exact different (valid.unique other _ sameRole _ taken held)
    · intro otherIndex taken atTurn stored isProducer
      have apart := valid.slot_ne held turn atTurn different (.inl taken)
      apply mem_recordAccess.mpr
      left
      change (otherIndex, update state.buffer _ value _) ∈ _
      rw [update_of_ne apart]
      exact stored isProducer

theorem readEntry (accessing : (state.threads ⟨.consumer, id⟩).pc = .accessing index) :
    Valid config (readEntry config state id index) := by
  obtain ⟨refused, own⟩ := valid.threads ⟨.consumer, id⟩
  rw [accessing] at own
  obtain ⟨passed, unaccessed, turn⟩ := own
  have held : assigned (state.threads ⟨.consumer, id⟩).pc = some index := by
    rw [accessing]
    rfl
  apply ofShared
  · refine ⟨valid.apart, valid.granted, valid.passed,
      once_recordAccess _ valid.once unaccessed, ?_, ?_, ?_, valid.freed⟩
    · intro role access mem
      rcases mem_recordAccess.mp mem with earlier | ⟨rfl, rfl⟩
      · exact valid.started role access earlier
      · exact passed
    · intro slot posted atPosted
      exact mem_recordAccess.mpr (.inl (valid.posted slot posted atPosted))
    · intro access mem
      apply mem_recordAccess.mpr
      rcases mem_recordAccess.mp mem with earlier | ⟨_, rfl⟩
      · exact .inl (valid.follows access earlier)
      · exact .inl (valid.posted _ index turn.symm)
  · apply valid.unique.keep
    intro other same
    cases same
    exact held
  · refine ⟨refused, passed, turn, ?_⟩
    nofun
  · intro other apart
    refine ⟨(valid.threads other).refused,
      (valid.threads other).pc.stable .refl ?_ ?_ ?_ ?_⟩
    · exact fun _ _ atTurn => atTurn
    · exact fun _ _ _ => rfl
    · intro otherIndex taken fresh
      apply Unaccessed.recordAccess _ fresh
      rintro sameRole rfl
      exact apart (valid.unique other _ sameRole _ taken held)
    · intro otherIndex _ _ stored isProducer
      exact mem_recordAccess.mpr (.inl (stored isProducer))

theorem storePos {pos : Int} (storing : (state.threads actor).pc = .storing index pos) :
    Valid config (QueueVariant.setPc (storePos config state actor.role index pos) actor .idle) := by
  obtain ⟨refused, own⟩ := valid.threads actor
  rw [storing] at own
  obtain ⟨_, turn, written, rfl⟩ := own
  have held : assigned (state.threads actor).pc = some index := by
    rw [storing]
    rfl
  have kept : ∀ other otherIndex, other ≠ actor → Turn config state other.role otherIndex →
      assigned (state.threads other).pc = some otherIndex ∨ state.cursor other.role = otherIndex →
      (QueueVariant.storePos config state actor.role index
        (state.pos (config.getInQueueIndex index))).pos (config.getInQueueIndex otherIndex) =
          state.pos (config.getInQueueIndex otherIndex) := by
    intro other otherIndex apart atTurn user
    exact update_of_ne (valid.slot_ne held turn atTurn apart user) _ _
  apply ofShared
  · obtain ⟨role, id⟩ := actor
    cases role with
    | producer => exact valid.toShared.post turn written
    | consumer => exact valid.toShared.free turn
  · apply valid.unique.keep
    nofun
  · exact ⟨refused, trivial⟩
  · intro other apart
    refine ⟨(valid.threads other).refused,
      (valid.threads other).pc.stable .refl ?_ ?_ ?_ ?_⟩
    · intro otherIndex user atTurn
      unfold Turn
      rw [kept other otherIndex apart atTurn (user.imp_right And.left)]
      exact atTurn
    · intro otherIndex taken atTurn
      exact (kept other otherIndex apart atTurn (.inl taken)).symm
    · exact fun _ _ => id
    · exact fun _ _ _ => id

theorem startWait (actor : Actor) : Valid config (startWait state actor) := by
  apply valid.takeCursor
  · rfl
  · nofun
  · refine ⟨?_, valid.cursor_unaccessed actor.role⟩
    simp only [QueueVariant.grant, update_self]
    exact Nat.lt_succ_self _

theorem startTry (actor : Actor) : Valid config (startTry state actor) := by
  apply valid.setThread
  · refine ⟨?_, trivial⟩
    nofun
  · apply valid.unique.keep
    nofun

theorem swap (swapping : (state.threads actor).pc = .swapping index)
    (current : state.cursor actor.role = index) :
    Valid config (QueueVariant.exit (QueueVariant.grant state actor.role) actor .kSuccess
      (.accessing index)) := by
  obtain ⟨_, own⟩ := valid.threads actor
  rw [swapping] at own
  subst current
  apply valid.takeCursor
  · rfl
  · cases actor.role
    all_goals simp [refusal]
  · refine ⟨?_, valid.cursor_unaccessed actor.role, own.2 rfl⟩
    simp only [QueueVariant.grant, update_self]
    exact Nat.lt_succ_self _

theorem stepThread (observed : Observed config state)
    (went : stepThread config state actor = some next) : Valid config next := by
  obtain ⟨_, own⟩ := valid.threads actor
  have running : (state.threads actor).pc ≠ .idle → Refused config state actor.role →
      (state.threads actor).sawRefused = true := observed actor
  have succeeds : ReturnCode.kSuccess = refusal actor.role →
      (state.threads actor).sawRefused = true := by
    cases actor.role
    all_goals simp [refusal]
  unfold QueueVariant.stepThread at went
  cases pc : (state.threads actor).pc with
  | idle | accessing => simp [pc] at went
  | waiting index =>
    simp only [pc] at went own
    split at went <;> cases went
    next ready => exact valid.exit ⟨own.1, own.2, ready⟩ succeeds (by simp [pc, assigned])
    · exact valid.setPc own (by simp [pc, assigned])
  | alerting index =>
    simp only [pc] at went own
    split at went <;> cases went
    · refine valid.exit trivial ?_ (by simp [assigned])
      cases actor.role
      all_goals simp [refusal]
    · exact valid.setPc own (by simp [pc, assigned])
  | loading =>
    simp only [pc] at went
    cases went
    exact valid.setPc .refl (by simp [assigned])
  | checking index =>
    simp only [pc] at went own
    split at went <;> cases went
    next ready => exact valid.setPc ⟨own, fun _ => ready⟩ (by simp [assigned])
    next refused =>
      refine valid.setPc ⟨own, ?_⟩ (by simp [assigned])
      intro current
      apply running (by simp [pc])
      unfold Refused
      rw [current]
      exact refused
  | rechecking index =>
    simp only [pc] at went own
    split at went <;> cases went
    next current => exact valid.exit trivial (fun _ => own.2 current.symm) (by simp [assigned])
    · exact valid.setPc trivial (by simp [assigned])
  | swapping index =>
    simp only [pc] at went
    split at went <;> cases went
    next current => exact valid.swap pc current
    · exact valid.setPc trivial (by simp [assigned])
  | accessed index =>
    simp only [pc] at went own
    cases went
    exact valid.setPc ⟨own.1, own.2.1, own.2.2, rfl⟩ (by simp [pc, assigned])
  | storing index pos =>
    simp only [pc] at went
    cases went
    exact valid.storePos pc

theorem move (observed : Observed config state) {action : Action Value}
    (moved : move config state action = some next) : Valid config next := by
  cases action with
  | mpAllocEntry id | mcWaitEntry id =>
    simp only [QueueVariant.move, startCall] at moved
    split at moved <;> cases moved
    exact valid.startWait _
  | mpTryAllocEntry id | mcTryWaitEntry id =>
    simp only [QueueVariant.move, startCall] at moved
    split at moved <;> cases moved
    exact valid.startTry _
  | «continue» actor => exact valid.stepThread observed moved
  | write id val =>
    simp only [QueueVariant.move] at moved
    split at moved <;> cases moved
    next i accessing => exact valid.writeEntry accessing
  | read id =>
    simp only [QueueVariant.move] at moved
    split at moved <;> cases moved
    next i accessing => exact valid.readEntry accessing
  | alert =>
    cases moved
    refine ⟨{ valid with }, valid.unique, ?_⟩
    intro actor
    exact ⟨(valid.threads actor).refused, (valid.threads actor).pc⟩

end Valid

theorem step_valid {action : Action Value} (valid : Valid config state ∧ Observed config state)
    (went : step config state action = some next) :
    Valid config next ∧ Observed config next := by
  obtain ⟨moved, made, rfl⟩ := Option.map_eq_some_iff.mp went
  exact ⟨(valid.1.move valid.2 made).observe, observed_observe config moved⟩

end AdkAaf.Adk.QueueVariant
