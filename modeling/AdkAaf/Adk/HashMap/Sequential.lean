import AdkAaf.Adk.HashMap.Invariant
import AdkAaf.Adk.HashMap.Layout

/-! Calls of one thread: `Insert` and `Find` against the finite map they implement. -/

set_option autoImplicit false

namespace AdkAaf.Adk.HashMap

open Function Lib Option

variable {Key1 Key2 Value : Type}

inductive Call (Key1 Key2 Value : Type) where
  | insert (key1 : Key1) (key2 : Key2) (value : Value) (cover : CallBack Value)
  | find (key1 : Key1) (key2 : Key2)

/-- The code a call returns and, for a successful `Find`, the value it points to. -/
abbrev Outcome (Value : Type) := ErrorCode × Option Value

section Runs

variable [DecidableEq Key1] [DecidableEq Key2]

def call (geometry : Geometry Key1 Key2) (fuel : Nat) (memory : Memory Key1 Key2 Value) :
    Call Key1 Key2 Value → Option (Outcome Value × Memory Key1 Key2 Value)
  | .insert key1 key2 value cover =>
    (insert geometry fuel key1 key2 value cover memory).map fun (code, next) =>
      ((code, none), next)
  | .find key1 key2 =>
    (find geometry fuel key1 key2 memory).map fun outcome => (outcome, memory)

def run (geometry : Geometry Key1 Key2) (fuel : Nat) :
    Memory Key1 Key2 Value → List (Call Key1 Key2 Value) → Option (List (Outcome Value))
  | _, [] => some []
  | memory, first :: rest =>
    (call geometry fuel memory first).bind fun (outcome, next) =>
      (run geometry fuel next rest).map fun outcomes => outcome :: outcomes

abbrev FiniteMap (Key1 Key2 Value : Type) := Key1 × Key2 → Option Value

namespace FiniteMap

def insert (entries : FiniteMap Key1 Key2 Value) (key : Key1 × Key2) (value : Value)
    (cover : CallBack Value) : FiniteMap Key1 Key2 Value :=
  update entries key (some (inserted value cover (entries key)))

def find (entries : FiniteMap Key1 Key2 Value) (key : Key1 × Key2) : Outcome Value :=
  answer (entries key)

def run : FiniteMap Key1 Key2 Value → List (Call Key1 Key2 Value) → List (Outcome Value)
  | _, [] => []
  | entries, .insert key1 key2 value cover :: rest =>
    (.kSuccess, none) :: run (entries.insert (key1, key2) value cover) rest
  | entries, .find key1 key2 :: rest => entries.find (key1, key2) :: run entries rest

end FiniteMap

end Runs

/-- Every bucket that `Insert` may try has another key. -/
def Geometry.Overflows (geometry : Geometry Key1 Key2) (memory : Memory Key1 Key2 Value)
    (key : Key1 × Key2) : Prop :=
  ∀ depth ≤ geometry.deepLimit.toNat,
    (memory.bucket (geometry.probing.probe key depth)).inusing = true ∧
      (memory.bucket (geometry.probing.probe key depth)).keys ≠ key

/-- No call increments what lies behind `usage_counter_`, unless there is room for it. -/
def CountsInside [DecidableEq Key1] [DecidableEq Key2] (geometry : Geometry Key1 Key2) :
    Memory Key1 Key2 Value → List (Call Key1 Key2 Value) → Prop
  | _, [] => True
  | memory, first :: rest =>
    (∀ key1 key2 value cover, first = .insert key1 key2 value cover →
      geometry.Overflows memory (key1, key2) → geometry.counterSlack = true) ∧
    ∀ fuel outcome next, call geometry fuel memory first = some (outcome, next) →
      CountsInside geometry next rest

/-- The trie with its overflow maps stores exactly the entries of a finite map. -/
structure Represents (geometry : Geometry Key1 Key2) (claims : Claims Key1 Key2)
    (memory : Memory Key1 Key2 Value) (entries : FiniteMap Key1 Key2 Value) : Prop where
  formed : WellFormed geometry claims memory
  filled : Filled geometry claims memory
  claimed : ∀ place key, claims place = some key →
    entries key = some (memory.bucket place).value
  unclaimed : ∀ key, (∀ place, claims place ≠ some key) →
    entries key = (memory.bucketAlt (geometry.level0Pos (geometry.keyHash key))).find key

theorem represents_create (config : Config Key1 Key2 Value) :
    Represents config.geometry (fun _ => none) config.memory (fun _ => none) where
  formed := wellFormed_create config
  filled := filled_create config
  claimed := by
    nofun
  unclaimed := by
    intro key _
    rfl

namespace Represents

variable {geometry : Geometry Key1 Key2} {claims : Claims Key1 Key2}
variable {memory : Memory Key1 Key2 Value} {entries : FiniteMap Key1 Key2 Value}
variable {key : Key1 × Key2} {depth : Nat} {value : Value} {cover : CallBack Value}

theorem link (represents : Represents geometry claims memory entries) {place : Address}
    (used : (memory.bucket place).inusing = true)
    (within : geometry.deepLimit ≠ 65535 → place.length ≤ geometry.deepLimit.toNat) :
    Represents geometry claims (memory.setBucket place (memory.bucket place).setChild) entries := by
  have contents : ∀ other, ((memory.setBucket place
      (memory.bucket place).setChild).bucket other).hashCode = (memory.bucket other).hashCode ∧
      ((memory.setBucket place (memory.bucket place).setChild).bucket other).keys =
        (memory.bucket other).keys ∧
      ((memory.setBucket place (memory.bucket place).setChild).bucket other).value =
        (memory.bucket other).value := by
    intro other
    rw [Memory.setBucket_bucket]
    split
    next here => exact here ▸ ⟨rfl, rfl, rfl⟩
    next => exact ⟨rfl, rfl, rfl⟩
  constructor
  · exact represents.formed.link used within
  · intro other key taken
    rw [(contents other).1, (contents other).2.1]
    exact represents.filled other key taken
  · intro other key taken
    rw [(contents other).2.2]
    exact represents.claimed other key taken
  · exact represents.unclaimed

theorem absent_of_free (represents : Represents geometry claims memory entries)
    (within : geometry.Within depth) (free : claims (geometry.probing.probe key depth) = none)
    (passed : geometry.probing.Passed claims key depth) :
    (∀ place, claims place ≠ some key) ∧ entries key = none := by
  have beyond : ∀ further, geometry.probing.Passed claims key further → further ≤ depth := by
    intro further passes
    apply Nat.le_of_not_lt
    intro past
    obtain ⟨other, owned, _⟩ := passes depth past
    rw [free] at owned
    cases owned
  have absent : ∀ place, claims place ≠ some key := by
    intro place taken
    obtain ⟨further, rfl, passes⟩ := represents.formed.settled place key taken
    have same := Nat.le_antisymm (beyond further passes) (passed.lt_of_claim taken)
    rw [same, free] at taken
    cases taken
  refine ⟨absent, ?_⟩
  rw [represents.unclaimed key absent]
  cases held : (memory.bucketAlt (geometry.level0Pos (geometry.keyHash key))).find key with
  | none => rfl
  | some old =>
    obtain ⟨_, proper, passes⟩ := represents.formed.overflow _ _ _ held
    have past := beyond _ passes
    have inside := within proper
    omega

variable [DecidableEq Key1] [DecidableEq Key2]

section

variable (represents : Represents geometry claims memory entries)
include represents

theorem find_eq (key : Key1 × Key2) :
    ∃ enough, ∀ fuel ≥ enough, find geometry fuel key.1 key.2 memory = some (entries.find key) := by
  by_cases owned : ∃ place, claims place = some key
  · obtain ⟨place, taken⟩ := owned
    have held := represents.claimed place key taken
    simpa only [FiniteMap.find, held, answer] using
      represents.formed.find_claimed represents.filled taken
  · have absent : ∀ place, claims place ≠ some key := fun place taken => owned ⟨place, taken⟩
    have held := represents.unclaimed key absent
    simpa only [FiniteMap.find, held] using
      represents.formed.find_unclaimed represents.filled absent

theorem claimNode (within : geometry.Within depth)
    (reached : WellFormed.Reached geometry claims memory key depth)
    (free : (memory.bucket (geometry.probing.probe key depth)).inusing = false) :
    Represents geometry (geometry.probing.claim claims key depth)
      (memory.setBucket (geometry.probing.probe key depth)
        ((memory.bucket (geometry.probing.probe key depth)).setInusing.setNode
          key value (geometry.keyHash key))) (entries.insert key value cover) := by
  have unclaimed := (represents.formed.free_iff _).mp free
  obtain ⟨absent, missing⟩ := represents.absent_of_free within unclaimed reached.passed
  have owned : ∀ place other, geometry.probing.claim claims key depth place = some other →
      (place = geometry.probing.probe key depth ∧ other = key) ∨
        (place ≠ geometry.probing.probe key depth ∧ claims place = some other ∧ other ≠ key) := by
    intro place other taken
    by_cases here : place = geometry.probing.probe key depth
    · rw [here, Probing.claim_self] at taken
      exact .inl ⟨here, (some.inj taken).symm⟩
    · rw [Probing.claim_of_ne here] at taken
      exact .inr ⟨here, taken, fun same => absent place (same ▸ taken)⟩
  constructor
  · have claimed := represents.formed.claim reached free
    rw [← Memory.setBucket_setBucket]
    apply claimed.setContents
    all_goals simp [Memory.setBucket_bucket, Bucket.setNode, Bucket.setHash, Bucket.setKeys]
  · intro place other taken
    rw [Memory.setBucket_bucket]
    rcases owned place other taken with ⟨here, rfl⟩ | ⟨apart, before, _⟩
    · rw [if_pos here]
      exact ⟨rfl, rfl⟩
    · rw [if_neg apart]
      exact represents.filled place other before
  · intro place other taken
    rw [Memory.setBucket_bucket]
    rcases owned place other taken with ⟨here, rfl⟩ | ⟨apart, before, different⟩
    · rw [if_pos here]
      simp [FiniteMap.insert, missing, inserted, Bucket.setNode, Bucket.setKeys]
    · rw [if_neg apart, FiniteMap.insert, update_of_ne different]
      exact represents.claimed place other before
  · intro other none
    have different : other ≠ key := by
      rintro rfl
      exact none _ Probing.claim_self
    rw [FiniteMap.insert, update_of_ne different]
    apply represents.unclaimed
    intro place taken
    exact none place (Probing.extends_claim unclaimed _ _ taken)

theorem coverNode {place : Address} (taken : claims place = some key) :
    Represents geometry claims (memory.setBucket place ((memory.bucket place).cover value cover))
      (entries.insert key value cover) := by
  have same : ((memory.bucket place).cover value cover).hashCode = (memory.bucket place).hashCode ∧
      ((memory.bucket place).cover value cover).keys = (memory.bucket place).keys ∧
      ((memory.bucket place).cover value cover).inusing = (memory.bucket place).inusing ∧
      ((memory.bucket place).cover value cover).child = (memory.bucket place).child := by
    unfold Bucket.cover
    split <;> exact ⟨rfl, rfl, rfl, rfl⟩
  obtain ⟨sameHash, sameKeys, sameUse, sameChild⟩ := same
  constructor
  · exact represents.formed.setContents sameUse sameChild
  · intro other owner owned
    rw [Memory.setBucket_bucket]
    split
    next here =>
      rw [sameHash, sameKeys]
      exact represents.filled place owner (here ▸ owned)
    next => exact represents.filled other owner owned
  · intro other owner owned
    rw [Memory.setBucket_bucket]
    split
    next here =>
      have self : owner = key := some.inj ((here ▸ owned).symm.trans taken)
      rw [self, FiniteMap.insert, update_self, Bucket.value_cover,
        represents.claimed place key taken]
    next apart =>
      have different : owner ≠ key := by
        rintro rfl
        exact apart (represents.formed.settled.unique owned taken)
      rw [FiniteMap.insert, update_of_ne different]
      exact represents.claimed other owner owned
  · intro other none
    have different : other ≠ key := by
      rintro rfl
      exact none place taken
    rw [FiniteMap.insert, update_of_ne different]
    exact represents.unclaimed other none

theorem overflowNode (proper : geometry.deepLimit ≠ 65535)
    (passed : geometry.probing.Passed claims key (geometry.deepLimit.toNat + 1)) :
    Represents geometry claims (memory.setAlt (geometry.level0Pos (geometry.keyHash key))
        ((memory.bucketAlt (geometry.level0Pos (geometry.keyHash key))).setNode key value cover))
      (entries.insert key value cover) := by
  have absent : ∀ place, claims place ≠ some key := by
    intro place taken
    obtain ⟨further, rfl, _⟩ := represents.formed.settled place key taken
    have inside := represents.formed.depth_le proper (represents.formed.inusing_of_claim taken)
    have past := passed.lt_of_claim taken
    omega
  constructor
  · exact represents.formed.setOverflow proper passed value cover
  · exact represents.filled
  · intro place other taken
    have apart : other ≠ key := by
      rintro rfl
      exact absent place taken
    rw [FiniteMap.insert, update_of_ne apart]
    exact represents.claimed place other taken
  · intro other none
    rw [Memory.setAlt_bucketAlt]
    by_cases same : other = key
    · subst same
      rw [if_pos rfl, AltBucket.find_setNode, if_pos rfl, FiniteMap.insert, update_self,
        represents.unclaimed other absent]
    · rw [FiniteMap.insert, update_of_ne same, represents.unclaimed other none]
      split
      next home => rw [AltBucket.find_setNode, if_neg same, home]
      next => rfl

theorem compareAndCover_eq {place : Address} {owner : Key1 × Key2}
    (taken : claims place = some owner) :
    (memory.bucket place).compareAndCover key value (geometry.keyHash key) cover =
      if owner = key then (.kSuccess, (memory.bucket place).cover value cover)
      else (.kFailure, memory.bucket place) := by
  obtain ⟨code, keys⟩ := represents.filled place owner taken
  unfold Bucket.compareAndCover
  by_cases same : owner = key
  · subst same
    have first : (memory.bucket place).key1 = owner.1 := congrArg Prod.fst keys
    have second : (memory.bucket place).key2 = owner.2 := congrArg Prod.snd keys
    simp [code, first, second]
  · rw [if_neg same]
    split
    next => rfl
    next =>
      rw [if_pos]
      apply not_and_or.mp
      rintro ⟨first, second⟩
      exact same (keys.symm.trans (Prod.ext first second))

omit [DecidableEq Key1] [DecidableEq Key2] in
theorem overflows (passed : geometry.probing.Passed claims key (geometry.deepLimit.toNat + 1)) :
    geometry.Overflows memory key := by
  intro depth inside
  obtain ⟨other, taken, apart⟩ := passed depth (Nat.lt_succ_of_le inside)
  exact ⟨represents.formed.inusing_of_claim taken,
    fun same => apart ((represents.filled _ _ taken).2.symm.trans same)⟩

theorem insertLoop_eq (rounds : Nat) (within : geometry.Within depth)
    (reached : WellFormed.Reached geometry claims memory key depth)
    (free : (memory.bucket (geometry.probing.probe key (depth + rounds))).inusing = false)
    (room : geometry.probing.Passed claims key (geometry.deepLimit.toNat + 1) →
      geometry.counterSlack = true) :
    ∃ after owners, Represents geometry owners after (entries.insert key value cover) ∧
      ∀ fuel > rounds, insertLoop geometry key value cover fuel
        (geometry.probing.probe key depth) (geometry.tempHash (geometry.keyHash key) depth)
        (UInt16.ofNat depth) memory = some (.kSuccess, after) := by
  induction rounds generalizing depth memory with
  | zero =>
    refine ⟨_, _, represents.claimNode within reached free, fun fuel positive => ?_⟩
    obtain ⟨fuel, rfl⟩ := Nat.exists_eq_add_of_lt positive
    rw [insertLoop, Nat.add_zero] at *
    simp [free, Bool.false_eq_true]
  | succ rounds ih =>
    by_cases used : (memory.bucket (geometry.probing.probe key depth)).inusing = true
    · obtain ⟨owner, taken⟩ := (represents.formed.inusing_iff _).mp used
      by_cases same : owner = key
      · -- the key is already there
        refine ⟨_, _, represents.coverNode (same ▸ taken), fun fuel large => ?_⟩
        obtain ⟨fuel, rfl⟩ := Nat.exists_eq_add_of_lt large
        rw [insertLoop]
        simp [used, represents.compareAndCover_eq taken, same]
      · have further := reached.passed.succ taken same
        by_cases exceeds : geometry.deepLimit < UInt16.ofNat depth + 1
        · obtain ⟨proper, limit⟩ := within.exceeds_iff.mp exceeds
          refine ⟨_, _, represents.overflowNode proper (limit ▸ further), fun fuel large => ?_⟩
          obtain ⟨fuel, rfl⟩ := Nat.exists_eq_add_of_lt large
          rw [insertLoop]
          simp [used, represents.compareAndCover_eq taken, same, exceeds, room (limit ▸ further)]
        · have deeper : geometry.Within (depth + 1) := by
            intro proper
            apply Nat.lt_of_le_of_ne (within proper)
            intro limit
            exact exceeds (within.exceeds_iff.mpr ⟨proper, limit⟩)
          have extended := represents.link used (by rwa [geometry.length_probe])
          have arrived : WellFormed.Reached geometry claims
              (memory.setBucket (geometry.probing.probe key depth)
                (memory.bucket (geometry.probing.probe key depth)).setChild)
              key (depth + 1) := by
            refine ⟨further, fun before here => ?_⟩
            cases here
            simp [Memory.setBucket_bucket, Bucket.setChild]
          obtain ⟨after, owners, result, ran⟩ := ih extended deeper arrived (by
            have apart : geometry.probing.probe key (depth + 1 + rounds) ≠
                geometry.probing.probe key depth := by
              intro equal
              have depths := geometry.probing.depth_unique equal
              omega
            rw [Memory.setBucket_bucket, if_neg apart, ← free]
            congr 3
            omega)
          refine ⟨after, owners, result, fun fuel large => ?_⟩
          obtain ⟨fuel, rfl⟩ := Nat.exists_eq_add_of_lt large
          have loop := ran (rounds + 1 + fuel) (by omega)
          rw [insertLoop]
          simp only [used, if_true, represents.compareAndCover_eq taken, same, if_false, exceeds]
          rwa [UInt16.ofNat_add, UInt16.ofNat_one] at loop
    · have unused := Bool.not_eq_true _ ▸ used
      refine ⟨_, _, represents.claimNode within reached unused, fun fuel large => ?_⟩
      obtain ⟨fuel, rfl⟩ := Nat.exists_eq_add_of_lt large
      rw [insertLoop]
      simp [unused, Bool.false_eq_true]

theorem insert_eq (key : Key1 × Key2) (value : Value) (cover : CallBack Value)
    (room : geometry.Overflows memory key → geometry.counterSlack = true) :
    ∃ after owners enough, Represents geometry owners after (entries.insert key value cover) ∧
      ∀ fuel ≥ enough, insert geometry fuel key.1 key.2 value cover memory =
        some (.kSuccess, after) := by
  obtain ⟨last, free⟩ := represents.formed.exists_free key
  have start : WellFormed.Reached geometry claims memory key 0 := by
    refine ⟨Probing.Passed.zero, fun before here => ?_⟩
    cases here
  obtain ⟨after, owners, result, ran⟩ := represents.insertLoop_eq last
    (fun _ => Nat.zero_le _) start (by rwa [Nat.zero_add])
    fun passed => room (represents.overflows passed)
  exact ⟨after, owners, last + 1, result, ran⟩

theorem run_eq (calls : List (Call Key1 Key2 Value))
    (inside : CountsInside geometry memory calls) :
    ∃ enough, ∀ fuel ≥ enough, run geometry fuel memory calls = some (entries.run calls) := by
  induction calls generalizing claims memory entries with
  | nil => exact ⟨0, fun _ _ => rfl⟩
  | cons first rest ih =>
    cases first with
    | insert key1 key2 val cover =>
      obtain ⟨after, owners, enough, result, inserts⟩ :=
        represents.insert_eq (key1, key2) val cover (inside.1 _ _ _ _ rfl)
      have stepped : ∀ fuel ≥ enough, call geometry fuel memory (.insert key1 key2 val cover) =
          some ((.kSuccess, none), after) := by
        intro fuel large
        simp [call, inserts fuel large]
      obtain ⟨more, continues⟩ := ih result (inside.2 _ _ _ (stepped enough (Nat.le_refl _)))
      refine ⟨max enough more, fun fuel large => ?_⟩
      have ran := stepped fuel (Nat.le_trans (Nat.le_max_left _ _) large)
      have rested := continues fuel (Nat.le_trans (Nat.le_max_right _ _) large)
      simp [run, ran, map_some, bind_some, rested, FiniteMap.run]
    | find key1 key2 =>
      obtain ⟨enough, finds⟩ := represents.find_eq (key1, key2)
      have stepped : ∀ fuel ≥ enough, call geometry fuel memory (.find key1 key2) =
          some (entries.find (key1, key2), memory) := by
        intro fuel large
        simp [call, finds fuel large]
      obtain ⟨more, continues⟩ := ih represents (inside.2 _ _ _ (stepped enough (Nat.le_refl _)))
      refine ⟨max enough more, fun fuel large => ?_⟩
      have ran := stepped fuel (Nat.le_trans (Nat.le_max_left _ _) large)
      have rested := continues fuel (Nat.le_trans (Nat.le_max_right _ _) large)
      simp [run, ran, map_some, bind_some, rested, FiniteMap.run]

end

end Represents

/-- `Create`: the new map, unless `Init` is still running after `fuel` rounds. Buckets outside
of the block, or on the bytes of others, are no map. -/
def Config.create (config : Config Key1 Key2 Value) (sizeofBucket : UInt32) (fuel : Nat) :
    Option (Memory Key1 Key2 Value) :=
  if clearUsageCounter config.deepLimit fuel 0 ∧
      (Layout.make config.bucketInitNum config.bucketExtNum sizeofBucket).Laid config.bucketExtNum
        sizeofBucket then
    some config.memory
  else
    none

theorem Config.create_iff (config : Config Key1 Key2 Value) (sizeofBucket : UInt32) :
    (∃ enough, ∀ fuel ≥ enough, config.create sizeofBucket fuel = some config.memory) ↔
      config.deepLimit ≠ 65535 ∧
        Layout.Fits config.bucketInitNum config.bucketExtNum sizeofBucket := by
  rw [← Layout.laid_iff_fits]
  constructor
  · rintro ⟨enough, created⟩
    have returned := ite_none_right_eq_some.mp (created enough (Nat.le_refl enough))
    refine ⟨fun full => ?_, returned.1.2⟩
    rw [full, clearUsageCounter_never] at returned
    exact Bool.false_ne_true returned.1.1
  · rintro ⟨proper, laid⟩
    refine ⟨config.deepLimit.toNat + 2, fun fuel large => if_pos ⟨?_, laid⟩⟩
    apply clearUsageCounter_ends proper
    · exact Nat.zero_le _
    · exact Nat.lt_of_lt_of_le (Nat.lt_succ_self _) large

/-- `Create` returns a map, and every sequence of calls on it returns what the finite
map returns that starts out empty, as long as the counters are incremented in their array. -/
def IsFiniteMap [DecidableEq Key1] [DecidableEq Key2] (config : Config Key1 Key2 Value)
    (sizeofBucket : UInt32) : Prop :=
  (∃ enough, ∀ fuel ≥ enough, config.create sizeofBucket fuel = some config.memory) ∧
    ∀ calls : List (Call Key1 Key2 Value), CountsInside config.geometry config.memory calls →
      ∃ enough, ∀ fuel ≥ enough,
        run config.geometry fuel config.memory calls = some (FiniteMap.run (fun _ => none) calls)

theorem isFiniteMap_iff [DecidableEq Key1] [DecidableEq Key2] (config : Config Key1 Key2 Value)
    (sizeofBucket : UInt32) : IsFiniteMap config sizeofBucket ↔ config.deepLimit ≠ 65535 ∧
      Layout.Fits config.bucketInitNum config.bucketExtNum sizeofBucket := by
  rw [← config.create_iff]
  exact and_iff_left (represents_create config).run_eq

/-- With the largest depth limit `Create` does not return. -/
theorem not_isFiniteMap_largest_limit :
    ¬IsFiniteMap ({
      bucketInitNum := 16, deepLimit := 65535, bucketExtNum := 8
      hash := fun first second => first.toUInt64 + second.toUInt64
      initKey1 := 0, initKey2 := 0, initValue := 0, counterSlack := true
      bucketInitNum_power := ⟨4, rfl⟩
      bucketExtNum_power := ⟨3, rfl⟩ } : Config UInt32 UInt32 UInt32) 64 := by
  rintro ⟨created, _⟩
  exact ((Config.create_iff _ _).mp created).1 rfl

end AdkAaf.Adk.HashMap
