import AdkAaf.Adk.HashMap.Basic
import Mathlib.Data.Nat.Find

/-! The shape of the trie, stated over the assignment of buckets to the keys that
claimed them, and what `Find` answers on a trie of that shape. -/

set_option autoImplicit false

namespace AdkAaf.Adk.HashMap

variable {Key1 Key2 Value : Type}

abbrev Claims (Key1 Key2 : Type) := Address → Option (Key1 × Key2)

/-- The largest depth limit is never exceeded by the 16-bit counter of the walk, so
nothing bounds the trie there and no key overflows. -/
structure WellFormed (geometry : Geometry Key1 Key2) (claims : Claims Key1 Key2)
    (memory : Memory Key1 Key2 Value) : Prop where
  settled : geometry.probing.Settled claims
  used : ∀ place, (memory.bucket place).inusing = (claims place).isSome
  child_used : ∀ place, (memory.bucket place).child = true → (memory.bucket place).inusing = true
  parent : ∀ slot place, place ≠ [] → (memory.bucket (slot :: place)).inusing = true →
    (memory.bucket place).child = true
  shallow : geometry.deepLimit ≠ 65535 → ∀ place, (memory.bucket place).child = true →
    place.length ≤ geometry.deepLimit.toNat
  bounded : ∃ bound, ∀ place, (memory.bucket place).child = true → place.length ≤ bound
  overflow : ∀ position key value, (memory.bucketAlt position).find key = some value →
    position = geometry.level0Pos (geometry.keyHash key) ∧ geometry.deepLimit ≠ 65535 ∧
      geometry.probing.Passed claims key (geometry.deepLimit.toNat + 1)

def Filled (geometry : Geometry Key1 Key2) (claims : Claims Key1 Key2)
    (memory : Memory Key1 Key2 Value) : Prop :=
  ∀ place key, claims place = some key →
    (memory.bucket place).hashCode = geometry.keyHash key ∧ (memory.bucket place).keys = key

def Geometry.Within (geometry : Geometry Key1 Key2) (depth : Nat) : Prop :=
  geometry.deepLimit ≠ 65535 → depth ≤ geometry.deepLimit.toNat

theorem Geometry.Within.exceeds_iff {geometry : Geometry Key1 Key2} {depth : Nat}
    (within : geometry.Within depth) : geometry.deepLimit < UInt16.ofNat depth + 1 ↔
      geometry.deepLimit ≠ 65535 ∧ depth = geometry.deepLimit.toNat := by
  have next : UInt16.ofNat depth + 1 = UInt16.ofNat (depth + 1) := by
    rw [UInt16.ofNat_add, UInt16.ofNat_one]
  rw [next, UInt16.lt_iff_toNat_lt, UInt16.toNat_ofNat']
  have bound := geometry.deepLimit.toNat_lt
  constructor
  · intro exceeds
    have proper : geometry.deepLimit ≠ 65535 := by
      intro full
      rw [full, show (65535 : UInt16).toNat = 65535 from rfl] at exceeds
      omega
    have inside := within proper
    exact ⟨proper, by omega⟩
  · rintro ⟨proper, rfl⟩
    have small : geometry.deepLimit.toNat ≠ 65535 := by
      intro full
      exact proper (UInt16.toNat_inj.mp full)
    rw [Nat.mod_eq_of_lt (by omega)]
    exact Nat.lt_succ_self _

theorem wellFormed_create (config : Config Key1 Key2 Value) :
    WellFormed config.geometry (fun _ => none) config.memory where
  settled := by
    nofun
  used := by
    intro place
    rfl
  child_used := by
    nofun
  parent := by
    nofun
  shallow := by
    nofun
  bounded := by
    refine ⟨0, fun place linked => ?_⟩
    cases linked
  overflow := by
    nofun

theorem filled_create (config : Config Key1 Key2 Value) :
    Filled config.geometry (fun _ => none) config.memory := by
  nofun

namespace WellFormed

variable {geometry : Geometry Key1 Key2} {claims : Claims Key1 Key2}
variable {memory : Memory Key1 Key2 Value} {key : Key1 × Key2} {depth : Nat}

section

variable (formed : WellFormed geometry claims memory)
include formed

theorem inusing_iff (place : Address) :
    (memory.bucket place).inusing = true ↔ ∃ key, claims place = some key := by
  rw [formed.used, Option.isSome_iff_exists]

theorem inusing_of_claim {place : Address} (taken : claims place = some key) :
    (memory.bucket place).inusing = true :=
  (formed.inusing_iff place).mpr ⟨key, taken⟩

theorem free_iff (place : Address) :
    (memory.bucket place).inusing = false ↔ claims place = none := by
  rw [formed.used, Option.isSome_eq_false_iff, Option.isNone_iff_eq_none]

theorem parent_probe
    (used : (memory.bucket (geometry.probing.probe key (depth + 1))).inusing = true) :
    (memory.bucket (geometry.probing.probe key depth)).child = true := by
  obtain ⟨slot, path⟩ := geometry.probe_succ key depth
  rw [path] at used
  apply formed.parent slot _ _ used
  intro empty
  have length := geometry.length_probe key depth
  simp [empty] at length

theorem child_above {shallower : Nat}
    (used : (memory.bucket (geometry.probing.probe key depth)).inusing = true)
    (below : shallower < depth) :
    (memory.bucket (geometry.probing.probe key shallower)).child = true := by
  induction depth with
  | zero => exact absurd below (Nat.not_lt_zero shallower)
  | succ depth ih =>
    have linked := formed.parent_probe used
    cases Nat.lt_or_eq_of_le (Nat.le_of_lt_succ below) with
    | inl earlier => exact ih (formed.child_used _ linked) earlier
    | inr here => exact here ▸ linked

theorem exists_free (key : Key1 × Key2) :
    ∃ last, (memory.bucket (geometry.probing.probe key last)).inusing = false := by
  obtain ⟨bound, shallow⟩ := formed.bounded
  refine ⟨bound + 1, ?_⟩
  cases used : (memory.bucket (geometry.probing.probe key (bound + 1))).inusing with
  | false => rfl
  | true =>
    have within := shallow _ (formed.parent_probe used)
    rw [geometry.length_probe] at within
    omega

theorem exists_leaf (key : Key1 × Key2) :
    ∃ last, (memory.bucket (geometry.probing.probe key last)).child = false ∧
      ∀ shallower < last, (memory.bucket (geometry.probing.probe key shallower)).child = true := by
  obtain ⟨free, unused⟩ := formed.exists_free key
  have ends : ∃ last, (memory.bucket (geometry.probing.probe key last)).child = false := by
    refine ⟨free, ?_⟩
    cases linked : (memory.bucket (geometry.probing.probe key free)).child with
    | false => rfl
    | true => rw [formed.child_used _ linked] at unused; cases unused
  refine ⟨Nat.find ends, Nat.find_spec ends, fun shallower below => ?_⟩
  simpa using Nat.find_min ends below

theorem depth_le (proper : geometry.deepLimit ≠ 65535)
    (used : (memory.bucket (geometry.probing.probe key depth)).inusing = true) :
    depth ≤ geometry.deepLimit.toNat := by
  cases depth with
  | zero => exact Nat.zero_le _
  | succ depth =>
    have within := formed.shallow proper _ (formed.parent_probe used)
    rwa [geometry.length_probe] at within

theorem not_claimed_of_overflow {index : Nat} {val : Value}
    (found : (memory.bucketAlt index).find key = some val) {place : Address} :
    claims place ≠ some key := by
  intro taken
  obtain ⟨_, proper, passed⟩ := formed.overflow _ _ _ found
  obtain ⟨depth, rfl, _⟩ := formed.settled _ _ taken
  have within := formed.depth_le proper (formed.inusing_of_claim taken)
  have beyond := passed.lt_of_claim taken
  omega

theorem setContents {place : Address} {bucket : Bucket Key1 Key2 Value}
    (sameUse : bucket.inusing = (memory.bucket place).inusing)
    (sameChild : bucket.child = (memory.bucket place).child) :
    WellFormed geometry claims (memory.setBucket place bucket) := by
  have use : ∀ other, ((memory.setBucket place bucket).bucket other).inusing =
      (memory.bucket other).inusing := by
    intro other
    rw [Memory.setBucket_bucket]
    split
    next here => rw [here, sameUse]
    next => rfl
  have children : ∀ other, ((memory.setBucket place bucket).bucket other).child =
      (memory.bucket other).child := by
    intro other
    rw [Memory.setBucket_bucket]
    split
    next here => rw [here, sameChild]
    next => rfl
  constructor
  · exact formed.settled
  · simpa only [use] using formed.used
  · simpa only [use, children] using formed.child_used
  · simpa only [use, children] using formed.parent
  · simpa only [children] using formed.shallow
  · simpa only [children] using formed.bounded
  · exact formed.overflow

theorem link {place : Address} (used : (memory.bucket place).inusing = true)
    (within : geometry.deepLimit ≠ 65535 → place.length ≤ geometry.deepLimit.toNat) :
    WellFormed geometry claims (memory.setBucket place (memory.bucket place).setChild) := by
  have use : ∀ other,
      ((memory.setBucket place (memory.bucket place).setChild).bucket other).inusing =
        (memory.bucket other).inusing := by
    intro other
    rw [Memory.setBucket_bucket]
    split
    next here => rw [here]; rfl
    next => rfl
  have children : ∀ other,
      ((memory.setBucket place (memory.bucket place).setChild).bucket other).child = true ↔
        other = place ∨ (memory.bucket other).child = true := by
    intro other
    rw [Memory.setBucket_bucket]
    split
    next here => simp [here, Bucket.setChild]
    next apart => simp [apart]
  constructor
  · exact formed.settled
  · simpa only [use] using formed.used
  · intro other linked
    rw [use]
    cases (children other).mp linked with
    | inl here => exact here ▸ used
    | inr before => exact formed.child_used other before
  · intro slot other nonempty below
    rw [use] at below
    exact (children other).mpr (.inr (formed.parent slot other nonempty below))
  · intro proper other linked
    cases (children other).mp linked with
    | inl here => exact here ▸ within proper
    | inr before => exact formed.shallow proper other before
  · obtain ⟨bound, bounded⟩ := formed.bounded
    refine ⟨max bound place.length, fun other linked => ?_⟩
    cases (children other).mp linked with
    | inl here => exact here ▸ Nat.le_max_right _ _
    | inr before => exact Nat.le_trans (bounded other before) (Nat.le_max_left _ _)
  · exact formed.overflow

end

/-- The walk for a key has come to this depth: the places before it belong to other
keys, and the array it looks into is there. -/
structure Reached (geometry : Geometry Key1 Key2) (claims : Claims Key1 Key2)
    (memory : Memory Key1 Key2 Value) (key : Key1 × Key2) (depth : Nat) : Prop where
  passed : geometry.probing.Passed claims key depth
  linked : ∀ before, depth = before + 1 →
    (memory.bucket (geometry.probing.probe key before)).child = true

theorem claim (formed : WellFormed geometry claims memory)
    (reached : Reached geometry claims memory key depth)
    (free : (memory.bucket (geometry.probing.probe key depth)).inusing = false) :
    WellFormed geometry (geometry.probing.claim claims key depth)
      (memory.setBucket (geometry.probing.probe key depth)
        (memory.bucket (geometry.probing.probe key depth)).setInusing) := by
  have unclaimed := (formed.free_iff _).mp free
  have children : ∀ other, ((memory.setBucket (geometry.probing.probe key depth)
      (memory.bucket (geometry.probing.probe key depth)).setInusing).bucket other).child =
        (memory.bucket other).child := by
    intro other
    rw [Memory.setBucket_bucket]
    split
    next here => rw [here]; rfl
    next => rfl
  constructor
  · exact formed.settled.claim reached.passed unclaimed
  · intro other
    rw [Memory.setBucket_bucket]
    split
    next here => simp [here, Bucket.setInusing]
    next apart => rw [Lib.Probing.claim_of_ne apart, formed.used]
  · intro other linked
    rw [children] at linked
    have used := formed.child_used other linked
    rw [Memory.setBucket_bucket]
    split
    next => rfl
    next => exact used
  · intro slot other nonempty below
    rw [children]
    rw [Memory.setBucket_bucket] at below
    split at below
    next here =>
      cases depth with
      | zero =>
        have root : other = [] := (List.cons.inj here).2
        exact absurd root nonempty
      | succ before =>
        have tail : other = geometry.probing.probe key before := (List.cons.inj here).2
        exact tail ▸ reached.linked before rfl
    next => exact formed.parent slot other nonempty below
  · simpa only [children] using formed.shallow
  · simpa only [children] using formed.bounded
  · intro index other val found
    obtain ⟨home, proper, passed⟩ := formed.overflow index other val found
    exact ⟨home, proper, passed.extend (Lib.Probing.extends_claim unclaimed)⟩

theorem setOverflow [DecidableEq Key1] [DecidableEq Key2]
    (formed : WellFormed geometry claims memory) (proper : geometry.deepLimit ≠ 65535)
    (passed : geometry.probing.Passed claims key (geometry.deepLimit.toNat + 1))
    (val : Value) (cover : CallBack Value) :
    WellFormed geometry claims (memory.setAlt (geometry.level0Pos (geometry.keyHash key))
      ((memory.bucketAlt (geometry.level0Pos (geometry.keyHash key))).setNode key val cover)) := by
  constructor
  · exact formed.settled
  · exact formed.used
  · exact formed.child_used
  · exact formed.parent
  · exact formed.shallow
  · exact formed.bounded
  · intro index other held found
    rw [Memory.setAlt_bucketAlt] at found
    split at found
    next home =>
      rw [AltBucket.find_setNode] at found
      split at found
      next same => exact ⟨same ▸ home, proper, same ▸ passed⟩
      next => exact formed.overflow index other held (home ▸ found)
    next => exact formed.overflow index other held found

section Find

variable [DecidableEq Key1] [DecidableEq Key2]

section

variable (formed : WellFormed geometry claims memory) (filled : Filled geometry claims memory)
include formed filled

theorem findLoop_claimed {last fuel : Nat} {curDeep : UInt16}
    (taken : claims (geometry.probing.probe key last) = some key) (before : depth ≤ last)
    (enough : last < fuel + depth) :
    findLoop geometry memory key fuel (geometry.probing.probe key depth)
      (geometry.tempHash (geometry.keyHash key) depth) curDeep =
        some (.kSuccess, some (memory.bucket (geometry.probing.probe key last)).value) := by
  induction fuel generalizing depth curDeep with
  | zero => omega
  | succ fuel ih =>
    unfold findLoop
    cases Nat.lt_or_eq_of_le before with
    | inr here =>
      subst here
      obtain ⟨code, keys⟩ := filled _ _ taken
      rw [if_pos ⟨formed.inusing_of_claim taken, code.symm, congrArg Prod.fst keys.symm,
        congrArg Prod.snd keys.symm⟩]
    | inl earlier =>
      -- the bucket on the way belongs to another key
      obtain ⟨other, owned, apart⟩ := formed.settled.passed taken depth earlier
      obtain ⟨_, keys⟩ := filled _ _ owned
      have used := formed.inusing_of_claim taken
      rw [if_neg, if_pos (formed.child_above used earlier)]
      · exact ih earlier (by omega)
      · rintro ⟨_, _, first, second⟩
        exact apart (keys.symm.trans (Prod.ext first.symm second.symm))

theorem findLoop_absent {last fuel : Nat} (absent : ∀ place, claims place ≠ some key)
    (before : depth ≤ last) (leaf : (memory.bucket (geometry.probing.probe key last)).child = false)
    (linked : ∀ shallower < last,
      (memory.bucket (geometry.probing.probe key shallower)).child = true)
    (enough : last < fuel + depth) :
    findLoop geometry memory key fuel (geometry.probing.probe key depth)
      (geometry.tempHash (geometry.keyHash key) depth) (UInt16.ofNat depth) =
        some (findAlt geometry memory key (UInt16.ofNat last)) := by
  induction fuel generalizing depth with
  | zero => omega
  | succ fuel ih =>
    unfold findLoop
    rw [if_neg]
    · cases Nat.lt_or_eq_of_le before with
      | inr here =>
        subst here
        rw [leaf]
        rfl
      | inl earlier =>
        rw [if_pos (linked depth earlier), ← UInt16.ofNat_one, ← UInt16.ofNat_add]
        exact ih earlier (by omega)
    · rintro ⟨used, _, first, second⟩
      obtain ⟨other, owned⟩ := (formed.inusing_iff _).mp used
      obtain ⟨_, keys⟩ := filled _ _ owned
      have same : other = key := keys.symm.trans (Prod.ext first.symm second.symm)
      exact absent _ (same ▸ owned)

theorem find_claimed {place : Address} (taken : claims place = some key) :
    ∃ enough, ∀ fuel ≥ enough, find geometry fuel key.1 key.2 memory =
      some (.kSuccess, some (memory.bucket place).value) := by
  obtain ⟨last, rfl, _⟩ := formed.settled _ _ taken
  refine ⟨last + 1, fun fuel large => ?_⟩
  exact formed.findLoop_claimed filled taken (Nat.zero_le last) (by omega)

theorem find_unclaimed (absent : ∀ place, claims place ≠ some key) :
    ∃ enough, ∀ fuel ≥ enough, find geometry fuel key.1 key.2 memory = some (answer
        ((memory.bucketAlt (geometry.level0Pos (geometry.keyHash key))).find key)) := by
  obtain ⟨last, leaf, linked⟩ := formed.exists_leaf key
  refine ⟨last + 1, fun fuel large => ?_⟩
  have walked := formed.findLoop_absent filled absent (Nat.zero_le last) leaf linked
    (show last < fuel + 0 by omega)
  refine Eq.trans walked (congrArg some ?_)
  unfold findAlt
  split
  next early =>
    cases held : (memory.bucketAlt (geometry.level0Pos (geometry.keyHash key))).find key with
    | none => rfl
    | some val =>
      obtain ⟨_, proper, passed⟩ := formed.overflow _ _ _ held
      obtain ⟨other, owned, _⟩ := passed geometry.deepLimit.toNat (Nat.lt_succ_self _)
      have small : ¬last < geometry.deepLimit.toNat := by
        intro below
        rw [formed.child_above (formed.inusing_of_claim owned) below] at leaf
        cases leaf
      have within : last ≤ geometry.deepLimit.toNat := by
        cases last with
        | zero => exact Nat.zero_le _
        | succ before =>
          have depth := formed.shallow proper _ (linked before (Nat.lt_succ_self _))
          rwa [geometry.length_probe] at depth
      have exact : last = geometry.deepLimit.toNat := by omega
      rw [exact, UInt16.ofNat_toNat] at early
      exact absurd early (UInt16.lt_irrefl _)
  next => rfl

end

end Find

end WellFormed

end AdkAaf.Adk.HashMap
