import AdkAaf.Adk.ArchGeneric
import AdkAaf.Lib.ProbeClaims

/-! `HashMap` of `adk/include/adk/hash_map.h`: a trie of bucket arrays indexed by
successive bits of the hash, with one overflow map per root slot for the keys that
find no bucket down to the depth limit.

A child array is reached through its parent's `child` pointer only and is never
replaced, so a bucket is addressed by the slots on the way to it, the deepest slot
first, and `child` is the flag that the pointer is not null. The pool that supplies
the initialised child arrays and the `HASH_MAP_DEBUG` statistics are left out, except for
the loop that clears them and the write behind them. -/

set_option autoImplicit false

namespace AdkAaf.Adk.HashMap

open Function

inductive ErrorCode where
  | kSuccess
  | kFailure

structure Bucket (Key1 Key2 Value : Type) where
  key1 : Key1
  key2 : Key2
  value : Value
  hashCode : UInt64 := 0
  child : Bool := false
  inusing : Bool := false

structure AltBucket (Key1 Key2 Value : Type) where
  altCacheMap : Option (Key1 × Key2 → Option Value) := none

abbrev Address := List Nat

variable {Key1 Key2 Value : Type}

/-- The arguments of `Create`, with the hash function of the instance, the key and value
that `Bucket::Init` leaves in a fresh bucket, and whether the allocator leaves room for an
element behind `usage_counter_`. -/
structure Config (Key1 Key2 Value : Type) where
  bucketInitNum : UInt32
  deepLimit : UInt16
  bucketExtNum : UInt16
  hash : Key1 → Key2 → UInt64
  initKey1 : Key1
  initKey2 : Key2
  initValue : Value
  counterSlack : Bool
  bucketInitNum_power : ∃ exponent, bucketInitNum.toNat = 2 ^ exponent
  bucketExtNum_power : ∃ exponent, bucketExtNum.toNat = 2 ^ exponent

structure Geometry (Key1 Key2 : Type) where
  bucketInitNumMask : UInt32
  bucketExtNumMask : UInt16
  bucketInitNumBits : Nat
  bucketExtNumBits : Nat
  deepLimit : UInt16
  hash : Key1 → Key2 → UInt64
  counterSlack : Bool

structure Memory (Key1 Key2 Value : Type) where
  bucket : Address → Bucket Key1 Key2 Value
  bucketAlt : Nat → AltBucket Key1 Key2 Value

namespace Config

variable (config : Config Key1 Key2 Value)

def initNum : UInt32 := roundToPowerOf2 config.bucketInitNum

-- the header keeps the extension number in 16 bits
def extNum : UInt16 :=
  (roundToPowerOf2 config.bucketExtNum.toUInt32).toUInt16

def geometry : Geometry Key1 Key2 where
  bucketInitNumMask := config.initNum - 1
  bucketExtNumMask := (roundToPowerOf2 config.bucketExtNum.toUInt32 - 1).toUInt16
  bucketInitNumBits := getBits config.initNum
  bucketExtNumBits := getBits config.extNum.toUInt32
  deepLimit := config.deepLimit
  hash := config.hash
  counterSlack := config.counterSlack

def memory : Memory Key1 Key2 Value where
  bucket := fun _ =>
    { key1 := config.initKey1, key2 := config.initKey2, value := config.initValue }
  bucketAlt := fun _ => {}

/-- The loop of `Init` over `usage_counter_`, whose counter has 16 bits and whose
bound is an `int`; false when it has not ended after `fuel` rounds. -/
def clearUsageCounter (deepLimit : UInt16) : Nat → UInt16 → Bool
  | 0, _ => false
  | fuel + 1, index =>
    if index.toNat < deepLimit.toNat + 1 then
      clearUsageCounter deepLimit fuel (index + 1)
    else
      true

theorem clearUsageCounter_never (fuel : Nat) (i : UInt16) :
    clearUsageCounter 65535 fuel i = false := by
  induction fuel generalizing i with
  | zero => rfl
  | succ fuel ih =>
    have below : i.toNat < (65535 : UInt16).toNat + 1 := i.toNat_lt
    simp only [clearUsageCounter, below, if_true, ih]

theorem clearUsageCounter_ends {deepLimit : UInt16} (proper : deepLimit ≠ 65535) {fuel : Nat}
    {i : UInt16} (inside : i.toNat ≤ deepLimit.toNat + 1)
    (enough : deepLimit.toNat + 1 < fuel + i.toNat) :
    clearUsageCounter deepLimit fuel i = true := by
  induction fuel generalizing i with
  | zero => omega
  | succ fuel ih =>
    unfold clearUsageCounter
    split
    next below =>
      have small : deepLimit.toNat ≠ 65535 := by
        intro full
        exact proper (UInt16.toNat_inj.mp full)
      have bound := deepLimit.toNat_lt
      have next : (i + 1).toNat = i.toNat + 1 := by
        rw [UInt16.toNat_add]
        exact Nat.mod_eq_of_lt (by simp only [UInt16.toNat_one]; omega)
      apply ih
      all_goals omega
    next => rfl

end Config

namespace Geometry

variable (geometry : Geometry Key1 Key2)

def level0Pos (hash : UInt64) : Nat := (hash &&& geometry.bucketInitNumMask.toUInt64).toNat

def extSlot (tempHash : UInt64) : Nat := (tempHash &&& geometry.bucketExtNumMask.toUInt64).toNat

def firstHash (hash : UInt64) : UInt64 := hash >>> UInt64.ofNat geometry.bucketInitNumBits

def nextHash (tempHash : UInt64) : UInt64 := tempHash >>> UInt64.ofNat geometry.bucketExtNumBits

def tempHash (hash : UInt64) : Nat → UInt64
  | 0 => geometry.firstHash hash
  | depth + 1 => geometry.nextHash (tempHash hash depth)

def address (hash : UInt64) : Nat → Address
  | 0 => [geometry.level0Pos hash]
  | depth + 1 => geometry.extSlot (geometry.tempHash hash depth) :: address hash depth

@[simp] theorem length_address (hash : UInt64) (depth : Nat) :
    (geometry.address hash depth).length = depth + 1 := by
  induction depth with
  | zero => rfl
  | succ depth ih => simp [address, ih]

variable (key : Key1 × Key2)

def keyHash : UInt64 := geometry.hash key.1 key.2

def probing : Lib.Probing (Key1 × Key2) Address where
  probe key depth := geometry.address (geometry.keyHash key) depth
  depth_unique same := by
    have lengths := congrArg List.length same
    simpa using lengths

theorem probe_succ (depth : Nat) :
    ∃ slot, geometry.probing.probe key (depth + 1) = slot :: geometry.probing.probe key depth :=
  ⟨_, rfl⟩

@[simp] theorem length_probe (depth : Nat) :
    (geometry.probing.probe key depth).length = depth + 1 :=
  geometry.length_address _ _

end Geometry

abbrev CallBack (Value : Type) := Option (Value → Bool)

def covers (cover : CallBack Value) (value : Value) : Bool :=
  match cover with
  | none => true
  | some accepts => accepts value

variable (bucket : Bucket Key1 Key2 Value) (key : Key1 × Key2)

def Bucket.keys : Key1 × Key2 := (bucket.key1, bucket.key2)

def Bucket.setInusing : Bucket Key1 Key2 Value :=
  { bucket with inusing := true }

def Bucket.setChild : Bucket Key1 Key2 Value :=
  { bucket with child := true }

def Bucket.setKeys (value : Value) : Bucket Key1 Key2 Value :=
  { bucket with key1 := key.1, key2 := key.2, value := value }

def Bucket.setHash (hash : UInt64) : Bucket Key1 Key2 Value :=
  { bucket with hashCode := hash }

def Bucket.setNode (value : Value) (hash : UInt64) : Bucket Key1 Key2 Value :=
  (bucket.setHash hash).setKeys key value

def Bucket.cover (bucket : Bucket Key1 Key2 Value) (value : Value) (cover : CallBack Value) :
    Bucket Key1 Key2 Value :=
  if covers cover bucket.value then { bucket with value := value } else bucket

def inserted (value : Value) (cover : CallBack Value) : Option Value → Value
  | none => value
  | some old => if covers cover old then value else old

theorem Bucket.value_cover (val : Value) (cover : CallBack Value) :
    (bucket.cover val cover).value = inserted val cover (some bucket.value) := by
  cases accepted : covers cover bucket.value with
  | true | false => simp [Bucket.cover, inserted, accepted]

def AltBucket.find (alt : AltBucket Key1 Key2 Value) (key : Key1 × Key2) : Option Value :=
  alt.altCacheMap.bind fun entries => entries key

def AltBucket.keeps (alt : AltBucket Key1 Key2 Value) (key : Key1 × Key2)
    (cover : CallBack Value) : Bool :=
  (alt.find key).any fun old => !covers cover old

theorem AltBucket.inserted_of_keeps_eq_false {alt : AltBucket Key1 Key2 Value}
    {key : Key1 × Key2} {cover : CallBack Value} (value : Value)
    (replaced : alt.keeps key cover = false) : inserted value cover (alt.find key) = value := by
  unfold keeps at replaced
  cases held : alt.find key with
  | none => rfl
  | some old => simp_all [inserted]

namespace Memory

variable (memory : Memory Key1 Key2 Value) (place : Address)

def setBucket (bucket : Bucket Key1 Key2 Value) : Memory Key1 Key2 Value :=
  { memory with bucket := update memory.bucket place bucket }

theorem setBucket_bucket (other : Address) (bucket : Bucket Key1 Key2 Value) :
    (memory.setBucket place bucket).bucket other =
      if other = place then bucket else memory.bucket other :=
  update_apply _ _ _ _

theorem setBucket_setBucket (first second : Bucket Key1 Key2 Value) :
    (memory.setBucket place first).setBucket place second = memory.setBucket place second := by
  simp [setBucket, update_idem]

def setAlt (position : Nat) (alt : AltBucket Key1 Key2 Value) : Memory Key1 Key2 Value :=
  { memory with bucketAlt := update memory.bucketAlt position alt }

theorem setAlt_bucketAlt (index other : Nat) (alt : AltBucket Key1 Key2 Value) :
    (memory.setAlt index alt).bucketAlt other =
      if other = index then alt else memory.bucketAlt other :=
  update_apply _ _ _ _

end Memory

section Operations

variable [DecidableEq Key1] [DecidableEq Key2]

def Bucket.compareAndCover (bucket : Bucket Key1 Key2 Value) (key : Key1 × Key2) (value : Value)
    (hash : UInt64) (cover : CallBack Value) : ErrorCode × Bucket Key1 Key2 Value :=
  if hash ≠ bucket.hashCode then
    (.kFailure, bucket)
  else if bucket.key1 ≠ key.1 ∨ bucket.key2 ≠ key.2 then
    (.kFailure, bucket)
  else
    (.kSuccess, bucket.cover value cover)

/-- `AltBucket::SetNode`, which runs under the overflow map's lock. -/
def AltBucket.setNode (alt : AltBucket Key1 Key2 Value) (key : Key1 × Key2) (value : Value)
    (cover : CallBack Value) : AltBucket Key1 Key2 Value :=
  match alt.altCacheMap with
  | none => { altCacheMap := some (update (fun _ => none) key (some value)) }
  | some entries =>
    match entries key with
    | some old =>
      if covers cover old then
        { altCacheMap := some (update entries key (some value)) }
      else
        alt
    | none => { altCacheMap := some (update entries key (some value)) }

theorem AltBucket.find_setNode (alt : AltBucket Key1 Key2 Value) (key other : Key1 × Key2)
    (val : Value) (cover : CallBack Value) : (alt.setNode key val cover).find other =
      if other = key then some (inserted val cover (alt.find key)) else alt.find other := by
  obtain ⟨entries⟩ := alt
  cases entries with
  | none => simp [setNode, find, inserted, update_apply]
  | some entries =>
    cases held : entries key with
    | none => simp [setNode, find, inserted, held, update_apply]
    | some old =>
      cases accepted : covers cover old with
      | true => simp [setNode, find, inserted, held, accepted, update_apply]
      | false =>
        by_cases same : other = key
        · simp [setNode, find, inserted, held, accepted, same]
        · simp [setNode, find, held, accepted, same]

theorem AltBucket.setNode_of_keeps {alt : AltBucket Key1 Key2 Value} {key : Key1 × Key2}
    {cover : CallBack Value} (val : Value) (kept : alt.keeps key cover = true) :
    alt.setNode key val cover = alt := by
  obtain ⟨entries⟩ := alt
  cases entries with
  | none => simp [keeps, find] at kept
  | some entries =>
    cases held : entries key with
    | none => simp [keeps, find, held] at kept
    | some old => simp_all [keeps, find, setNode]

/-! ## Whole calls

The loops take the number of buckets they may visit; `none` is a loop that needs
more, or an increment of what lies behind `usage_counter_` without room for it. -/

section Calls

variable (geometry : Geometry Key1 Key2)

def insertLoop (key : Key1 × Key2) (value : Value) (cover : CallBack Value) :
    Nat → Address → UInt64 → UInt16 → Memory Key1 Key2 Value →
      Option (ErrorCode × Memory Key1 Key2 Value)
  | 0, _, _, _, _ => none
  | fuel + 1, place, tempHash, curDeep, memory =>
    let origHash := geometry.keyHash key
    let bucket := memory.bucket place
    if bucket.inusing then
      match bucket.compareAndCover key value origHash cover with
      | (.kSuccess, covered) => some (.kSuccess, memory.setBucket place covered)
      | (.kFailure, _) =>
        if geometry.deepLimit < curDeep + 1 then
          let position := geometry.level0Pos origHash
          -- `usage_counter_` has `deep_limit_ + 1` elements
          if geometry.counterSlack then
            some (.kSuccess, memory.setAlt position
              ((memory.bucketAlt position).setNode key value cover))
          else
            none
        else
          insertLoop key value cover fuel (geometry.extSlot tempHash :: place)
            (geometry.nextHash tempHash) (curDeep + 1)
            (memory.setBucket place bucket.setChild)
    else
      some (.kSuccess,
        memory.setBucket place (bucket.setInusing.setNode key value origHash))

def insert (fuel : Nat) (key1 : Key1) (key2 : Key2) (value : Value) (cover : CallBack Value)
    (memory : Memory Key1 Key2 Value) : Option (ErrorCode × Memory Key1 Key2 Value) :=
  let origHash := geometry.hash key1 key2
  insertLoop geometry (key1, key2) value cover fuel [geometry.level0Pos origHash]
    (geometry.firstHash origHash) 0 memory

def answer : Option Value → ErrorCode × Option Value
  | some value => (.kSuccess, some value)
  | none => (.kFailure, none)

/-- What `Find` answers once its walk has ended at depth `curDeep`. -/
def findAlt (memory : Memory Key1 Key2 Value) (key : Key1 × Key2) (curDeep : UInt16) :
    ErrorCode × Option Value :=
  if curDeep < geometry.deepLimit then
    (.kFailure, none)
  else
    answer ((memory.bucketAlt (geometry.level0Pos (geometry.keyHash key))).find key)

def findLoop (memory : Memory Key1 Key2 Value) (key : Key1 × Key2) :
    Nat → Address → UInt64 → UInt16 → Option (ErrorCode × Option Value)
  | 0, _, _, _ => none
  | fuel + 1, place, tempHash, curDeep =>
    let bucket := memory.bucket place
    if bucket.inusing ∧ geometry.keyHash key = bucket.hashCode ∧
        key.1 = bucket.key1 ∧ key.2 = bucket.key2 then
      some (.kSuccess, some bucket.value)
    else if bucket.child then
      findLoop memory key fuel (geometry.extSlot tempHash :: place)
        (geometry.nextHash tempHash) (curDeep + 1)
    else
      some (findAlt geometry memory key curDeep)

def find (fuel : Nat) (key1 : Key1) (key2 : Key2) (memory : Memory Key1 Key2 Value) :
    Option (ErrorCode × Option Value) :=
  let origHash := geometry.hash key1 key2
  findLoop geometry memory (key1, key2) fuel [geometry.level0Pos origHash]
    (geometry.firstHash origHash) 0

end Calls

end Operations

end AdkAaf.Adk.HashMap
