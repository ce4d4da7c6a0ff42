import AdkAaf.Adk.HashMap.Basic
import AdkAaf.Lib.RingWindow
import Mathlib.Data.Nat.Log

/-! The memory of a `HashMap`: `Create` multiplies and adds the sizes in `uint32_t` and keeps
the number of child buckets and the size of a bucket in fields of the header that have 16
bits. A byte that `Create` writes outside of the block stops it nowhere in the code. -/

set_option autoImplicit false

namespace AdkAaf.Adk.HashMap

open Lib

structure Layout where
  initNum : Nat
  extNum : Nat
  bucketSize : Nat
  bucketAltSize : Nat
  headOffset : Nat
  headAltOffset : Nat
  totalSize : Nat
  deriving DecidableEq

namespace Layout

/-- The arithmetic of `Create` for buckets of `sizeofBucket` bytes; an `AltBucket` is a
pointer and a lock, and the header takes a page. -/
def make (bucketInitNum : UInt32) (bucketExtNum : UInt16) (sizeofBucket : UInt32) : Layout :=
  let bucketSize := (roundToPowerOf2 sizeofBucket).toNat
  let bucketAltSize := (roundToPowerOf2 16).toNat
  let initNum := (roundToPowerOf2 bucketInitNum).toNat
  let extNum := (roundToPowerOf2 bucketExtNum.toUInt32).toNat
  let headerSize := 4096
  let bucketMemSize := uint32 (initNum * bucketSize)
  let bucketMemAltSize := uint32 (initNum * bucketAltSize)
  { initNum
    extNum := extNum % 2 ^ 16
    bucketSize := bucketSize % 2 ^ 16
    bucketAltSize := bucketAltSize % 2 ^ 16
    headOffset := headerSize
    headAltOffset := uint32 (headerSize + bucketMemSize)
    totalSize := uint32 (uint32 (headerSize + bucketMemSize) + bucketMemAltSize) }

variable (layout : Layout)

def bucketSizeBits : Nat := getBits (.ofNat layout.bucketSize)

def bucketAltSizeBits : Nat := getBits (.ofNat layout.bucketAltSize)

/-- `ptr_add(bucket_, level_0_pos << bucket_size_bits_)`, as an offset in the block. -/
def bucketStart (level0Pos : Nat) : Nat :=
  layout.headOffset + uint32 (level0Pos <<< layout.bucketSizeBits)

def bucketAltStart (level0Pos : Nat) : Nat :=
  layout.headAltOffset + uint32 (level0Pos <<< layout.bucketAltSizeBits)

/-- The loop of `InitMemCache` over the block for child arrays; false when it has not ended
after `fuel` rounds. -/
def fillMemPool (extMemNum newMemSize : Nat) : Nat → Nat → Bool
  | 0, _ => false
  | fuel + 1, offset =>
    if offset ≤ newMemSize - extMemNum then
      fillMemPool extMemNum newMemSize fuel (offset + extMemNum)
    else
      true

/-- `Create`, which ignores that `Init` may have found no memory for `mem_pool_`: the layout
of the map that it returns, unless a loop is still running after `fuel` rounds. -/
def create (fuel : Nat) (noMemory : Bool) (bucketInitNum : UInt32) (deepLimit bucketExtNum : UInt16)
    (sizeofBucket : UInt32) : Option Layout :=
  let layout := make bucketInitNum bucketExtNum sizeofBucket
  let extMemNum := uint32 (layout.extNum <<< layout.bucketSizeBits)
  let newMemSize := (extMemNum * 8192 + 4095) / 4096 * 4096
  if noMemory ∨ fillMemPool extMemNum newMemSize fuel 0 ∧
      Config.clearUsageCounter deepLimit fuel 0 then
    some layout
  else
    none

/-- The members are the rounded sizes, and every position has its own bytes of the block, in
both arrays. -/
structure Laid (bucketExtNum : UInt16) (sizeofBucket : UInt32) : Prop where
  extNum : layout.extNum = 2 ^ Nat.clog 2 bucketExtNum.toNat
  bucketSize : layout.bucketSize = 2 ^ Nat.clog 2 sizeofBucket.toNat
  inside : ∀ position < layout.initNum,
    layout.bucketStart position + layout.bucketSize ≤ layout.totalSize
  altInside : ∀ position < layout.initNum,
    layout.bucketAltStart position + layout.bucketAltSize ≤ layout.totalSize
  apart : ∀ position < layout.initNum, ∀ other < layout.initNum, position ≠ other →
    RangesApart (layout.bucketStart position) layout.bucketSize
      (layout.bucketStart other) layout.bucketSize
  altApart : ∀ position < layout.initNum, ∀ other < layout.initNum, position ≠ other →
    RangesApart (layout.bucketAltStart position) layout.bucketAltSize
      (layout.bucketAltStart other) layout.bucketAltSize
  arraysApart : ∀ position < layout.initNum, ∀ other < layout.initNum,
    RangesApart (layout.bucketStart position) layout.bucketSize
      (layout.bucketAltStart other) layout.bucketAltSize

end Layout

theorem size_sub_one_eq_clog (value : Nat) : (value - 1).size = Nat.clog 2 value := by
  apply Nat.le_antisymm
  · rw [Nat.size_le]
    have above := Nat.le_pow_clog (b := 2) (by decide) value
    have positive := Nat.two_pow_pos (Nat.clog 2 value)
    omega
  · refine Nat.clog_le_of_le_pow ?_
    have above := Nat.lt_size_self (value - 1)
    omega

theorem roundToPowerOf2_eq_clog {val : UInt32} (positive : 1 ≤ val.toNat) :
    (roundToPowerOf2 val).toNat = 2 ^ Nat.clog 2 val.toNat % 2 ^ 32 := by
  have before : (val - 1).toNat = val.toNat - 1 :=
    UInt32.toNat_sub_of_le val 1 (UInt32.le_iff_toNat_le.mpr positive)
  rw [roundToPowerOf2_toNat, before, size_sub_one_eq_clog]

theorem rounded_uint16_iff (val : UInt32) :
    (roundToPowerOf2 val).toNat % 2 ^ 16 = 2 ^ Nat.clog 2 val.toNat ↔
      1 ≤ val.toNat ∧ val.toNat ≤ 2 ^ 15 := by
  constructor
  · intro kept
    have positive : 1 ≤ val.toNat := by
      refine Nat.one_le_iff_ne_zero.mpr fun zero => ?_
      obtain rfl : val = 0 := UInt32.toNat_inj.mp zero
      revert kept
      decide
    refine ⟨positive, Nat.le_trans (Nat.le_pow_clog (b := 2) (by decide) val.toNat)
      (Nat.pow_le_pow_right (by decide) (Nat.le_of_lt_succ ?_))⟩
    have small : 2 ^ Nat.clog 2 val.toNat < 2 ^ 16 := kept ▸ Nat.mod_lt _ (by decide)
    exact (Nat.pow_lt_pow_iff_right (by decide)).mp small
  · rintro ⟨positive, small⟩
    have bits : Nat.clog 2 val.toNat ≤ 15 := Nat.clog_le_of_le_pow small
    have bound : 2 ^ Nat.clog 2 val.toNat ≤ 2 ^ 15 := Nat.pow_le_pow_right (by decide) bits
    rw [roundToPowerOf2_eq_clog positive,
      Nat.mod_eq_of_lt (show 2 ^ Nat.clog 2 val.toNat < 2 ^ 32 by omega),
      Nat.mod_eq_of_lt (by omega)]

theorem roundToPowerOf2_power (val : UInt32) : (roundToPowerOf2 val).toNat = 0 ∨
      ∃ exponent ≤ 31, (roundToPowerOf2 val).toNat = 2 ^ exponent := by
  have bits : (val - 1).toNat.size ≤ 32 := Nat.size_le.mpr (val - 1).toNat_lt
  rw [roundToPowerOf2_toNat]
  rcases Nat.lt_or_eq_of_le bits with small | full
  · exact .inr ⟨_, Nat.le_of_lt_succ small,
      Nat.mod_eq_of_lt (Nat.pow_lt_pow_right (by decide) small)⟩
  · rw [full]
    exact .inl (Nat.mod_self _)

theorem exists_last {count size : Nat} (power : ∃ exponent, count = 2 ^ exponent)
    (sizePower : ∃ exponent ≤ 32, size = 2 ^ exponent) (large : 2 ^ 32 ≤ count * size) :
    ∃ index < count, index * size + size = 2 ^ 32 := by
  obtain ⟨exponent, rfl⟩ := power
  obtain ⟨bits, small, rfl⟩ := sizePower
  have enough : 32 - bits ≤ exponent := by
    rw [← Nat.pow_add, Nat.pow_le_pow_iff_right (by decide)] at large
    omega
  have positive := Nat.two_pow_pos (32 - bits)
  have inside := Nat.pow_le_pow_right (show 0 < 2 by decide) enough
  refine ⟨2 ^ (32 - bits) - 1, by omega, ?_⟩
  rw [← Nat.succ_mul, Nat.succ_eq_add_one, Nat.sub_add_cancel positive, ← Nat.pow_add,
    Nat.sub_add_cancel small]

namespace Layout

variable {bucketInitNum : UInt32} {bucketExtNum : UInt16} {sizeofBucket : UInt32}

theorem uint32_shiftLeft {size bits index : Nat} (power : size = 2 ^ bits) (small : bits ≤ 31)
    (fits : index * size + size ≤ 2 ^ 32) :
    uint32 (index <<< getBits (.ofNat size)) = index * size := by
  have positive := Nat.two_pow_pos bits
  have bound : 2 ^ bits < 2 ^ 32 := Nat.pow_lt_pow_right (by decide) (by omega)
  have exact_ : (UInt32.ofNat size).toNat = 2 ^ bits := by
    rw [UInt32.toNat_ofNat', power]
    exact Nat.mod_eq_of_lt bound
  rw [getBits_of_pow exact_, Nat.shiftLeft_eq, ← power]
  exact uint32_eq (by omega)

/-- The fields of the header hold the rounded sizes, and the arrays fit 32 bits. -/
def Fits (bucketInitNum : UInt32) (bucketExtNum : UInt16) (sizeofBucket : UInt32) : Prop :=
  (1 ≤ bucketExtNum.toNat ∧ bucketExtNum.toNat ≤ 2 ^ 15) ∧
  (1 ≤ sizeofBucket.toNat ∧ sizeofBucket.toNat ≤ 2 ^ 15) ∧
  4096 + (roundToPowerOf2 bucketInitNum).toNat * (2 ^ Nat.clog 2 sizeofBucket.toNat + 16) < 2 ^ 32

instance (bucketInitNum : UInt32) (bucketExtNum : UInt16) (sizeofBucket : UInt32) :
    Decidable (Fits bucketInitNum bucketExtNum sizeofBucket) :=
  inferInstanceAs (Decidable (_ ∧ _ ∧ _))

theorem make_eq (small : 1 ≤ sizeofBucket.toNat ∧ sizeofBucket.toNat ≤ 2 ^ 15) :
    let initNum := (roundToPowerOf2 bucketInitNum).toNat
    let bucketSize := 2 ^ Nat.clog 2 sizeofBucket.toNat
    make bucketInitNum bucketExtNum sizeofBucket =
      { initNum
        extNum := (roundToPowerOf2 bucketExtNum.toUInt32).toNat % 2 ^ 16
        bucketSize
        bucketAltSize := 16
        headOffset := 4096
        headAltOffset := uint32 (4096 + uint32 (initNum * bucketSize))
        totalSize := uint32 (uint32 (4096 + uint32 (initNum * bucketSize)) +
          uint32 (initNum * 16)) } := by
  have size := (rounded_uint16_iff sizeofBucket).mpr small
  have alt : (roundToPowerOf2 16).toNat = 16 := by decide
  have whole : (roundToPowerOf2 sizeofBucket).toNat = 2 ^ Nat.clog 2 sizeofBucket.toNat := by
    rw [roundToPowerOf2_eq_clog small.1]
    exact Nat.mod_eq_of_lt (by omega)
  simp only [make, alt, size]
  rw [whole]
  rfl

theorem element_le {count size index : Nat} (inside : index < count) :
    index * size + size ≤ count * size := by
  rw [← Nat.succ_mul]
  exact Nat.mul_le_mul_right size inside

theorem elements_apart {size index other : Nat} (apart : index ≠ other) :
    RangesApart (index * size) size (other * size) size := by
  rcases Nat.lt_or_gt_of_ne apart with before | after
  · exact .inl (element_le before)
  · exact .inr (element_le after)

theorem laid_of_fits (fits : Fits bucketInitNum bucketExtNum sizeofBucket) :
    Laid (make bucketInitNum bucketExtNum sizeofBucket) bucketExtNum sizeofBucket := by
  obtain ⟨extSmall, sizeSmall, total⟩ := fits
  have ext := (rounded_uint16_iff bucketExtNum.toUInt32).mpr
    (by rw [UInt16.toNat_toUInt32]; exact extSmall)
  have bits : Nat.clog 2 sizeofBucket.toNat ≤ 31 :=
    (Nat.clog_le_of_le_pow sizeSmall.2).trans (by decide)
  rw [Nat.mul_add] at total
  rw [make_eq sizeSmall, ext]
  generalize (roundToPowerOf2 bucketInitNum).toNat = count at *
  generalize same : 2 ^ Nat.clog 2 sizeofBucket.toNat = size at *
  rw [uint32_eq (show count * size < 2 ^ 32 by omega),
    uint32_eq (show count * 16 < 2 ^ 32 by omega),
    uint32_eq (show 4096 + count * size < 2 ^ 32 by omega),
    uint32_eq (show 4096 + count * size + count * 16 < 2 ^ 32 by omega)]
  have start : ∀ index < count,
      uint32 (index <<< getBits (.ofNat size)) = index * size := by
    intro index inside
    have end_ := @element_le _ size _ inside
    exact uint32_shiftLeft same.symm bits (by omega)
  have altStart : ∀ index < count,
      uint32 (index <<< getBits (.ofNat 16)) = index * 16 := by
    intro index inside
    exact uint32_shiftLeft (show 16 = 2 ^ 4 from rfl) (by decide) (by omega)
  refine ⟨rfl, same.symm, ?_, ?_, ?_, ?_, ?_⟩
  · intro index (inside : index < count)
    have end_ := @element_le _ size _ inside
    simp only [bucketStart, bucketSizeBits, start index inside]
    omega
  · intro index (inside : index < count)
    simp only [bucketAltStart, bucketAltSizeBits, altStart index inside]
    omega
  · intro index (inside : index < count) other (otherInside : other < count) different
    have apart := @elements_apart size _ _ different
    simp only [bucketStart, bucketSizeBits, start index inside, start other otherInside,
      RangesApart] at apart ⊢
    omega
  · intro index (inside : index < count) other (otherInside : other < count) different
    have apart := @elements_apart 16 _ _ different
    simp only [bucketAltStart, bucketAltSizeBits, altStart index inside,
      altStart other otherInside, RangesApart] at apart ⊢
    omega
  · intro index (inside : index < count) other (otherInside : other < count)
    have end_ := @element_le _ size _ inside
    left
    simp only [bucketStart, bucketSizeBits, bucketAltStart, start index inside]
    omega

theorem fits_of_laid
    (laid : Laid (make bucketInitNum bucketExtNum sizeofBucket) bucketExtNum sizeofBucket) :
    Fits bucketInitNum bucketExtNum sizeofBucket := by
  have extSmall := (rounded_uint16_iff bucketExtNum.toUInt32).mp
    (by rw [UInt16.toNat_toUInt32]; exact laid.extNum)
  have sizeSmall := (rounded_uint16_iff sizeofBucket).mp laid.bucketSize
  refine ⟨extSmall, sizeSmall, ?_⟩
  have inside := laid.inside
  have altInside := laid.altInside
  have bits : Nat.clog 2 sizeofBucket.toNat ≤ 31 :=
    (Nat.clog_le_of_le_pow sizeSmall.2).trans (by decide)
  rw [make_eq sizeSmall] at inside altInside
  rcases roundToPowerOf2_power bucketInitNum with zero | ⟨exp, _, power⟩
  · rw [zero, Nat.zero_mul]
    decide
  · rw [Nat.mul_add]
    have positive := Nat.two_pow_pos exp
    generalize (roundToPowerOf2 bucketInitNum).toNat = count at *
    generalize same : 2 ^ Nat.clog 2 sizeofBucket.toNat = size at *
    simp only [bucketStart, bucketSizeBits, bucketAltStart, bucketAltSizeBits] at inside altInside
    have wraps := Nat.mod_lt (uint32 (4096 + uint32 (count * size)) + uint32 (count * 16))
      (show 0 < 2 ^ 32 by decide)
    have bucketFits : count * size < 2 ^ 32 := by
      refine Nat.lt_of_not_le fun large => ?_
      obtain ⟨index, below, end_⟩ := exists_last ⟨exp, power⟩
        ⟨_, Nat.le_succ_of_le bits, same.symm⟩ large
      have bound := inside index below
      rw [uint32_shiftLeft same.symm bits end_.le] at bound
      simp only [uint32] at bound wraps
      omega
    have altFits : count * 16 < 2 ^ 32 := by
      refine Nat.lt_of_not_le fun large => ?_
      obtain ⟨index, below, end_⟩ := exists_last ⟨exp, power⟩
        ⟨4, by decide, show 16 = 2 ^ 4 from rfl⟩ large
      have bound := altInside index below
      rw [uint32_shiftLeft (show 16 = 2 ^ 4 from rfl) (by decide) end_.le] at bound
      simp only [uint32] at bound wraps
      omega
    have below : count - 1 < count := by omega
    have last : count - 1 + 1 = count := by omega
    have end_ : (count - 1) * size + size = count * size := by
      rw [← Nat.succ_mul, Nat.succ_eq_add_one, last]
    have bound := inside _ below
    have altBound := altInside _ below
    rw [uint32_shiftLeft same.symm bits (by omega)] at bound
    simp only [uint32] at bound altBound wraps
    omega

theorem laid_iff_fits :
    Laid (make bucketInitNum bucketExtNum sizeofBucket) bucketExtNum sizeofBucket ↔
      Fits bucketInitNum bucketExtNum sizeofBucket :=
  ⟨fits_of_laid, laid_of_fits⟩

instance : Decidable
    (Laid (make bucketInitNum bucketExtNum sizeofBucket) bucketExtNum sizeofBucket) :=
  decidable_of_iff _ laid_iff_fits.symm

/-- `Create` lays out the table in every run in which it returns exactly for the arguments
that fit the fields and the 32 bits of the sizes. -/
theorem create_laid_iff (deepLimit : UInt16) : (∀ fuel noMemory layout,
      create fuel noMemory bucketInitNum deepLimit bucketExtNum sizeofBucket = some layout →
        Laid layout bucketExtNum sizeofBucket) ↔ Fits bucketInitNum bucketExtNum sizeofBucket := by
  constructor
  · intro laid
    apply fits_of_laid
    apply laid 0 true
    simp [create]
  · intro fits fuel noMemory layout created
    unfold create at created
    dsimp only at created
    split at created <;> cases created
    exact laid_of_fits fits

/-- A gigabyte is allocated for five, and a map without child buckets is returned, for want
of memory for `mem_pool_`, in place of one with 65536. -/
theorem create_misplaces :
    (∃ layout, create 8194 false 67108864 4 8 64 = some layout ∧ layout.initNum = 67108864 ∧
      layout.bucketStart 67108863 > layout.totalSize ∧ ¬Laid layout 8 64) ∧
    ∃ layout, create 0 true 16 4 40000 64 = some layout ∧ layout.extNum = 0 ∧
      ¬Laid layout 40000 64 :=
  ⟨⟨make 67108864 8 64, by decide +kernel, by decide, by decide,
      fun laid => absurd (fits_of_laid laid) (by decide)⟩,
    ⟨make 16 40000 64, by decide, by decide, fun laid => absurd (fits_of_laid laid) (by decide)⟩⟩

end Layout

end AdkAaf.Adk.HashMap
