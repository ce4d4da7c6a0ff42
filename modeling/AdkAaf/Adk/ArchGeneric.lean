import AdkAaf.Lib.BitSmear

/-! Rounding macros of `adk/include/adk/arch/generic.h`, and the mask with which the
shared-memory rings align a length. -/

set_option autoImplicit false

namespace AdkAaf.Adk

open Lib

/-- `ADK_ROUND_TO_POWER_OF_2`, on `uint32_t` as the macro casts its argument. -/
def roundToPowerOf2 (v : UInt32) : UInt32 :=
  let v := v - 1
  let v := v ||| v >>> 1
  let v := v ||| v >>> 2
  let v := v ||| v >>> 4
  let v := v ||| v >>> 8
  let v := v ||| v >>> 16
  v + 1

private theorem smear_toNat {width : Nat} (shift : UInt32) {source filled : UInt32}
    (small : shift.toNat = width) (below : width < 32)
    (smeared : SmearedBy width source.toNat filled.toNat) :
    SmearedBy (width + width) source.toNat (filled ||| filled >>> shift).toNat := by
  rw [UInt32.toNat_or, UInt32.toNat_shiftRight, small, Nat.mod_eq_of_lt below]
  exact smeared.double

/-- The macro yields the next power of two, which `uint32_t` cannot hold for
arguments above `2 ^ 31`: there, and at zero, the result wraps to zero. -/
theorem roundToPowerOf2_toNat (v : UInt32) :
    (roundToPowerOf2 v).toNat = 2 ^ (v - 1).toNat.size % 2 ^ 32 := by
  have smeared := smear_toNat 16 rfl (by decide) (smear_toNat 8 rfl (by decide)
    (smear_toNat 4 rfl (by decide) (smear_toNat 2 rfl (by decide)
      (smear_toNat 1 rfl (by decide) (SmearedBy.refl (v - 1).toNat)))))
  have filled := smeared.eq_two_pow_sub_one (v - 1).toNat_lt
  have pos : 0 < 2 ^ (v - 1).toNat.size := Nat.two_pow_pos _
  unfold roundToPowerOf2
  rw [UInt32.toNat_add, filled]
  congr 1
  exact Nat.sub_add_cancel pos

theorem roundToPowerOf2_le {v : UInt32} {bits : Nat} (pos : 1 ≤ v.toNat)
    (bounded : v.toNat ≤ 2 ^ bits) (small : bits ≤ 31) :
    ∃ exponent ≤ bits, (roundToPowerOf2 v).toNat = 2 ^ exponent ∧ v.toNat ≤ 2 ^ exponent := by
  have before : (v - 1).toNat = v.toNat - 1 :=
    UInt32.toNat_sub_of_le v 1 (UInt32.le_iff_toNat_le.mpr pos)
  have size : (v - 1).toNat.size ≤ bits := Nat.size_le.mpr (by omega)
  have fits : 2 ^ (v - 1).toNat.size < 2 ^ 32 := Nat.pow_lt_pow_right (by decide) (by omega)
  have above := Nat.lt_size_self (v - 1).toNat
  refine ⟨(v - 1).toNat.size, size, ?_, by omega⟩
  rw [roundToPowerOf2_toNat, Nat.mod_eq_of_lt fits]

theorem roundToPowerOf2_of_le {v : UInt32} (pos : 1 ≤ v.toNat) (bounded : v.toNat ≤ 2 ^ 31) :
    ∃ exponent ≤ 31, (roundToPowerOf2 v).toNat = 2 ^ exponent ∧ v.toNat ≤ 2 ^ exponent :=
  roundToPowerOf2_le pos bounded (Nat.le_refl 31)

theorem roundToPowerOf2_of_gt {v : UInt32} (large : 2 ^ 31 < v.toNat) : roundToPowerOf2 v = 0 := by
  have before : (v - 1).toNat = v.toNat - 1 :=
    UInt32.toNat_sub_of_le v 1 (UInt32.le_iff_toNat_le.mpr (by simp only [UInt32.toNat_one]; omega))
  have lower : 31 < (v - 1).toNat.size := Nat.lt_size.mpr (by omega)
  have upper : (v - 1).toNat.size ≤ 32 := Nat.size_le.mpr (v - 1).toNat_lt
  have full : (v - 1).toNat.size = 32 := by omega
  rw [← UInt32.toNat_inj, roundToPowerOf2_toNat, full]
  rfl

/-- `ADK_ROUND_UP` to `ADK_CACHE_LINE_SIZE`, which is 64 here; the sum is one of
`uint32_t` and may wrap. -/
def roundUp (x : UInt32) : UInt32 := (x + 63) / 64 * 64

theorem roundUp_toNat {x : UInt32} (bounded : x.toNat ≤ 2 ^ 31) :
    (roundUp x).toNat = (x.toNat + 63) / 64 * 64 := by
  have sum : (x + 63).toNat = x.toNat + 63 := by
    rw [UInt32.toNat_add]
    exact Nat.mod_eq_of_lt (by simp only [UInt32.reduceToNat]; omega)
  rw [roundUp, UInt32.toNat_mul, UInt32.toNat_div, sum]
  exact Nat.mod_eq_of_lt (by simp only [UInt32.reduceToNat]; omega)

theorem toNat_max (size least : UInt32) : (max size least).toNat = max size.toNat least.toNat := by
  change (if size ≤ least then least else size).toNat = _
  split
  next smaller => exact (Nat.max_eq_right (UInt32.le_iff_toNat_le.mp smaller)).symm
  next larger =>
    have order := Nat.le_of_not_le fun order => larger (UInt32.le_iff_toNat_le.mpr order)
    exact (Nat.max_eq_left order).symm

/-- What a `uint32_t` keeps of a result. -/
def uint32 (value : Nat) : Nat := value % 2 ^ 32

theorem uint32_eq {value : Nat} (small : value < 2 ^ 32) : uint32 value = value :=
  Nat.mod_eq_of_lt small

/-- The mask `size - 1` of a ring, in `uint32_t`; of an empty ring it has all bits. -/
def sizeMask (size : Nat) : Nat := uint32 (size + (2 ^ 32 - 1))

theorem and_sizeMask {size exp : Nat} (power : size = 2 ^ exp) (small : exp ≤ 31)
    (i : Nat) : i &&& sizeMask size = i % size := by
  have pos : 0 < size := power ▸ Nat.two_pow_pos exp
  have bound : size ≤ 2 ^ 31 := power ▸ Nat.pow_le_pow_right (by decide) small
  have mask : sizeMask size = 2 ^ exp - 1 := by
    rw [sizeMask, uint32, ← power]
    omega
  rw [mask, Nat.and_two_pow_sub_one_eq_mod, power]

/-- `GetBits`: the first shift at which a power of two reaches the value. -/
def getBits (value : UInt32) : Nat :=
  ((List.range 32).find? fun bits => value.toNat ≤ 2 ^ bits).getD 32

theorem getBits_of_pow {val : UInt32} {exponent : Nat} (power : val.toNat = 2 ^ exponent) :
    getBits val = exponent := by
  have small : exponent < 32 := (Nat.pow_lt_pow_iff_right (by decide)).mp (power ▸ val.toNat_lt)
  have found : (List.range 32).find? (fun bits => decide (val.toNat ≤ 2 ^ bits)) =
      some exponent := by
    rw [List.find?_range_eq_some, power]
    refine ⟨decide_eq_true .refl, List.mem_range.mpr small, fun bits less => ?_⟩
    rw [Bool.not_eq_true', decide_eq_false_iff_not, Nat.pow_le_pow_iff_right (by decide)]
    exact Nat.not_le_of_lt less
  rw [getBits, found, Option.getD_some]

theorem and_kAlignedBits {val : Nat} (small : val < 2 ^ 32) :
    val &&& 0xFFFFFFF8 = val / 8 * 8 := by
  have split : val &&& ((2 ^ 29 - 1) <<< 3) = ((val >>> 3) &&& (2 ^ 29 - 1)) <<< 3 := by
    apply Nat.eq_of_testBit_eq
    intro bit
    simp only [Nat.testBit_and, Nat.testBit_shiftLeft, Nat.testBit_shiftRight]
    by_cases high : 3 ≤ bit
    · rw [Nat.add_sub_cancel' high]
      cases val.testBit bit <;> simp
    · simp [high]
  have bits : (0xFFFFFFF8 : Nat) = (2 ^ 29 - 1) <<< 3 := rfl
  rw [bits, split, Nat.and_two_pow_sub_one_eq_mod, Nat.shiftLeft_eq, Nat.shiftRight_eq_div_pow,
    Nat.mod_eq_of_lt (by omega)]

end AdkAaf.Adk
