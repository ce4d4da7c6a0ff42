import Mathlib.Logic.Function.Basic

/-! `BitMap` of `adk/include/adk/bitmap.h`: the words from `base_` on, each of which changes
atomically. Positions are naturals: with the sizes that `Create` allows nothing wraps but the
negation of `end`. -/

set_option autoImplicit false

namespace AdkAaf.Adk.BitMap

open Function

abbrev Words := Nat → BitVec 64

def atomicSet (words : Words) (p : Nat) (bitsMask : BitVec 64) : Words :=
  update words p (words p ||| bitsMask)

def atomicClear (words : Words) (p : Nat) (bitsMask : BitVec 64) : Words :=
  update words p (words p &&& ~~~bitsMask)

def get (words : Words) (pos : Nat) : BitVec 64 :=
  words (pos >>> 6) &&& 1#64 <<< (pos &&& 63)

section

variable (atomic : Words → Nat → BitVec 64 → Words)

def rangeLoop (end_ : BitVec 64) (words : Words) (p len bitsToSet : Nat) (bitsMask : BitVec 64)
    (_positive : 0 < bitsToSet) : Words :=
  if bitsToSet ≤ len then
    rangeLoop end_ (atomic words p bitsMask) (p + 1) (len - bitsToSet) 64 (~~~0#64) (by decide)
  else if 0 < len then
    atomic words p (bitsMask &&& ~~~0#64 >>> (-end_ &&& 63#64).toNat)
  else
    words
  termination_by len

def range (words : Words) (start len : Nat) : Words :=
  rangeLoop atomic (.ofNat 64 (start + len)) words (start >>> 6) len (64 - (start &&& 63))
    (~~~0#64 <<< (start &&& 63)) (Nat.sub_pos_of_lt (Nat.lt_succ_of_le Nat.and_le_right))

end

def setRange : Words → Nat → Nat → Words := range atomicSet

def clearRange : Words → Nat → Nat → Words := range atomicClear

def bit (words : Words) (pos : Nat) : Bool := (words (pos / 64)).getLsbD (pos % 64)

theorem and_63 (n : Nat) : n &&& 63 = n % 64 :=
  Nat.and_two_pow_sub_one_eq_mod n 6

theorem get_eq (words : Words) (pos : Nat) :
    get words pos = if bit words pos then 1#64 <<< (pos % 64) else 0#64 := by
  rw [get, bit, and_63, Nat.shiftRight_eq_div_pow]
  apply BitVec.eq_of_getLsbD_eq
  intro i _
  by_cases same : i = pos % 64
  · cases found : (words (pos / 64)).getLsbD (pos % 64) <;> simp [same, found]
  · split <;> simp [BitVec.getLsbD_one] <;> omega

theorem getLsbD_ones (i : Nat) : (~~~0#64).getLsbD i = decide (i < 64) :=
  BitVec.getLsbD_allOnes

theorem getLsbD_lastMask {end_ i : Nat} (rest : 0 < end_ % 64) :
    ((~~~0#64) >>> (-(.ofNat 64 end_) &&& 63#64).toNat).getLsbD i = decide (i < end_ % 64) := by
  have shift : (-(BitVec.ofNat 64 end_) &&& 63#64).toNat = 64 - end_ % 64 := by
    rw [BitVec.toNat_and, BitVec.toNat_neg, BitVec.toNat_ofNat]
    exact (and_63 _).trans (by omega)
  rw [BitVec.getLsbD_ushiftRight, getLsbD_ones, shift]
  congr 1
  simp
  omega

/-- The update gives the bits of the mask the value. -/
def Assigns (atomic : Words → Nat → BitVec 64 → Words) (value : Bool) : Prop :=
  ∀ words p bitsMask pos, bit (atomic words p bitsMask) pos =
    if pos / 64 = p ∧ bitsMask.getLsbD (pos % 64) then value else bit words pos

theorem atomicSet_assigns : Assigns atomicSet true := by
  intro words p bitsMask pos
  by_cases same : pos / 64 = p
  · cases masked : bitsMask.getLsbD (pos % 64) <;> simp [atomicSet, bit, same, masked]
  · simp [atomicSet, bit, same]

theorem atomicClear_assigns : Assigns atomicClear false := by
  intro words p bitsMask pos
  have small : pos % 64 < 64 := Nat.mod_lt _ (by decide)
  by_cases same : pos / 64 = p
  · simp only [atomicClear, bit, same, update_self, BitVec.getLsbD_and, BitVec.getLsbD_not, small]
    cases bitsMask.getLsbD (pos % 64) <;> simp
  · simp [atomicClear, bit, same]

section

variable {atomic : Words → Nat → BitVec 64 → Words} {value : Bool}
  (assigns : Assigns atomic value)
include assigns

/-- The loop is at bit `64 - bitsToSet` of the word, and the mask has the bits from there on. -/
theorem bit_rangeLoop {end_ : Nat} (words : Words) (p len bitsToSet : Nat) (bitsMask : BitVec 64)
    (positive : 0 < bitsToSet) (word : bitsToSet ≤ 64)
    (mask : ∀ i < 64, bitsMask.getLsbD i = decide (64 - bitsToSet ≤ i))
    (ends : 64 * p + (64 - bitsToSet) + len = end_) (pos : Nat) :
    bit (rangeLoop atomic (.ofNat 64 end_) words p len bitsToSet bitsMask positive) pos =
      if end_ - len ≤ pos ∧ pos < end_ then value else bit words pos := by
  have small : pos % 64 < 64 := Nat.mod_lt _ (by decide)
  fun_induction rangeLoop with
  | case1 words p len bitsToSet bitsMask positive whole ih =>
    rw [ih (by decide) (fun i within => ?_) (by omega), assigns, mask _ small]
    · simp only [decide_eq_true_eq]
      grind
    · rw [getLsbD_ones, Nat.sub_self]
      simp [within]
  | case2 words p len bitsToSet bitsMask positive part some =>
    have rest : end_ % 64 = 64 - bitsToSet + len := by omega
    rw [assigns, BitVec.getLsbD_and, mask _ small, getLsbD_lastMask (by omega)]
    simp only [Bool.and_eq_true, decide_eq_true_eq]
    congr 1
    apply propext
    omega
  | case3 words p len bitsToSet bitsMask positive part none =>
    rw [if_neg (by omega)]

theorem bit_range (words : Words) (start len pos : Nat) : bit (range atomic words start len) pos =
    if start ≤ pos ∧ pos < start + len then value else bit words pos := by
  have below : start % 64 < 64 := Nat.mod_lt _ (by decide)
  rw [range, bit_rangeLoop assigns _ _ _ _ _ _ (Nat.sub_le _ _), Nat.add_sub_cancel]
  · intro i within
    rw [BitVec.getLsbD_shiftLeft, getLsbD_ones, and_63, Nat.sub_sub_self (Nat.le_of_lt below),
      Bool.eq_iff_iff]
    simp [within]
    omega
  · rw [and_63, Nat.shiftRight_eq_div_pow]
    omega

end

/-- `SetRange` and `ClearRange` change the bits of the range and no other. -/
theorem ranges_exact (words : Words) (start len pos : Nat) :
    (start ≤ pos ∧ pos < start + len →
      get (setRange words start len) pos ≠ 0 ∧ get (clearRange words start len) pos = 0) ∧
    (¬ (start ≤ pos ∧ pos < start + len) →
      get (setRange words start len) pos = get words pos ∧
        get (clearRange words start len) pos = get words pos) := by
  rw [get_eq, get_eq, get_eq, setRange, clearRange, bit_range atomicSet_assigns,
    bit_range atomicClear_assigns]
  have one : 1#64 <<< (pos % 64) ≠ 0#64 := by
    have small : pos % 64 < 64 := Nat.mod_lt _ (by decide)
    intro zero
    have same := congrArg (BitVec.getLsbD · (pos % 64)) zero
    simp [small] at same
  constructor
  · intro inside
    simpa only [if_pos inside, if_true] using ⟨one, rfl⟩
  · intro outside
    simp only [if_neg outside, and_self]

end AdkAaf.Adk.BitMap
