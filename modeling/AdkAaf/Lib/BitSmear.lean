import Mathlib.Data.Nat.Size
import Mathlib.Tactic.ByContra
import Mathlib.Algebra.Group.Nat.Defs

/-! Filling the bits below the leading one by shifted ors. A smear of width `w`
sets bit `i` exactly when one of the `w` bits from `i` upwards was set; every
shift by the width reached so far doubles it. -/

set_option autoImplicit false

namespace AdkAaf.Lib

/-- `filled` has a one at `i` exactly when `source` has one in `[i, i + width)`. -/
def SmearedBy (width source filled : Nat) : Prop :=
  ∀ index, filled.testBit index = true ↔
    ∃ distance < width, source.testBit (index + distance) = true

theorem SmearedBy.refl (source : Nat) : SmearedBy 1 source source := by
  intro i
  constructor
  · intro isSet
    exact ⟨0, Nat.one_pos, isSet⟩
  · rintro ⟨distance, small, isSet⟩
    obtain rfl : distance = 0 := by omega
    exact isSet

theorem SmearedBy.double {width source filled : Nat} (smeared : SmearedBy width source filled) :
    SmearedBy (width + width) source (filled ||| filled >>> width) := by
  intro i
  rw [Nat.testBit_or, Nat.testBit_shiftRight, Bool.or_eq_true, smeared, smeared]
  constructor
  · rintro (⟨distance, small, isSet⟩ | ⟨distance, small, isSet⟩)
    · exact ⟨distance, by omega, isSet⟩
    · refine ⟨width + distance, by omega, ?_⟩
      rwa [show i + (width + distance) = width + i + distance by omega]
  · rintro ⟨distance, small, isSet⟩
    by_cases near : distance < width
    · exact .inl ⟨distance, near, isSet⟩
    · refine .inr ⟨distance - width, by omega, ?_⟩
      rwa [show width + i + (distance - width) = i + distance by omega]

theorem SmearedBy.eq_two_pow_sub_one {width source filled : Nat}
    (smeared : SmearedBy width source filled) (fits : source < 2 ^ width) :
    filled = 2 ^ source.size - 1 := by
  apply Nat.eq_of_testBit_eq
  intro i
  rw [Nat.testBit_two_pow_sub_one, Bool.eq_iff_iff, smeared, decide_eq_true_eq]
  constructor
  · rintro ⟨distance, _, isSet⟩
    by_contra beyond
    have small : source < 2 ^ (i + distance) :=
      Nat.lt_of_lt_of_le (Nat.lt_size_self source) (Nat.pow_le_pow_right (by decide) (by omega))
    rw [Nat.testBit_lt_two_pow small] at isSet
    cases isSet
  · intro below
    obtain ⟨position, above, isSet⟩ :=
      Nat.exists_ge_and_testBit_of_ge_two_pow (Nat.lt_size.mp below)
    refine ⟨position - i, ?_, by rwa [Nat.add_sub_cancel' above]⟩
    have bounded : position < width := by
      by_contra outside
      have small : source < 2 ^ position :=
        Nat.lt_of_lt_of_le fits (Nat.pow_le_pow_right (by decide) (by omega))
      rw [Nat.testBit_lt_two_pow small] at isSet
      cases isSet
    omega

end AdkAaf.Lib
