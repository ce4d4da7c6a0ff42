import Mathlib.Algebra.Order.BigOperators.Group.Finset

/-! The sum of what finitely many threads contribute to a counter, and how it changes with the
state of one of them. -/

set_option autoImplicit false

namespace AdkAaf.Lib

open Function

variable {Thread Local : Type} [Fintype Thread]

def tally (count : Local → Nat) (locals : Thread → Local) : Nat :=
  ∑ thread, count (locals thread)

variable {count : Local → Nat} {locals : Thread → Local}

theorem le_tally (count : Local → Nat) (locals : Thread → Local) (thread : Thread) :
    count (locals thread) ≤ tally count locals :=
  Finset.single_le_sum (f := fun other => count (locals other)) (fun _ _ => Nat.zero_le _)
    (Finset.mem_univ thread)

theorem tally_eq_zero_iff : tally count locals = 0 ↔ ∀ thread, count (locals thread) = 0 := by
  rw [tally, Finset.sum_eq_zero_iff]
  exact ⟨fun none thread => none thread (Finset.mem_univ thread), fun none thread _ => none thread⟩

variable [DecidableEq Thread]

theorem tally_update (count : Local → Nat) (locals : Thread → Local) (thread : Thread)
    (next : Local) : tally count (update locals thread next) + count (locals thread) =
      tally count locals + count next := by
  have changed : tally count (update locals thread next) =
      count next + ∑ other ∈ Finset.univ.erase thread, count (locals other) := by
    rw [tally, ← Finset.add_sum_erase _ _ (Finset.mem_univ thread), update_self]
    congr 1
    apply Finset.sum_congr rfl
    intro other mem
    rw [update_of_ne (Finset.ne_of_mem_erase mem)]
  have before : tally count locals =
      count (locals thread) + ∑ other ∈ Finset.univ.erase thread, count (locals other) :=
    (Finset.add_sum_erase _ _ (Finset.mem_univ thread)).symm
  omega

theorem add_le_tally {first second : Thread} (apart : first ≠ second) :
    count (locals first) + count (locals second) ≤ tally count locals := by
  rw [tally, ← Finset.add_sum_erase _ _ (Finset.mem_univ first)]
  exact Nat.add_le_add_left (Finset.single_le_sum (f := fun other => count (locals other))
    (fun _ _ => Nat.zero_le _) (Finset.mem_erase.mpr ⟨apart.symm, Finset.mem_univ second⟩)) _

end AdkAaf.Lib
