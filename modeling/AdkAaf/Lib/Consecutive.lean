/-! Lists of consecutive numbers, given by the number below the first one and by the last one, so
that lists that follow each other meet in one number. -/

set_option autoImplicit false

namespace AdkAaf.Lib

def Consecutive : Nat → Nat → List Nat → Prop
  | below, upto, [] => below = upto
  | below, upto, number :: rest => number = below + 1 ∧ Consecutive (below + 1) upto rest

variable {below middle upto number : Nat} {numbers first second : List Nat}

@[simp] theorem consecutive_cons_iff :
    Consecutive below upto (number :: numbers) ↔
      number = below + 1 ∧ Consecutive (below + 1) upto numbers := .rfl

theorem consecutive_append_iff : Consecutive below upto (first ++ second) ↔
      ∃ middle, Consecutive below middle first ∧ Consecutive middle upto second := by
  induction first generalizing below with
  | nil =>
    constructor
    · intro holds
      exact ⟨below, rfl, holds⟩
    · rintro ⟨_, rfl, holds⟩
      exact holds
  | cons number rest ih =>
    rw [List.cons_append, consecutive_cons_iff, ih]
    constructor
    · rintro ⟨head, middle, tail, later⟩
      exact ⟨middle, ⟨head, tail⟩, later⟩
    · rintro ⟨middle, ⟨head, tail⟩, later⟩
      exact ⟨head, middle, tail, later⟩

theorem Consecutive.append (holds : Consecutive below middle first)
    (later : Consecutive middle upto second) : Consecutive below upto (first ++ second) :=
  consecutive_append_iff.mpr ⟨middle, holds, later⟩

section

variable (holds : Consecutive below upto numbers)
include holds

theorem Consecutive.concat : Consecutive below (upto + 1) (numbers ++ [upto + 1]) :=
  holds.append ⟨rfl, rfl⟩

theorem Consecutive.length : below + numbers.length = upto := by
  induction numbers generalizing below with
  | nil => exact holds
  | cons n rest ih =>
    have tail := ih holds.2
    rw [List.length_cons, ← tail]
    exact (Nat.add_right_comm below 1 rest.length).symm

theorem Consecutive.le : below ≤ upto :=
  holds.length ▸ Nat.le_add_right below numbers.length

theorem Consecutive.mem_iff : number ∈ numbers ↔ below < number ∧ number ≤ upto := by
  induction numbers generalizing below with
  | nil =>
    obtain rfl : below = upto := holds
    constructor
    · nofun
    · rintro ⟨above, le⟩
      exact absurd above (Nat.not_lt.mpr le)
  | cons head rest ih =>
    obtain ⟨rfl, tail⟩ := holds
    have le := tail.le
    rw [List.mem_cons, ih tail]
    omega

theorem Consecutive.eq_range' : numbers = List.range' (below + 1) numbers.length := by
  induction numbers generalizing below with
  | nil => rfl
  | cons n rest ih =>
    obtain ⟨rfl, tail⟩ := holds
    rw [List.length_cons, List.range'_succ, ← ih tail]

end

theorem Consecutive.of_append (holds : Consecutive below upto (first ++ second)) :
    ∃ middle, middle ≤ upto ∧ Consecutive below middle first := by
  obtain ⟨middle, front, later⟩ := consecutive_append_iff.mp holds
  exact ⟨middle, later.le, front⟩

end AdkAaf.Lib
