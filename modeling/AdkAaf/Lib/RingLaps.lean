import Mathlib.Algebra.Group.Nat.Defs

/-! Indices that are handed out one after another and land on the slots of a ring:
how often a slot has been used, and when two indices share one. -/

set_option autoImplicit false

namespace AdkAaf.Lib

def laps (size count slot : Nat) : Nat := (count + (size - 1 - slot)) / size

variable {size count slot : Nat}

theorem lt_laps_iff (inside : slot < size) {lap : Nat} :
    lap < laps size count slot ↔ lap * size + slot < count := by
  have pos : 0 < size := Nat.lt_of_le_of_lt (Nat.zero_le slot) inside
  unfold laps
  rw [← Nat.succ_le_iff, Nat.le_div_iff_mul_le pos, Nat.succ_mul]
  omega

theorem div_lt_laps_iff (pos : 0 < size) (i : Nat) :
    i / size < laps size count (i % size) ↔ i < count := by
  rw [lt_laps_iff (Nat.mod_lt i pos), Nat.div_add_mod']

theorem succ_div_lt_laps_iff (pos : 0 < size) (i : Nat) :
    i / size + 1 < laps size count (i % size) ↔ i + size < count := by
  rw [← Nat.add_div_right i pos, ← Nat.add_mod_right i size]
  exact div_lt_laps_iff pos (i + size)

theorem laps_zero (inside : slot < size) : laps size 0 slot = 0 := by
  apply Nat.eq_zero_of_not_pos
  rw [lt_laps_iff inside]
  exact Nat.not_lt_zero _

theorem laps_self (pos : 0 < size) (count : Nat) :
    laps size count (count % size) = count / size := by
  apply Nat.le_antisymm
  · apply Nat.le_of_not_lt
    rw [div_lt_laps_iff pos]
    exact Nat.lt_irrefl count
  · have reached : ¬laps size count (count % size) < laps size count (count % size) :=
      Nat.lt_irrefl _
    rw [lt_laps_iff (Nat.mod_lt count pos)] at reached
    apply Nat.le_of_mul_le_mul_right _ pos
    have whole := Nat.div_add_mod' count size
    omega

theorem laps_succ_self (pos : 0 < size) (count : Nat) :
    laps size (count + 1) (count % size) = laps size count (count % size) + 1 := by
  apply Nat.le_antisymm
  · apply Nat.le_of_not_lt
    rw [laps_self pos, succ_div_lt_laps_iff pos]
    omega
  · apply Nat.succ_le_of_lt
    rw [laps_self pos, div_lt_laps_iff pos]
    exact Nat.lt_succ_self count

theorem laps_succ_of_ne (inside : slot < size) (apart : slot ≠ count % size) :
    laps size (count + 1) slot = laps size count slot := by
  have agree : ∀ lap, lap < laps size (count + 1) slot ↔ lap < laps size count slot := by
    intro lap
    rw [lt_laps_iff inside, lt_laps_iff inside]
    have missed : lap * size + slot ≠ count := by
      rintro rfl
      rw [Nat.mul_add_mod_of_lt inside] at apart
      exact apart rfl
    omega
  apply Nat.le_antisymm
  · exact Nat.le_of_not_lt fun below => Nat.lt_irrefl _ ((agree _).mp below)
  · exact Nat.le_of_not_lt fun below => Nat.lt_irrefl _ ((agree _).mpr below)

theorem mod_ne_of_window {index : Nat} (before : index < count) (window : count < index + size) :
    index % size ≠ count % size := by
  intro same
  have divides : size ∣ count - index :=
    Nat.dvd_of_mod_eq_zero (Nat.sub_mod_eq_zero_of_mod_eq same.symm)
  have large := Nat.le_of_dvd (Nat.sub_pos_of_lt before) divides
  omega

theorem div_eq_of_block {i number : Nat} (lower : number * size ≤ i)
    (upper : i < number * size + size) : i / size = number :=
  Nat.div_eq_of_lt_le lower (by rw [Nat.succ_mul]; exact upper)

theorem block_add_mod {index n : Nat} (lower : n * size ≤ index)
    (upper : index < n * size + size) : n * size + index % size = index := by
  have whole := Nat.div_add_mod' index size
  rw [div_eq_of_block lower upper] at whole
  exact whole

theorem block_unique {number other off otherOffset : Nat} (inside : off < size)
    (otherInside : otherOffset < size)
    (same : number * size + off = other * size + otherOffset) :
    number = other ∧ off = otherOffset := by
  have number_eq : (number * size + off) / size = number :=
    div_eq_of_block (Nat.le_add_right _ _) (by omega)
  rw [same, div_eq_of_block (Nat.le_add_right _ _) (by omega)] at number_eq
  subst number_eq
  exact ⟨rfl, by omega⟩

theorem add_mod_of_lt {i step : Nat} (within : i % size + step < size) :
    (i + step) % size = i % size + step := by
  rw [← Nat.mod_add_mod]
  exact Nat.mod_eq_of_lt within

theorem add_mod_of_ge {i step : Nat} (wraps : size ≤ i % size + step)
    (short : step < size) : (i + step) % size = step - (size - i % size) := by
  have inside : i % size < size := Nat.mod_lt i (by omega)
  rw [← Nat.mod_add_mod, Nat.mod_eq_sub_mod wraps, Nat.mod_eq_of_lt (by omega)]
  omega

end AdkAaf.Lib
