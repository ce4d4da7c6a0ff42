import Mathlib.Algebra.GroupWithZero.Nat

/-! Positions that only grow, placed in a ring of `size` bytes. Ranges whose
positions lie in one window of at most `size` bytes do not meet in the ring,
even where they run over its end. -/

set_option autoImplicit false

namespace AdkAaf.Lib

open List

/-- Two byte ranges, given by their first byte and their length, that have no
byte in common. -/
def RangesApart (first firstLength second secondLength : Nat) : Prop :=
  first + firstLength ≤ second ∨ second + secondLength ≤ first

instance (first firstLength second secondLength : Nat) :
    Decidable (RangesApart first firstLength second secondLength) :=
  inferInstanceAs (Decidable (_ ∨ _))

theorem RangesApart.symm {first firstLength second secondLength : Nat}
    (apart : RangesApart first firstLength second secondLength) :
    RangesApart second secondLength first firstLength := Or.symm apart

theorem rangesApart_of_window {size start earlier earlierLength later laterLength : Nat}
    (begins : start ≤ earlier) (ordered : earlier + earlierLength ≤ later)
    (fits : later + laterLength ≤ start + size) :
    RangesApart (earlier % size) earlierLength (later % size) laterLength := by
  unfold RangesApart
  rcases Nat.eq_zero_or_pos size with rfl | pos
  · simp only [Nat.mod_zero]
    exact .inl ordered
  · have lowerSplit := Nat.div_add_mod earlier size
    have upperSplit := Nat.div_add_mod later size
    have lapLe : earlier / size ≤ later / size := Nat.div_le_div_right (by omega)
    have lapBound : later / size ≤ earlier / size + 1 := by
      rw [← Nat.add_div_right earlier pos]
      exact Nat.div_le_div_right (by omega)
    -- either both begin in the same lap, or the later one has wrapped once
    rcases (show later / size = earlier / size ∨ later / size = earlier / size + 1 by omega) with
      sameLap | nextLap
    · rw [sameLap] at upperSplit
      omega
    · rw [nextLap, Nat.mul_add, Nat.mul_one] at upperSplit
      omega

section Placements

variable {Item : Type} (size : Item → Nat)

def extent (items : List Item) : Nat := (items.map size).sum

def placements : Nat → List Item → List (Nat × Item)
  | _, [] => []
  | start, item :: rest => (start, item) :: placements (start + size item) rest

@[simp] theorem extent_nil : extent size [] = 0 := rfl

@[simp] theorem extent_cons (item : Item) (rest : List Item) :
    extent size (item :: rest) = size item + extent size rest := by simp [extent]

theorem extent_append (first second : List Item) :
    extent size (first ++ second) = extent size first + extent size second := by
  simp [extent]

variable {items : List Item}

theorem extent_set {i : Nat} {old : Item} (found : items[i]? = some old) (item : Item) :
    extent size (items.set i item) + size old = extent size items + size item := by
  induction items generalizing i with
  | nil => cases found
  | cons first rest ih =>
    cases i with
    | zero =>
      cases found
      simp only [set_cons_zero, extent_cons]
      omega
    | succ i =>
      have shorter := ih (show rest[i]? = some old from found)
      simp only [set_cons_succ, extent_cons]
      omega

theorem length_le_extent (pos : ∀ item ∈ items, 1 ≤ size item) :
    items.length ≤ extent size items := by
  induction items with
  | nil => exact Nat.le_refl 0
  | cons first rest ih =>
    have head := pos first mem_cons_self
    have shorter := ih fun item mem => pos item (mem_cons_of_mem _ mem)
    simp only [length_cons, extent_cons]
    omega

theorem extent_eq_zero (none : ∀ item ∈ items, size item = 0) : extent size items = 0 := by
  induction items with
  | nil => rfl
  | cons first rest ih =>
    rw [extent_cons, none first mem_cons_self, Nat.zero_add]
    exact ih fun item mem => none item (mem_cons_of_mem _ mem)

theorem dvd_extent {divisor : Nat}
    (whole : ∀ item ∈ items, divisor ∣ size item) : divisor ∣ extent size items := by
  induction items with
  | nil => exact Nat.dvd_zero divisor
  | cons first rest ih =>
    exact Nat.dvd_add (whole first mem_cons_self)
      (ih fun item mem => whole item (mem_cons_of_mem first mem))

theorem extent_mono {other : Item → Nat}
    (le : ∀ item ∈ items, size item ≤ other item) : extent size items ≤ extent other items := by
  induction items with
  | nil => exact Nat.le_refl 0
  | cons first rest ih =>
    have head := le first mem_cons_self
    have shorter := ih fun item mem => le item (mem_cons_of_mem _ mem)
    simp only [extent_cons]
    omega

theorem placements_append (start : Nat) (first second : List Item) :
    placements size start (first ++ second) =
      placements size start first ++ placements size (start + extent size first) second := by
  induction first generalizing start with
  | nil => simp [placements]
  | cons item rest ih => simp [placements, ih, Nat.add_assoc]

variable {change : Item → Item}

theorem placements_map (kept : ∀ item, size (change item) = size item) (start : Nat)
    (items : List Item) : placements size start (items.map change) =
      (placements size start items).map fun placed => (placed.1, change placed.2) := by
  induction items generalizing start with
  | nil => rfl
  | cons item rest ih => simp [placements, kept, ih]

theorem extent_map (kept : ∀ item, size (change item) = size item) (items : List Item) :
    extent size (items.map change) = extent size items := by
  induction items with
  | nil => rfl
  | cons item rest ih => simp [kept, ih]

variable {item : Item}

theorem exists_placement (mem : item ∈ items) (start : Nat) :
    ∃ position, (position, item) ∈ placements size start items := by
  induction items generalizing start with
  | nil => cases mem
  | cons first rest ih =>
    rcases mem_cons.mp mem with rfl | later
    · exact ⟨start, mem_cons_self⟩
    · obtain ⟨position, placed⟩ := ih later (start + size first)
      exact ⟨position, mem_cons_of_mem _ placed⟩

variable {start position : Nat}

theorem mem_of_placement (mem : (position, item) ∈ placements size start items) :
    item ∈ items := by
  induction items generalizing start with
  | nil => cases mem
  | cons first rest ih =>
    simp only [placements, mem_cons, Prod.mk.injEq] at mem
    rcases mem with ⟨_, rfl⟩ | later
    · exact mem_cons_self
    · exact mem_cons_of_mem _ (ih later)

theorem placements_bounds (mem : (position, item) ∈ placements size start items) :
    start ≤ position ∧ position + size item ≤ start + extent size items := by
  induction items generalizing start with
  | nil => cases mem
  | cons first rest ih =>
    simp only [placements, mem_cons, Prod.mk.injEq] at mem
    simp only [extent_cons]
    rcases mem with ⟨rfl, rfl⟩ | later
    · omega
    · have bounds := ih later
      omega

variable {first second : Nat} {earlier later : Item}

theorem placements_ordered (mem : (first, earlier) ∈ placements size start items)
    (member' : (second, later) ∈ placements size start items) (less : first < second) :
    first + size earlier ≤ second := by
  induction items generalizing start with
  | nil => cases mem
  | cons item rest ih =>
    simp only [placements, mem_cons, Prod.mk.injEq] at mem member'
    rcases mem with ⟨rfl, rfl⟩ | inRest
    · rcases member' with ⟨rfl, rfl⟩ | inRest'
      · omega
      · exact (placements_bounds size inRest').1
    · rcases member' with ⟨rfl, rfl⟩ | inRest'
      · have bounds := placements_bounds size inRest
        omega
      · exact ih inRest inRest'

theorem placements_unique (pos : ∀ item, 0 < size item) {item' : Item}
    (mem : (position, item) ∈ placements size start items)
    (member' : (position, item') ∈ placements size start items) : item = item' := by
  induction items generalizing start with
  | nil => cases mem
  | cons first rest ih =>
    have large := pos first
    simp only [placements, mem_cons, Prod.mk.injEq] at mem member'
    rcases mem with ⟨rfl, rfl⟩ | inRest
    · rcases member' with ⟨_, rfl⟩ | inRest'
      · rfl
      · have bounds := placements_bounds size inRest'
        omega
    · rcases member' with ⟨rfl, rfl⟩ | inRest'
      · have bounds := placements_bounds size inRest
        omega
      · exact ih inRest inRest'

theorem placements_apart {ringSize : Nat} (fits : extent size items ≤ ringSize)
    (mem : (first, earlier) ∈ placements size start items)
    (member' : (second, later) ∈ placements size start items) (apart : first ≠ second) :
    RangesApart (first % ringSize) (size earlier) (second % ringSize) (size later) := by
  have bounds := placements_bounds size mem
  have bounds' := placements_bounds size member'
  rcases Nat.lt_or_gt_of_ne apart with less | greater
  · exact rangesApart_of_window bounds.1 (placements_ordered size mem member' less) (by omega)
  · exact (rangesApart_of_window bounds'.1 (placements_ordered size member' mem greater)
      (by omega)).symm

theorem extent_take_succ {n : Nat} (found : items[n]? = some item) :
    extent size (items.take (n + 1)) = extent size (items.take n) + size item := by
  rw [take_add_one, found, extent_append]
  simp

theorem extent_take_mono (items : List Item) {fewer more : Nat} (le : fewer ≤ more) :
    extent size (items.take fewer) ≤ extent size (items.take more) := by
  have whole := congrArg (extent size) (take_append_drop fewer (items.take more))
  rw [extent_append, take_take, Nat.min_eq_left le] at whole
  rw [← whole]
  exact Nat.le_add_right _ _

theorem extent_take_add_le {earlier later : Nat}
    (found : items[earlier]? = some item) (less : earlier < later) :
    extent size (items.take earlier) + size item ≤ extent size (items.take later) := by
  rw [← extent_take_succ size found]
  exact extent_take_mono size items less

theorem extent_take_congr {others : List Item} (same : items.map size = others.map size)
    (n : Nat) : extent size (items.take n) = extent size (others.take n) := by
  rw [extent, extent, map_take, map_take, same]

end Placements

end AdkAaf.Lib
