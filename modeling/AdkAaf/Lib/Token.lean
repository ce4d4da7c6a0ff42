import Mathlib.Algebra.Group.Nat.Defs

/-! A token that is at exactly one of many places, as the number of tokens at each place. A
place that is found to hold a token is the only one. -/

set_option autoImplicit false

namespace AdkAaf.Lib

open List

variable {Place : Type} [DecidableEq Place]

def OnlyAt (tokens : Place → Nat) (place : Place) : Prop :=
  ∀ other, tokens other = if other = place then 1 else 0

variable {tokens moved : Place → Nat} {place source target : Place}

section

variable (only : OnlyAt tokens place)
include only

theorem OnlyAt.here : tokens place = 1 :=
  (only place).trans (if_pos rfl)

theorem OnlyAt.elsewhere {other : Place} (away : other ≠ place) : tokens other = 0 :=
  (only other).trans (if_neg away)

theorem OnlyAt.unique {other : Place} (held : tokens other ≠ 0) : other = place := by
  by_cases same : other = place
  · exact same
  · exact absurd (only.elsewhere same) held

theorem OnlyAt.absent {first second : Place} (held : tokens first ≠ 0)
    (apart : second ≠ first) : tokens second = 0 :=
  only.elsewhere fun same => apart (same.trans (only.unique held).symm)

end

def Moves (tokens moved : Place → Nat) (source target : Place) : Prop :=
  ∀ other, moved other + (if other = source then 1 else 0) =
    tokens other + (if other = target then 1 else 0)

theorem OnlyAt.moves (only : OnlyAt tokens place) (held : tokens source ≠ 0)
    (move : Moves tokens moved source target) : OnlyAt moved target := by
  cases only.unique held
  intro other
  have counted := move other
  rw [only other] at counted
  split at counted
  next => omega
  next => exact counted.trans (Nat.zero_add _)

/-! ## Objects in lists

Each object is a token of its own, and a place has a list of objects. -/

section Contents

variable {Object : Type} [DecidableEq Object]

def tokensOf (contents : Place → List Object) (object : Object) (place : Place) : Nat :=
  (contents place).count object

def Placed (contents : Place → List Object) (object : Object) : Prop :=
  ∃ place, OnlyAt (tokensOf contents object) place

structure Passes (before after : Place → List Object) (object : Object)
    (source target : Place) : Prop where
  different : source ≠ target
  leaves : (before source).Perm (object :: after source)
  arrives : (after target).Perm (object :: before target)
  others : ∀ place, place ≠ source → place ≠ target → after place = before place

variable {before after contents : Place → List Object} {object other : Object}

omit [DecidableEq Place] in
theorem tokensOf_ne_zero (mem : object ∈ contents place) : tokensOf contents object place ≠ 0 :=
  Nat.pos_iff_ne_zero.mp (count_pos_iff.mpr mem)

theorem OnlyAt.of_mem (only : OnlyAt (tokensOf contents object) place) {elsewhere : Place}
    (mem : object ∈ contents elsewhere) : elsewhere = place :=
  only.unique (tokensOf_ne_zero mem)

theorem OnlyAt.mem (only : OnlyAt (tokensOf contents object) place) : object ∈ contents place :=
  count_pos_iff.mp (Nat.lt_of_lt_of_eq Nat.zero_lt_one only.here.symm)

theorem Placed.only (placed : Placed contents object) (mem : object ∈ contents place) :
    OnlyAt (tokensOf contents object) place := by
  obtain ⟨elsewhere, only⟩ := placed
  cases only.of_mem mem
  exact only

section

variable (passes : Passes before after object source target)
include passes

theorem Passes.moves : Moves (tokensOf before object) (tokensOf after object) source target := by
  intro place
  have leaves := passes.leaves.count_eq object
  have arrives := passes.arrives.count_eq object
  rw [count_cons_self] at leaves arrives
  by_cases atSource : place = source
  · subst atSource
    rw [if_pos rfl, if_neg passes.different]
    exact leaves.symm
  · rw [if_neg atSource]
    by_cases atTarget : place = target
    · subst atTarget
      rw [if_pos rfl]
      exact arrives
    · rw [if_neg atTarget, tokensOf, tokensOf, passes.others place atSource atTarget]

theorem Passes.same (apart : other ≠ object) :
    tokensOf after other = tokensOf before other := by
  funext place
  have leaves := passes.leaves.count_eq other
  have arrives := passes.arrives.count_eq other
  rw [count_cons_of_ne (Ne.symm apart)] at leaves arrives
  by_cases atSource : place = source
  · subst atSource
    exact leaves.symm
  · by_cases atTarget : place = target
    · subst atTarget
      exact arrives
    · rw [tokensOf, tokensOf, passes.others place atSource atTarget]

theorem Passes.mem_iff (apart : other ≠ object) :
    other ∈ after place ↔ other ∈ before place := by
  have count := congrFun (passes.same apart) place
  rw [tokensOf, tokensOf] at count
  rw [← count_pos_iff, ← count_pos_iff, count]

end

theorem Placed.passes (placed : Placed before other)
    (passes : Passes before after object source target) : Placed after other := by
  by_cases same : other = object
  · subst same
    obtain ⟨place, only⟩ := placed
    have mem : other ∈ before source := passes.leaves.mem_iff.mpr mem_cons_self
    exact ⟨target, only.moves (tokensOf_ne_zero mem) passes.moves⟩
  · rw [Placed, passes.same same]
    exact placed

theorem Passes.nowhere (passes : Passes before after object source target)
    (nowhere : ∀ place, other ∉ before place) : ∀ place, other ∉ after place := by
  have apart : other ≠ object := by
    intro same
    exact nowhere source (passes.leaves.mem_iff.mpr (same ▸ mem_cons_self))
  intro place mem
  exact nowhere place ((passes.mem_iff apart).mp mem)

theorem Passes.mem_before (passes : Passes before after object source target)
    (mem : other ∈ after place) : ∃ place, other ∈ before place := by
  by_cases same : other = object
  · subst same
    exact ⟨source, passes.leaves.mem_iff.mpr mem_cons_self⟩
  · exact ⟨place, (passes.mem_iff same).mp mem⟩

structure Enters (before after : Place → List Object) (object : Object) (target : Place) :
    Prop where
  arrives : (after target).Perm (object :: before target)
  others : ∀ place, place ≠ target → after place = before place

omit [DecidableEq Object] in
theorem Enters.mem_iff (enters : Enters before after object target) :
    other ∈ after place ↔ other ∈ before place ∨ (other = object ∧ place = target) := by
  by_cases here : place = target
  · subst here
    rw [enters.arrives.mem_iff, mem_cons]
    constructor
    · rintro (same | mem)
      · exact .inr ⟨same, rfl⟩
      · exact .inl mem
    · rintro (mem | ⟨same, _⟩)
      · exact .inr mem
      · exact .inl same
  · rw [enters.others place here]
    exact (or_iff_left fun both => here both.2).symm

theorem Placed.enters (placed : Placed before other)
    (enters : Enters before after object target) (apart : other ≠ object) :
    Placed after other := by
  obtain ⟨place, only⟩ := placed
  refine ⟨place, fun elsewhere => ?_⟩
  rw [← only elsewhere, tokensOf, tokensOf]
  by_cases here : elsewhere = target
  · subst here
    rw [enters.arrives.count_eq, count_cons_of_ne (Ne.symm apart)]
  · rw [enters.others elsewhere here]

theorem Enters.placed (enters : Enters before after object target)
    (nowhere : ∀ place, object ∉ before place) : Placed after object := by
  refine ⟨target, fun place => ?_⟩
  rw [tokensOf]
  by_cases here : place = target
  · subst here
    rw [if_pos rfl, enters.arrives.count_eq, count_cons_self,
      count_eq_zero_of_not_mem (nowhere place)]
  · rw [if_neg here, enters.others place here, count_eq_zero_of_not_mem (nowhere place)]

end Contents

end AdkAaf.Lib
