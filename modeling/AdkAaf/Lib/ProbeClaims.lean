import Mathlib.Logic.Function.Basic

/-! Keys that settle along a probe sequence. A key looks at the places `probe key 0`,
`probe key 1` and so on and claims the first one that no other key has claimed; a
claim is never given up. -/

set_option autoImplicit false

namespace AdkAaf.Lib

open Function

/-- Probe sequences in which a place is met at one depth only. -/
structure Probing (Key Place : Type) where
  probe : Key → Nat → Place
  depth_unique : ∀ {key other : Key} {depth further : Nat},
    probe key depth = probe other further → depth = further

namespace Probing

variable {Key Place : Type} {scheme : Probing Key Place} {claims larger : Place → Option Key}
variable {key : Key} {depth : Nat}

/-- Every place before `depth` belongs to another key. -/
def Passed (scheme : Probing Key Place) (claims : Place → Option Key) (key : Key)
    (depth : Nat) : Prop :=
  ∀ shallower < depth, ∃ other, claims (scheme.probe key shallower) = some other ∧ other ≠ key

/-- Every claim was made by a key that had passed all places before it. -/
def Settled (scheme : Probing Key Place) (claims : Place → Option Key) : Prop :=
  ∀ place key, claims place = some key →
    ∃ depth, place = scheme.probe key depth ∧ scheme.Passed claims key depth

def Extends (claims larger : Place → Option Key) : Prop :=
  ∀ place key, claims place = some key → larger place = some key

theorem Passed.zero : scheme.Passed claims key 0 := by
  intro shallower below
  exact absurd below (Nat.not_lt_zero shallower)

theorem Passed.succ {other : Key} (passed : scheme.Passed claims key depth)
    (taken : claims (scheme.probe key depth) = some other) (apart : other ≠ key) :
    scheme.Passed claims key (depth + 1) := by
  intro shallower below
  cases Nat.lt_or_eq_of_le (Nat.le_of_lt_succ below) with
  | inl earlier => exact passed shallower earlier
  | inr here => exact ⟨other, here ▸ taken, apart⟩

theorem Passed.extend (passed : scheme.Passed claims key depth)
    (extension : Extends claims larger) : scheme.Passed larger key depth := by
  intro shallower below
  obtain ⟨other, taken, apart⟩ := passed shallower below
  exact ⟨other, extension _ _ taken, apart⟩

theorem Passed.lt_of_claim {claimed : Nat} (passed : scheme.Passed claims key depth)
    (taken : claims (scheme.probe key claimed) = some key) : depth ≤ claimed := by
  apply Nat.le_of_not_lt
  intro below
  obtain ⟨other, owned, apart⟩ := passed claimed below
  exact apart (Option.some.inj (owned.symm.trans taken))

theorem Settled.passed {claimed : Nat} (settled : scheme.Settled claims)
    (taken : claims (scheme.probe key claimed) = some key) : scheme.Passed claims key claimed := by
  obtain ⟨depth, same, passed⟩ := settled _ _ taken
  exact scheme.depth_unique same ▸ passed

theorem Settled.unique {first second : Place} (settled : scheme.Settled claims)
    (one : claims first = some key) (two : claims second = some key) : first = second := by
  obtain ⟨depth, rfl, passed⟩ := settled _ _ one
  obtain ⟨further, rfl, beyond⟩ := settled _ _ two
  have same : depth = further := Nat.le_antisymm (passed.lt_of_claim two) (beyond.lt_of_claim one)
  rw [same]

variable [DecidableEq Place]

def claim (scheme : Probing Key Place) (claims : Place → Option Key) (key : Key) (depth : Nat) :
    Place → Option Key :=
  update claims (scheme.probe key depth) (some key)

@[simp] theorem claim_self :
    scheme.claim claims key depth (scheme.probe key depth) = some key :=
  update_self _ _ _

theorem claim_of_ne {place : Place} (apart : place ≠ scheme.probe key depth) :
    scheme.claim claims key depth place = claims place :=
  update_of_ne apart _ _

theorem extends_claim (free : claims (scheme.probe key depth) = none) :
    Extends claims (scheme.claim claims key depth) := by
  intro place other taken
  have apart : place ≠ scheme.probe key depth := by
    rintro rfl
    simp [free] at taken
  rw [claim_of_ne apart, taken]

theorem Settled.claim (settled : scheme.Settled claims) (passed : scheme.Passed claims key depth)
    (free : claims (scheme.probe key depth) = none) :
    scheme.Settled (scheme.claim claims key depth) := by
  intro place other taken
  by_cases here : place = scheme.probe key depth
  · subst here
    rw [claim_self] at taken
    cases taken
    exact ⟨depth, rfl, passed.extend (extends_claim free)⟩
  · rw [claim_of_ne here] at taken
    obtain ⟨further, same, beyond⟩ := settled _ _ taken
    exact ⟨further, same, beyond.extend (extends_claim free)⟩

end Probing

end AdkAaf.Lib
