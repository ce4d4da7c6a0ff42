import AdkAaf.Lib.Tally

/-! A counter that threads increment by a load and a store. It comes to what it has to as long
as no thread loads between the load and the store of another. -/

set_option autoImplicit false

namespace AdkAaf.Lib

open Function

inductive IncrementPc where
  | outside
  | load
  | store (loaded : Nat)
  deriving DecidableEq

def IncrementPc.loaded : IncrementPc → Option Nat
  | .store loaded => some loaded
  | .outside | .load => none

def IncrementPc.pending : IncrementPc → Nat
  | .outside => 0
  | .load | .store _ => 1

structure SharedCounter (Thread : Type) where
  value : Nat := 0
  threads : Thread → IncrementPc := fun _ => .outside

namespace SharedCounter

variable {Thread : Type} [DecidableEq Thread]

def start (counter : SharedCounter Thread) (thread : Thread) : SharedCounter Thread :=
  { counter with threads := update counter.threads thread .load }

def next (counter : SharedCounter Thread) (thread : Thread) : Option (SharedCounter Thread) :=
  match counter.threads thread with
  | .outside => none
  | .load =>
    some { counter with
      threads := update counter.threads thread (.store counter.value) }
  | .store loaded =>
    some { value := loaded + 1, threads := update counter.threads thread .outside }

/-- A thread that loads has no other between its load and its store. -/
def Alone (counter : SharedCounter Thread) (thread : Thread) : Prop :=
  counter.threads thread = .load → ∀ other, (counter.threads other).loaded = none

structure Exact (counter : SharedCounter Thread) : Prop where
  current : ∀ {thread loaded}, (counter.threads thread).loaded = some loaded →
    loaded = counter.value
  single : ∀ {first second firstLoaded secondLoaded},
    (counter.threads first).loaded = some firstLoaded →
      (counter.threads second).loaded = some secondLoaded → first = second

variable {counter after : SharedCounter Thread} {thread : Thread}

omit [DecidableEq Thread] in
theorem exact_initial : Exact ({} : SharedCounter Thread) where
  current loaded := by cases loaded
  single loaded := by cases loaded

theorem loaded_update {pc : IncrementPc} (nothing : pc.loaded = none) {other : Thread}
    {loaded : Nat} (has : (update counter.threads thread pc other).loaded = some loaded) :
    other ≠ thread ∧ (counter.threads other).loaded = some loaded := by
  have apart : other ≠ thread := by
    rintro rfl
    rw [update_self, nothing] at has
    cases has
  rw [update_of_ne apart] at has
  exact ⟨apart, has⟩

theorem Exact.start (exactly : Exact counter) : Exact (counter.start thread) where
  current has := exactly.current (loaded_update rfl has).2
  single first second := exactly.single (loaded_update rfl first).2 (loaded_update rfl second).2

theorem Exact.next (exactly : Exact counter) (alone : counter.Alone thread)
    (went : counter.next thread = some after) : Exact after := by
  rw [SharedCounter.next] at went
  cases pc : counter.threads thread with rw [pc] at went
  | outside => cases went
  | load =>
    cases went
    have only : ∀ {other loaded}, (update counter.threads thread
        (.store counter.value) other).loaded = some loaded →
          other = thread ∧ loaded = counter.value := by
      intro other loaded has
      by_cases same : other = thread
      · rw [same, update_self] at has
        cases has
        exact ⟨same, rfl⟩
      · rw [update_of_ne same, alone pc other] at has
        cases has
    constructor
    · intro other loaded has
      exact (only has).2
    · intro first second _ _ firstHas secondHas
      exact (only firstHas).1.trans (only secondHas).1.symm
  | store own =>
    cases went
    have nobody : ∀ {other loaded}, (update counter.threads thread
        IncrementPc.outside other).loaded ≠ some loaded := by
      intro other loaded has
      obtain ⟨apart, before⟩ := loaded_update rfl has
      have own : (counter.threads thread).loaded = some own := by rw [pc]; rfl
      exact apart (exactly.single before own)
    exact ⟨fun has => absurd has nobody, fun has => absurd has nobody⟩

variable [Fintype Thread]

def total (counter : SharedCounter Thread) : Nat :=
  counter.value + tally IncrementPc.pending counter.threads

omit [DecidableEq Thread] in
theorem total_initial : ({} : SharedCounter Thread).total = 0 :=
  (Nat.zero_add _).trans (tally_eq_zero_iff.mpr fun _ => rfl)

theorem total_start (outside : counter.threads thread = .outside) :
    (counter.start thread).total = counter.total + 1 := by
  have changed := tally_update IncrementPc.pending counter.threads thread .load
  rw [outside] at changed
  exact congrArg (counter.value + ·) changed

theorem Exact.total_next (exactly : Exact counter) (went : counter.next thread = some after) :
    after.total = counter.total := by
  rw [SharedCounter.next] at went
  cases pc : counter.threads thread with rw [pc] at went
  | outside => cases went
  | load =>
    cases went
    have changed := tally_update IncrementPc.pending counter.threads thread (.store counter.value)
    rw [pc] at changed
    exact congrArg (counter.value + ·) (Nat.add_right_cancel changed)
  | store loaded =>
    cases went
    have current : loaded = counter.value := exactly.current (by rw [pc]; rfl)
    have changed := tally_update IncrementPc.pending counter.threads thread .outside
    rw [pc] at changed
    have balanced : tally IncrementPc.pending (update counter.threads thread .outside) + 1 =
          tally IncrementPc.pending counter.threads := changed
    simp only [total, current, ← balanced]
    exact Nat.add_right_comm _ _ _

omit [DecidableEq Thread] in
theorem total_of_outside (outside : ∀ thread, counter.threads thread = .outside) :
    counter.total = counter.value := by
  rw [total, tally_eq_zero_iff.mpr fun thread => by rw [outside thread]; rfl]
  exact Nat.add_zero _

end SharedCounter

end AdkAaf.Lib
