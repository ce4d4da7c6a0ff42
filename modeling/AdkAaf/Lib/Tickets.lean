import Mathlib.Data.List.Nodup

/-! Consecutive numbers that are handed out to threads: of the numbers from `low` up to `high`
each is held by one thread. A thread draws the next number, gives the last one back, or is
served when its number is the first. -/

set_option autoImplicit false

namespace AdkAaf.Lib

open List

variable {Thread : Type}

structure Tickets (held : Thread → List Nat) (low high : Nat) : Prop where
  range : ∀ {thread number}, number ∈ held thread → low ≤ number ∧ number < high
  owned : ∀ number, low ≤ number → number < high → ∃ thread, number ∈ held thread
  alone : ∀ {first second number}, number ∈ held first → number ∈ held second → first = second
  nodup : ∀ thread, (held thread).Nodup

namespace Tickets

variable {held after : Thread → List Nat} {low high number : Nat} {thread : Thread}

theorem le (tickets : Tickets held low high) (mem : number ∈ held thread) : low ≤ number :=
  (tickets.range mem).1

theorem lt (tickets : Tickets held low high) (mem : number ∈ held thread) : number < high :=
  (tickets.range mem).2

theorem none (empty : ∀ thread, held thread = []) (low : Nat) : Tickets held low low where
  range mem := by
    rw [empty] at mem
    cases mem
  owned _ above below := absurd below (Nat.not_lt_of_le above)
  alone mem := by
    rw [empty] at mem
    cases mem
  nodup thread := by
    rw [empty]
    exact nodup_nil

theorem perm (tickets : Tickets held low high) (same : ∀ thread, (after thread).Perm (held thread)) :
    Tickets after low high where
  range mem := tickets.range ((same _).mem_iff.mp mem)
  owned number above below := by
    obtain ⟨thread, mem⟩ := tickets.owned number above below
    exact ⟨thread, (same thread).mem_iff.mpr mem⟩
  alone mem member' := tickets.alone ((same _).mem_iff.mp mem) ((same _).mem_iff.mp member')
  nodup thread := (same thread).nodup_iff.mpr (tickets.nodup thread)

section One

variable (others : ∀ other, other ≠ thread → after other = held other)
include others

private theorem perm_of_others {before : List Nat} (here : (after thread).Perm before)
    (same : before = held thread) (other : Thread) : (after other).Perm (held other) := by
  by_cases equal : other = thread
  · exact equal ▸ same ▸ here
  · rw [others other equal]

section

variable (tickets : Tickets held low high)
include tickets

theorem keep (here : (after thread).Perm (held thread)) : Tickets after low high :=
  tickets.perm (perm_of_others others here rfl)

theorem draw (ordered : low ≤ high) (here : (after thread).Perm (high :: held thread)) :
    Tickets after low (high + 1) := by
  have mem : ∀ {other number}, number ∈ after other →
      number ∈ held other ∨ other = thread ∧ number = high := by
    intro other number found
    by_cases equal : other = thread
    · subst equal
      rcases mem_cons.mp (here.mem_iff.mp found) with own | old
      · exact .inr ⟨rfl, own⟩
      · exact .inl old
    · exact .inl (others other equal ▸ found)
  refine ⟨fun found => ?_, fun number above below => ?_, fun found found' => ?_, fun other => ?_⟩
  · rcases mem found with old | ⟨-, rfl⟩
    · exact ⟨tickets.le old, Nat.lt_succ_of_lt (tickets.lt old)⟩
    · exact ⟨ordered, Nat.lt_succ_self _⟩
  · rcases Nat.lt_succ_iff_lt_or_eq.mp below with less | rfl
    · obtain ⟨owner, old⟩ := tickets.owned number above less
      refine ⟨owner, ?_⟩
      by_cases equal : owner = thread
      · subst equal
        exact here.mem_iff.mpr (mem_cons_of_mem _ old)
      · rwa [others owner equal]
    · exact ⟨thread, here.mem_iff.mpr mem_cons_self⟩
  · rcases mem found with old | ⟨rfl, rfl⟩
    · rcases mem found' with old' | ⟨-, rfl⟩
      · exact tickets.alone old old'
      · exact absurd (tickets.lt old) (Nat.lt_irrefl _)
    · rcases mem found' with old' | ⟨rfl, -⟩
      · exact absurd (tickets.lt old') (Nat.lt_irrefl _)
      · rfl
  · by_cases equal : other = thread
    · subst equal
      rw [here.nodup_iff, nodup_cons]
      exact ⟨fun old => absurd (tickets.lt old) (Nat.lt_irrefl _), tickets.nodup other⟩
    · rw [others other equal]
      exact tickets.nodup other

section

variable (here : (held thread).Perm (number :: after thread))
include here

private theorem mem_of_drop {other : Thread} {kept : Nat} :
    kept ∈ after other ↔ kept ∈ held other ∧ kept ≠ number := by
  have distinct := here.nodup_iff.mp (tickets.nodup thread)
  have own : number ∈ held thread := here.mem_iff.mpr mem_cons_self
  by_cases equal : other = thread
  · subst equal
    rw [here.mem_iff, mem_cons]
    constructor
    · intro found
      refine ⟨.inr found, fun same => (nodup_cons.mp distinct).1 (same ▸ found)⟩
    · rintro ⟨same | found, apart⟩
      · exact absurd same apart
      · exact found
  · rw [others other equal]
    constructor
    · exact fun found => ⟨found, fun same => equal (tickets.alone (same ▸ found) own)⟩
    · exact And.left

private theorem nodup_of_drop (other : Thread) : (after other).Nodup := by
  by_cases equal : other = thread
  · subst equal
    exact (nodup_cons.mp (here.nodup_iff.mp (tickets.nodup other))).2
  · rw [others other equal]
    exact tickets.nodup other

private theorem drop {low' high' : Nat}
    (range : ∀ kept, (low' ≤ kept ∧ kept < high') ↔ (low ≤ kept ∧ kept < high) ∧ kept ≠ number) :
    Tickets after low' high' where
  range found := by
    obtain ⟨old, apart⟩ := (mem_of_drop others tickets here).mp found
    exact (range _).mpr ⟨tickets.range old, apart⟩
  owned kept above below := by
    obtain ⟨old, apart⟩ := (range kept).mp ⟨above, below⟩
    obtain ⟨owner, found⟩ := tickets.owned kept old.1 old.2
    exact ⟨owner, (mem_of_drop others tickets here).mpr ⟨found, apart⟩⟩
  alone found found' := tickets.alone ((mem_of_drop others tickets here).mp found).1
      ((mem_of_drop others tickets here).mp found').1
  nodup := nodup_of_drop others tickets here

end

end

theorem giveBack (tickets : Tickets held low (number + 1))
    (here : (held thread).Perm (number :: after thread)) : Tickets after low number := by
  apply drop others tickets here
  intro kept
  omega

theorem serve (tickets : Tickets held low high)
    (here : (held thread).Perm (low :: after thread)) : Tickets after (low + 1) high := by
  apply drop others tickets here
  intro kept
  omega

end One

end Tickets

end AdkAaf.Lib
