import Mathlib.Data.List.Sort
import Mathlib.Algebra.Group.Nat.Defs

/-! `ReorderBuffer` of `aaf/code/sharding/reorder_buffer.h`: the agent's
receive actor puts the numbers of processed messages in and acknowledges the
largest number below which nothing is missing. Numbers are `uint64_t`; the
additions that can wrap are taken modulo `2 ^ 64`. -/

set_option autoImplicit false

namespace AdkAaf.Sharding

open Function List

def reorderBufferSize : Nat := 8192

structure ReorderBuffer where
  head : Nat := 0
  /-- `array_`, read and written at indices below `reorderBufferSize` only. -/
  array : Nat → Nat := fun _ => 0
  /-- `overflow_map_`, a `std::set` listed in iteration order. -/
  overflowMap : List Nat := []

namespace ReorderBuffer

def insertOverflow (sqn : Nat) (overflow : List Nat) : List Nat :=
  if sqn ∈ overflow then overflow else overflow.orderedInsert (· ≤ ·) sqn

def putSqn (handleOverflow : Bool) (buffer : ReorderBuffer) (sqn : Nat) :
    Bool × ReorderBuffer :=
  if sqn < buffer.head then
    (true, buffer)
  else if (buffer.head + reorderBufferSize) % 2 ^ 64 > sqn then
    (true, { buffer with array := update buffer.array (sqn % reorderBufferSize) sqn })
  else if handleOverflow then
    (false, { buffer with overflowMap := insertOverflow sqn buffer.overflowMap })
  else
    (false, buffer)

/-- The loop of `PushHead`, cut off after `fuel` increments of `head_`. -/
def pushHeadLoop : Nat → ReorderBuffer → ReorderBuffer
  | 0, buffer => buffer
  | fuel + 1, buffer =>
    if buffer.head = buffer.array (buffer.head % reorderBufferSize) then
      pushHeadLoop fuel { buffer with head := (buffer.head + 1) % 2 ^ 64 }
    else
      buffer

def pushHead (buffer : ReorderBuffer) : ReorderBuffer :=
  pushHeadLoop reorderBufferSize buffer

/-- The loop of `GetNextSqn` over `overflow_map_`, which erases what fits. -/
def drainOverflow : List Nat → ReorderBuffer → ReorderBuffer
  | [], buffer => { buffer with overflowMap := [] }
  | sqn :: rest, buffer =>
    match buffer.putSqn false sqn with
    | (true, next) => drainOverflow rest next
    | (false, _) => { buffer with overflowMap := sqn :: rest }

def getNextSqn (buffer : ReorderBuffer) : Nat × ReorderBuffer :=
  let pushed := buffer.pushHead
  if pushed.overflowMap = [] then
    ((pushed.head + (2 ^ 64 - 1)) % 2 ^ 64, pushed)
  else
    let final := (drainOverflow pushed.overflowMap pushed).pushHead
    ((final.head + (2 ^ 64 - 1)) % 2 ^ 64, final)

inductive Call where
  | putSqn (sqn : Nat)
  | getNextSqn

/-- A sequence of calls: the buffer it leaves and the values `GetNextSqn`
returned, in order. -/
def run : List Call → ReorderBuffer → List Nat × ReorderBuffer
  | [], buffer => ([], buffer)
  | .putSqn sqn :: rest, buffer => run rest (buffer.putSqn true sqn).2
  | .getNextSqn :: rest, buffer =>
    let (value, next) := buffer.getNextSqn
    let (values, final) := run rest next
    (value :: values, final)

/-- The numbers the callers may pass: from one, and so far below the end of
`uint64_t` that `head_ + REORDER_BUFFER_SIZE` cannot wrap. -/
def Acceptable (sqn : Nat) : Prop := 1 ≤ sqn ∧ sqn < 2 ^ 64 - reorderBufferSize

/-- What ties the buffer to the numbers that were put: nothing else is stored,
and nothing below `head_` is missing. Slot zero is filled with the value zero
at construction, which is why it must stay untouched until `head_` has moved. -/
structure Sound (put : Nat → Prop) (buffer : ReorderBuffer) : Prop where
  slots : ∀ index, buffer.array index = 0 ∨ put (buffer.array index)
  parked : ∀ sqn ∈ buffer.overflowMap, put sqn
  acknowledged : ∀ sqn, 1 ≤ sqn → sqn < buffer.head → put sqn
  untouched : buffer.head = 0 → buffer.array 0 = 0

variable {put : Nat → Prop} {buffer : ReorderBuffer}

theorem Sound.initial : Sound put {} where
  slots _ := .inl rfl
  parked _ mem := by cases mem
  acknowledged sqn _ below := by cases below
  untouched _ := rfl

theorem Sound.mono (sound : Sound put buffer) {more : Nat → Prop}
    (weaker : ∀ sqn, put sqn → more sqn) : Sound more buffer where
  slots index := (sound.slots index).imp_right (weaker _)
  parked sqn mem := weaker sqn (sound.parked sqn mem)
  acknowledged sqn positive below := weaker sqn (sound.acknowledged sqn positive below)
  untouched := sound.untouched

theorem Sound.head_le (acceptable : ∀ sqn, put sqn → Acceptable sqn)
    (sound : Sound put buffer) : buffer.head ≤ 2 ^ 64 - reorderBufferSize := by
  by_contra beyond
  have large : 2 ^ 64 - reorderBufferSize < buffer.head := by omega
  have last := acceptable _ (sound.acknowledged (buffer.head - 1)
    (by simp only [reorderBufferSize] at large; omega)
    (by simp only [reorderBufferSize] at large; omega))
  simp only [Acceptable, reorderBufferSize] at last large
  omega

variable {sqn : Nat}

theorem mem_insertOverflow {other : Nat} {overflow : List Nat}
    (mem : other ∈ insertOverflow sqn overflow) : other = sqn ∨ other ∈ overflow := by
  unfold insertOverflow at mem
  split at mem
  · exact .inr mem
  · simpa only [mem_orderedInsert] using mem

theorem Sound.putSqn (sound : Sound put buffer) (pos : 1 ≤ sqn) (offered : put sqn)
    (handleOverflow : Bool) : Sound put (buffer.putSqn handleOverflow sqn).2 := by
  unfold ReorderBuffer.putSqn
  split
  · exact sound
  · split
    · next fits =>
      refine ⟨?_, sound.parked, sound.acknowledged, ?_⟩
      · intro index
        by_cases same : index = sqn % reorderBufferSize
        · exact .inr (by simpa [update, same] using offered)
        · simpa [update, same] using sound.slots index
      · -- from `head_ = 0` only numbers below one lap are stored, none at slot zero
        intro atStart
        have atStart : buffer.head = 0 := atStart
        have elsewhere : 0 ≠ sqn % reorderBufferSize := by
          simp only [atStart, reorderBufferSize] at fits ⊢
          omega
        simpa [update, elsewhere] using sound.untouched atStart
    · split
      · refine { sound with parked := ?_ }
        intro other mem
        rcases mem_insertOverflow mem with rfl | earlier
        · exact offered
        · exact sound.parked other earlier
      · exact sound

theorem putSqn_head (buffer : ReorderBuffer) (handleOverflow : Bool) (sqn : Nat) :
    (buffer.putSqn handleOverflow sqn).2.head = buffer.head := by
  unfold ReorderBuffer.putSqn
  split
  · rfl
  · split
    · rfl
    · split <;> rfl

/-- One increment of `head_` in `PushHead`. The value zero marks slot zero
before the first number, every other match is a number that was put. -/
theorem Sound.advance (acceptable : ∀ sqn, put sqn → Acceptable sqn) (sound : Sound put buffer)
    (matched : buffer.head = buffer.array (buffer.head % reorderBufferSize)) :
    (buffer.head + 1) % 2 ^ 64 = buffer.head + 1 ∧
      Sound put { buffer with head := (buffer.head + 1) % 2 ^ 64 } := by
  have bounded := sound.head_le acceptable
  have kept : (buffer.head + 1) % 2 ^ 64 = buffer.head + 1 := by
    simp only [reorderBufferSize] at bounded
    omega
  refine ⟨kept, sound.slots, sound.parked, ?_, ?_⟩
  · intro sqn pos below
    simp only [kept] at below
    by_cases last : sqn = buffer.head
    · rcases sound.slots (buffer.head % reorderBufferSize) with empty | stored
      · omega
      · rwa [last, matched]
    · exact sound.acknowledged sqn pos (by omega)
  · intro atStart
    simp only [kept] at atStart
    omega

theorem Sound.pushHeadLoop (acceptable : ∀ sqn, put sqn → Acceptable sqn) (fuel : Nat)
    (sound : Sound put buffer) :
    Sound put (pushHeadLoop fuel buffer) ∧ buffer.head ≤ (pushHeadLoop fuel buffer).head := by
  induction fuel generalizing buffer with
  | zero => exact ⟨sound, .refl⟩
  | succ fuel ih =>
    unfold ReorderBuffer.pushHeadLoop
    split
    · next matched =>
      obtain ⟨kept, advanced⟩ := sound.advance acceptable matched
      obtain ⟨finished, grown⟩ := ih advanced
      refine ⟨finished, Nat.le_trans ?_ grown⟩
      simp only [kept]
      omega
    · exact ⟨sound, .refl⟩

theorem pushHeadLoop_array (fuel : Nat) : (pushHeadLoop fuel buffer).array = buffer.array := by
  induction fuel generalizing buffer with
  | zero => rfl
  | succ fuel ih =>
    unfold pushHeadLoop
    split
    · rw [ih]
    · rfl

def HeadMatches (buffer : ReorderBuffer) : Prop :=
  buffer.head = buffer.array (buffer.head % reorderBufferSize)

theorem pushHeadLoop_cut (fuel : Nat) (bounded : buffer.head < 2 ^ 64)
    (cut : (pushHeadLoop fuel buffer).HeadMatches) :
    buffer.HeadMatches ∧ (pushHeadLoop fuel buffer).head = (buffer.head + fuel) % 2 ^ 64 := by
  induction fuel generalizing buffer with
  | zero => exact ⟨cut, (Nat.mod_eq_of_lt bounded).symm⟩
  | succ fuel ih =>
    by_cases matched : buffer.HeadMatches
    · have unfolded : pushHeadLoop (fuel + 1) buffer =
          pushHeadLoop fuel { buffer with head := (buffer.head + 1) % 2 ^ 64 } :=
        if_pos matched
      rw [unfolded] at cut ⊢
      obtain ⟨_, reached⟩ := ih (Nat.mod_lt _ (by decide)) cut
      refine ⟨matched, reached.trans ?_⟩
      simp only [Nat.mod_add_mod]
      congr 1
      omega
    · have unfolded : pushHeadLoop (fuel + 1) buffer = buffer := if_neg matched
      rw [unfolded] at cut
      exact (matched cut).elim

/-- `PushHead` terminates within one lap: after that many increments the slot
of the first one is back, holding a number one lap too small. -/
theorem pushHead_exits (bounded : buffer.head < 2 ^ 64) : ¬ buffer.pushHead.HeadMatches := by
  intro cut
  obtain ⟨matched, reached⟩ := pushHeadLoop_cut reorderBufferSize bounded cut
  have again : buffer.pushHead.head = buffer.array (buffer.pushHead.head % reorderBufferSize) := by
    simpa only [HeadMatches, pushHead, pushHeadLoop_array] using cut
  have lapped : buffer.pushHead.head = (buffer.head + 8192) % 2 ^ 64 := reached
  have sameSlot : buffer.pushHead.head % reorderBufferSize = buffer.head % reorderBufferSize := by
    simp only [lapped, reorderBufferSize]
    omega
  rw [sameSlot, ← show buffer.head = _ from matched, lapped] at again
  omega

section

variable (acceptable : ∀ sqn, put sqn → Acceptable sqn)
include acceptable

theorem Sound.drainOverflow {overflow : List Nat} (parked : ∀ sqn ∈ overflow, put sqn)
    (sound : Sound put buffer) : Sound put (drainOverflow overflow buffer) ∧
      (drainOverflow overflow buffer).head = buffer.head := by
  induction overflow generalizing buffer with
  | nil =>
    refine ⟨{ sound with parked := ?_ }, rfl⟩
    simp [ReorderBuffer.drainOverflow]
  | cons sqn rest ih =>
    have offered := parked sqn mem_cons_self
    have stored := sound.putSqn (acceptable sqn offered).1 offered false
    have sameHead := putSqn_head buffer false sqn
    unfold ReorderBuffer.drainOverflow
    cases result : buffer.putSqn false sqn with
    | mk fits next =>
      rw [result] at stored sameHead
      cases fits with
      | true =>
        obtain ⟨drained, kept⟩ :=
          ih (fun other mem => parked other (mem_cons_of_mem _ mem)) stored
        exact ⟨drained, kept.trans sameHead⟩
      | false => exact ⟨{ sound with parked := parked }, rfl⟩

/-- `PushHead` leaves `head_` at one or above, so that `head_ - 1` is the last
acknowledged number. -/
theorem Sound.pushHead (sound : Sound put buffer) :
    Sound put buffer.pushHead ∧ buffer.head ≤ buffer.pushHead.head ∧ 1 ≤ buffer.pushHead.head := by
  have bounded := sound.head_le acceptable
  obtain ⟨pushed, grown⟩ := sound.pushHeadLoop acceptable reorderBufferSize
  refine ⟨pushed, grown, ?_⟩
  by_contra atStart
  have zero : buffer.pushHead.head = 0 := by omega
  have exits : ¬ buffer.pushHead.HeadMatches :=
    pushHead_exits (by simp only [reorderBufferSize] at bounded; omega)
  apply exits
  simp only [HeadMatches, zero, Nat.zero_mod]
  exact (pushed.untouched zero).symm

theorem Sound.getNextSqn (sound : Sound put buffer) :
    Sound put buffer.getNextSqn.2 ∧ buffer.head ≤ buffer.getNextSqn.2.head ∧
      buffer.getNextSqn.1 + 1 = buffer.getNextSqn.2.head := by
  obtain ⟨pushed, grown, pos⟩ := sound.pushHead acceptable
  have previous : ∀ {final : ReorderBuffer}, Sound put final → 1 ≤ final.head →
      (final.head + (2 ^ 64 - 1)) % 2 ^ 64 + 1 = final.head := by
    intro final settled nonzero
    have bounded := settled.head_le acceptable
    omega
  unfold ReorderBuffer.getNextSqn
  dsimp only
  split
  · exact ⟨pushed, grown, previous pushed pos⟩
  · obtain ⟨drained, kept⟩ := pushed.drainOverflow acceptable pushed.parked
    obtain ⟨final, further, nonzero⟩ := drained.pushHead acceptable
    exact ⟨final, (grown.trans kept.ge).trans further, previous final nonzero⟩

end

theorem Sound.run (earlier calls : List Call)
    (acceptable : ∀ sqn, Call.putSqn sqn ∈ earlier ++ calls → Acceptable sqn)
    (sound : Sound (fun sqn => Call.putSqn sqn ∈ earlier) buffer) :
    Sound (fun sqn => Call.putSqn sqn ∈ earlier ++ calls) (run calls buffer).2 ∧
      (∀ value ∈ (run calls buffer).1, buffer.head ≤ value + 1) ∧
      (run calls buffer).1.Pairwise (· ≤ ·) := by
  induction calls generalizing earlier buffer with
  | nil =>
    refine ⟨sound.mono fun sqn mem => ?_, ?_, Pairwise.nil⟩
    · exact mem_append_left _ mem
    · nofun
  | cons call rest ih =>
    have regroup : earlier ++ call :: rest = (earlier ++ [call]) ++ rest := by simp
    rw [regroup] at acceptable ⊢
    have widened : Sound (fun sqn => Call.putSqn sqn ∈ earlier ++ [call]) buffer :=
      sound.mono fun sqn mem => mem_append_left _ mem
    cases call with
    | putSqn sqn =>
      have stored := widened.putSqn (acceptable sqn (by simp)).1 (by simp) true
      obtain ⟨final, above, ordered⟩ := ih _ acceptable stored
      refine ⟨final, ?_, ordered⟩
      intro value mem
      have bound := above value mem
      rwa [putSqn_head] at bound
    | getNextSqn =>
      obtain ⟨next, grown, returned⟩ := widened.getNextSqn
        fun sqn mem => acceptable sqn (mem_append_left _ mem)
      obtain ⟨final, above, ordered⟩ := ih _ acceptable next
      refine ⟨final, ?_, ?_⟩
      · intro value mem
        rcases mem_cons.mp mem with rfl | later
        · show buffer.head ≤ buffer.getNextSqn.1 + 1
          omega
        · have bound := above value later
          omega
      · refine Pairwise.cons ?_ ordered
        intro value mem
        have bound := above value mem
        show buffer.getNextSqn.1 ≤ value
        omega

/-- Whatever is put in whatever order, a value returned by `GetNextSqn` has all
numbers from one up to it among the numbers put before that call, and the
returned values never decrease. -/
theorem getNextSqn_never_acknowledges_gap (calls : List Call)
    (acceptable : ∀ sqn, Call.putSqn sqn ∈ calls → Acceptable sqn) :
    (∀ before after, calls = before ++ Call.getNextSqn :: after →
      ∀ sqn, 1 ≤ sqn → sqn ≤ (run before {}).2.getNextSqn.1 → Call.putSqn sqn ∈ before) ∧
    (run calls {}).1.Pairwise (· ≤ ·) := by
  constructor
  · rintro before after rfl sqn positive covered
    have within : ∀ other, Call.putSqn other ∈ before → Acceptable other :=
      fun other member => acceptable other (mem_append_left _ member)
    have reached := (Sound.run [] before within Sound.initial).1
    rw [nil_append] at reached
    obtain ⟨next, _, returned⟩ := reached.getNextSqn within
    exact next.acknowledged sqn positive (by omega)
  · exact (Sound.run [] calls acceptable Sound.initial).2.2

/-- A gap, a duplicate and a jump past the ring: `3` is held back until `2`. -/
theorem getNextSqn_holds_back_example : (∀ before after,
      [Call.putSqn 1, .putSqn 3, .putSqn 9000, .getNextSqn, .putSqn 1, .putSqn 2, .getNextSqn] =
        before ++ Call.getNextSqn :: after →
      ∀ sqn, 1 ≤ sqn → sqn ≤ (run before {}).2.getNextSqn.1 → Call.putSqn sqn ∈ before) ∧
    (run [.putSqn 1, .putSqn 3, .putSqn 9000, .getNextSqn, .putSqn 1, .putSqn 2, .getNextSqn]
      {}).1.Pairwise (· ≤ ·) :=
  getNextSqn_never_acknowledges_gap _ (by
    intro sqn member
    simp only [mem_cons, Call.putSqn.injEq, reduceCtorEq, not_mem_nil, or_false,
      false_or] at member
    simp only [Acceptable, reorderBufferSize]
    omega)

example : (run [.putSqn 1, .putSqn 3, .putSqn 9000, .getNextSqn, .putSqn 1, .putSqn 2,
    .getNextSqn] {}).1 = [1, 3] := by decide +kernel

end ReorderBuffer

end AdkAaf.Sharding
