import AdkAaf.Sharding.ReorderBuffer

/-! How far a call of `ReorderBuffer::GetNextSqn` gets. It pushes the head,
moves what fits into one window of the pushed head from the overflow set to the
array, and pushes the head once more. A single round is enough unless the
numbers that were put reach past that window without a gap. -/

set_option autoImplicit false

namespace AdkAaf.Sharding.ReorderBuffer

open Function List

/-- The first number from `head` on that `PutSqn` does not store in the array:
the far end of the window, or `head` itself where the `uint64_t` sum wraps. -/
def windowEnd (head : Nat) : Nat := max head ((head + reorderBufferSize) % 2 ^ 64)

def InArray (buffer : ReorderBuffer) (sqn : Nat) : Prop :=
  buffer.array (sqn % reorderBufferSize) = sqn

def Holds (buffer : ReorderBuffer) (sqn : Nat) : Prop :=
  buffer.InArray sqn ∨ sqn ∈ buffer.overflowMap

/-- The first number missing from the array, its whole window and the number
that follows the window are all in the buffer. -/
def OutrunsWindow (buffer : ReorderBuffer) : Prop :=
  ∃ gap, buffer.head ≤ gap ∧ (∀ sqn, buffer.head ≤ sqn → sqn < gap → buffer.InArray sqn) ∧
    ¬ buffer.InArray gap ∧ ∀ sqn, gap ≤ sqn → sqn ≤ windowEnd gap → buffer.Holds sqn

theorem head_le_windowEnd (head : Nat) : head ≤ windowEnd head := Nat.le_max_left _ _

theorem windowEnd_le (head : Nat) : windowEnd head ≤ head + reorderBufferSize :=
  Nat.max_le.mpr ⟨Nat.le_add_right _ _, Nat.mod_le _ _⟩

/-- No number is lost: what was put is acknowledged, in the array or parked. -/
structure Complete (put : Nat → Prop) (buffer : ReorderBuffer) : Prop
    extends Sound put buffer where
  bounded : buffer.head < 2 ^ 64
  window : ∀ index, buffer.array index < buffer.head + reorderBufferSize
  small : ∀ index, buffer.array index + 1 < 2 ^ 64
  kept : ∀ sqn, put sqn → sqn < buffer.head ∨ buffer.Holds sqn
  ordered : buffer.overflowMap.Pairwise (· ≤ ·)

variable {put : Nat → Prop} {buffer : ReorderBuffer}

theorem Complete.initial : Complete (fun _ => False) {} where
  toSound := Sound.initial
  bounded := by decide
  window _ := Nat.lt_add_of_pos_right (by decide)
  small _ := (by decide : 0 + 1 < 2 ^ 64)
  kept _ offered := offered.elim
  ordered := Pairwise.nil

theorem Complete.setHead (complete : Complete put buffer) {gap : Nat}
    (forward : buffer.head ≤ gap) (bounded : gap < 2 ^ 64)
    (passed : ∀ sqn, buffer.head ≤ sqn → sqn < gap → buffer.InArray sqn) :
    Complete put { buffer with head := gap } where
  __ := complete
  acknowledged := by
    intro sqn pos below
    by_cases earlier : sqn < buffer.head
    · exact complete.acknowledged sqn pos earlier
    · have stored : buffer.InArray sqn := passed sqn (Nat.le_of_not_lt earlier) below
      have found := complete.slots (sqn % reorderBufferSize)
      rw [stored] at found
      exact found.resolve_left (Nat.ne_of_gt pos)
  untouched atStart := complete.untouched (Nat.le_zero.mp (atStart ▸ forward))
  bounded := bounded
  window index := Nat.lt_of_lt_of_le (complete.window index) (Nat.add_le_add_right forward _)
  kept sqn offered := (complete.kept sqn offered).imp_left fun below =>
    Nat.lt_of_lt_of_le below forward

theorem pushHeadLoop_reaches (fuel : Nat) (small : ∀ i, buffer.array i + 1 < 2 ^ 64) :
    ∃ gap, pushHeadLoop fuel buffer = { buffer with head := gap } ∧ buffer.head ≤ gap ∧
      (buffer.head < 2 ^ 64 → gap < 2 ^ 64) ∧
      ∀ sqn, buffer.head ≤ sqn → sqn < gap → buffer.InArray sqn := by
  induction fuel generalizing buffer with
  | zero => exact ⟨buffer.head, rfl, .refl, id, fun sqn above below => by omega⟩
  | succ fuel ih =>
    unfold pushHeadLoop
    split
    · next matched =>
      have room := small (buffer.head % reorderBufferSize)
      rw [← matched] at room
      rw [Nat.mod_eq_of_lt room]
      obtain ⟨gap, reached, forward, bounded, passed⟩ :=
        @ih { buffer with head := buffer.head + 1 } small
      refine ⟨gap, reached, Nat.le_of_succ_le forward, fun _ => bounded room, ?_⟩
      intro sqn above below
      rcases Nat.eq_or_lt_of_le above with first | later
      · rw [← first]
        exact matched.symm
      · exact passed sqn later below
    · exact ⟨buffer.head, rfl, .refl, id, fun sqn above below => by omega⟩

section

variable (complete : Complete put buffer)
include complete

theorem Complete.pushHead :
    ∃ gap, buffer.pushHead = { buffer with head := gap } ∧ buffer.head ≤ gap ∧
      (∀ sqn, buffer.head ≤ sqn → sqn < gap → buffer.InArray sqn) ∧ ¬ buffer.InArray gap ∧
      1 ≤ gap ∧ Complete put { buffer with head := gap } := by
  obtain ⟨gap, reached, forward, bounded, passed⟩ :=
    pushHeadLoop_reaches reorderBufferSize complete.small
  have stopped := pushHead_exits complete.bounded
  rw [ReorderBuffer.pushHead, reached] at stopped
  have missing : ¬ buffer.InArray gap := fun stored => stopped stored.symm
  refine ⟨gap, reached, forward, passed, missing, ?_, complete.setHead forward
    (bounded complete.bounded) passed⟩
  -- at zero the untouched slot would have matched
  rcases Nat.eq_zero_or_pos gap with zero | pos
  · subst zero
    exact (missing (complete.untouched (Nat.le_zero.mp forward))).elim
  · exact pos

theorem Complete.regard {more : Nat → Prop} (weaker : ∀ sqn, put sqn → more sqn)
    (held : ∀ sqn, more sqn → put sqn ∨ sqn < buffer.head ∨ buffer.Holds sqn) :
    Complete more buffer where
  toSound := complete.toSound.mono weaker
  __ := complete
  kept sqn offered := (held sqn offered).elim (complete.kept sqn) id

theorem Complete.store {sqn : Nat} (pos : 1 ≤ sqn) (above : buffer.head ≤ sqn)
    (below : sqn < (buffer.head + reorderBufferSize) % 2 ^ 64) :
    Complete (fun other => put other ∨ other = sqn) { buffer with
      array := update buffer.array (sqn % reorderBufferSize) sqn } := by
  have near : sqn < buffer.head + reorderBufferSize := below.trans_le (Nat.mod_le _ _)
  have everySlot : ∀ (holds : Nat → Prop), holds sqn → (∀ index, holds (buffer.array index)) →
      ∀ index, holds (update buffer.array (sqn % reorderBufferSize) sqn index) := by
    intro holds stored others index
    by_cases same : index = sqn % reorderBufferSize
    · rw [same, update_self]
      exact stored
    · rw [update_of_ne same]
      exact others index
  refine ⟨⟨?_, fun other mem => .inl (complete.parked other mem),
    fun other least under => .inl (complete.acknowledged other least under), ?_⟩,
    complete.bounded, ?_, ?_, ?_, complete.ordered⟩
  · exact everySlot (fun value => value = 0 ∨ put value ∨ value = sqn) (.inr (.inr rfl))
      fun index => (complete.slots index).imp_right .inl
  · intro atStart
    have atStart : buffer.head = 0 := atStart
    have elsewhere : 0 ≠ sqn % reorderBufferSize := by
      simp only [atStart, reorderBufferSize] at near ⊢
      omega
    exact (update_of_ne elsewhere ..).trans (complete.untouched atStart)
  · exact everySlot (· < buffer.head + reorderBufferSize) near complete.window
  · exact everySlot (· + 1 < 2 ^ 64) (by omega) complete.small
  · have present : update buffer.array (sqn % reorderBufferSize) sqn
        (sqn % reorderBufferSize) = sqn := update_self ..
    rintro other (earlier | rfl)
    · rcases complete.kept other earlier with acknowledged | stored | parked
      · exact .inl acknowledged
      · by_cases same : other % reorderBufferSize = sqn % reorderBufferSize
        · have bound := complete.window (other % reorderBufferSize)
          rw [stored] at bound
          rcases Nat.lt_or_ge other buffer.head with passed | held
          · exact .inl passed
          · have equal : other = sqn := by
              simp only [reorderBufferSize] at near bound same
              omega
            exact .inr (.inl (equal ▸ present))
        · exact .inr (.inl ((update_of_ne same ..).trans stored))
      · exact .inr (.inr parked)
    · exact .inr (.inl present)

theorem Complete.putSqn {sqn : Nat} (pos : 1 ≤ sqn) :
    Complete (fun other => put other ∨ other = sqn) (buffer.putSqn true sqn).2 := by
  unfold ReorderBuffer.putSqn
  split
  · next below =>
    refine complete.regard (fun _ => .inl) ?_
    rintro other (earlier | rfl)
    · exact .inl earlier
    · exact .inr (.inl below)
  · next above =>
    split
    · next fits => exact complete.store pos (Nat.le_of_not_lt above) fits
    · have members : ∀ other, other ∈ insertOverflow sqn buffer.overflowMap ↔
          other = sqn ∨ other ∈ buffer.overflowMap := by
        intro other
        unfold insertOverflow
        split
        · next present =>
          constructor
          · exact .inr
          · rintro (rfl | mem)
            · exact present
            · exact mem
        · exact mem_orderedInsert _
      refine ⟨⟨fun index => (complete.slots index).imp_right .inl, ?_,
        fun other least under => .inl (complete.acknowledged other least under),
        complete.untouched⟩, complete.bounded, complete.window, complete.small, ?_, ?_⟩
      · intro other mem
        exact ((members other).mp mem).symm.imp_left (complete.parked other)
      · rintro other (earlier | rfl)
        · refine (complete.kept other earlier).imp_right ?_
          exact Or.imp_right fun parked => (members other).mpr (.inr parked)
        · exact .inr (.inr ((members other).mpr (.inl rfl)))
      · show (insertOverflow sqn buffer.overflowMap).Pairwise (· ≤ ·)
        unfold insertOverflow
        split
        · exact complete.ordered
        · exact complete.ordered.orderedInsert _ _

end

theorem Complete.drainOverflow {overflow : List Nat} (offered : ∀ sqn ∈ overflow, 1 ≤ sqn)
    (complete : Complete put { buffer with overflowMap := overflow }) :
    Complete put (drainOverflow overflow buffer) ∧
      (drainOverflow overflow buffer).head = buffer.head ∧
      (∀ sqn ∈ (drainOverflow overflow buffer).overflowMap, windowEnd buffer.head ≤ sqn) ∧
      ∀ index, (drainOverflow overflow buffer).array index = buffer.array index ∨
        (drainOverflow overflow buffer).array index < windowEnd buffer.head := by
  induction overflow generalizing buffer with
  | nil =>
    refine ⟨complete, rfl, ?_, fun _ => .inl rfl⟩
    nofun
  | cons sqn rest ih =>
    obtain ⟨pos, later⟩ := forall_mem_cons.mp offered
    have unparked : ∀ {array : Nat → Nat} {more : Nat → Prop},
        Complete more { buffer with array := array, overflowMap := sqn :: rest } →
        sqn < buffer.head ∨ array (sqn % reorderBufferSize) = sqn →
        Complete more { buffer with array := array, overflowMap := rest } := by
      intro array more whole placed
      refine ⟨{ whole with
        parked := fun other mem => whole.parked other (.tail _ mem) }, whole.bounded, whole.window,
          whole.small, ?_,
        (pairwise_cons.mp whole.ordered).2⟩
      intro other early
      rcases whole.kept other early with below | stored | parked
      · exact .inl below
      · exact .inr (.inl stored)
      · rcases mem_cons.mp parked with rfl | mem
        · exact placed.imp_right .inl
        · exact .inr (.inr mem)
    unfold ReorderBuffer.drainOverflow ReorderBuffer.putSqn
    by_cases below : sqn < buffer.head
    · rw [if_pos below]
      exact ih later (unparked complete (.inl below))
    · have above : buffer.head ≤ sqn := Nat.le_of_not_lt below
      rw [if_neg below]
      by_cases fits : sqn < (buffer.head + reorderBufferSize) % 2 ^ 64
      · rw [if_pos fits]
        have known : put sqn := complete.parked sqn mem_cons_self
        have stored : Complete put { buffer with
            array := update buffer.array (sqn % reorderBufferSize) sqn,
            overflowMap := sqn :: rest } :=
          (complete.store pos above fits).regard (fun other => (·.elim id (· ▸ known)))
            fun other early => .inl (.inl early)
        obtain ⟨drained, head, remaining, array⟩ :=
          @ih { buffer with array := update buffer.array (sqn % reorderBufferSize) sqn }
            later (unparked stored (.inr (update_self ..)))
        refine ⟨drained, head, remaining, fun index => ?_⟩
        rcases array index with same | small
        · by_cases slot : index = sqn % reorderBufferSize
          · subst slot
            rw [same.trans (update_self ..)]
            exact .inr (fits.trans_le (Nat.le_max_right _ _))
          · exact .inl (same.trans (update_of_ne slot ..))
        · exact .inr small
      · rw [if_neg fits]
        refine ⟨complete, rfl, ?_, fun _ => .inl rfl⟩
        have least : windowEnd buffer.head ≤ sqn := Nat.max_le.mpr ⟨above, Nat.le_of_not_lt fits⟩
        intro other mem
        rcases mem_cons.mp mem with rfl | further
        · exact least
        · exact least.trans ((pairwise_cons.mp complete.ordered).1 other further)

theorem windowEnd_cases {head : Nat} (bounded : head < 2 ^ 64) :
    windowEnd head = head ∨ windowEnd head = head + reorderBufferSize := by
  simp only [windowEnd, reorderBufferSize]
  omega

/-- What a call of `GetNextSqn` leaves behind and returns: from the first number
`gap` missing in the array it gets to the next missing one, or to the end of the
window of `gap`. -/
theorem Complete.getNextSqn (complete : Complete put buffer) (least : ∀ sqn, put sqn → 1 ≤ sqn) :
    Complete put buffer.getNextSqn.2 ∧ ∃ gap, buffer.head ≤ gap ∧
      (∀ sqn, buffer.head ≤ sqn → sqn < gap → buffer.InArray sqn) ∧ ¬ buffer.InArray gap ∧
      gap ≤ buffer.getNextSqn.1 + 1 ∧ buffer.getNextSqn.1 < windowEnd gap ∧
      (put (buffer.getNextSqn.1 + 1) → buffer.getNextSqn.1 + 1 = windowEnd gap) := by
  obtain ⟨gap, pushed, forward, passed, missing, pos, reached⟩ := complete.pushHead
  have previous : ∀ {final : Nat}, 1 ≤ final → final < 2 ^ 64 →
      (final + (2 ^ 64 - 1)) % 2 ^ 64 + 1 = final := by
    intro final nonzero bounded
    omega
  unfold ReorderBuffer.getNextSqn
  rw [pushed]
  by_cases nothing : buffer.overflowMap = []
  · have returned := previous pos reached.bounded
    rw [if_pos nothing, returned]
    refine ⟨reached, gap, forward, passed, missing, .refl, ?_, fun offered => ?_⟩
    · exact (Nat.lt_of_succ_le returned.le).trans_le (head_le_windowEnd gap)
    · rcases reached.kept gap offered with below | stored | parked
      · exact (Nat.lt_irrefl _ below).elim
      · exact (missing stored).elim
      · have parked : gap ∈ buffer.overflowMap := parked
        simp only [nothing, not_mem_nil] at parked
  · obtain ⟨drained, head, remaining, array⟩ :=
      @Complete.drainOverflow put { buffer with head := gap }
      buffer.overflowMap (fun sqn mem => least sqn (complete.parked sqn mem)) reached
    obtain ⟨final, pushedAgain, further, stored, absent, nonzero, settled⟩ := drained.pushHead
    rw [if_neg nothing, pushedAgain, previous nonzero settled.bounded]
    rw [head] at further stored
    have within : final ≤ windowEnd gap := by
      by_contra beyond
      have taken := stored (windowEnd gap) (head_le_windowEnd gap) (Nat.lt_of_not_le beyond)
      rcases array (windowEnd gap % reorderBufferSize) with same | small
      · rw [InArray, same] at taken
        rcases windowEnd_cases reached.bounded with wrapped | whole
        · rw [wrapped] at taken
          exact missing taken
        · have bound := reached.window (windowEnd gap % reorderBufferSize)
          exact Nat.lt_irrefl _ (whole ▸ taken ▸ bound)
      · exact Nat.lt_irrefl _ (taken ▸ small)
    refine ⟨settled, gap, forward, passed, missing, further, ?_, fun offered => ?_⟩
    · exact Nat.lt_of_lt_of_le
        (Nat.lt_of_succ_le ((previous nonzero settled.bounded).le)) within
    · rcases settled.kept final offered with below | inArray | parked
      · exact (Nat.lt_irrefl _ below).elim
      · exact (absent inArray).elim
      · exact within.antisymm (remaining final parked)

theorem Complete.outruns_of_twoWindows (complete : Complete put buffer)
    (full : ∀ sqn, 1 ≤ sqn → sqn ≤ buffer.head + 2 * reorderBufferSize → put sqn) :
    buffer.OutrunsWindow := by
  obtain ⟨gap, _, forward, passed, missing, pos, _⟩ := complete.pushHead
  have near : gap ≤ buffer.head + reorderBufferSize := by
    by_contra far
    have taken := passed (buffer.head + reorderBufferSize) (Nat.le_add_right _ _)
      (Nat.lt_of_not_le far)
    have bound := complete.window ((buffer.head + reorderBufferSize) % reorderBufferSize)
    rw [taken] at bound
    exact Nat.lt_irrefl _ bound
  refine ⟨gap, forward, passed, missing, fun sqn above inside => ?_⟩
  have bound := inside.trans (windowEnd_le gap)
  have offered := full sqn (pos.trans above) (by omega)
  exact (complete.kept sqn offered).resolve_left (Nat.not_lt.mpr (forward.trans above))

theorem complete_run (calls : List Call) (pos : ∀ sqn, Call.putSqn sqn ∈ calls → 1 ≤ sqn)
    (least : ∀ sqn, put sqn → 1 ≤ sqn) (complete : Complete put buffer) :
    Complete (fun sqn => put sqn ∨ Call.putSqn sqn ∈ calls) (run calls buffer).2 := by
  induction calls generalizing put buffer with
  | nil => exact complete.regard (fun _ => .inl) fun sqn offered => .inl (by simpa using offered)
  | cons call rest ih =>
    have others := fun sqn mem => pos sqn (mem_cons_of_mem _ mem)
    cases call with
    | putSqn sqn =>
      have known := pos sqn mem_cons_self
      have final := ih others (fun other => (·.elim (least other) (· ▸ known)))
        (complete.putSqn known)
      refine final.regard (fun other offered => ?_) fun other offered => .inl ?_
      all_goals simpa [or_assoc] using offered
    | getNextSqn =>
      have final := ih others least (complete.getNextSqn least).1
      refine final.regard (fun other offered => ?_) fun other offered => .inl ?_
      all_goals simpa using offered

/-- All numbers that were put without a gap so far are acknowledged by a call of
`GetNextSqn` after these calls. -/
def AcknowledgesAll (calls : List Call) : Prop :=
  ∀ last, (∀ sqn, 1 ≤ sqn → sqn ≤ last → Call.putSqn sqn ∈ calls) →
    last ≤ (run calls {}).2.getNextSqn.1

theorem Complete.acknowledges_iff (complete : Complete put buffer)
    (least : ∀ sqn, put sqn → 1 ≤ sqn) :
    (∀ last, (∀ sqn, 1 ≤ sqn → sqn ≤ last → put sqn) → last ≤ buffer.getNextSqn.1) ↔
      ¬ buffer.OutrunsWindow := by
  obtain ⟨settled, gap, forward, passed, missing, reached, below, further⟩ :=
    complete.getNextSqn least
  constructor
  · rintro acknowledges ⟨other, above, earlier, absent, held⟩
    have same : other = gap := by
      rcases Nat.lt_trichotomy other gap with less | equal | more
      · exact (absent (passed other above less)).elim
      · exact equal
      · exact (missing (earlier gap forward more)).elim
    subst same
    refine Nat.not_le.mpr below (acknowledges (windowEnd other) ?_)
    intro sqn pos inside
    have ofStored : buffer.InArray sqn → put sqn := by
      intro stored
      have found := complete.slots (sqn % reorderBufferSize)
      rw [stored] at found
      exact found.resolve_left (Nat.ne_of_gt pos)
    by_cases behind : sqn < buffer.head
    · exact complete.acknowledged sqn pos behind
    · by_cases before : sqn < other
      · exact ofStored (earlier sqn (Nat.le_of_not_lt behind) before)
      · rcases held sqn (Nat.le_of_not_lt before) inside with stored | parked
        · exact ofStored stored
        · exact complete.parked sqn parked
  · intro bounded last everything
    by_contra short
    have next := everything (buffer.getNextSqn.1 + 1) (Nat.le_add_left _ _) (Nat.lt_of_not_le short)
    have window := further next
    apply bounded
    refine ⟨gap, forward, passed, missing, fun sqn above inside => ?_⟩
    have bound : sqn ≤ last := by omega
    have pos : 1 ≤ sqn := by
      rcases Nat.eq_zero_or_pos sqn with zero | pos
      · have start : gap = 0 := by omega
        have settledAtStart := complete.untouched (by omega)
        exact (missing (start ▸ settledAtStart)).elim
      · exact pos
    exact (complete.kept sqn (everything sqn pos bound)).resolve_left
      (Nat.not_lt.mpr (forward.trans above))

theorem complete_fromStart (calls : List Call)
    (pos : ∀ sqn, Call.putSqn sqn ∈ calls → 1 ≤ sqn) :
    Complete (fun sqn => Call.putSqn sqn ∈ calls) (run calls {}).2 := by
  have final := complete_run calls pos (fun _ offered => offered.elim) Complete.initial
  exact final.regard (fun _ offered => offered.elim False.elim id) fun _ offered =>
    .inl (.inr offered)

/-- In every run each call of `GetNextSqn` acknowledges all there is to
acknowledge, unless the numbers put before it outrun the window. -/
theorem getNextSqn_acknowledges_iff (calls : List Call)
    (positive : ∀ sqn, Call.putSqn sqn ∈ calls → 1 ≤ sqn) :
    ∀ before after, calls = before ++ Call.getNextSqn :: after →
      (AcknowledgesAll before ↔ ¬ (run before {}).2.OutrunsWindow) := by
  rintro before after rfl
  have numbers := fun sqn member => positive sqn (mem_append_left _ member)
  exact (complete_fromStart before numbers).acknowledges_iff numbers

theorem getNextSqn_acknowledges_held_back :
    AcknowledgesAll [.putSqn 2, .getNextSqn, .putSqn 1] ↔
      ¬ (run [.putSqn 2, .getNextSqn, .putSqn 1] {}).2.OutrunsWindow :=
  getNextSqn_acknowledges_iff [.putSqn 2, .getNextSqn, .putSqn 1, .getNextSqn] (by
    intro sqn member
    simp only [mem_cons, Call.putSqn.injEq, reduceCtorEq, not_mem_nil, or_false,
      false_or] at member
    omega) _ [] rfl

def putsUpTo (count : Nat) : List Call := (range count).map fun sqn => .putSqn (sqn + 1)

theorem mem_putsUpTo {count sqn : Nat} :
    Call.putSqn sqn ∈ putsUpTo count ↔ 1 ≤ sqn ∧ sqn ≤ count := by
  simp only [putsUpTo, mem_map, mem_range, Call.putSqn.injEq]
  constructor
  · rintro ⟨i, below, rfl⟩
    omega
  · rintro ⟨pos, inside⟩
    exact ⟨sqn - 1, by omega, by omega⟩

theorem putsUpTo_head (count : Nat) : (run (putsUpTo count) {}).2.head = 0 := by
  have puts : ∀ (numbers : List Nat) (buffer : ReorderBuffer),
      (run (numbers.map fun sqn => .putSqn (sqn + 1)) buffer).2.head = buffer.head := by
    intro numbers
    induction numbers with
    | nil => exact fun _ => rfl
    | cons sqn rest ih => exact fun buffer => (ih _).trans (putSqn_head buffer true (sqn + 1))
  exact puts _ _

theorem twoWindows_not_acknowledged :
    (∀ sqn, Call.putSqn sqn ∈ putsUpTo 16384 → 1 ≤ sqn) ∧ ¬ AcknowledgesAll (putsUpTo 16384) := by
  have positive := fun sqn (member : Call.putSqn sqn ∈ putsUpTo 16384) =>
    (mem_putsUpTo.mp member).1
  have complete := complete_fromStart _ positive
  refine ⟨positive, fun acknowledges => (complete.acknowledges_iff positive).mp acknowledges ?_⟩
  apply complete.outruns_of_twoWindows
  intro sqn least inside
  rw [putsUpTo_head] at inside
  exact mem_putsUpTo.mpr ⟨least, inside⟩

end AdkAaf.Sharding.ReorderBuffer
