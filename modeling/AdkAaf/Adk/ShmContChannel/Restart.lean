import AdkAaf.Adk.ShmContChannel.BuffersInvariant

/-! A new agent on the memory of one that has stopped. Head and tail move down by
whole laps, so every pending entry keeps its bytes; what lies before the new head
stands for entries that have been freed. -/

set_option autoImplicit false

namespace AdkAaf.Adk.Sccl

open Function Lib List

def passedEntries (gone : Nat) : List Reservation := replicate gone ⟨1, 8, .released⟩

def rebasedHistory (history : List Reservation) (gone consumed : Nat) : List Reservation :=
  passedEntries gone ++ history.drop consumed

section Positions

variable (history : List Reservation) (gone consumed : Nat)

theorem published_passedEntries : published (passedEntries gone) = gone * 8 := by
  simp [published, passedEntries, extent]

theorem position_add (count : Nat) : position history (consumed + count) =
      position history consumed + position (history.drop consumed) count := by
  rw [position, take_add, extent_append]
  rfl

theorem position_rebasedHistory (count : Nat) :
    position (rebasedHistory history gone consumed) (gone + count) =
      gone * 8 + position (history.drop consumed) count := by
  have length : (passedEntries gone).length = gone := length_replicate
  have passed : position (rebasedHistory history gone consumed) gone = gone * 8 := by
    rw [rebasedHistory, position_append _ length.symm.le, ← published_passedEntries,
      ← position_length, length]
  have rest : (rebasedHistory history gone consumed).drop gone = history.drop consumed :=
    drop_left' length
  rw [position_add, passed, rest]

theorem published_rebasedHistory :
    published (rebasedHistory history gone consumed) + position history consumed =
      gone * 8 + published history := by
  have split : published history =
      position history consumed + published (history.drop consumed) := by
    rw [published, ← take_append_drop consumed history, extent_append, take_append_drop]
    rfl
  rw [published, rebasedHistory, extent_append, split, ← published_passedEntries]
  simp only [published]
  omega

theorem getElem?_rebasedHistory (count : Nat) :
    (rebasedHistory history gone consumed)[gone + count]? = history[consumed + count]? := by
  have length : (passedEntries gone).length = gone := length_replicate
  rw [rebasedHistory, getElem?_append_right (by omega), length, Nat.add_sub_cancel_left,
    getElem?_drop]

end Positions

section Layout

variable {shm : Shm} {items : List Reservation} {consumed gone : Nat}

theorem length_rebasedHistory_le : gone ≤ (rebasedHistory items gone consumed).length := by
  rw [rebasedHistory, length_append, passedEntries, length_replicate]
  exact Nat.le_add_right _ _

theorem Reservation.Sized.passed : (⟨1, 8, .released⟩ : Reservation).Sized :=
  ⟨by decide, by decide, by decide, by decide, fun _ => by simp⟩

theorem Layout.rollback (layout : Layout shm items consumed) (tail : shm.tail = published items)
    (whole : gone * 8 = shm.rollbackHead) (cursors : ∀ i, (shm.wals i).cursor = 0)
    (thresholds : ∀ i, (shm.wals i).threshold ≤ shm.rollbackHead + shm.memorySize.toNat) :
    Layout (shm.rollback shm.rollbackHead) (rebasedHistory items gone consumed) gone := by
  have rolled : shm.rollbackHead ≤ shm.head := Nat.and_le_left
  have moved := published_rebasedHistory items gone consumed
  have window := layout.window
  have small := layout.small
  have head := layout.head
  exact {
    sized := layout.sized
    small := by omega
    head := by
      have atHead := position_rebasedHistory items gone consumed 0
      rw [Nat.add_zero] at atHead
      rw [atHead]
      exact whole.symm
    within := length_rebasedHistory_le
    window := by
      simp only [Shm.rollback]
      omega
    headThreshold := by
      simp only [Shm.rollback, tail]
      omega
    sizes := fun reservation mem => by
      rcases mem_append.mp mem with passed | pending
      · rw [eq_of_mem_replicate passed]
        exact .passed
      · exact layout.sizes reservation (mem_of_mem_drop pending)
    words := fun n reservation pending found => by
      obtain ⟨count, rfl⟩ := Nat.exists_eq_add_of_le pending
      rw [getElem?_rebasedHistory] at found
      have place := position_add items consumed count
      have sized := layout.sizes _ (mem_of_getElem? found)
      have ends := position_add_le_published found
      have above := layout.head_le (Nat.le_add_right consumed count)
      have large := sized.allocLen_ge
      have same := getEntry_rollback layout.sized (by omega) above
      have word := layout.words _ reservation (Nat.le_add_right consumed count) found
      have moved : position items (consumed + count) - (shm.head - shm.rollbackHead) =
          position (rebasedHistory items gone consumed) (gone + count) := by
        rw [position_rebasedHistory]
        omega
      rw [Shm.entryWord, ← same, moved] at word
      exact word
    cursors := fun i => ⟨0, Nat.zero_le _, cursors i⟩
    cursorsBelow := fun nonempty i => by
      simp only [Shm.rollback, cursors i]
      obtain ⟨first, rest, all⟩ := exists_cons_of_ne_nil nonempty
      have mem : first ∈ rebasedHistory items gone consumed := by
        rw [all]
        exact mem_cons_self
      have large : 8 ≤ first.allocLen := by
        rcases mem_append.mp mem with passed | pending
        · exact eq_of_mem_replicate passed ▸ Nat.le_refl 8
        · exact (layout.sizes first (mem_of_mem_drop pending)).allocLen_ge
      have whole : first.allocLen ≤ published (rebasedHistory items gone consumed) := by
        rw [all, published, extent_cons]
        exact Nat.le_add_right _ _
      omega
    thresholds := thresholds }

end Layout

theorem recoverWAL_frame (shm : Shm) (rollbackHead i : Nat) :
    (shm.recoverWAL rollbackHead i).memorySize = shm.memorySize ∧
      (shm.recoverWAL rollbackHead i).wals = update shm.wals (i + 1)
          { cursor := 0, threshold := add64 rollbackHead shm.memorySize.toNat } := by
  simp only [Shm.recoverWAL, Shm.setWAL]
  split <;> exact ⟨rfl, rfl⟩

theorem recoverWALs_memorySize (shm : Shm) (rollbackHead count : Nat) :
    (shm.recoverWALs rollbackHead count).memorySize = shm.memorySize := by
  induction count with
  | zero => rfl
  | succ count ih => exact (recoverWAL_frame _ rollbackHead count).1.trans ih

theorem recoverWALs_wals (shm : Shm) (rollbackHead count index : Nat) :
    (shm.recoverWALs rollbackHead count).wals index =
      if 1 ≤ index ∧ index ≤ count then
        { cursor := 0, threshold := add64 rollbackHead shm.memorySize.toNat }
      else
        shm.wals index := by
  induction count with
  | zero =>
    rw [if_neg (by omega)]
    rfl
  | succ count ih =>
    rw [Shm.recoverWALs, (recoverWAL_frame _ rollbackHead count).2, recoverWALs_memorySize,
      update_apply, ih]
    by_cases last : index = count + 1
    · rw [if_pos last, if_pos (by omega)]
    · rw [if_neg last]
      refine if_congr ?_ rfl rfl
      omega

namespace Channel

variable {channel : Channel} {history : List Reservation}

theorem eight_dvd_position (aligned : ∀ reservation ∈ history, 8 ∣ reservation.allocLen)
    (number : Nat) : 8 ∣ position history number :=
  dvd_extent _ fun reservation taken => aligned reservation (mem_of_mem_take taken)

theorem Valid.rollbackHead_aligned (valid : channel.Valid history) :
    channel.shm.rollbackHead / 8 * 8 = channel.shm.rollbackHead := by
  refine Nat.div_mul_cancel ?_
  have layout := valid.coherent.layout
  rcases valid.ring with empty | whole
  · have zero : channel.shm.head = 0 := by
      rw [layout.head, empty, position, take_nil, extent_nil]
    rw [Shm.rollbackHead, zero, Nat.zero_and]
    exact Nat.dvd_zero 8
  · rcases Nat.eq_zero_or_pos channel.shm.memorySize.toNat with none | pos
    · have mask : (channel.shm.memorySize - 1).toNat = 2 ^ 32 - 1 := by
        rw [UInt32.toNat_inj.mp (none.trans UInt32.toNat_zero.symm)]
        rfl
      rw [Shm.rollbackHead, mask, Nat.and_two_pow_sub_one_eq_mod]
      refine (Nat.dvd_mod_iff (by decide)).mpr ?_
      rw [layout.head]
      exact eight_dvd_position valid.aligned channel.consumed
    · have rolled : channel.shm.rollbackHead = channel.shm.head % channel.shm.memorySize.toNat :=
        layout.sized.getEntry_eq pos channel.shm.head
      rw [rolled]
      refine (Nat.dvd_mod_iff whole).mpr ?_
      rw [layout.head]
      exact eight_dvd_position valid.aligned channel.consumed

theorem owner_free (valid : channel.Valid history)
    (gone : ∀ index ≤ kMaxProxySize, (channel.owners index).isAlive = false) (index : Nat) :
    (channel.owners index).isAlive = false := by
  by_cases inside : index ≤ kMaxProxySize
  · exact gone index inside
  · by_cases free : channel.owners index = .free
    · rw [free]
      rfl
    · exact absurd (valid.coherent.bounds free).2 inside

theorem recoverTail_frame (shm : Shm) :
    shm.recoverTail.wals = shm.wals ∧ shm.recoverTail.memorySize = shm.memorySize := by
  unfold Shm.recoverTail
  split <;> exact ⟨rfl, rfl⟩

theorem recovered_memorySize (shm : Shm) (rollbackHead count : Nat) :
    ((shm.recoverTail.recoverWALs rollbackHead count).rollback rollbackHead).memorySize =
      shm.memorySize :=
  (recoverWALs_memorySize _ rollbackHead count).trans (recoverTail_frame shm).2

theorem recover_memorySize (shm : Shm) : shm.recover.memorySize = shm.memorySize :=
  recovered_memorySize shm shm.rollbackHead kMaxProxySize

theorem Valid.recover_layout (valid : channel.Valid history) :
    Layout channel.shm.recover (rebasedHistory (recoveredHistory channel.shm history kMaxProxySize)
          (channel.shm.rollbackHead / 8) channel.consumed) (channel.shm.rollbackHead / 8) ∧
      channel.shm.recover.tail =
        published (rebasedHistory (recoveredHistory channel.shm history kMaxProxySize)
          (channel.shm.rollbackHead / 8) channel.consumed) := by
  have walked := valid.coherent.walked valid.settled kMaxProxySize
  have records := recoverWALs_wals channel.shm.recoverTail channel.shm.rollbackHead kMaxProxySize
  unfold Shm.recover
  generalize channel.shm.recoverTail.recoverWALs channel.shm.rollbackHead kMaxProxySize = after
    at walked records ⊢
  have layout : Layout after (recoveredHistory channel.shm history kMaxProxySize)
      channel.consumed := walked.layout
  have head : after.head = channel.shm.head := walked.head
  have size : after.memorySize = channel.shm.memorySize := walked.memorySize
  have tail : after.tail = published (recoveredHistory channel.shm history kMaxProxySize) :=
    walked.tail.trans (published_recoveredHistory _ _ _).symm
  have rollback : after.rollbackHead = channel.shm.rollbackHead := by
    rw [Shm.rollbackHead, head, size, Shm.rollbackHead]
  have whole := valid.rollbackHead_aligned
  have rolled : channel.shm.rollbackHead ≤ channel.shm.head := Nat.and_le_left
  have record : ∀ index, (after.wals index).cursor = 0 ∧
      (after.wals index).threshold ≤ after.rollbackHead + after.memorySize.toNat := by
    intro index
    rw [records index, (recoverTail_frame channel.shm).1, (recoverTail_frame channel.shm).2,
      rollback, size]
    split
    · refine ⟨rfl, Nat.le_of_eq (add64_eq ?_)⟩
      have above := position_le_published history channel.consumed
      have small := valid.coherent.layout.small
      have short := channel.shm.memorySize.toNat_lt
      rw [← valid.coherent.layout.head] at above
      omega
    · next outside =>
      rw [valid.spare index outside]
      exact ⟨rfl, Nat.le_add_left _ _⟩
  rw [← rollback] at whole ⊢
  refine ⟨layout.rollback tail whole (fun index => (record index).1)
    fun index => (record index).2, ?_⟩
  have moved := published_rebasedHistory (recoveredHistory channel.shm history kMaxProxySize)
    (after.rollbackHead / 8) channel.consumed
  have atHead := layout.head
  simp only [Shm.rollback, tail]
  omega

theorem lengths_rebasedHistory (shm : Shm) (history : List Reservation) (gone consumed : Nat) :
    (rebasedHistory (recoveredHistory shm history kMaxProxySize) gone consumed).map
        Reservation.allocLen =
      replicate gone 8 ++ (history.map Reservation.allocLen).drop consumed := by
  rw [rebasedHistory, map_append, passedEntries, map_replicate, map_drop,
    map_allocLen_recoveredHistory]

theorem Valid.restart (valid : channel.Valid history)
    (gone : ∀ index ≤ kMaxProxySize, (channel.owners index).isAlive = false) :
    ∃ later, channel.restart.Valid later := by
  have dead := owner_free valid gone
  have owners : channel.restart.owners = fun _ => .free := by
    funext index
    simp [Channel.restart, dead index, Bool.false_eq_true]
  have buffers : channel.restart.buffers = fun _ => [] := by
    funext index
    have empty : channel.buffers index = [] := by
      by_contra inHand
      have alive := valid.alive index inHand
      rw [dead index] at alive
      cases alive
    simp [Channel.restart, empty, map_nil]
  obtain ⟨layout, tail⟩ := valid.recover_layout
  have size : channel.restart.shm.memorySize = channel.shm.memorySize :=
    recover_memorySize channel.shm
  refine ⟨rebasedHistory (recoveredHistory channel.shm history kMaxProxySize)
    (channel.shm.rollbackHead / 8) channel.consumed, ?_⟩
  exact {
    coherent :=
      { layout := layout
        tail := .inl tail
        owners := fun index => by
          rw [owners]
          exact .free }
    handsFree := fun index => by
      rw [owners]
      exact handsFree_idle
    lengths := by
      rw [lengths_rebasedHistory, ← valid.lengths]
      rfl
    aligned := fun reservation mem => by
      rcases mem_append.mp mem with passed | pending
      · exact eq_of_mem_replicate passed ▸ Nat.dvd_refl 8
      · obtain ⟨number, at_⟩ := mem_iff_getElem?.mp (mem_of_mem_drop pending)
        rw [getElem?_recoveredHistory] at at_
        obtain ⟨before, found, rfl⟩ := Option.map_eq_some_iff.mp at_
        rw [Reservation.recovered_allocLen]
        exact valid.aligned before (mem_of_getElem? found)
    ring := by
      rw [size]
      rcases valid.ring with empty | whole
      · left
        have none : channel.shm.rollbackHead = 0 := by
          rw [Shm.rollbackHead, valid.coherent.layout.head, empty, position, take_nil,
            extent_nil, Nat.zero_and]
        rw [none, empty]
        simp [rebasedHistory, passedEntries, recoveredHistory]
      · exact .inr whole
    spare := fun index outside => by
      rw [size, ← valid.spare index outside]
      have record := recoverWALs_wals channel.shm.recoverTail channel.shm.rollbackHead
        kMaxProxySize index
      rw [if_neg outside, (recoverTail_frame channel.shm).1] at record
      exact record
    held := fun index buffer inHand => by
      rw [buffers] at inHand
      cases inHand
    distinct := fun index => by
      rw [buffers]
      exact nodup_nil
    alive := fun index inHand => by
      rw [buffers] at inHand
      exact absurd rfl inHand
    examining := fun at_ => by cases at_
    holding := fun at_ => by cases at_
    settled := fun number reservation before found => by
      have inside : number < (passedEntries (channel.shm.rollbackHead / 8)).length := by
        rw [passedEntries, length_replicate]
        exact before
      rw [rebasedHistory, getElem?_append_left inside] at found
      rw [eq_of_mem_replicate (mem_of_getElem? found)]
      simp
    posts := fun post mem pos => by
      obtain ⟨before, kept, rfl⟩ := mem_map.mp mem
      obtain ⟨posted, pending⟩ := mem_filter.mp kept
      obtain ⟨reservation, found, status⟩ := valid.posts before posted pos
      refine ⟨reservation, ?_, status⟩
      have place : channel.consumed + (before.1 - channel.consumed) = before.1 :=
        Nat.add_sub_cancel' (by simpa using pending)
      rw [Nat.add_comm, getElem?_rebasedHistory, place, getElem?_recoveredHistory, found,
        Option.map_some, Reservation.recovered, if_neg]
      rintro ⟨acquired, -⟩
      rw [status] at acquired
      cases acquired }

theorem Valid.step (valid : channel.Valid history) {next : Channel} {action : Action}
    (allowed : channel.Allowed action) (went : channel.step action = some next) :
    ∃ later, next.Valid later := by
  cases action with
  | allocWAL index => exact ⟨history, valid.allocWAL went⟩
  | allocBuffer index length => exact ⟨history, valid.allocBuffer allowed went⟩
  | proceed index => exact valid.proceed allowed went
  | giveUp index => exact ⟨history, valid.giveUp went⟩
  | writeByte index place offset byte => exact ⟨history, valid.writeByte went⟩
  | postBuffer index place size => exact valid.postBuffer went
  | die index => exact ⟨history, valid.die went⟩
  | freeWAL index => exact ⟨history, valid.freeWAL went⟩
  | releaseEntry index => exact valid.releaseEntry allowed.1 allowed.2 went
  | tryWaitEntry => exact ⟨history, valid.tryWaitEntry went⟩
  | examineEntry => exact ⟨history, valid.examineEntry went⟩
  | freeEntry => exact ⟨history, valid.freeEntry went⟩
  | restart =>
    have started : channel.restart = next := Option.some.inj went
    rw [← started]
    exact valid.restart allowed

variable {memorySize maxMessageSize : UInt32}

theorem create_valid {memory : Memory} {shm : Shm}
    (created : Shm.create memorySize maxMessageSize memory = some shm) :
    Valid { shm := shm } [] := by
  have valid := Sccl.create_valid created
  exact {
    coherent := valid.coherent
    handsFree := fun _ => handsFree_idle
    lengths := rfl
    aligned := fun _ mem => absurd mem not_mem_nil
    ring := .inl rfl
    spare := fun _ _ => by
      unfold Shm.create at created
      split at created <;> cases created
      rfl
    held := fun _ _ inHand => absurd inHand not_mem_nil
    distinct := fun _ => nodup_nil
    alive := fun _ inHand => absurd rfl inHand
    examining := fun at_ => by cases at_
    holding := fun at_ => by cases at_
    settled := fun _ _ before => absurd before (Nat.not_lt_zero _)
    posts := fun _ mem => absurd mem not_mem_nil }

theorem valid_of_allowed {memory : Memory} {shm : Shm}
    (created : Shm.create memorySize maxMessageSize memory = some shm) {actions : List Action}
    {final : Channel} (allowed : Guarded step Allowed { shm := shm } actions)
    (ran : execute step { shm := shm } actions = some final) :
    ∃ history, final.Valid history := by
  have steps : ∀ {channel next : Channel} {action : Action},
      (∃ history, channel.Valid history) → channel.Allowed action →
      channel.step action = some next → ∃ later, next.Valid later :=
    fun valid allowed went => valid.elim fun _ valid => valid.step allowed went
  exact invariant_of_guarded steps ⟨[], create_valid created⟩ allowed ran

end Channel

end AdkAaf.Adk.Sccl
