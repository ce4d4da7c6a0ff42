import AdkAaf.Adk.ShmContChannel.Invariant

/-! The part of the invariant that says nothing about who has which buffer in
hand: the memory, the tail and the statements the proxies execute fit the
reservations. Each way in which a step changes the shared memory keeps it. -/

set_option autoImplicit false

namespace AdkAaf.Adk.Sccl

open Function Lib List

theorem add64_eq {left right : Nat} (small : left + right < 2 ^ 64) :
    add64 left right = left + right :=
  Nat.mod_eq_of_lt small

theorem Layout.boundary_le {shm : Shm} {history : List Reservation} {consumed cursor : Nat}
    (layout : Layout shm history consumed) (boundary : Boundary history cursor) :
    cursor < 2 ^ 48 := by
  obtain ⟨n, -, rfl⟩ := boundary
  exact (position_le_published history n).trans_lt layout.small

theorem boundary_published (history : List Reservation) : Boundary history (published history) :=
  ⟨history.length, .refl, (position_length history).symm⟩

section Reserve

variable {shm : Shm} {history : List Reservation} {consumed index : Nat} {length : UInt32}
variable {tail : Nat}

theorem published_append (history : List Reservation) (reservation : Reservation) :
    published (history ++ [reservation]) = published history + reservation.allocLen := by
  simp [published, extent_append]

theorem Layout.publish (layout : Layout shm history consumed)
    (locks : Locks shm history index length tail) (bounds : 1 ≤ index ∧ index ≤ kMaxProxySize)
    (word : shm.entryWord tail = entryValue index (allocLen length) 0)
    (below : tail + allocLen length < 2 ^ 48) (newTail : Nat) :
    Layout { shm with tail := newTail } (history ++ [⟨index, allocLen length, .acquired⟩])
      consumed := by
  have large := locks.fits.allocLen_ge
  have room := locks.room.trans (layout.thresholds index)
  have grown := published_append history ⟨index, allocLen length, .acquired⟩
  rw [← locks.position] at grown
  exact {
    sized := layout.sized
    small := by rw [grown]; exact below
    head := by rw [position_append _ layout.within]; exact layout.head
    within := by rw [length_append]; exact Nat.le_add_right_of_le layout.within
    window := by rw [grown]; exact room
    headThreshold := by
      have before := layout.headThreshold
      rw [← locks.position] at before
      rw [grown]
      exact Nat.le_add_right_of_le before
    sizes := fun reservation mem => by
      rcases mem_append.mp mem with old | new
      · exact layout.sizes reservation old
      · rw [mem_singleton.mp new]
        exact ⟨bounds.1, bounds.2, large, locks.fits.allocLen_lt layout.sized, fun _ => by simp⟩
    words := fun number reservation pending found => by
      rcases Nat.lt_or_ge number history.length with old | new
      · rw [List.getElem?_append_left old] at found
        rw [position_append _ old.le]
        exact layout.words number reservation pending found
      · rw [List.getElem?_append_right new] at found
        obtain ⟨inside, rfl⟩ := List.getElem?_eq_some_iff.mp found
        obtain rfl : number = history.length := by simp at inside; omega
        simp only [Nat.sub_self, List.getElem_cons_zero]
        rw [position_append _ .refl, position_length, ← locks.position]
        exact word
    cursors := fun other => (layout.cursors other).append _
    cursorsBelow := fun _ other => by
      obtain ⟨number, -, cursor⟩ := layout.cursors other
      have reached := position_le_published history number
      dsimp only
      rw [← locks.position] at reached
      omega
    thresholds := layout.thresholds }

end Reserve

section Settle

variable {index number : Nat} {length : UInt32}

theorem published_modify (history : List Reservation) (changed : Nat) (status : Status) :
    published (history.modify changed fun reservation => { reservation with status := status }) =
      published history := by
  rw [← position_length, length_modify, position_modify, position_length]

variable {shm : Shm} {history : List Reservation} {consumed short : Nat} {reservation : Reservation}

theorem Layout.tail_apart {tail : Nat} (layout : Layout shm history consumed)
    (pending : consumed ≤ number) (found : history[number]? = some reservation)
    (locks : Locks shm history index length tail) (le : short ≤ reservation.allocLen) :
    RangesApart (shm.getEntry (position history number)) short (shm.getEntry tail) 8 := by
  have large := locks.fits.allocLen_ge
  have room := locks.room.trans (layout.thresholds index)
  have ends := position_add_le_published found
  have above := layout.head_le pending
  rw [← locks.position] at ends
  exact layout.apart above (by omega) (by omega) (by omega)

theorem Layout.entry_apart {other : Nat} (layout : Layout shm history consumed)
    {reservation' : Reservation} (pending : consumed ≤ number)
    (found : history[number]? = some reservation) (pending' : consumed ≤ other)
    (found' : history[other]? = some reservation') (apart : number ≠ other)
    (le : short ≤ reservation.allocLen) : RangesApart (shm.getEntry (position history number)) short
      (shm.getEntry (position history other)) 8 := by
  have large' := (layout.sizes _ (mem_of_getElem? found')).allocLen_ge
  have ends := position_add_le_published found
  have window := layout.window
  refine layout.word_apart pending' found' (layout.head_le pending) (by omega) ?_
  rcases Nat.lt_or_gt_of_ne apart with less | greater
  · have ordered := position_add_le found less
    exact .inl (by omega)
  · have ordered := position_add_le found' greater
    exact .inr (by omega)

theorem modify_cases {place : Nat} {status : Status} {other : Reservation}
    (at_ : (history.modify number fun reservation =>
      { reservation with status := status })[place]? = some other) :
    (number = place ∧ ∃ reservation, history[number]? = some reservation ∧
      other = { reservation with status := status }) ∨
      (number ≠ place ∧ history[place]? = some other) := by
  by_cases same : number = place
  · subst same
    rw [List.getElem?_modify_eq] at at_
    obtain ⟨reservation, found, rfl⟩ := Option.map_eq_some_iff.mp at_
    exact .inl ⟨rfl, reservation, found, rfl⟩
  · rw [List.getElem?_modify_ne _ _ same] at at_
    exact .inr ⟨same, at_⟩

theorem Layout.settle (layout : Layout shm history consumed) (pending : consumed ≤ number)
    (found : history[number]? = some reservation) (status : Status)
    (sized : ({ reservation with status := status } : Reservation).Sized) :
    Layout (shm.setEntryWord (position history number)
        ({ reservation with status := status } : Reservation).word)
      (history.modify number fun reservation => { reservation with status := status })
      consumed where
  sized := layout.sized
  small := by rw [published_modify]; exact layout.small
  head := by rw [position_modify]; exact layout.head
  within := by rw [length_modify]; exact layout.within
  window := by rw [published_modify]; exact layout.window
  headThreshold := by rw [published_modify]; exact layout.headThreshold
  sizes other mem := by
    obtain ⟨place, at_⟩ := mem_iff_getElem?.mp mem
    rcases modify_cases at_ with ⟨rfl, _, found', rfl⟩ | ⟨-, found'⟩
    · rw [found] at found'
      cases found'
      exact sized
    · exact layout.sizes other (mem_of_getElem? found')
  words place other pending' at_ := by
    rw [position_modify]
    rcases modify_cases at_ with ⟨rfl, _, found', rfl⟩ | ⟨apart, found'⟩
    · rw [found] at found'
      cases found'
      exact entryWord_setEntryWord_self sized.word_lt
    · have large := (layout.sizes _ (mem_of_getElem? found)).allocLen_ge
      rw [entryWord_setEntryWord_apart
        (layout.entry_apart pending found pending' found' apart large)]
      exact layout.words place other pending' found'
  cursors other := (layout.cursors other).modify _ _
  cursorsBelow nonempty := by
    refine layout.cursorsBelow fun empty => nonempty ?_
    rw [empty, modify_nil]
  thresholds := layout.thresholds

end Settle

structure Coherent (shm : Shm) (owners : Nat → Owner) (history : List Reservation)
    (consumed : Nat) : Prop where
  layout : Layout shm history consumed
  tail : TailValid shm.tail (published history) owners
  owners : ∀ index, OwnerValid shm history consumed index (owners index)

section Coherence

variable {shm : Shm} {owners : Nat → Owner} {history : List Reservation} {consumed index : Nat}

theorem Coherent.restore_tail (coherent : Coherent shm owners history consumed) :
    restore shm.tail = published history :=
  coherent.tail.restore_eq coherent.layout.small

theorem Coherent.bounds (coherent : Coherent shm owners history consumed)
    (taken : owners index ≠ .free) : 1 ≤ index ∧ index ≤ kMaxProxySize :=
  (coherent.owners index).bounds taken

theorem Locks.unique {first second : Nat} {length length' : UInt32} {tail tail' : Nat}
    (locks : Locks shm history first length tail)
    (locks' : Locks shm history second length' tail') : first = second := by
  have word := locks.word
  have word' := locks'.word
  rw [locks.position] at word
  rw [locks'.position] at word'
  omega

theorem Layout.not_locks (layout : Layout shm history consumed)
    (free : shm.tail = published history) {length : UInt32} {tail : Nat} (pos : 1 ≤ index) :
    ¬ Locks shm history index length tail := by
  intro locks
  have small := layout.small
  have word := locks.word
  omega

variable {owner : Owner}

theorem Coherent.setOwner (coherent : Coherent shm owners history consumed)
    (ownerValid : OwnerValid shm history consumed index owner)
    (reserving : (owners index).Reserving → owner.Reserving) :
    Coherent shm (update owners index owner) history consumed where
  layout := coherent.layout
  tail := coherent.tail.update reserving
  owners := ownerValid_update ownerValid fun other _ => coherent.owners other

theorem Coherent.setWAL (coherent : Coherent shm owners history consumed) {wal : WAL}
    (quiet : ¬ (owners index).Reserving) (boundary : Boundary history wal.cursor)
    (below : history ≠ [] → wal.cursor + 8 ≤ shm.head + shm.memorySize.toNat)
    (threshold : wal.threshold ≤ shm.head + shm.memorySize.toNat)
    (ownerValid : OwnerValid (shm.setWAL index wal) history consumed index owner) :
    Coherent (shm.setWAL index wal) (update owners index owner) history consumed where
  layout := coherent.layout.setWAL boundary below threshold
  tail := coherent.tail.update fun locked => absurd locked quiet
  owners := ownerValid_update ownerValid fun other apart =>
    (coherent.owners other).frame rfl (update_of_ne apart _ _)
      (fun _ => id) (fun _ _ _ => ⟨rfl, rfl, fun _ => rfl⟩)
      (fun _ _ _ _ owns => ⟨rfl, owns.pending, rfl⟩)

section Reserve

variable {length : UInt32} {tail : Nat}

theorem Layout.newTail_eq (layout : Layout shm history consumed) (fits : Fits shm length)
    (boundary : Boundary history tail) : add64 tail (allocLen length) = tail + allocLen length := by
  have small := layout.boundary_le boundary
  have short := fits.allocLen_lt layout.sized
  unfold kMaxLength kLengthShift kIndexShift at short
  exact add64_eq (by omega)

theorem Layout.newThreshold_eq (layout : Layout shm history consumed) :
    add64 shm.head shm.memorySize.toNat = shm.head + shm.memorySize.toNat := by
  have above := position_le_published history consumed
  have small := layout.small
  have size := shm.memorySize.toNat_lt
  rw [← layout.head] at above
  exact add64_eq (by omega)

section

variable (coherent : Coherent shm owners history consumed)
include coherent

theorem Coherent.loadTail (alive : owners index = .alive (.loadTail length))
    (free : isMixed shm.tail = false) : Fits shm length ∧ Boundary history shm.tail ∧
      add64 shm.tail (allocLen length) = shm.tail + allocLen length := by
  have ownerValid := coherent.owners index
  rw [alive] at ownerValid
  have fits : Fits shm length := ownerValid.pc
  have boundary : Boundary history shm.tail := by
    rw [coherent.tail.eq_of_not_mixed coherent.layout.small free]
    exact boundary_published history
  exact ⟨fits, boundary, coherent.layout.newTail_eq fits boundary⟩

theorem Coherent.loadHead (alive : owners index = .alive (.loadHead length tail))
    (ownerValid : ∀ wal : WAL, wal.threshold = shm.head + shm.memorySize.toNat →
      OwnerValid (shm.setWAL index wal) history consumed index owner) :
    Coherent (shm.setWAL index
        { shm.wals index with threshold := add64 shm.head shm.memorySize.toNat })
      (update owners index owner) history consumed := by
  have threshold := coherent.layout.newThreshold_eq
  have quiet : ¬ (owners index).Reserving := Owner.not_reserving (by rw [alive]; rfl)
  exact coherent.setWAL quiet (coherent.layout.cursors index)
    (fun nonempty => coherent.layout.cursorsBelow nonempty index) threshold.le
    (ownerValid _ threshold)

theorem Coherent.writeCursor (alive : owners index = .alive (.writeCursor length tail)) :
    Coherent (shm.setWAL index { shm.wals index with cursor := tail })
      (update owners index (.alive (.compareAndSwap length tail))) history consumed := by
  have ownerValid := coherent.owners index
  rw [alive] at ownerValid
  obtain ⟨fits, boundary, room⟩ := ownerValid.pc
  have threshold := coherent.layout.thresholds index
  have large := fits.allocLen_ge
  have quiet : ¬ (owners index).Reserving := Owner.not_reserving (by rw [alive]; rfl)
  refine coherent.setWAL quiet boundary (fun _ => by dsimp only; omega) threshold
    (.alive (ownerValid.bounds (by simp)) ⟨fits, boundary, ?_, ?_⟩)
  · simpa only [Shm.setWAL, update_self] using room
  · simp [Shm.setWAL, update_self]

theorem Coherent.compareAndSwap (alive : owners index = .alive (.compareAndSwap length tail))
    (same : shm.tail = tail) :
    Coherent { shm with tail := mix index tail }
      (update owners index (.alive (.setEntry length tail))) history consumed := by
  have ownerValid := coherent.owners index
  rw [alive] at ownerValid
  obtain ⟨fits, boundary, room, cursor⟩ := ownerValid.pc
  obtain ⟨pos, bounded⟩ := ownerValid.bounds (by simp)
  have small := coherent.layout.boundary_le boundary
  have free : shm.tail = published history := by
    refine coherent.tail.eq_of_not_mixed coherent.layout.small ?_
    simp [isMixed, same, unmixed_of_lt small]
  have atTail : tail = published history := same.symm.trans free
  have word : mix index tail = index * 2 ^ 48 + tail := mix_eq bounded small
  exact {
    layout := { coherent.layout with words := coherent.layout.words }
    tail := by
      refine .inr ⟨index, pos, bounded, ⟨length, tail, .inl ?_⟩, ?_⟩
      · simp [update_self, Owner.pc]
      · exact word.trans (congrArg (index * 2 ^ 48 + ·) atTail)
    owners := by
      have own : PCValid { shm with tail := mix index tail } history consumed index
          (.setEntry length tail) := ⟨fits, atTail, room, cursor, word⟩
      refine ownerValid_update (.alive ⟨pos, bounded⟩ own) fun other _ => ?_
      by_cases unused : owners other = .free
      · rw [unused]
        exact .free
      · exact (coherent.owners other).frame rfl rfl (fun _ => id)
          (fun _ _ locks =>
            absurd locks (coherent.layout.not_locks free (coherent.bounds unused).1))
          (fun _ _ _ _ owns => ⟨rfl, owns.pending, rfl⟩) }

theorem Coherent.setEntry (alive : owners index = .alive (.setEntry length tail)) :
    Coherent (shm.setEntryWord tail (Entry.acquire index (allocLen length)))
      (update owners index (.alive (.publishTail length tail))) history consumed := by
  have ownerValid := coherent.owners index
  rw [alive] at ownerValid
  have locks : Locks shm history index length tail := ownerValid.pc
  obtain ⟨pos, bounded⟩ := ownerValid.bounds (by simp)
  have short := locks.fits.allocLen_lt coherent.layout.sized
  have large := locks.fits.allocLen_ge
  have room := locks.room.trans (coherent.layout.thresholds index)
  exact {
    layout := coherent.layout.storeAtTail locks.position (fun _ => by omega) _
    tail := by
      refine .inr ⟨index, pos, bounded, ⟨length, tail, .inr ?_⟩, ?_⟩
      · simp [update_self, Owner.pc]
      · exact locks.word.trans (congrArg (index * 2 ^ 48 + ·) locks.position)
    owners := by
      refine ownerValid_update (.alive ⟨pos, bounded⟩ ⟨locks.frame rfl rfl rfl rfl, ?_⟩)
        fun other apart => ?_
      · rw [acquire_eq short]
        exact entryWord_setEntryWord_self (entryValue_lt bounded short (by decide))
      · exact (coherent.owners other).frame rfl rfl (fun _ => id)
          (fun _ _ locks' => absurd (Locks.unique locks' locks) apart)
          (fun _ _ _ _ owns => ⟨rfl, owns.pending, rfl⟩) }

theorem Coherent.publishTail (alive : owners index = .alive (.publishTail length tail))
    (below : tail + allocLen length < 2 ^ 48)
    (ownerValid : Locks shm history index length tail →
      OwnerValid { shm with tail := add64 tail (allocLen length) }
        (history ++ [⟨index, allocLen length, .acquired⟩]) consumed index owner) :
    Coherent { shm with tail := add64 tail (allocLen length) } (update owners index owner)
      (history ++ [⟨index, allocLen length, .acquired⟩]) consumed := by
  have own := coherent.owners index
  rw [alive] at own
  obtain ⟨locks, word⟩ := own.pc
  have bounds := own.bounds (by simp)
  have newTail : add64 tail (allocLen length) = tail + allocLen length := add64_eq (by omega)
  exact {
    layout := coherent.layout.publish locks bounds word below _
    tail := by
      left
      rw [published_append, ← locks.position]
      exact newTail
    owners := by
      refine ownerValid_update (ownerValid locks) fun other apart => ?_
      refine (coherent.owners other).frame rfl rfl (fun _ boundary => boundary.append _)
        (fun _ _ locks' => absurd (Locks.unique locks' locks) apart)
        (fun _ _ number _ owns => ?_)
      have inside := (List.getElem?_eq_some_iff.mp owns.found).1
      exact ⟨List.getElem?_append_left inside, owns.pending,
        position_append _ inside.le⟩ }

end

end Reserve

section Settle

variable {number : Nat} {reservation : Reservation}

section

variable (coherent : Coherent shm owners history consumed) (pending : consumed ≤ number)
  (found : history[number]? = some reservation)
include coherent pending found

theorem Coherent.storeByte {offset : Nat} (covered : 8 + offset < reservation.allocLen)
    (byte : UInt8) :
    Coherent { shm with
        memory :=
          shm.memory.storeByte (shm.getEntry (position history number) + 8 + offset) byte }
      owners history consumed := by
  have words : ∀ other reservation', consumed ≤ other → history[other]? = some reservation' →
      Shm.entryWord { shm with
          memory :=
            shm.memory.storeByte (shm.getEntry (position history number) + 8 + offset) byte }
        (position history other) = reservation'.word := by
    intro other reservation' pending' found'
    rw [entryWord_storeByte, coherent.layout.words other reservation' pending' found']
    by_cases same : number = other
    · subst same
      exact .inr (by omega)
    · have apart := coherent.layout.entry_apart pending found pending' found' same
        (Nat.le_refl reservation.allocLen)
      rcases apart with before | behind
      · exact .inl (by omega)
      · exact .inr (by omega)
  exact {
    layout := { coherent.layout with words := words }
    tail := coherent.tail
    owners := fun other => by
      refine (coherent.owners other).frame rfl rfl (fun _ => id)
        (fun _ tail locks => ⟨rfl, rfl, fun _ => entryWord_storeByte ?_⟩)
        (fun _ _ _ _ owns => ⟨rfl, owns.pending, rfl⟩)
      have apart := coherent.layout.tail_apart pending found locks
        (Nat.le_refl reservation.allocLen)
      rcases apart with before | behind
      · exact .inl (by omega)
      · exact .inr (by omega) }

/-- Nobody who waits with this reservation in its program counter. -/
def Unheld (owners : Nat → Owner) (number : Nat) : Prop :=
  ∀ other length cursor held, (owners other).pc = .holding length cursor held → held ≠ number

theorem Coherent.settle (status : Status)
    (sized : ({ reservation with status := status } : Reservation).Sized)
    (unheld : Unheld owners number) :
    Coherent (shm.setEntryWord (position history number)
        ({ reservation with status := status } : Reservation).word)
      owners (history.modify number fun reservation => { reservation with status := status })
      consumed where
  layout := coherent.layout.settle pending found status sized
  tail := by
    rw [published_modify]
    exact coherent.tail
  owners other := by
    refine (coherent.owners other).frame rfl rfl (fun _ boundary => boundary.modify _ _)
      (fun _ tail locks => ⟨rfl, published_modify _ _ _, fun _ => entryWord_setEntryWord_apart ?_⟩)
      (fun _ _ place holding owns => ⟨List.getElem?_modify_ne _ _ ?_, owns.pending,
        position_modify _ _ _ _⟩)
    · exact coherent.layout.tail_apart pending found locks
        (coherent.layout.sizes _ (mem_of_getElem? found)).allocLen_ge
    · exact (unheld other _ _ _ holding).symm

end

end Settle

section

variable (coherent : Coherent shm owners history consumed)
include coherent

theorem Coherent.locks_of_reserving (reserving : (owners index).Reserving) :
    ∃ length tail, Locks shm history index length tail := by
  have locks := (coherent.owners index).pc
  obtain ⟨length, tail, at_ | at_⟩ := reserving
  · rw [at_] at locks
    exact ⟨length, tail, locks⟩
  · rw [at_] at locks
    exact ⟨length, tail, locks.1⟩

theorem Coherent.unmixed_of_reserving (reserving : (owners index).Reserving) :
    unmixed shm.tail = index := by
  have taken : owners index ≠ .free := by
    intro free
    rw [free] at reserving
    exact Owner.not_reserving rfl reserving
  obtain ⟨length, tail, locks⟩ := coherent.locks_of_reserving reserving
  refine unmixed_of_lock (coherent.bounds taken).2 coherent.layout.small ?_
  exact locks.word.trans (congrArg (index * 2 ^ 48 + ·) locks.position)

theorem Coherent.reserving_of_unmixed (pos : 1 ≤ index) (mixed : index = unmixed shm.tail) :
    (owners index).Reserving := by
  rw [mixed]
  refine coherent.tail.reserving_of_mixed coherent.layout.small ?_
  simp only [isMixed, bne_iff_ne, ne_eq, ← mixed]
  omega

theorem Coherent.restoreTail (reserving : (owners index).Reserving) :
    Coherent { shm with tail := restore shm.tail } (update owners index .free) history
      consumed := by
  obtain ⟨length, tail, locks⟩ := coherent.locks_of_reserving reserving
  exact {
    layout := { coherent.layout with words := coherent.layout.words }
    tail := .inl coherent.restore_tail
    owners := ownerValid_update .free fun other apart =>
      (coherent.owners other).frame rfl rfl (fun _ => id)
        (fun _ _ locks' => absurd (Locks.unique locks' locks) apart)
        (fun _ _ _ _ owns => ⟨rfl, owns.pending, rfl⟩) }

theorem Coherent.storeAtTail {cursor word : Nat} (atTail : cursor = published history)
    (room : history ≠ [] → cursor + 8 ≤ shm.head + shm.memorySize.toNat)
    (unset : ∀ other length, 1 ≤ other → other ≤ kMaxProxySize →
      Locks shm history other length cursor →
      shm.entryWord cursor ≠ entryValue other (allocLen length) 0) :
    Coherent (shm.setEntryWord cursor word) owners history consumed where
  layout := coherent.layout.storeAtTail atTail room word
  tail := coherent.tail
  owners other := by
    by_cases free : owners other = .free
    · rw [free]
      exact .free
    · refine (coherent.owners other).frame rfl rfl (fun _ => id)
        (fun length tail locks => ⟨rfl, rfl, fun written => ?_⟩)
        (fun _ _ _ _ owns => ⟨rfl, owns.pending, rfl⟩)
      obtain rfl : tail = cursor := locks.position.trans atTail.symm
      obtain ⟨pos, bounded⟩ := coherent.bounds free
      exact absurd written (unset other length pos bounded locks)

/-- The record of an index that is not reserving points at a reservation of that
index, or at the tail, where the bytes of an earlier lap pass for such an entry. -/
theorem Coherent.release_cases (pos : 1 ≤ index) (quiet : ¬ (owners index).Reserving)
    (above : shm.head ≤ (shm.wals index).cursor)
    (acquired : Entry.isAcquired (shm.entryWord (shm.wals index).cursor) index = true) :
    Coherent (shm.setEntryWord (shm.wals index).cursor
          (Entry.release (shm.entryWord (shm.wals index).cursor))) owners history consumed ∨
      ∃ number reservation, consumed ≤ number ∧ history[number]? = some reservation ∧
        (shm.wals index).cursor = position history number ∧ reservation.index = index ∧
        reservation.status = .acquired := by
  rcases coherent.layout.boundary_cases (coherent.layout.cursors index) above with
    atTail | ⟨number, reservation, pending, found, cursor⟩
  · left
    refine coherent.storeAtTail atTail
      (fun nonempty => coherent.layout.cursorsBelow nonempty index) ?_
    intro other length positive' bounded locks written
    have short := locks.fits.allocLen_lt coherent.layout.sized
    rw [written, Entry.isAcquired, index_entryValue bounded short (by decide)] at acquired
    obtain rfl : index = other := by simpa using (Bool.and_eq_true_iff.mp acquired).1
    have small := coherent.layout.small
    rw [← locks.position] at small
    exact quiet (coherent.reserving_of_unmixed pos
      (unmixed_of_lock bounded small locks.word).symm)
  · right
    rw [cursor, coherent.layout.words number reservation pending found] at acquired
    have sized := coherent.layout.sizes _ (mem_of_getElem? found)
    obtain ⟨same, unposted⟩ := (sized.isAcquired pos).mp acquired
    exact ⟨number, reservation, pending, found, cursor, same, unposted⟩

end

theorem Layout.entry_at_head (layout : Layout shm history consumed)
    (below : shm.head < published history) :
    ∃ reservation, history[consumed]? = some reservation ∧ reservation.Sized ∧
      shm.entryWord shm.head = reservation.word := by
  have inside : consumed < history.length := by
    refine Nat.lt_of_le_of_ne layout.within fun full => ?_
    rw [layout.head, full, position_length] at below
    exact Nat.lt_irrefl _ below
  have found := List.getElem?_eq_getElem inside
  refine ⟨_, found, layout.sizes _ (mem_of_getElem? found), ?_⟩
  rw [layout.head]
  exact layout.words _ _ .refl found

theorem Coherent.refreshThreshold (coherent : Coherent shm owners history consumed) :
    Coherent shm.refreshThreshold owners history consumed := by
  have restored := coherent.restore_tail
  unfold Shm.refreshThreshold
  split
  · exact {
      layout := { coherent.layout with
        words := coherent.layout.words
        headThreshold := restored.le }
      tail := coherent.tail
      owners := fun other =>
        (coherent.owners other).frame rfl rfl (fun _ => id)
          (fun _ _ _ => ⟨rfl, rfl, fun _ => rfl⟩)
          (fun _ _ _ _ owns => ⟨rfl, owns.pending, rfl⟩) }
  · exact coherent

theorem Coherent.freeEntry (coherent : Coherent shm owners history consumed)
    {reservation : Reservation} (found : history[consumed]? = some reservation)
    (unheld : Unheld owners consumed) : Coherent shm.freeEntry owners history (consumed + 1) := by
  have layout := coherent.layout
  have sized := layout.sizes _ (mem_of_getElem? found)
  have word := layout.words _ _ .refl found
  rw [← layout.head] at word
  have ends := position_add_le_published found
  have small := layout.small
  have newHead : add64 shm.head (Entry.allocatedLength (shm.entryWord shm.head)) =
      shm.head + reservation.allocLen := by
    rw [word, sized.allocatedLength]
    rw [← layout.head] at ends
    exact add64_eq (by omega)
  have window := layout.window
  exact {
    layout := { layout with
      head := by
        simp only [Shm.freeEntry, newHead]
        rw [position_succ found, layout.head]
      within := (List.getElem?_eq_some_iff.mp found).1
      window := by
        simp only [Shm.freeEntry, newHead]
        omega
      words := fun n other pending at_ =>
        layout.words n other (Nat.le_of_succ_le pending) at_
      cursorsBelow := fun nonempty i => by
        have below := layout.cursorsBelow nonempty i
        simp only [Shm.freeEntry, newHead]
        omega
      thresholds := fun i => by
        have below := layout.thresholds i
        simp only [Shm.freeEntry, newHead]
        omega }
    tail := coherent.tail
    owners := fun other => by
      refine (coherent.owners other).frame rfl rfl (fun _ => id)
        (fun _ _ _ => ⟨rfl, rfl, fun _ => rfl⟩) (fun _ _ n holding owns => ⟨rfl, ?_, rfl⟩)
      exact Nat.lt_of_le_of_ne owns.pending (unheld other _ _ _ holding).symm }

end Coherence

end AdkAaf.Adk.Sccl
