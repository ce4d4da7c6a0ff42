import AdkAaf.Adk.ShmContChannel.Channel

/-! What holds between the steps of a channel. `Layout` ties the words of the
shared memory to the reservations, `PCValid` every program counter to both, and
`ConsumerValid` what the agent has received. -/

set_option autoImplicit false

namespace AdkAaf.Adk.Sccl

open Function Lib List

def published (history : List Reservation) : Nat := extent Reservation.allocLen history

def Reservation.word (reservation : Reservation) : Nat :=
  match reservation.status with
  | .acquired => entryValue reservation.index reservation.allocLen 0
  | .posted size => entryValue reservation.index reservation.allocLen size
  | .released => entryValue 0 reservation.allocLen 0

structure Reservation.Sized (reservation : Reservation) : Prop where
  index_pos : 1 ≤ reservation.index
  index_le : reservation.index ≤ kMaxProxySize
  allocLen_ge : 8 ≤ reservation.allocLen
  allocLen_lt : reservation.allocLen < kMaxLength
  posted : ∀ size, reservation.status = .posted size → 0 < size ∧ size < kMaxLength

section Word

variable {reservation : Reservation}

section

variable (sized : reservation.Sized)
include sized

theorem Reservation.Sized.allocatedLength :
    Entry.allocatedLength reservation.word = reservation.allocLen := by
  have none : 0 < kMaxLength := by decide
  unfold Reservation.word
  cases status : reservation.status with
  | acquired | released => exact allocatedLength_entryValue sized.allocLen_lt none
  | posted size => exact allocatedLength_entryValue sized.allocLen_lt (sized.posted size status).2

theorem Reservation.Sized.bufferSize :
    Entry.bufferSize reservation.word = reservation.status.postedSize.getD 0 := by
  have none : 0 < kMaxLength := by decide
  unfold Reservation.word
  cases status : reservation.status with
  | acquired | released => exact bufferSize_entryValue none
  | posted size => exact bufferSize_entryValue (sized.posted size status).2

theorem Reservation.Sized.index_word : Entry.index reservation.word =
      if reservation.status = .released then 0 else reservation.index := by
  have none : 0 < kMaxLength := by decide
  unfold Reservation.word
  cases status : reservation.status with
  | acquired => exact index_entryValue sized.index_le sized.allocLen_lt none
  | posted size =>
    exact index_entryValue sized.index_le sized.allocLen_lt (sized.posted size status).2
  | released => exact index_entryValue (Nat.zero_le _) sized.allocLen_lt none

theorem Reservation.Sized.word_lt : reservation.word < 2 ^ 64 := by
  have none : 0 < kMaxLength := by decide
  unfold Reservation.word
  cases status : reservation.status with
  | acquired => exact entryValue_lt sized.index_le sized.allocLen_lt none
  | posted size => exact entryValue_lt sized.index_le sized.allocLen_lt (sized.posted size status).2
  | released => exact entryValue_lt (Nat.zero_le _) sized.allocLen_lt none

theorem Reservation.Sized.isAcquired {i : Nat} (pos : 1 ≤ i) :
    Entry.isAcquired reservation.word i = true ↔
      reservation.index = i ∧ reservation.status = .acquired := by
  simp only [Entry.isAcquired, sized.index_word, sized.bufferSize, Bool.and_eq_true, beq_iff_eq]
  cases status : reservation.status with
  | acquired => simp [Status.postedSize, eq_comm]
  | posted size =>
    have large := (sized.posted size status).1
    simp only [Status.postedSize, Option.getD_some, reduceCtorEq, and_false, iff_false]
    omega
  | released =>
    simp only [if_true, reduceCtorEq, and_false, iff_false]
    omega

end

end Word

section Position

variable {history : List Reservation} {number : Nat} {reservation : Reservation}

theorem position_length (history : List Reservation) :
    position history history.length = published history := by
  rw [position, take_length, published]

theorem position_succ (found : history[number]? = some reservation) :
    position history (number + 1) = position history number + reservation.allocLen :=
  extent_take_succ _ found

theorem position_mono (history : List Reservation) {fewer more : Nat} (le : fewer ≤ more) :
    position history fewer ≤ position history more :=
  extent_take_mono _ history le

theorem position_add_le (found : history[number]? = some reservation) {later : Nat}
    (less : number < later) :
    position history number + reservation.allocLen ≤ position history later :=
  extent_take_add_le _ found less

theorem position_le_published (history : List Reservation) (n : Nat) :
    position history n ≤ published history := by
  by_cases within : n ≤ history.length
  · rw [← position_length]
    exact position_mono history within
  · rw [position, take_of_length_le (by omega)]
    exact .refl

theorem position_add_le_published (found : history[number]? = some reservation) :
    position history number + reservation.allocLen ≤ published history := by
  rw [← position_length]
  exact position_add_le found (List.getElem?_eq_some_iff.mp found).1

theorem position_append (more : List Reservation) (within : number ≤ history.length) :
    position (history ++ more) number = position history number := by
  rw [position, take_append_of_le_length within, position]

theorem position_modify (history : List Reservation) (changed number : Nat) (status : Status) :
    position (history.modify changed fun reservation => { reservation with status := status })
      number = position history number := by
  refine extent_take_congr Reservation.allocLen ?_ number
  refine ext_getElem? fun place => ?_
  rw [List.getElem?_map, List.getElem?_map, List.getElem?_modify]
  cases history[place]? with
  | none => rfl
  | some reservation => by_cases same : changed = place <;> simp [same]

theorem position_lt (sizes : ∀ reservation ∈ history, reservation.Sized) {earlier later : Nat}
    (less : earlier < later) (within : later ≤ history.length) :
    position history earlier < position history later := by
  have found := List.getElem?_eq_getElem (less.trans_le within)
  have large := (sizes _ (mem_of_getElem? found)).allocLen_ge
  have ends := position_add_le found less
  omega

end Position

def Boundary (history : List Reservation) (cursor : Nat) : Prop :=
  ∃ number ≤ history.length, cursor = position history number

structure Layout (shm : Shm) (history : List Reservation) (consumed : Nat) : Prop where
  sized : Sized shm.memorySize shm.maxMessageSize
  small : published history < 2 ^ 48
  head : shm.head = position history consumed
  within : consumed ≤ history.length
  window : published history ≤ shm.head + shm.memorySize.toNat
  headThreshold : shm.headThreshold ≤ published history
  sizes : ∀ reservation ∈ history, reservation.Sized
  words : ∀ number reservation, consumed ≤ number → history[number]? = some reservation →
    shm.entryWord (position history number) = reservation.word
  cursors : ∀ index, Boundary history (shm.wals index).cursor
  cursorsBelow : history ≠ [] → ∀ index,
    (shm.wals index).cursor + 8 ≤ shm.head + shm.memorySize.toNat
  thresholds : ∀ index, (shm.wals index).threshold ≤ shm.head + shm.memorySize.toNat

def Fits (shm : Shm) (length : UInt32) : Prop :=
  length.toNat + 15 < 2 ^ 32 ∧ allocLen length ≤ shm.maxMessageSize.toNat

/-- The entry the proxy sets up lies at the published tail, which it has locked. -/
structure Locks (shm : Shm) (history : List Reservation) (index : Nat) (length : UInt32)
    (tail : Nat) : Prop where
  fits : Fits shm length
  position : tail = published history
  room : tail + allocLen length ≤ (shm.wals index).threshold
  cursor : (shm.wals index).cursor = tail
  word : shm.tail = index * 2 ^ 48 + tail

structure Owns (shm : Shm) (history : List Reservation) (consumed index : Nat) (length : UInt32)
    (cursor number : Nat) : Prop where
  fits : Fits shm length
  found : history[number]? = some ⟨index, allocLen length, .acquired⟩
  pending : consumed ≤ number
  position : cursor = position history number
  cursor : (shm.wals index).cursor = cursor

def PCValid (shm : Shm) (history : List Reservation) (consumed index : Nat) : ProxyPC → Prop
  | .idle => True
  | .loadTail length => Fits shm length
  | .loadHead length tail => Fits shm length ∧ Boundary history tail
  | .writeCursor length tail =>
    Fits shm length ∧ Boundary history tail ∧
      tail + allocLen length ≤ (shm.wals index).threshold
  | .compareAndSwap length tail =>
    Fits shm length ∧ Boundary history tail ∧
      tail + allocLen length ≤ (shm.wals index).threshold ∧ (shm.wals index).cursor = tail
  | .setEntry length tail => Locks shm history index length tail
  | .publishTail length tail =>
    Locks shm history index length tail ∧
      shm.entryWord tail = entryValue index (allocLen length) 0
  | .holding length cursor number => Owns shm history consumed index length cursor number

structure OwnerValid (shm : Shm) (history : List Reservation) (consumed index : Nat)
    (owner : Owner) : Prop where
  bounds : owner ≠ .free → 1 ≤ index ∧ index ≤ kMaxProxySize
  pc : PCValid shm history consumed index owner.pc
  releasing : ∀ pc, owner = .releasing pc → ¬ owner.Reserving

/-- The tail is the published one, locked by the proxy that is reserving. -/
def TailValid (tail published : Nat) (owners : Nat → Owner) : Prop :=
  tail = published ∨
    ∃ index, 1 ≤ index ∧ index ≤ kMaxProxySize ∧ (owners index).Reserving ∧
      tail = index * 2 ^ 48 + published

structure ConsumerValid (shm : Shm) (history : List Reservation) (consumed : Nat)
    (consumer : ConsumerPC) (received : List (Nat × Nat)) : Prop where
  examining : consumer = .examining → shm.head < shm.headThreshold
  holding : consumer = .holding → ∃ reservation size,
    history[consumed]? = some reservation ∧ reservation.status = .posted size
  received : received = postedEntries history (consumer.taken consumed)
  settled : ∀ reservation ∈ history.take (consumer.taken consumed),
    reservation.status ≠ .acquired

structure Valid (system : System) : Prop where
  layout : Layout system.shm system.history system.consumed
  tail : TailValid system.shm.tail (published system.history) system.owners
  owners : ∀ index, OwnerValid system.shm system.history system.consumed index
    (system.owners index)
  held : ∀ number reservation, system.history[number]? = some reservation →
    reservation.status = .acquired → (system.owners reservation.index).Holds number
  consumer : ConsumerValid system.shm system.history system.consumed system.consumer
    system.received

section Tail

variable {tail below : Nat} {owners : Nat → Owner}

theorem restore_of_lock {i : Nat} (small : below < 2 ^ 48)
    (word : tail = i * 2 ^ 48 + below) : restore tail = below := by
  rw [restore_eq, word]
  omega

theorem unmixed_of_lock {index : Nat} (bounded : index ≤ kMaxProxySize) (small : below < 2 ^ 48)
    (word : tail = index * 2 ^ 48 + below) : unmixed tail = index := by
  unfold kMaxProxySize at bounded
  rw [unmixed_eq (by omega), word]
  omega

theorem unmixed_of_lt (small : tail < 2 ^ 48) : unmixed tail = 0 := by
  rw [unmixed_eq (by omega)]
  omega

section

variable (valid : TailValid tail below owners) (small : below < 2 ^ 48)
include valid small

theorem TailValid.restore_eq : restore tail = below := by
  rcases valid with rfl | ⟨i, -, -, -, word⟩
  · rw [Sccl.restore_eq, Nat.mod_eq_of_lt small]
  · exact restore_of_lock small word

theorem TailValid.eq_of_not_mixed (free : isMixed tail = false) : tail = below := by
  rcases valid with rfl | ⟨i, pos, bounded, -, word⟩
  · rfl
  · have mixed := unmixed_of_lock bounded small word
    simp only [isMixed, mixed, bne_eq_false_iff_eq] at free
    omega

theorem TailValid.reserving_of_mixed (mixed : isMixed tail = true) :
    (owners (unmixed tail)).Reserving := by
  rcases valid with rfl | ⟨i, pos, bounded, reserving, word⟩
  · simp [isMixed, unmixed_of_lt small] at mixed
  · rw [unmixed_of_lock bounded small word]
    exact reserving

end

end Tail

section Ranges

variable {shm : Shm} {history : List Reservation} {consumed : Nat}

variable {cursor : Nat}

section

variable (layout : Layout shm history consumed)
include layout

theorem Layout.apart {first firstLength second
    secondLength : Nat} (begins : shm.head ≤ first) (ordered : first + firstLength ≤ second)
    (fits : second + secondLength ≤ shm.head + shm.memorySize.toNat)
    (nonempty : 0 < shm.memorySize.toNat) :
    RangesApart (shm.getEntry first) firstLength (shm.getEntry second) secondLength := by
  rw [layout.sized.getEntry_eq nonempty, layout.sized.getEntry_eq nonempty]
  exact rangesApart_of_window begins ordered fits

theorem Layout.head_le {number : Nat} (pending : consumed ≤ number) :
    shm.head ≤ position history number := by
  rw [layout.head]
  exact position_mono history pending

theorem Layout.word_apart {number : Nat} {reservation : Reservation} (pending : consumed ≤ number)
    (found : history[number]? = some reservation) {start length : Nat} (begins : shm.head ≤ start)
    (fits : start + length ≤ shm.head + shm.memorySize.toNat)
    (avoids : start + length ≤ position history number ∨ position history number + 8 ≤ start) :
    RangesApart (shm.getEntry start) length (shm.getEntry (position history number)) 8 := by
  have large := (layout.sizes _ (mem_of_getElem? found)).allocLen_ge
  have ends := position_add_le_published found
  have window := layout.window
  have above := layout.head_le pending
  rcases avoids with before | behind
  · exact layout.apart begins before (by omega) (by omega)
  · exact (layout.apart above behind fits (by omega)).symm

theorem Layout.boundary_cases (boundary : Boundary history cursor) (above : shm.head ≤ cursor) :
    cursor = published history ∨
      ∃ number reservation, consumed ≤ number ∧ history[number]? = some reservation ∧
        cursor = position history number := by
  obtain ⟨number, within, rfl⟩ := boundary
  rcases Nat.lt_or_eq_of_le within with inside | rfl
  · refine .inr ⟨number, _, ?_, List.getElem?_eq_getElem inside, rfl⟩
    rw [layout.head] at above
    exact Nat.le_of_not_lt fun less =>
      absurd (position_lt layout.sizes less layout.within) (Nat.not_lt.mpr above)
  · exact .inl (position_length history)

theorem Layout.setWAL {i : Nat} {wal : WAL} (boundary : Boundary history wal.cursor)
    (below : history ≠ [] → wal.cursor + 8 ≤ shm.head + shm.memorySize.toNat)
    (threshold : wal.threshold ≤ shm.head + shm.memorySize.toNat) :
    Layout (shm.setWAL i wal) history consumed :=
  { layout with
    words := layout.words
    cursors := fun other => by
      simp only [Shm.setWAL, update_apply]
      split
      · exact boundary
      · exact layout.cursors other
    cursorsBelow := fun nonempty other => by
      simp only [Shm.setWAL, update_apply]
      split
      · exact below nonempty
      · exact layout.cursorsBelow nonempty other
    thresholds := fun other => by
      simp only [Shm.setWAL, update_apply]
      split
      · exact threshold
      · exact layout.thresholds other }

theorem Layout.storeAtTail (atTail : cursor = published history)
    (room : history ≠ [] → cursor + 8 ≤ shm.head + shm.memorySize.toNat) (word : Nat) :
    Layout (shm.setEntryWord cursor word) history consumed :=
  { layout with
    words := fun number reservation pending found => by
      have large := (layout.sizes _ (mem_of_getElem? found)).allocLen_ge
      have ends := position_add_le_published found
      have above := layout.head_le pending
      have fits := room (ne_nil_of_mem (mem_of_getElem? found))
      have apart := layout.word_apart pending found (show shm.head ≤ cursor by omega) fits
        (.inr (by omega))
      exact (entryWord_setEntryWord_apart apart).trans
        (layout.words number reservation pending found) }

end

theorem Boundary.append (boundary : Boundary history cursor)
    (more : List Reservation) : Boundary (history ++ more) cursor := by
  obtain ⟨n, within, rfl⟩ := boundary
  exact ⟨n, by rw [length_append]; omega, (position_append more within).symm⟩

theorem Boundary.modify (boundary : Boundary history cursor) (changed : Nat) (status : Status) :
    Boundary (history.modify changed fun reservation => { reservation with status := status })
      cursor := by
  obtain ⟨n, within, rfl⟩ := boundary
  exact ⟨n, by rwa [length_modify], (position_modify history changed n status).symm⟩

end Ranges

section Frames

variable {shm after : Shm} {history later : List Reservation} {consumed beyond index : Nat}
variable {pc : ProxyPC}

theorem Fits.of_limit {length : UInt32} (fits : Fits shm length)
    (limit : after.maxMessageSize = shm.maxMessageSize) : Fits after length :=
  ⟨fits.1, limit ▸ fits.2⟩

theorem Fits.allocLen_ge {length : UInt32} (fits : Fits shm length) : 8 ≤ allocLen length := by
  rw [allocLen_eq fits.1]
  omega

theorem Fits.allocLen_lt {length : UInt32} (fits : Fits shm length)
    (sized : Sized shm.memorySize shm.maxMessageSize) : allocLen length < kMaxLength :=
  fits.2.trans_lt sized.maxMessageSize

theorem Locks.frame {length : UInt32} {tail : Nat} (locks : Locks shm history index length tail)
    (limit : after.maxMessageSize = shm.maxMessageSize)
    (wal : after.wals index = shm.wals index) (sameTail : after.tail = shm.tail)
    (samePublished : published later = published history) :
    Locks after later index length tail where
  fits := locks.fits.of_limit limit
  position := samePublished ▸ locks.position
  room := wal ▸ locks.room
  cursor := wal ▸ locks.cursor
  word := sameTail ▸ locks.word

theorem PCValid.frame (valid : PCValid shm history consumed index pc)
    (limit : after.maxMessageSize = shm.maxMessageSize) (wal : after.wals index = shm.wals index)
    (boundaries : ∀ cursor, Boundary history cursor → Boundary later cursor)
    (locking : ∀ length tail, Locks shm history index length tail →
      after.tail = shm.tail ∧ published later = published history ∧
        (shm.entryWord tail = entryValue index (allocLen length) 0 →
          after.entryWord tail = shm.entryWord tail))
    (owning : ∀ length cursor number, pc = .holding length cursor number →
      Owns shm history consumed index length cursor number →
      later[number]? = history[number]? ∧ beyond ≤ number ∧
        position later number = position history number) : PCValid after later beyond index pc := by
  cases pc with
  | idle => trivial
  | loadTail length => exact Fits.of_limit valid limit
  | loadHead length tail => exact ⟨valid.1.of_limit limit, boundaries _ valid.2⟩
  | writeCursor length tail =>
    obtain ⟨fits, boundary, room⟩ := valid
    exact ⟨fits.of_limit limit, boundaries _ boundary, wal ▸ room⟩
  | compareAndSwap length tail =>
    obtain ⟨fits, boundary, room, cursor⟩ := valid
    exact ⟨fits.of_limit limit, boundaries _ boundary, wal ▸ room, wal ▸ cursor⟩
  | setEntry length tail =>
    obtain ⟨sameTail, samePublished, -⟩ := locking _ _ valid
    exact Locks.frame valid limit wal sameTail samePublished
  | publishTail length tail =>
    obtain ⟨locks, word⟩ := valid
    obtain ⟨sameTail, samePublished, sameWord⟩ := locking _ _ locks
    exact ⟨locks.frame limit wal sameTail samePublished, (sameWord word).trans word⟩
  | holding length cursor number =>
    obtain ⟨same, pending, samePosition⟩ := owning _ _ _ rfl valid
    exact ⟨Fits.of_limit valid.fits limit, same.trans valid.found, pending,
      valid.position.trans samePosition.symm, wal ▸ valid.cursor⟩

theorem OwnerValid.frame {owner : Owner} (valid : OwnerValid shm history consumed index owner)
    (limit : after.maxMessageSize = shm.maxMessageSize) (wal : after.wals index = shm.wals index)
    (boundaries : ∀ cursor, Boundary history cursor → Boundary later cursor)
    (locking : ∀ length tail, Locks shm history index length tail →
      after.tail = shm.tail ∧ published later = published history ∧
        (shm.entryWord tail = entryValue index (allocLen length) 0 →
          after.entryWord tail = shm.entryWord tail))
    (owning : ∀ length cursor n, owner.pc = .holding length cursor n →
      Owns shm history consumed index length cursor n →
      later[n]? = history[n]? ∧ beyond ≤ n ∧
        position later n = position history n) :
    OwnerValid after later beyond index owner :=
  ⟨valid.bounds, valid.pc.frame limit wal boundaries locking owning, valid.releasing⟩

theorem OwnerValid.free : OwnerValid shm history consumed index .free :=
  ⟨fun taken => absurd rfl taken, trivial, fun _ => by simp⟩

theorem OwnerValid.alive (bounds : 1 ≤ index ∧ index ≤ kMaxProxySize)
    (valid : PCValid shm history consumed index pc) :
    OwnerValid shm history consumed index (.alive pc) :=
  ⟨fun _ => bounds, valid, fun _ => by simp⟩

variable {consumer : ConsumerPC} {received : List (Nat × Nat)}

theorem ConsumerValid.idle (delivered : received = postedEntries history consumed)
    (settled : ∀ reservation ∈ history.take consumed, reservation.status ≠ .acquired) :
    ConsumerValid shm history consumed .idle received :=
  ⟨by simp, by simp, delivered, settled⟩

section

variable (valid : ConsumerValid shm history consumed consumer received)
include valid

theorem ConsumerValid.frame (sameHead : after.head = shm.head)
    (sameThreshold : after.headThreshold = shm.headThreshold) :
    ConsumerValid after history consumed consumer received :=
  { valid with examining := fun at_ => by rw [sameHead, sameThreshold]; exact valid.examining at_ }

theorem ConsumerValid.taken_le (within : consumed ≤ history.length) :
    consumer.taken consumed ≤ history.length := by
  cases at_ : consumer with
  | idle | examining => exact within
  | holding =>
    obtain ⟨reservation, size, found, -⟩ := valid.holding at_
    exact (List.getElem?_eq_some_iff.mp found).1

theorem ConsumerValid.append (within : consumed ≤ history.length) (more : List Reservation) :
    ConsumerValid shm (history ++ more) consumed consumer received := by
  have same : (history ++ more).take (consumer.taken consumed) =
      history.take (consumer.taken consumed) :=
    take_append_of_le_length (valid.taken_le within)
  refine ⟨valid.examining, fun at_ => ?_, ?_, ?_⟩
  · obtain ⟨reservation, size, found, posted⟩ := valid.holding at_
    refine ⟨reservation, size, ?_, posted⟩
    rw [List.getElem?_append_left (List.getElem?_eq_some_iff.mp found).1]
    exact found
  · rw [postedEntries, same]
    exact valid.received
  · rw [same]
    exact valid.settled

theorem ConsumerValid.modify {number : Nat} {reservation : Reservation}
    (found : history[number]? = some reservation) (acquired : reservation.status = .acquired)
    (status : Status) :
    ConsumerValid shm
      (history.modify number fun reservation => { reservation with status := status })
      consumed consumer received := by
  have untaken : consumer.taken consumed ≤ number := by
    refine Nat.le_of_not_lt fun less => valid.settled reservation ?_ acquired
    rw [← List.getElem?_take_of_lt less] at found
    exact mem_of_getElem? found
  have same : (history.modify number fun reservation => { reservation with status := status }).take
      (consumer.taken consumed) = history.take (consumer.taken consumed) := by
    rw [take_modify, modify_eq_self]
    exact Nat.le_trans (length_take_le _ _) untaken
  refine ⟨valid.examining, fun at_ => ?_, ?_, ?_⟩
  · obtain ⟨held, size, found', posted⟩ := valid.holding at_
    refine ⟨held, size, ?_, posted⟩
    rw [List.getElem?_modify_ne, found']
    rw [at_] at untaken
    exact Nat.ne_of_gt untaken
  · rw [postedEntries, same]
    exact valid.received
  · rw [same]
    exact valid.settled

end

end Frames

def ProxyPC.passive : ProxyPC → Bool
  | .idle | .loadTail _ | .loadHead _ _ | .writeCursor _ _ | .compareAndSwap _ _ => true
  | .setEntry _ _ | .publishTail _ _ | .holding _ _ _ => false

variable {owner : Owner}

theorem Owner.not_holds (passive : owner.pc.passive = true) (number : Nat) :
    ¬ owner.Holds number := by
  rintro ⟨length, cursor, holding⟩
  rw [holding] at passive
  cases passive

theorem Owner.not_reserving (passive : owner.pc.passive = true) : ¬ owner.Reserving := by
  rintro ⟨length, tail, reserving | reserving⟩
  · rw [reserving] at passive
    cases passive
  · rw [reserving] at passive
    cases passive

theorem Owner.Reserving.not_holds (reserving : owner.Reserving) (number : Nat) :
    ¬ owner.Holds number := by
  rintro ⟨length, cursor, holding⟩
  obtain ⟨_, _, at_ | at_⟩ := reserving
  · rw [holding] at at_
    cases at_
  · rw [holding] at at_
    cases at_

section Update

variable {shm : Shm} {history : List Reservation} {consumed index : Nat}
variable {owners : Nat → Owner} {owner : Owner}

theorem TailValid.update {tail below : Nat} (valid : TailValid tail below owners)
    (reserving : (owners index).Reserving → owner.Reserving) :
    TailValid tail below (update owners index owner) := by
  rcases valid with free | ⟨other, pos, bounded, locked, word⟩
  · exact .inl free
  · refine .inr ⟨other, pos, bounded, ?_, word⟩
    rw [update_apply]
    split
    · next same => exact reserving (same ▸ locked)
    · exact locked

theorem ownerValid_update (own : OwnerValid shm history consumed index owner)
    (others : ∀ other, other ≠ index → OwnerValid shm history consumed other (owners other))
    (other : Nat) : OwnerValid shm history consumed other (update owners index owner other) := by
  rw [update_apply]
  split
  · next same => exact same ▸ own
  · next apart => exact others other apart

theorem holds_update {reservation : Reservation} {number : Nat}
    (holder : (owners reservation.index).Holds number)
    (holds : (owners index).Holds number → owner.Holds number) :
    (update owners index owner reservation.index).Holds number := by
  rw [update_apply]
  split
  · next same => exact holds (same ▸ holder)
  · exact holder

end Update

end AdkAaf.Adk.Sccl
