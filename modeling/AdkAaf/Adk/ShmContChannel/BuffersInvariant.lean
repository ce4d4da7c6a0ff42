import AdkAaf.Adk.ShmContChannel.Buffers

/-! What holds between the steps of a channel whose proxies may have several
buffers in hand. What became of an entry is read off a history of reservations
that the memory agrees with. -/

set_option autoImplicit false

namespace AdkAaf.Adk.Sccl

open Function Option List

structure Held (shm : Shm) (history : List Reservation) (consumed index : Nat)
    (buffer : Buffer) : Prop where
  fits : Fits shm buffer.length
  found : history[buffer.number]? = some ⟨index, allocLen buffer.length, .acquired⟩
  pending : consumed ≤ buffer.number
  position : buffer.cursor = position history buffer.number

namespace Channel

structure Valid (channel : Channel) (history : List Reservation) : Prop where
  coherent : Coherent channel.shm channel.owners history channel.consumed
  handsFree : ∀ index, (channel.owners index).pc.HandsFree
  lengths : channel.lengths = history.map Reservation.allocLen
  aligned : ∀ reservation ∈ history, 8 ∣ reservation.allocLen
  ring : history = [] ∨ 8 ∣ channel.shm.memorySize.toNat
  spare : ∀ index, ¬ (1 ≤ index ∧ index ≤ kMaxProxySize) →
    channel.shm.wals index = { cursor := 0, threshold := channel.shm.memorySize.toNat }
  held : ∀ index, ∀ buffer ∈ channel.buffers index,
    Held channel.shm history channel.consumed index buffer
  distinct : ∀ index, ((channel.buffers index).map Buffer.number).Nodup
  alive : ∀ index, channel.buffers index ≠ [] → (channel.owners index).isAlive = true
  examining : channel.consumer = .examining → channel.shm.head < channel.shm.headThreshold
  holding : channel.consumer = .holding → ∃ reservation size,
    history[channel.consumed]? = some reservation ∧ reservation.status = .posted size
  settled : ∀ number reservation, number < channel.consumed →
    history[number]? = some reservation → reservation.status ≠ .acquired
  posts : ∀ post ∈ channel.posts, 0 < post.2 → ∃ reservation,
    history[post.1]? = some reservation ∧ reservation.status = .posted post.2

theorem run_eq_some {chan next : Channel} {operation : System → Option System}
    (went : chan.run operation = some next) :
    ∃ system, operation chan.system = some system ∧
      next = { chan with
        shm := system.shm
        owners := system.owners
        consumer := system.consumer
        consumed := system.consumed } := by
  obtain ⟨system, applied, rfl⟩ := map_eq_some_iff.mp went
  exact ⟨system, applied, rfl⟩

section Preservation

variable {channel : Channel} {history : List Reservation} {index : Nat}

theorem Valid.unheld (valid : channel.Valid history) (number : Nat) :
    Unheld channel.owners number := fun other length cursor held holding =>
  absurd holding (valid.handsFree other length cursor held)

variable {shm : Shm}

theorem Held.frame {after : Shm} {later : List Reservation} {consumed beyond : Nat}
    {buffer : Buffer} (held : Held shm history consumed index buffer)
    (limit : after.maxMessageSize = shm.maxMessageSize)
    (same : later[buffer.number]? = history[buffer.number]?) (pending : beyond ≤ buffer.number)
    (samePosition : Sccl.position later buffer.number = Sccl.position history buffer.number) :
    Held after later beyond index buffer :=
  ⟨held.fits.of_limit limit, same.trans held.found, pending, held.position.trans samePosition.symm⟩

variable {owner : Owner}

theorem Valid.of_coherent (valid : channel.Valid history)
    (coherent : Coherent shm (update channel.owners index owner) history channel.consumed)
    (free : owner.pc.HandsFree)
    (alive : (channel.owners index).isAlive = true → owner.isAlive = true)
    (limit : shm.maxMessageSize = channel.shm.maxMessageSize)
    (memorySize : shm.memorySize = channel.shm.memorySize) (head : shm.head = channel.shm.head)
    (headThreshold : shm.headThreshold = channel.shm.headThreshold)
    (wals : ∀ other, ¬ (1 ≤ other ∧ other ≤ kMaxProxySize) →
      shm.wals other = channel.shm.wals other) :
    Valid { channel with shm := shm, owners := update channel.owners index owner } history where
  coherent := coherent
  handsFree other := by
    simp only [update_apply]
    split
    · exact free
    · exact valid.handsFree other
  __ := valid
  ring := memorySize ▸ valid.ring
  spare other outside := by
    simp only [wals other outside, memorySize]
    exact valid.spare other outside
  held other buffer inHand :=
    Held.frame (valid.held other buffer inHand) limit rfl (valid.held other buffer inHand).pending
      rfl
  alive other inHand := by
    have before := valid.alive other inHand
    simp only [update_apply]
    split
    · next same =>
      rw [same] at before
      exact alive before
    · exact before
  examining at_ := by
    simp only [head, headThreshold]
    exact valid.examining at_

theorem Valid.setOwner (valid : channel.Valid history)
    (coherent : Coherent channel.shm (update channel.owners index owner) history channel.consumed)
    (free : owner.pc.HandsFree)
    (alive : (channel.owners index).isAlive = true → owner.isAlive = true) :
    Valid { channel with owners := update channel.owners index owner } history :=
  valid.of_coherent coherent free alive rfl rfl rfl rfl fun _ _ => rfl

theorem handsFree_idle : ProxyPC.idle.HandsFree := fun _ _ _ => by simp

variable {next : Channel}

theorem Valid.allocWAL (valid : channel.Valid history)
    (went : channel.run (·.allocWAL index) = some next) : next.Valid history := by
  obtain ⟨system, applied, rfl⟩ := run_eq_some went
  unfold System.allocWAL at applied
  split at applied
  · next allowed =>
    cases applied
    have free : channel.owners index = .free := allowed.2.2
    have quiet : ¬ (channel.owners index).Reserving := Owner.not_reserving (by rw [free]; rfl)
    have ownerValid : OwnerValid channel.shm history channel.consumed index (.alive .idle) :=
      .alive ⟨allowed.1, allowed.2.1⟩ trivial
    exact valid.setOwner (valid.coherent.setOwner ownerValid fun locked => absurd locked quiet)
      handsFree_idle fun _ => rfl
  · cases applied

variable {length : UInt32}

section

variable (valid : channel.Valid history)
include valid

theorem Valid.allocBuffer (fits : length.toNat + 15 < 2 ^ 32)
    (went : channel.run (·.allocBuffer index length) = some next) : next.Valid history := by
  obtain ⟨system, applied, rfl⟩ := run_eq_some went
  unfold System.allocBuffer at applied
  split at applied
  · next allowed =>
    cases applied
    obtain ⟨alive, limit⟩ := allowed
    have alive : channel.owners index = .alive .idle := alive
    have quiet : ¬ (channel.owners index).Reserving := Owner.not_reserving (by rw [alive]; rfl)
    have bounds : 1 ≤ index ∧ index ≤ kMaxProxySize := valid.coherent.bounds (by rw [alive]; simp)
    have ownerValid :
        OwnerValid channel.shm history channel.consumed index (.alive (.loadTail length)) :=
      .alive bounds ⟨fits, limit⟩
    exact valid.setOwner (valid.coherent.setOwner ownerValid fun locked => absurd locked quiet)
      (fun _ _ _ => by simp [Owner.pc]) fun _ => rfl
  · cases applied

theorem Valid.giveUp (went : channel.run (·.giveUp index) = some next) : next.Valid history := by
  obtain ⟨system, applied, rfl⟩ := run_eq_some went
  unfold System.giveUp at applied
  split at applied
  · next length alive =>
    cases applied
    have alive : channel.owners index = .alive (.loadTail length) := alive
    have quiet : ¬ (channel.owners index).Reserving := Owner.not_reserving (by rw [alive]; rfl)
    have bounds : 1 ≤ index ∧ index ≤ kMaxProxySize := valid.coherent.bounds (by rw [alive]; simp)
    have ownerValid : OwnerValid channel.shm history channel.consumed index (.alive .idle) :=
      .alive bounds trivial
    exact valid.setOwner (valid.coherent.setOwner ownerValid fun locked => absurd locked quiet)
      handsFree_idle fun _ => rfl
  · cases applied

theorem Valid.lose {pc : ProxyPC} (alive : channel.owners index = .alive pc) :
    Valid { channel with
        owners := update channel.owners index (.dead pc)
        buffers := update channel.buffers index [] }
      history := by
  have running : channel.system.owners index = .alive pc := alive
  have free := valid.handsFree index
  rw [alive] at free
  exact {
    coherent := Coherent.die valid.coherent running
    handsFree := fun other => by
      simp only [update_apply]
      split
      · exact free
      · exact valid.handsFree other
    __ := valid
    held := fun other buffer inHand => by
      by_cases same : other = index
      · simp [same] at inHand
      · simp only [update_of_ne same] at inHand
        exact valid.held other buffer inHand
    distinct := fun other => by
      by_cases same : other = index
      · simp [same]
      · simp only [update_of_ne same]
        exact valid.distinct other
    alive := fun other inHand => by
      by_cases same : other = index
      · simp [same] at inHand
      · simp only [update_of_ne same] at inHand ⊢
        exact valid.alive other inHand
    posts := valid.posts }

theorem Valid.die (went : channel.die index = some next) : next.Valid history := by
  obtain ⟨after, ran, rfl⟩ := map_eq_some_iff.mp went
  obtain ⟨system, applied, rfl⟩ := run_eq_some ran
  unfold System.die at applied
  split at applied
  · next pc alive =>
    cases applied
    exact valid.lose alive
  · cases applied

theorem Valid.loop
    (unpublished : ∀ length tail, channel.owners index ≠ .alive (.publishTail length tail))
    (went : channel.run (·.proceed index) = some next) : next.Valid history := by
  obtain ⟨after, applied, rfl⟩ := run_eq_some went
  have running : Coherent channel.system.shm channel.system.owners history channel.consumed :=
    valid.coherent
  obtain ⟨before, shm, pc, proceeds⟩ := running.proceed unpublished applied
  rw [proceeds.next]
  have alive : channel.owners index = .alive before := proceeds.alive
  have bounds : 1 ≤ index ∧ index ≤ kMaxProxySize := valid.coherent.bounds (by rw [alive]; simp)
  refine valid.of_coherent proceeds.coherent proceeds.handsFree.2 (fun _ => rfl)
    proceeds.frame.maxMessageSize proceeds.frame.memorySize proceeds.frame.head
    proceeds.frame.headThreshold fun other outside => proceeds.frame.wals other ?_
  rintro rfl
  exact outside bounds

end

theorem eight_dvd_allocLen (fits : length.toNat + 15 < 2 ^ 32) : 8 ∣ allocLen length := by
  rw [allocLen_eq fits]
  exact Nat.dvd_mul_left 8 _

theorem eight_dvd_memorySize {memorySize maxMessageSize : UInt32}
    (sized : Sized memorySize maxMessageSize) (room : 8 ≤ memorySize.toNat) :
    8 ∣ memorySize.toNat := by
  rcases sized.memorySize with zero | ⟨exponent, size⟩
  · rw [zero] at room
    cases room
  · rw [size] at room ⊢
    have large : 3 ≤ exponent := by
      by_contra small
      have below := Nat.pow_lt_pow_right Nat.one_lt_two (Nat.lt_of_not_le small)
      omega
    exact Nat.pow_dvd_pow 2 large

theorem Valid.publishTail (valid : channel.Valid history) {tail : Nat}
    (alive : channel.owners index = .alive (.publishTail length tail))
    (below : tail + allocLen length < 2 ^ 48) :
    Valid { channel with
        shm := { channel.shm with tail := add64 tail (allocLen length) }
        owners := update channel.owners index (.alive .idle)
        buffers := update channel.buffers index
          (⟨length, tail, channel.lengths.length⟩ :: channel.buffers index)
        lengths := channel.lengths ++ [allocLen length] }
      (history ++ [⟨index, allocLen length, .acquired⟩]) := by
  have layout := valid.coherent.layout
  have own := valid.coherent.owners index
  rw [alive] at own
  obtain ⟨locks, -⟩ := own.pc
  have bounds := own.bounds (by simp)
  have ownerValid : Locks channel.shm history index length tail →
      OwnerValid { channel.shm with tail := add64 tail (allocLen length) }
        (history ++ [⟨index, allocLen length, .acquired⟩]) channel.consumed index
        (.alive .idle) := fun _ => .alive bounds trivial
  have count : channel.lengths.length = history.length := by
    rw [valid.lengths, List.length_map]
  have stays : ∀ number, number < history.length →
      (history ++ [⟨index, allocLen length, .acquired⟩])[number]? = history[number]? :=
    fun number inside => List.getElem?_append_left inside
  have heldBefore : ∀ other, ∀ buffer ∈ channel.buffers other,
      Held { channel.shm with tail := add64 tail (allocLen length) }
        (history ++ [⟨index, allocLen length, .acquired⟩]) channel.consumed other buffer := by
    intro other buffer inHand
    have held := valid.held other buffer inHand
    have inside := (List.getElem?_eq_some_iff.mp held.found).1
    exact Held.frame held rfl (stays _ inside) held.pending
      (position_append _ inside.le)
  exact {
    coherent := valid.coherent.publishTail alive below ownerValid
    handsFree := fun other => by
      simp only [update_apply]
      split
      · exact handsFree_idle
      · exact valid.handsFree other
    lengths := by rw [valid.lengths, map_append, map_singleton]
    aligned := fun reservation mem => by
      rcases mem_append.mp mem with old | new
      · exact valid.aligned reservation old
      · rw [mem_singleton.mp new]
        exact eight_dvd_allocLen locks.fits.1
    ring := by
      right
      have large := locks.fits.allocLen_ge
      have room := locks.room.trans (layout.thresholds index)
      have above := position_le_published history channel.consumed
      rw [← layout.head, ← locks.position] at above
      have wide : 8 ≤ channel.shm.memorySize.toNat := by omega
      exact eight_dvd_memorySize layout.sized wide
    spare := valid.spare
    held := fun other buffer inHand => by
      by_cases same : other = index
      · subst same
        simp only [update_self, mem_cons] at inHand
        rcases inHand with rfl | old
        · refine ⟨locks.fits.of_limit rfl, ?_, ?_, ?_⟩
          · dsimp only
            rw [count]
            simp
          · dsimp only
            rw [count]
            exact layout.within
          · dsimp only
            rw [count, position_append _ .refl, position_length]
            exact locks.position
        · exact heldBefore other buffer old
      · simp only [update_of_ne same] at inHand
        exact heldBefore other buffer inHand
    distinct := fun other => by
      by_cases same : other = index
      · subst same
        simp only [update_self, map_cons, nodup_cons, List.mem_map, not_exists,
          not_and]
        refine ⟨fun buffer inHand same => ?_, valid.distinct other⟩
        have inside := (List.getElem?_eq_some_iff.mp (valid.held other buffer inHand).found).1
        omega
      · simp only [update_of_ne same]
        exact valid.distinct other
    alive := fun other inHand => by
      by_cases same : other = index
      · subst same
        simp [Owner.isAlive]
      · simp only [update_of_ne same] at inHand ⊢
        exact valid.alive other inHand
    examining := valid.examining
    holding := fun at_ => by
      obtain ⟨reservation, size, found, posted⟩ := valid.holding at_
      exact ⟨reservation, size, (stays _ (List.getElem?_eq_some_iff.mp found).1).trans found,
        posted⟩
    settled := fun number reservation before found => by
      have inside := before.trans_le layout.within
      exact valid.settled number reservation before ((stays number inside).symm.trans found)
    posts := fun post mem pos => by
      obtain ⟨reservation, found, posted⟩ := valid.posts post mem pos
      exact ⟨reservation, (stays _ (List.getElem?_eq_some_iff.mp found).1).trans found, posted⟩ }

theorem Valid.proceed (valid : channel.Valid history) (below : (channel.owners index).StaysBelow)
    (went : channel.proceed index = some next) : ∃ later, next.Valid later := by
  unfold Channel.proceed at went
  split at went
  · next length tail alive =>
    cases went
    rw [alive] at below
    exact ⟨_, valid.publishTail alive below⟩
  · next unpublished => exact ⟨_, valid.loop unpublished went⟩

section Buffer

variable {buffer : Buffer}

variable {place : Nat}

theorem Valid.writeByte (valid : channel.Valid history) {offset : Nat} {byte : UInt8}
    (went : channel.writeByte index place offset byte = some next) : next.Valid history := by
  unfold Channel.writeByte at went
  split at went
  · next buffer at_ =>
    split at went
    · next within =>
      cases went
      have held := valid.held index buffer (mem_of_getElem? at_)
      have covered : 8 + offset < allocLen buffer.length := by
        rw [allocLen_eq held.fits.1]
        omega
      have coherent := valid.coherent.storeByte held.pending held.found covered byte
      rw [← held.position] at coherent
      exact {
        coherent := coherent
        __ := valid
        held := fun other buffer inHand =>
          Held.frame (valid.held other buffer inHand) rfl rfl
            (valid.held other buffer inHand).pending rfl
        posts := valid.posts }
    · cases went
  · cases went

theorem Valid.entryWord_held (valid : channel.Valid history)
    (inHand : buffer ∈ channel.buffers index) :
    channel.shm.entryWord buffer.cursor = entryValue index (allocLen buffer.length) 0 := by
  have held := valid.held index buffer inHand
  rw [held.position]
  exact valid.coherent.layout.words buffer.number _ held.pending held.found

theorem map_allocLen_modify (history : List Reservation) (changed : Nat) (status : Status) :
    (history.modify changed fun reservation => { reservation with status := status }).map
      Reservation.allocLen = history.map Reservation.allocLen := by
  refine ext_getElem? fun place => ?_
  rw [List.getElem?_map, List.getElem?_map, List.getElem?_modify]
  cases history[place]? with
  | none => rfl
  | some reservation => by_cases same : changed = place <;> simp [same]

theorem Valid.settle (valid : channel.Valid history) {number : Nat} {reservation : Reservation}
    (pending : channel.consumed ≤ number) (found : history[number]? = some reservation)
    (acquired : reservation.status = .acquired) (status : Status)
    (sized : ({ reservation with status := status } : Reservation).Sized)
    {buffers : Nat → List Buffer} {posts : List (Nat × Nat)}
    (fewer : ∀ other, Sublist (buffers other) (channel.buffers other))
    (gone : ∀ other, ∀ buffer ∈ buffers other, buffer.number ≠ number)
    (recorded : ∀ post ∈ posts, post ∈ channel.posts ∨
      (0 < post.2 → post.1 = number ∧ status = .posted post.2)) :
    Valid { channel with
        shm := channel.shm.setEntryWord (position history number)
          ({ reservation with status := status } : Reservation).word
        buffers := buffers
        posts := posts }
      (history.modify number fun reservation => { reservation with status := status }) where
  coherent := valid.coherent.settle pending found status sized (valid.unheld number)
  __ := valid
  lengths := by
    rw [map_allocLen_modify]
    exact valid.lengths
  aligned other mem := by
    obtain ⟨place, at_⟩ := mem_iff_getElem?.mp mem
    rcases modify_cases at_ with ⟨rfl, before, found', rfl⟩ | ⟨-, found'⟩
    · exact valid.aligned before (mem_of_getElem? found')
    · exact valid.aligned other (mem_of_getElem? found')
  ring := by
    rcases valid.ring with empty | whole
    · rw [empty] at found
      cases found
    · exact .inr whole
  held other buffer inHand := by
    have held := valid.held other buffer ((fewer other).subset inHand)
    exact Held.frame held rfl
      (List.getElem?_modify_ne _ _ (gone other buffer inHand).symm) held.pending
      (position_modify _ _ _ _)
  distinct other := (valid.distinct other).sublist ((fewer other).map Buffer.number)
  alive other inHand := by
    refine valid.alive other fun empty => inHand ?_
    have none := fewer other
    rw [empty] at none
    exact sublist_nil.mp none
  holding at_ := by
    obtain ⟨head, size, found', posted⟩ := valid.holding at_
    refine ⟨head, size, ?_, posted⟩
    rw [List.getElem?_modify_ne, found']
    intro same
    rw [← same, found] at found'
    cases found'
    rw [acquired] at posted
    cases posted
  settled before other less found' := by
    have apart : number ≠ before := (less.trans_le pending).ne'
    rw [List.getElem?_modify_ne _ _ apart] at found'
    exact valid.settled before other less found'
  posts post mem positive := by
    rcases recorded post mem with old | new
    · obtain ⟨before, found', posted⟩ := valid.posts post old positive
      refine ⟨before, ?_, posted⟩
      rw [List.getElem?_modify_ne, found']
      intro same
      rw [← same, found] at found'
      cases found'
      rw [acquired] at posted
      cases posted
    · obtain ⟨same, posted⟩ := new positive
      refine ⟨{ reservation with status := status }, ?_, posted⟩
      rw [same, List.getElem?_modify_eq, found]
      rfl

def statusOf (size : Nat) : Status := if size = 0 then .acquired else .posted size

theorem word_statusOf (index len size : Nat) :
    (⟨index, len, statusOf size⟩ : Reservation).word = entryValue index len size := by
  unfold statusOf
  split
  · next zero => rw [zero]; rfl
  · rfl

theorem Valid.number_ne_of_erased (valid : channel.Valid history) {other : Nat} {kept : Buffer}
    (at_ : (channel.buffers index)[place]? = some buffer)
    (inHand : kept ∈ update channel.buffers index ((channel.buffers index).eraseIdx place) other) :
    kept.number ≠ buffer.number := by
  intro same
  by_cases own : other = index
  · subst own
    rw [update_self, mem_eraseIdx_iff_getElem?] at inHand
    obtain ⟨place', apart, at_'⟩ := inHand
    have numbers : ((channel.buffers other).map Buffer.number)[place]? =
        ((channel.buffers other).map Buffer.number)[place']? := by
      rw [List.getElem?_map, List.getElem?_map, at_, at_']
      exact congrArg some same.symm
    have inside := (List.getElem?_eq_some_iff.mp at_).1
    have counted : place < ((channel.buffers other).map Buffer.number).length := by
      rwa [List.length_map]
    exact apart ((List.getElem?_inj counted (valid.distinct other)).mp numbers).symm
  · rw [update_of_ne own] at inHand
    have mine := (valid.held index buffer (mem_of_getElem? at_)).found
    have theirs := (valid.held other kept inHand).found
    rw [same, mine, some.injEq, Reservation.mk.injEq] at theirs
    exact own theirs.1.symm

theorem Valid.postBuffer (valid : channel.Valid history) {size : Nat}
    (went : channel.postBuffer index place size = some next) : ∃ later, next.Valid later := by
  unfold Channel.postBuffer at went
  split at went
  · next buffer at_ =>
    dsimp only at went
    have inHand := mem_of_getElem? at_
    have held := valid.held index buffer inHand
    have short := held.fits.allocLen_lt valid.coherent.layout.sized
    have before := valid.coherent.layout.sizes _ (mem_of_getElem? held.found)
    rw [valid.entryWord_held inHand, allocatedLength_entryValue short (by decide)] at went
    split at went
    · next accepted =>
      cases went
      have fits : size < kMaxLength := accepted.2.2.trans_lt short
      have sized : (⟨index, allocLen buffer.length, statusOf size⟩ : Reservation).Sized := by
        refine { before with posted := ?_ }
        intro other posted
        unfold statusOf at posted
        split at posted
        · cases posted
        · next pos =>
          cases posted
          exact ⟨Nat.pos_of_ne_zero pos, fits⟩
      have word : Entry.setBufferSize (entryValue index (allocLen buffer.length) 0) size =
          (⟨index, allocLen buffer.length, statusOf size⟩ : Reservation).word := by
        rw [word_statusOf]
        exact setBufferSize_entryValue before.index_le short fits
      rw [word, held.position]
      refine ⟨history.modify buffer.number fun reservation =>
        { reservation with status := statusOf size }, ?_⟩
      refine valid.settle held.pending held.found rfl (statusOf size) sized (fun other => ?_)
        (fun other kept => valid.number_ne_of_erased at_) fun post mem => ?_
      · rw [update_apply]
        split
        · next same =>
          rw [same]
          exact eraseIdx_sublist _ _
        · exact Sublist.refl _
      · rcases mem_cons.mp mem with rfl | old
        · exact .inr fun pos => ⟨rfl, if_neg pos.ne'⟩
        · exact .inl old
    · cases went
  · cases went

end Buffer

section

variable (valid : channel.Valid history)
include valid

theorem Valid.freeWAL (went : channel.run (·.freeWAL index) = some next) :
    next.Valid history := by
  obtain ⟨system, applied, rfl⟩ := run_eq_some went
  unfold System.freeWAL at applied
  dsimp only at applied
  split at applied
  · next pc dead =>
    have dead : channel.owners index = .dead pc := dead
    have bounds : 1 ≤ index ∧ index ≤ kMaxProxySize := valid.coherent.bounds (by rw [dead]; simp)
    have gone : (channel.owners index).isAlive = false := by rw [dead]; rfl
    split at applied
    · next mixed =>
      cases applied
      have reserving := valid.coherent.reserving_of_unmixed bounds.1 mixed
      exact valid.of_coherent (valid.coherent.restoreTail reserving) handsFree_idle
        (fun alive => by rw [gone] at alive; cases alive) rfl rfl rfl rfl fun _ _ => rfl
    · next unlocked =>
      have quiet : ¬ (channel.owners index).Reserving := fun reserving =>
        unlocked (valid.coherent.unmixed_of_reserving reserving).symm
      split at applied <;> cases applied
      · have own := valid.coherent.owners index
        have free := valid.handsFree index
        rw [dead] at own free
        have ownerValid : OwnerValid channel.shm history channel.consumed index
            (.releasing pc) := by
          refine ⟨fun _ => bounds, own.pc, fun _ _ => ?_⟩
          rw [dead] at quiet
          exact quiet
        exact valid.setOwner
          (valid.coherent.setOwner ownerValid fun locked => absurd locked quiet) free
          fun alive => by rw [gone] at alive; cases alive
      · exact valid.setOwner (valid.coherent.setOwner .free fun locked => absurd locked quiet)
          handsFree_idle fun alive => by rw [gone] at alive; cases alive
  · cases applied

theorem Valid.releaseEntry (above : channel.shm.head ≤ (channel.shm.wals index).cursor)
    (acquired : Entry.isAcquired (channel.shm.entryWord (channel.shm.wals index).cursor) index =
      true) (went : channel.run (·.releaseEntry index) = some next) :
    ∃ later, next.Valid later := by
  obtain ⟨system, applied, rfl⟩ := run_eq_some went
  unfold System.releaseEntry at applied
  dsimp only at applied
  split at applied
  · next pc releasing =>
    have releasing : channel.owners index = .releasing pc := releasing
    have free : pc.HandsFree := by
      have own := valid.handsFree index
      rw [releasing] at own
      exact own
    have bounds : 1 ≤ index ∧ index ≤ kMaxProxySize :=
      valid.coherent.bounds (by rw [releasing]; simp)
    have gone : (channel.owners index).isAlive = false := by rw [releasing]; rfl
    have quiet : ¬ (channel.owners index).Reserving := by
      rw [releasing]
      exact (releasing ▸ valid.coherent.owners index).releasing pc rfl
    have dead : (channel.owners index).isAlive = true → Owner.free.isAlive = true := fun alive => by
      rw [gone] at alive
      cases alive
    rw [System.abandon_handsFree free] at applied
    cases applied
    rcases valid.coherent.release_cases bounds.1 quiet above acquired with
      coherent | ⟨number, reservation, pending, found, cursor, same, unposted⟩
    · refine ⟨history, ?_⟩
      exact valid.of_coherent (coherent.setOwner .free fun locked => absurd locked quiet)
        handsFree_idle dead rfl rfl rfl rfl fun _ _ => rfl
    · have before := valid.coherent.layout.sizes _ (mem_of_getElem? found)
      have word : Entry.release reservation.word =
          ({ reservation with status := .released } : Reservation).word := by
        unfold Reservation.word
        rw [unposted]
        exact release_entryValue before.allocLen_lt
      have sized : ({ reservation with status := .released } : Reservation).Sized :=
        { before with posted := fun _ => by simp }
      have lost : ∀ other, ∀ buffer ∈ channel.buffers other, buffer.number ≠ number := by
        intro other buffer inHand at_
        have theirs := (valid.held other buffer inHand).found
        rw [at_, found, some.injEq] at theirs
        have alive := valid.alive other (ne_nil_of_mem inHand)
        rw [theirs] at same
        rw [← same] at gone
        rw [alive] at gone
        cases gone
      have settled := valid.settle pending found unposted .released sized
        (fun other => Sublist.refl _) lost fun post old => .inl old
      refine ⟨history.modify number fun reservation => { reservation with status := .released }, ?_⟩
      have freed : OwnerValid (channel.shm.setEntryWord (position history number)
            ({ reservation with status := .released } : Reservation).word)
          (history.modify number fun reservation => { reservation with status := .released })
          channel.consumed index .free := .free
      have stored := settled.setOwner
        (settled.coherent.setOwner freed fun locked => absurd locked quiet) handsFree_idle dead
      rw [← word, ← valid.coherent.layout.words number reservation pending found, ← cursor]
        at stored
      exact stored
  · cases applied

theorem Valid.tryWaitEntry (went : channel.run (·.tryWaitEntry) = some next) :
    next.Valid history := by
  obtain ⟨system, applied, rfl⟩ := run_eq_some went
  unfold System.tryWaitEntry at applied
  dsimp only at applied
  have coherent := valid.coherent.refreshThreshold
  have same : channel.shm.refreshThreshold.maxMessageSize = channel.shm.maxMessageSize ∧
      channel.shm.refreshThreshold.memorySize = channel.shm.memorySize ∧
      channel.shm.refreshThreshold.wals = channel.shm.wals := by
    unfold Shm.refreshThreshold
    split <;> exact ⟨rfl, rfl, rfl⟩
  have refreshed : ∀ consumer : ConsumerPC, (consumer = .examining →
        channel.shm.refreshThreshold.head < channel.shm.refreshThreshold.headThreshold) →
      consumer ≠ .holding →
      Valid { channel with shm := channel.shm.refreshThreshold, consumer := consumer } history :=
    fun consumer short free =>
      { coherent := coherent
        __ := valid
        ring := by
          simp only [same.2.1]
          exact valid.ring
        spare := by
          simp only [same.2.1, same.2.2]
          exact valid.spare
        held := fun other buffer inHand =>
          Held.frame (valid.held other buffer inHand) same.1 rfl
            (valid.held other buffer inHand).pending rfl
        examining := short
        holding := fun at_ => absurd at_ free
        posts := valid.posts }
  split at applied
  · split at applied
    · next idle _ =>
      cases applied
      have waiting := refreshed .idle (by simp) (by simp)
      rw [← idle] at waiting
      exact waiting
    · next short =>
      cases applied
      exact refreshed .examining (fun _ => Nat.lt_of_not_le short) (by simp)
  · cases applied

theorem Valid.advanceHead {reservation : Reservation}
    (found : history[channel.consumed]? = some reservation)
    (final : reservation.status ≠ .acquired) :
    Valid { channel with
        shm := channel.shm.freeEntry
        consumer := .idle
        consumed := channel.consumed + 1 }
      history where
  coherent := valid.coherent.freeEntry found (valid.unheld channel.consumed)
  __ := valid
  held other buffer inHand := by
    have held := valid.held other buffer inHand
    refine Held.frame held rfl rfl (Nat.lt_of_le_of_ne held.pending fun same => ?_) rfl
    have theirs := held.found
    rw [← same, found] at theirs
    cases theirs
    exact final rfl
  examining at_ := by cases at_
  holding at_ := by cases at_
  settled number other before at_ := by
    rcases Nat.lt_or_eq_of_le (Nat.le_of_lt_succ before) with earlier | rfl
    · exact valid.settled number other earlier at_
    · rw [found] at at_
      cases at_
      exact final

theorem Valid.entry_at_head (examining : channel.consumer = .examining) :
    ∃ reservation, history[channel.consumed]? = some reservation ∧ reservation.Sized ∧
      channel.shm.entryWord channel.shm.head = reservation.word :=
  valid.coherent.layout.entry_at_head
    ((valid.examining examining).trans_le valid.coherent.layout.headThreshold)

theorem Valid.setConsumer {consumer : ConsumerPC} (unexamining : consumer ≠ .examining)
    (holding : consumer = .holding → ∃ reservation size,
      history[channel.consumed]? = some reservation ∧ reservation.status = .posted size) :
    Valid { channel with consumer := consumer } history where
  __ := valid
  examining at_ := absurd at_ unexamining
  holding := holding

theorem Valid.examineEntry (went : channel.run (·.examineEntry) = some next) :
    next.Valid history := by
  obtain ⟨system, applied, rfl⟩ := run_eq_some went
  unfold System.examineEntry at applied
  dsimp only at applied
  split at applied
  · next examining =>
    obtain ⟨reservation, found, sized, word⟩ := valid.entry_at_head examining
    have word : channel.system.shm.entryWord channel.system.shm.head = reservation.word := word
    rw [word, sized.bufferSize, sized.index_word] at applied
    cases status : reservation.status with
    | posted size =>
      have positive := (sized.posted size status).1
      simp only [status, Status.postedSize, getD_some, positive, if_true] at applied
      cases applied
      exact valid.setConsumer (by simp) fun _ => ⟨reservation, size, found, status⟩
    | released =>
      simp only [status, Status.postedSize, getD_none, Nat.lt_irrefl, if_true,
        if_false] at applied
      cases applied
      exact valid.advanceHead found (by rw [status]; simp)
    | acquired =>
      simp only [status, Status.postedSize, getD_none, Nat.lt_irrefl, reduceCtorEq,
        if_false, Nat.ne_of_gt sized.index_pos] at applied
      cases applied
      exact valid.setConsumer (by simp) (by simp)
  · cases applied

theorem Valid.freeEntry (went : channel.run (·.freeEntry) = some next) : next.Valid history := by
  obtain ⟨system, applied, rfl⟩ := run_eq_some went
  unfold System.freeEntry at applied
  split at applied
  · next holding =>
    cases applied
    obtain ⟨reservation, size, found, posted⟩ := valid.holding holding
    exact valid.advanceHead found (by rw [posted]; simp)
  · cases applied

end

end Preservation

end Channel

end AdkAaf.Adk.Sccl
