import AdkAaf.Adk.ShmContChannel.Coherent

/-! The statements of a proxy keep the invariant. In `AllocBuffer` only the
exchange of the tail, the store of the entry word and the publication touch what
others see; a buffer in hand is filled and posted. -/

set_option autoImplicit false

namespace AdkAaf.Adk.Sccl

open Function

def ProxyPC.HandsFree (pc : ProxyPC) : Prop :=
  ∀ length cursor number, pc ≠ .holding length cursor number

variable {pc : ProxyPC}

theorem ProxyPC.HandsFree.of_passive (passive : pc.passive = true) : pc.HandsFree := by
  intro length cursor n holding
  rw [holding] at passive
  cases passive

theorem Owner.HandsFree.not_holds {owner : Owner} (free : owner.pc.HandsFree) (number : Nat) :
    ¬ owner.Holds number := by
  rintro ⟨length, cursor, holding⟩
  exact free length cursor number holding

theorem System.abandon_handsFree (free : pc.HandsFree) (system : System) :
    system.abandon pc = system := by
  cases pc with
  | holding length cursor n => exact absurd rfl (free length cursor n)
  | _ => rfl

structure LoopFrame (index : Nat) (before after : Shm) : Prop where
  memorySize : after.memorySize = before.memorySize
  maxMessageSize : after.maxMessageSize = before.maxMessageSize
  head : after.head = before.head
  headThreshold : after.headThreshold = before.headThreshold
  wals : ∀ other, other ≠ index → after.wals other = before.wals other

theorem LoopFrame.same (index : Nat) (shm : Shm) : LoopFrame index shm shm :=
  ⟨rfl, rfl, rfl, rfl, fun _ _ => rfl⟩

theorem LoopFrame.setWAL (i : Nat) (shm : Shm) (wal : WAL) :
    LoopFrame i shm (shm.setWAL i wal) :=
  ⟨rfl, rfl, rfl, rfl, fun _ apart => update_of_ne apart _ _⟩

/-- A statement of the loop other than the publication of the tail. -/
structure Proceeds (system next : System) (history : List Reservation) (consumed index : Nat)
    (before : ProxyPC) (shm : Shm) (pc : ProxyPC) : Prop where
  alive : system.owners index = .alive before
  next : next = (system.setShm shm).setOwner index (.alive pc)
  frame : LoopFrame index system.shm shm
  handsFree : before.HandsFree ∧ pc.HandsFree
  coherent : Coherent shm (update system.owners index (.alive pc)) history consumed

theorem Coherent.proceed {system next : System} {history : List Reservation}
    {consumed index : Nat} (coherent : Coherent system.shm system.owners history consumed)
    (unpublished : ∀ length tail, system.owners index ≠ .alive (.publishTail length tail))
    (went : system.proceed index = some next) :
    ∃ before shm pc, Proceeds system next history consumed index before shm pc := by
  have ownerValid := coherent.owners index
  have free : ∀ pc : ProxyPC, pc.passive = true → pc.HandsFree := fun _ => .of_passive
  unfold System.proceed at went
  dsimp only at went
  split at went
  · next length alive =>
    have bounds : 1 ≤ index ∧ index ≤ kMaxProxySize := coherent.bounds (by rw [alive]; simp)
    have quiet : ¬ (system.owners index).Reserving := Owner.not_reserving (by rw [alive]; rfl)
    split at went
    · cases went
      refine ⟨_, system.shm, .loadTail length, alive, ?_, .same _ _, ⟨free _ rfl, free _ rfl⟩, ?_⟩
      · simp [System.setOwner, System.setShm, ← alive, update_eq_self]
      · rw [← alive, update_eq_self]
        exact coherent
    · next unmixed =>
      obtain ⟨fits, boundary, newTail⟩ := coherent.loadTail alive (Bool.not_eq_true _ ▸ unmixed)
      split at went
      · cases went
        exact ⟨_, system.shm, .loadHead length system.shm.tail, alive, rfl, .same _ _,
          ⟨free _ rfl, free _ rfl⟩,
          coherent.setOwner (.alive bounds ⟨fits, boundary⟩) fun locked => absurd locked quiet⟩
      · next room =>
        cases went
        refine ⟨_, system.shm, .writeCursor length system.shm.tail, alive, rfl, .same _ _,
          ⟨free _ rfl, free _ rfl⟩,
          coherent.setOwner (.alive bounds ⟨fits, boundary, ?_⟩) fun locked =>
            absurd locked quiet⟩
        rw [newTail] at room
        exact Nat.le_of_not_lt room
  · next length tail alive =>
    rw [alive] at ownerValid
    have bounds := ownerValid.bounds (by simp)
    obtain ⟨fits, boundary⟩ := ownerValid.pc
    split at went
    · cases went
      exact ⟨_, _, .idle, alive, rfl, .setWAL _ _ _, ⟨free _ rfl, free _ rfl⟩,
        coherent.loadHead alive fun _ _ => .alive bounds trivial⟩
    · next room =>
      cases went
      refine ⟨_, _, .writeCursor length tail, alive, rfl, .setWAL _ _ _,
        ⟨free _ rfl, free _ rfl⟩, coherent.loadHead alive fun wal threshold =>
          .alive bounds ⟨fits.of_limit rfl, boundary, ?_⟩⟩
      rw [coherent.layout.newThreshold_eq, coherent.layout.newTail_eq fits boundary] at room
      simp only [Shm.setWAL, update_self, threshold]
      exact Nat.le_of_not_lt room
  · next length tail alive =>
    cases went
    exact ⟨_, _, .compareAndSwap length tail, alive, rfl, .setWAL _ _ _,
      ⟨free _ rfl, free _ rfl⟩, coherent.writeCursor alive⟩
  · next length tail alive =>
    split at went
    · next same =>
      cases went
      exact ⟨_, _, .setEntry length tail, alive, rfl, ⟨rfl, rfl, rfl, rfl, fun _ _ => rfl⟩,
        ⟨free _ rfl, fun _ _ _ => by simp⟩, coherent.compareAndSwap alive same⟩
    · cases went
      rw [alive] at ownerValid
      have quiet : ¬ (system.owners index).Reserving := Owner.not_reserving (by rw [alive]; rfl)
      exact ⟨_, system.shm, .loadTail length, alive, rfl, .same _ _, ⟨free _ rfl, free _ rfl⟩,
        coherent.setOwner (.alive (ownerValid.bounds (by simp)) ownerValid.pc.1) fun locked =>
          absurd locked quiet⟩
  · next length tail alive =>
    cases went
    exact ⟨_, _, .publishTail length tail, alive, rfl, ⟨rfl, rfl, rfl, rfl, fun _ _ => rfl⟩,
      ⟨fun _ _ _ => by simp, fun _ _ _ => by simp⟩, coherent.setEntry alive⟩
  · next length tail alive => exact absurd alive (unpublished length tail)
  · cases went

section Preservation

variable {system : System} {index : Nat}

variable {owner : Owner}
variable {next : System}

section

variable (ok : Valid system)
include ok

theorem Valid.coherent : Coherent system.shm system.owners system.history system.consumed :=
  { ok with }

theorem Valid.restore_tail : restore system.shm.tail = published system.history :=
  ok.coherent.restore_tail

theorem Valid.bounds (taken : system.owners index ≠ .free) : 1 ≤ index ∧ index ≤ kMaxProxySize :=
  ok.coherent.bounds taken

theorem Valid.of_coherent {shm : Shm}
    (coherent : Coherent shm (update system.owners index owner) system.history system.consumed)
    (holds : ∀ number, (system.owners index).Holds number → owner.Holds number)
    (head : shm.head = system.shm.head)
    (headThreshold : shm.headThreshold = system.shm.headThreshold) :
    Valid ((system.setShm shm).setOwner index owner) where
  __ := coherent
  held number reservation found acquired :=
    holds_update (ok.held number reservation found acquired) (holds number)
  consumer := ok.consumer.frame head headThreshold

theorem Valid.setOwner_of_passive (passive : (system.owners index).pc.passive = true)
    (ownerValid : OwnerValid system.shm system.history system.consumed index owner) :
    Valid (system.setOwner index owner) := by
  have coherent := ok.coherent.setOwner ownerValid
    fun locked => absurd locked (Owner.not_reserving passive)
  exact ok.of_coherent coherent
    (fun number holder => absurd holder (Owner.not_holds passive number)) rfl rfl

theorem Valid.allocWAL (went : system.allocWAL index = some next) : Valid next := by
  unfold System.allocWAL at went
  split at went
  · next may =>
    cases went
    refine ok.setOwner_of_passive ?_ (.alive ⟨may.1, may.2.1⟩ trivial)
    rw [may.2.2]
    rfl
  · cases went

theorem Valid.allocBuffer {length : UInt32} (fits : length.toNat + 15 < 2 ^ 32)
    (went : system.allocBuffer index length = some next) : Valid next := by
  unfold System.allocBuffer at went
  split at went
  · next may =>
    obtain ⟨alive, limit⟩ := may
    cases went
    refine ok.setOwner_of_passive (by rw [alive]; rfl) (.alive (ok.bounds ?_) ⟨fits, limit⟩)
    rw [alive]
    simp
  · cases went

theorem Valid.giveUp (went : system.giveUp index = some next) : Valid next := by
  unfold System.giveUp at went
  split at went
  · next length alive =>
    cases went
    refine ok.setOwner_of_passive (by rw [alive]; rfl) (.alive (ok.bounds ?_) trivial)
    rw [alive]
    simp
  · cases went

end

theorem Coherent.die {history : List Reservation} {consumed : Nat}
    (coherent : Coherent system.shm system.owners history consumed)
    (alive : system.owners index = .alive pc) :
    Coherent system.shm (update system.owners index (.dead pc)) history consumed := by
  have ownerValid := coherent.owners index
  rw [alive] at ownerValid
  refine coherent.setOwner
    ⟨fun _ => ownerValid.bounds (by simp), ownerValid.pc, fun _ => by simp⟩ fun locked => ?_
  rw [alive] at locked
  exact locked

theorem Valid.die (ok : Valid system) (went : system.die index = some next) : Valid next := by
  unfold System.die at went
  split at went
  · next pc alive =>
    cases went
    refine ok.of_coherent (ok.coherent.die alive) (fun number holder => ?_) rfl rfl
    rw [alive] at holder
    exact holder
  · cases went

theorem Valid.publishTail (ok : Valid system) {length : UInt32} {tail : Nat}
    (alive : system.owners index = .alive (.publishTail length tail))
    (below : tail + allocLen length < 2 ^ 48) :
    Valid { (system.setShm { system.shm with tail := add64 tail (allocLen length) }).setOwner index
        (.alive (.holding length tail system.history.length)) with
      history := system.history ++ [⟨index, allocLen length, .acquired⟩] } := by
  have bounds : 1 ≤ index ∧ index ≤ kMaxProxySize := ok.bounds (by rw [alive]; simp)
  have ownerValid : Locks system.shm system.history index length tail →
      OwnerValid { system.shm with tail := add64 tail (allocLen length) }
        (system.history ++ [⟨index, allocLen length, .acquired⟩]) system.consumed index
        (.alive (.holding length tail system.history.length)) := by
    intro locks
    refine .alive bounds ⟨locks.fits.of_limit rfl, by simp, ok.layout.within, ?_,
      locks.cursor⟩
    rw [position_append _ .refl, position_length]
    exact locks.position
  have coherent := ok.coherent.publishTail alive below ownerValid
  exact {
    __ := coherent
    held := fun number reservation found acquired => by
      rcases Nat.lt_or_ge number system.history.length with old | new
      · simp only at found
        rw [List.getElem?_append_left old] at found
        refine holds_update (ok.held number reservation found acquired) fun holder => ?_
        have reserving : (system.owners index).Reserving :=
          ⟨length, tail, .inr (by rw [alive]; rfl)⟩
        exact absurd holder (reserving.not_holds number)
      · simp only at found
        obtain ⟨inside, rfl⟩ := List.getElem?_eq_some_iff.mp found
        obtain rfl : number = system.history.length := by simp at inside; omega
        simp [System.setOwner, Owner.Holds, Owner.pc]
    consumer := (ok.consumer.append ok.layout.within _).frame rfl rfl }

theorem Valid.proceed (ok : Valid system)
    (below : ∀ length tail, system.owners index = .alive (.publishTail length tail) →
      tail + allocLen length < 2 ^ 48) (went : system.proceed index = some next) :
    Valid next := by
  by_cases publishing : ∃ length tail, system.owners index = .alive (.publishTail length tail)
  · obtain ⟨length, tail, alive⟩ := publishing
    unfold System.proceed at went
    simp only [alive] at went
    cases went
    exact ok.publishTail alive (below length tail alive)
  · obtain ⟨before, shm, pc, proceeds⟩ := ok.coherent.proceed
      (fun length tail alive => publishing ⟨length, tail, alive⟩) went
    rw [proceeds.next]
    refine ok.of_coherent proceeds.coherent (fun number holder => ?_) proceeds.frame.head
      proceeds.frame.headThreshold
    rw [proceeds.alive] at holder
    have free : (Owner.alive before).pc.HandsFree := proceeds.handsFree.1
    exact absurd holder (Owner.HandsFree.not_holds free number)

section Buffer

variable {length : UInt32} {cursor number : Nat}

section

variable (ok : Valid system)
include ok

theorem Valid.owns (at_ : system.owners index = owner)
    (holding : owner.pc = .holding length cursor number) :
    Owns system.shm system.history system.consumed index length cursor number := by
  have pc := (ok.owners index).pc
  rw [at_, holding] at pc
  exact pc

theorem Valid.writeByte {offset : Nat} {byte : UInt8}
    (went : system.writeByte index offset byte = some next) : Valid next := by
  unfold System.writeByte at went
  split at went
  · next length cursor number alive =>
    split at went
    · next inside =>
      cases went
      have owns := ok.owns alive rfl
      have covered : 8 + offset < allocLen length := by
        rw [allocLen_eq owns.fits.1]
        omega
      have coherent := ok.coherent.storeByte owns.pending owns.found covered byte
      rw [← owns.position] at coherent
      exact {
        __ := coherent
        held := ok.held
        consumer := ok.consumer.frame rfl rfl }
    · cases went
  · cases went

theorem Valid.settle (holding : (system.owners index).pc = .holding length cursor number)
    (status : Status) (owner : Owner) (final : status ≠ .acquired)
    (posted : ∀ size, status = .posted size → 0 < size ∧ size < kMaxLength) {word : Nat}
    (isWord : word = (⟨index, allocLen length, status⟩ : Reservation).word)
    (idle : owner.pc = .idle) (bounds : owner ≠ .free → 1 ≤ index ∧ index ≤ kMaxProxySize) :
    Valid (((system.setShm (system.shm.setEntryWord cursor word)).setOwner index owner).setStatus
      number status) := by
  have owns := ok.owns rfl holding
  have reservation := ok.layout.sizes _ (List.mem_of_getElem? owns.found)
  have sized : (⟨index, allocLen length, status⟩ : Reservation).Sized :=
    { reservation with posted := posted }
  have passive : owner.pc.passive = true := by rw [idle]; rfl
  have released : Coherent system.shm (update system.owners index owner)
      system.history system.consumed := by
    refine ok.coherent.setOwner ⟨bounds, ?_, fun _ _ => Owner.not_reserving passive⟩
      fun reserving => absurd ⟨length, cursor, holding⟩ (reserving.not_holds number)
    rw [idle]
    trivial
  have unheld : Unheld (update system.owners index owner) number := by
    intro other length' cursor' held holding'
    rw [update_apply] at holding'
    split at holding'
    · rw [idle] at holding'
      cases holding'
    · next apart =>
      rintro rfl
      have found := (ok.owns rfl holding').found
      rw [owns.found, Option.some.injEq, Reservation.mk.injEq] at found
      exact apart found.1.symm
  have coherent := released.settle owns.pending owns.found status sized unheld
  rw [← owns.position] at coherent
  subst isWord
  exact {
    __ := coherent
    held := fun place other found acquired => by
      simp only [System.setStatus, System.setOwner, System.setShm] at found ⊢
      rcases modify_cases found with ⟨rfl, _, _, rfl⟩ | ⟨apart, found'⟩
      · exact absurd acquired final
      · refine holds_update (ok.held place other found' acquired) ?_
        rintro ⟨_, _, holding'⟩
        rw [holding] at holding'
        cases holding'
        exact absurd rfl apart
    consumer := (ok.consumer.modify owns.found rfl status).frame rfl rfl }

theorem Valid.entryWord_held (holding : (system.owners index).pc = .holding length cursor number) :
    system.shm.entryWord cursor = entryValue index (allocLen length) 0 := by
  have owns := ok.owns rfl holding
  rw [owns.position]
  exact ok.layout.words number _ owns.pending owns.found

theorem Valid.postBuffer {size : Nat} (went : system.postBuffer index size = some next) :
    Valid next := by
  unfold System.postBuffer at went
  split at went
  · next length cursor number alive =>
    dsimp only at went
    have holding : (system.owners index).pc = .holding length cursor number := by rw [alive]; rfl
    have owns := ok.owns rfl holding
    have short := owns.fits.allocLen_lt ok.layout.sized
    have bounds : 1 ≤ index ∧ index ≤ kMaxProxySize := ok.bounds (by rw [alive]; simp)
    rw [ok.entryWord_held holding, allocatedLength_entryValue short (by decide)] at went
    split at went
    · next may =>
      cases went
      have fits : size < kMaxLength := may.2.trans_lt short
      refine ok.settle holding (.posted size) (.alive .idle) (by simp) ?_ ?_ rfl fun _ => bounds
      · intro other same
        cases same
        exact ⟨may.1, fits⟩
      · exact setBufferSize_entryValue bounds.2 short fits
    · cases went
  · cases went

end

end Buffer

end Preservation

end AdkAaf.Adk.Sccl
