import AdkAaf.Adk.ShmContChannel.Proxies

/-! Every run of the channel keeps to the order of its reservations, as long as
no length wraps around, the tail stays below its index bits, and `FreeWAL`
releases what it has checked. -/

set_option autoImplicit false

namespace AdkAaf.Adk.Sccl

open Lib Option List

section Preservation

variable {system : System} {index : Nat}

theorem Valid.restoreTail (valid : Valid system) (taken : system.owners index ≠ .free)
    (mixed : index = unmixed system.shm.tail) :
    Valid ((system.setShm { system.shm with tail := restore system.shm.tail }).setOwner index
      .free) := by
  have reserving := valid.coherent.reserving_of_unmixed (valid.bounds taken).1 mixed
  exact valid.of_coherent (valid.coherent.restoreTail reserving)
    (fun number holder => absurd holder (reserving.not_holds number)) rfl rfl

theorem Valid.freeWAL (valid : Valid system) {next : System}
    (went : system.freeWAL index = some next) : Valid next := by
  unfold System.freeWAL at went
  dsimp only at went
  split at went
  · next pc dead =>
    have taken : system.owners index ≠ .free := by rw [dead]; simp
    split at went
    · next mixed =>
      cases went
      exact valid.restoreTail taken mixed
    · next unlocked =>
      have quiet : ¬ (system.owners index).Reserving := fun reserving =>
        unlocked (valid.coherent.unmixed_of_reserving reserving).symm
      split at went
      · cases went
        have ownerValid := valid.owners index
        rw [dead] at ownerValid quiet
        have coherent : Coherent system.shm
            (Function.update system.owners index (.releasing pc)) system.history
            system.consumed := by
          refine valid.coherent.setOwner
            ⟨fun _ => valid.bounds taken, ownerValid.pc, fun _ _ => quiet⟩ fun locked => ?_
          rw [dead] at locked
          exact absurd locked quiet
        refine valid.of_coherent coherent (fun number holder => ?_) rfl rfl
        rw [dead] at holder
        exact holder
      · next unacquired =>
        cases went
        have coherent := valid.coherent.setOwner .free fun locked => absurd locked quiet
        refine valid.of_coherent coherent ?_ rfl rfl
        -- the check would have found a reservation in hand
        rintro number ⟨length, cursor, holding⟩
        have owns := valid.owns rfl holding
        have short := owns.fits.allocLen_lt valid.layout.sized
        have above := valid.layout.head_le owns.pending
        refine absurd ⟨?_, ?_⟩ unacquired
        · rw [owns.cursor, owns.position]
          exact above
        · rw [owns.cursor, valid.entryWord_held holding, Entry.isAcquired,
            index_entryValue (valid.bounds taken).2 short (by decide),
            bufferSize_entryValue (by decide)]
          simp
  · cases went

theorem Valid.releaseStale (valid : Valid system) (bounds : 1 ≤ index)
    (passive : (system.owners index).pc.passive = true)
    (above : system.shm.head ≤ (system.shm.wals index).cursor)
    (acquired : Entry.isAcquired (system.shm.entryWord (system.shm.wals index).cursor) index =
      true) : Valid ((system.setShm (system.shm.setEntryWord (system.shm.wals index).cursor
      (Entry.release (system.shm.entryWord (system.shm.wals index).cursor)))).setOwner index
        .free) := by
  have quiet := Owner.not_reserving passive
  rcases valid.coherent.release_cases bounds quiet above acquired with
    coherent | ⟨number, reservation, -, found, -, same, unposted⟩
  · exact valid.of_coherent (coherent.setOwner .free fun locked => absurd locked quiet)
      (fun number holder => absurd holder (Owner.not_holds passive number)) rfl rfl
  · have holder := valid.held number reservation found unposted
    rw [same] at holder
    exact absurd holder (Owner.not_holds passive number)

theorem Valid.releaseEntry (valid : Valid system) {next : System}
    (above : system.shm.head ≤ (system.shm.wals index).cursor)
    (acquired : Entry.isAcquired (system.shm.entryWord (system.shm.wals index).cursor) index = true)
    (went : system.releaseEntry index = some next) : Valid next := by
  unfold System.releaseEntry at went
  split at went
  · next pc releasing =>
    cases went
    have taken : system.owners index ≠ .free := by rw [releasing]; simp
    have bounds := valid.bounds taken
    by_cases holding : ∃ length cursor number, pc = .holding length cursor number
    · obtain ⟨length, cursor, number, rfl⟩ := holding
      have holding : (system.owners index).pc = .holding length cursor number := by
        rw [releasing]
        rfl
      have owns := valid.owns rfl holding
      have short := owns.fits.allocLen_lt valid.layout.sized
      rw [owns.cursor, valid.entryWord_held holding, release_entryValue short]
      exact valid.settle holding .released .free (by simp) (fun _ => by simp) rfl rfl
        (fun free => absurd rfl free)
    · have passive : pc.passive = true := by
        have quiet := (valid.owners index).releasing pc releasing
        rw [releasing] at quiet
        cases pc with
        | setEntry length tail => exact absurd ⟨length, tail, .inl rfl⟩ quiet
        | publishTail length tail => exact absurd ⟨length, tail, .inr rfl⟩ quiet
        | holding length cursor number => exact absurd ⟨length, cursor, number, rfl⟩ holding
        | _ => rfl
      have own : (system.owners index).pc.passive = true := by
        rw [releasing]
        exact passive
      rw [System.abandon_handsFree (.of_passive passive)]
      exact valid.releaseStale bounds.1 own above acquired
  · cases went

theorem postedEntries_succ {history : List Reservation} {n : Nat} {reservation : Reservation}
    (found : history[n]? = some reservation) :
    postedEntries history (n + 1) = postedEntries history n ++
      (reservation.status.postedSize.map fun size => (position history n, size)).toList := by
  rw [postedEntries, take_add_one, found, placements_append, filterMap_append,
    postedEntries]
  congr 1
  simp only [toList_some, placements, Nat.zero_add, position]
  cases status : reservation.status with
  | acquired | released | posted size => simp [status, Status.postedSize]

section

variable (valid : Valid system)
include valid

theorem Valid.refreshThreshold {pc : ConsumerPC}
    (consumer : ConsumerValid system.shm.refreshThreshold system.history system.consumed pc
      system.received) :
    Valid { system.setShm system.shm.refreshThreshold with consumer := pc } where
  __ := valid.coherent.refreshThreshold
  held := valid.held
  consumer := consumer

theorem Valid.tryWaitEntry {next : System} (went : system.tryWaitEntry = some next) :
    Valid next := by
  unfold System.tryWaitEntry at went
  dsimp only at went
  split at went
  · next idle =>
    have consumer := valid.consumer
    rw [idle] at consumer
    split at went
    · cases went
      have stays : ConsumerValid system.shm.refreshThreshold system.history system.consumed .idle
          system.received := .idle consumer.received consumer.settled
      simpa only [System.setShm, idle] using valid.refreshThreshold stays
    · next short =>
      cases went
      exact valid.refreshThreshold
        ⟨fun _ => Nat.lt_of_not_le short, by simp, consumer.received, consumer.settled⟩
  · cases went

theorem Valid.advanceHead {reservation : Reservation}
    (found : system.history[system.consumed]? = some reservation)
    (final : reservation.status ≠ .acquired)
    (received : system.received = postedEntries system.history (system.consumed + 1))
    (settled : ∀ reservation ∈ system.history.take system.consumed,
      reservation.status ≠ .acquired) : Valid system.advanceHead := by
  have unheld : Unheld system.owners system.consumed := by
    -- the entry that is freed is in nobody's hands
    rintro other length cursor held holding rfl
    have owned := (valid.owns rfl holding).found
    rw [found] at owned
    cases owned
    exact final rfl
  have coherent := valid.coherent.freeEntry found unheld
  exact {
    __ := coherent
    held := valid.held
    consumer := by
      refine .idle received fun other mem => ?_
      simp only [System.advanceHead, take_add_one, found, toList_some,
        mem_append, mem_singleton] at mem
      rcases mem with before | rfl
      · exact settled other before
      · exact final }

theorem Valid.examineEntry {next : System} (went : system.examineEntry = some next) :
    Valid next := by
  unfold System.examineEntry at went
  dsimp only at went
  split at went
  · next examining =>
    have consumer := valid.consumer
    have below := Nat.lt_of_lt_of_le (consumer.examining examining) valid.layout.headThreshold
    rw [examining] at consumer
    obtain ⟨reservation, found, sized, word⟩ := valid.layout.entry_at_head below
    have received := consumer.received
    have succ := postedEntries_succ found
    rw [word, sized.bufferSize, sized.index_word] at went
    cases status : reservation.status with
    | posted size =>
      have positive := (sized.posted size status).1
      simp only [status, Status.postedSize, getD_some, positive, if_true] at went
      cases went
      simp only [status, Status.postedSize, map_some, toList_some] at succ
      exact {
        __ := valid
        consumer := by
          refine ⟨by simp, fun _ => ⟨reservation, size, found, status⟩, ?_,
            fun other mem => ?_⟩
          · rw [ConsumerPC.taken, succ, ← valid.layout.head]
            exact congrArg (· ++ [(system.shm.head, size)]) received
          · simp only [ConsumerPC.taken, take_add_one, found, toList_some,
              mem_append, mem_singleton] at mem
            rcases mem with before | rfl
            · exact consumer.settled other before
            · rw [status]
              simp }
    | released =>
      simp only [status, Status.postedSize, getD_none, Nat.lt_irrefl, if_true,
        if_false] at went
      cases went
      simp only [status, Status.postedSize, map_none, toList_none, append_nil] at succ
      refine valid.advanceHead found (by rw [status]; simp) (received.trans succ.symm)
        consumer.settled
    | acquired =>
      simp only [status, Status.postedSize, getD_none, Nat.lt_irrefl, reduceCtorEq,
        if_false, Nat.ne_of_gt sized.index_pos] at went
      cases went
      exact {
        __ := valid
        consumer := .idle received consumer.settled }
  · cases went

theorem Valid.freeEntry {next : System} (went : system.freeEntry = some next) : Valid next := by
  unfold System.freeEntry at went
  split at went
  · next holding =>
    cases went
    have consumer := valid.consumer
    obtain ⟨reservation, size, found, posted⟩ := consumer.holding holding
    rw [holding] at consumer
    refine valid.advanceHead found (by rw [posted]; simp) consumer.received ?_
    intro other before
    exact consumer.settled other (take_subset_take_left _ (Nat.le_succ _) before)
  · cases went

end

end Preservation

def Owner.StaysBelow : Owner → Prop
  | .alive (.publishTail length tail) => tail + allocLen length < 2 ^ 48
  | _ => True

instance : DecidablePred Owner.StaysBelow
  | .alive (.publishTail _ _) => inferInstanceAs (Decidable (_ < _))
  | .free | .dead _ | .releasing _ => inferInstanceAs (Decidable True)
  | .alive .idle | .alive (.loadTail _) | .alive (.loadHead _ _) | .alive (.writeCursor _ _)
  | .alive (.compareAndSwap _ _) | .alive (.setEntry _ _) | .alive (.holding _ _ _) =>
    inferInstanceAs (Decidable True)

/-- No requested length wraps around, the tail stays below the bits of the index,
and when `FreeWAL` stores a release its check still holds. -/
def Allowed (system : System) : Action → Prop
  | .allocBuffer _ length => length.toNat + 15 < 2 ^ 32
  | .proceed index => (system.owners index).StaysBelow
  | .releaseEntry index =>
    system.shm.head ≤ (system.shm.wals index).cursor ∧
      Entry.isAcquired (system.shm.entryWord (system.shm.wals index).cursor) index = true
  | _ => True

instance (system : System) : ∀ action, Decidable (Allowed system action)
  | .allocBuffer _ _ => inferInstanceAs (Decidable (_ < _))
  | .proceed _ => inferInstanceAs (Decidable (Owner.StaysBelow _))
  | .releaseEntry _ => inferInstanceAs (Decidable (_ ∧ _))
  | .allocWAL _ | .giveUp _ | .writeByte _ _ _ | .postBuffer _ _ | .die _ | .freeWAL _
  | .tryWaitEntry | .examineEntry | .freeEntry => inferInstanceAs (Decidable True)

theorem Valid.step {system next : System} {action : Action} (valid : Valid system)
    (allowed : Allowed system action) (went : system.step action = some next) : Valid next := by
  cases action with
  | allocWAL index => exact valid.allocWAL went
  | allocBuffer index length => exact valid.allocBuffer allowed went
  | proceed index =>
    refine valid.proceed (fun length tail alive => ?_) went
    simpa only [Allowed, alive, Owner.StaysBelow] using allowed
  | giveUp index => exact valid.giveUp went
  | writeByte index offset byte => exact valid.writeByte went
  | postBuffer index size => exact valid.postBuffer went
  | die index => exact valid.die went
  | freeWAL index => exact valid.freeWAL went
  | releaseEntry index => exact valid.releaseEntry allowed.1 allowed.2 went
  | tryWaitEntry => exact valid.tryWaitEntry went
  | examineEntry => exact valid.examineEntry went
  | freeEntry => exact valid.freeEntry went

theorem create_valid {memorySize maxMessageSize : UInt32} {memory : Memory} {shm : Shm}
    (created : Shm.create memorySize maxMessageSize memory = some shm) :
    Valid { shm := shm } := by
  unfold Shm.create at created
  split at created
  · cases created
  · next small =>
    cases created
    exact {
      layout :=
        { sized := ⟨roundToPowerOf2_cases memorySize, Nat.lt_of_not_le small⟩
          small := by simp [published]
          head := rfl
          within := .refl
          window := Nat.zero_le _
          headThreshold := .refl
          sizes := fun _ mem => absurd mem not_mem_nil
          words := fun _ _ _ found => by cases found
          cursors := fun _ => ⟨0, .refl, rfl⟩
          cursorsBelow := fun nonempty => absurd rfl nonempty
          thresholds := fun _ => by simp }
      tail := .inl rfl
      owners := fun _ => .free
      held := fun _ _ found => by cases found
      consumer := .idle rfl fun _ mem => absurd mem not_mem_nil }

theorem Valid.channelSafe {system : System} (valid : Valid system) : ChannelSafe system where
  __ := valid.consumer
  drained reached := by
    rw [valid.restore_tail] at reached
    refine Nat.le_of_not_lt fun inside => ?_
    have less := position_lt valid.layout.sizes inside .refl
    rw [position_length, ← valid.layout.head] at less
    omega
  waits below unposted owned := by
    rw [valid.restore_tail] at below
    obtain ⟨reservation, found, sized, word⟩ := valid.layout.entry_at_head below
    rw [word, sized.bufferSize] at unposted
    rw [word, sized.index_word] at owned ⊢
    cases status : reservation.status with
    | acquired =>
      exact valid.held _ _ found status
    | posted size =>
      have positive := (sized.posted size status).1
      simp only [status, Status.postedSize, getD_some] at unposted
      omega
    | released => simp [status] at owned
  held := valid.held
  locked := valid.tail.reserving_of_mixed valid.layout.small

/-- Whatever the interleaving and wherever proxies die, the agent receives the
posted entries in the order in which their tails were published, and an index
that has been freed blocks neither the entries nor the tail. -/
theorem channelSafe_of_allowed (memorySize maxMessageSize : UInt32) (memory : Memory)
    (shm : Shm) (created : Shm.create memorySize maxMessageSize memory = some shm)
    (actions : List Action) (final : System)
    (allowed : Guarded System.step Allowed { shm := shm } actions)
    (ran : execute System.step { shm := shm } actions = some final) : ChannelSafe final :=
  (invariant_of_guarded Valid.step (create_valid created) allowed ran).channelSafe

def reserve (index : Nat) (length : UInt32) : List Action :=
  .allocBuffer index length :: replicate 5 (.proceed index)

/-- The first proxy dies with a buffer in hand, the second one between the
exchange of the tail and its publication; the third one posts. -/
def abandonedRun : List Action :=
  flatten
    [[.allocWAL 1, .allocWAL 2, .allocWAL 3], reserve 1 8, [.die 1, .allocBuffer 2 4],
      replicate 4 (.proceed 2), [.die 2, .freeWAL 2], reserve 3 8,
      [.writeByte 3 0 7, .postBuffer 3 8, .tryWaitEntry, .examineEntry, .freeWAL 1,
        .releaseEntry 1, .tryWaitEntry, .examineEntry, .tryWaitEntry, .examineEntry]]

def smallShm (memorySize maxMessageSize : UInt32) : Shm :=
  { memorySize := roundToPowerOf2 memorySize
    maxMessageSize := maxMessageSize
    wals := fun _ => { threshold := (roundToPowerOf2 memorySize).toNat }
    memory := fun _ => 0 }

theorem abandonedRun_channelSafe :
    Shm.create 64 32 (fun _ => 0) = some (smallShm 64 32) ∧
      Guarded System.step Allowed { shm := smallShm 64 32 } abandonedRun ∧
      ∃ final, execute System.step { shm := smallShm 64 32 } abandonedRun = some final ∧
        (final.received = [(16, 8)] ∧
          final.history = [⟨1, 16, .released⟩, ⟨3, 16, .posted 8⟩]) ∧ ChannelSafe final := by
  have created : Shm.create 64 32 (fun _ => 0) = some (smallShm 64 32) := rfl
  have allowed : Guarded System.step Allowed { shm := smallShm 64 32 } abandonedRun := by
    decide +kernel
  obtain ⟨final, ran, received⟩ :
      ∃ final, execute System.step { shm := smallShm 64 32 } abandonedRun = some final ∧
        (final.received = [(16, 8)] ∧ final.history = [⟨1, 16, .released⟩, ⟨3, 16, .posted 8⟩]) :=
    execute_check (by decide +kernel)
  exact ⟨created, allowed, final, ran, received,
    channelSafe_of_allowed 64 32 (fun _ => 0) _ created abandonedRun final allowed ran⟩

/-- The ring is full with one posted entry when a request of `2 ^ 32 - 8` bytes is
taken for one of none; its word is set over that of the posted entry. -/
def overlaidRun : List Action :=
  flatten
    [[.allocWAL 1, .allocWAL 2], reserve 1 8, [.postBuffer 1 8], reserve 2 0xFFFFFFF8,
      [.tryWaitEntry, .examineEntry]]

theorem overlaidRun_loses_posted :
    Shm.create 16 16 (fun _ => 0) = some (smallShm 16 16) ∧
      ∃ final, execute System.step { shm := smallShm 16 16 } overlaidRun = some final ∧
        (final.history = [⟨1, 16, .posted 8⟩, ⟨2, 0, .acquired⟩] ∧ final.consumer = .idle ∧
          final.received = []) ∧ ¬ ChannelSafe final := by
  obtain ⟨final, ran, facts, short, unposted, owner, holder⟩ :
      ∃ final, execute System.step { shm := smallShm 16 16 } overlaidRun = some final ∧
        (final.history = [⟨1, 16, .posted 8⟩, ⟨2, 0, .acquired⟩] ∧ final.consumer = .idle ∧
          final.received = []) ∧ final.shm.head < restore final.shm.tail ∧
        Entry.bufferSize (final.shm.entryWord final.shm.head) = 0 ∧
        Entry.index (final.shm.entryWord final.shm.head) = 2 ∧
        final.owners 2 = .alive (.holding 0xFFFFFFF8 16 1) ∧ final.consumed = 0 :=
    execute_check (by decide +kernel)
  refine ⟨rfl, final, ran, facts, fun safe => ?_⟩
  have waits := safe.waits short unposted (by rw [owner]; decide)
  rw [owner, holder.1, holder.2] at waits
  obtain ⟨_, _, holding⟩ := waits
  cases holding

end AdkAaf.Adk.Sccl
