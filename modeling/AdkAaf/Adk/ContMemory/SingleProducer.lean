import AdkAaf.Adk.ContMemory.Queue

/-! One producer and one consumer on a `ContinueMemory`, each call and each
written byte one step. The ring refines a queue of byte messages as long as no
requested length is so large that `CalcAllocSize` wraps around. -/

set_option autoImplicit false

namespace AdkAaf.Adk.SingleProducer

open ContinueMemory Queue Lib

inductive ProducerPC where
  | idle
  | writing (entry : Nat)

structure System extends Queue where
  producer : ProducerPC := .idle

inductive Action where
  | tryAllocEntry (length : UInt32)
  | write (index : Nat) (byte : UInt8)
  | adjustEntryLength (length : UInt32)
  | postEntry
  | tryWaitEntry
  | read
  | freeEntry

/-- The conditions are the assertions of the source and the extent of the data
the producer was given. -/
def System.step (system : System) : Action → Option System
  | .tryAllocEntry length =>
    match system.producer with
    | .idle =>
      if allocateLen length ≤ system.ring.reserveSize.toNat then
        match system.ring.tryAllocEntry length with
        | (some entry, ring) => some { system with ring, producer := .writing entry }
        | (none, ring) => some { system with ring }
      else
        none
    | .writing _ => none
  | .write index byte =>
    match system.producer with
    | .writing entry =>
      if index < system.ring.appDataLen entry then
        some { system with ring := system.ring.storeByte entry index byte }
      else
        none
    | .idle => none
  | .adjustEntryLength length =>
    match system.producer with
    | .writing entry =>
      if length.toNat ≤ system.ring.appDataLen entry then
        some { system with ring := system.ring.adjustEntryLength entry length }
      else
        none
    | .idle => none
  | .postEntry =>
    match system.producer with
    | .writing entry => some
        { system with
          ring := system.ring.postEntry entry
          producer := .idle
          posted := system.posted ++ [system.ring.message entry] }
    | .idle => none
  | .tryWaitEntry => system.toQueue.tryWaitEntry.map fun queue => { system with toQueue := queue }
  | .read => system.toQueue.read.map fun queue => { system with toQueue := queue }
  | .freeEntry => system.toQueue.freeEntry.map fun queue => { system with toQueue := queue }

def System.start (memorySize reserveSize : UInt32) (pageSize : Nat) : System :=
  { ring := create memorySize reserveSize pageSize }

/-- The entry in progress starts at the tail, its lengths belong together, and
it fits both the ring and the reserve zone. -/
def ProducerPC.Valid (ring : ContinueMemory) : ProducerPC → Prop
  | .idle => True
  | .writing entry =>
    entry = ring.getContEntry ring.tail ∧
      ring.usageLen entry = footprint (ring.appDataLen entry) ∧
      ring.tail + ring.usageLen entry < ring.head + ring.memorySize.toNat ∧
      ring.usageLen entry ≤ ring.reserveSize.toNat

structure Valid (system : System) : Prop where
  queue : system.toQueue.Valid
  producer : system.producer.Valid system.ring

variable {system : System}

theorem valid_setHeader (system : System) (q : system.toQueue.Valid) {entry : Nat}
    (appLen : Nat) (own : entry = system.ring.getContEntry system.ring.tail)
    (fits : system.ring.tail + footprint appLen < system.ring.head + system.ring.memorySize.toNat)
    (reserve : footprint appLen ≤ system.ring.reserveSize.toNat) :
    Valid { system with
      ring := system.ring.setHeader entry (footprint appLen) appLen
      producer := .writing entry } := by
  have large := le_footprint appLen
  have bounded := system.ring.reserveSize.toNat_lt
  have usage := setHeader_usageLen system.ring entry (footprint appLen) appLen (by omega)
  have appData := setHeader_appDataLen system.ring entry (footprint appLen) appLen (by omega)
  refine ⟨q.frame (q.frame_memory .refl fits.le ?_), own, ?_, ?_, ?_⟩
  · rw [← own]
    exact setHeader_outside system.ring (by omega)
  · exact usage.trans (congrArg footprint appData).symm
  · exact ((congrArg (system.ring.tail + ·) usage).le).trans_lt fits
  · exact usage.le.trans reserve

section

variable (valid : Valid system)
include valid

theorem Valid.tryAllocEntry (idle : system.producer = .idle) {len : UInt32}
    (fits : len.toNat + 7 < 2 ^ 32)
    (asserted : allocateLen len ≤ system.ring.reserveSize.toNat) :
    Valid { system with
      ring := (system.ring.tryAllocEntry len).2
      producer := match (system.ring.tryAllocEntry len).1 with
        | some entry => .writing entry
        | none => system.producer } := by
  obtain ⟨threshold, checked, choice, room, _⟩ :=
    hasRoom_spec system.ring system.ring.tail (allocateLen len)
  have bounded : threshold ≤ system.ring.head + system.ring.memorySize.toNat := by
    rcases choice with same | refreshed
    · exact same ▸ valid.queue.tailThreshold
    · exact refreshed.le
  have refreshed := valid.queue.frame_tailThreshold bounded
  rw [allocateLen_eq fits] at asserted
  unfold ContinueMemory.tryAllocEntry
  split
  · next full =>
    rw [full] at checked
    subst checked
    exact ⟨refreshed, by rw [idle]; trivial⟩
  · next found =>
    rw [found] at checked room
    simp only at checked room ⊢
    subst checked
    have below := room trivial
    rw [allocateLen_eq fits] at below ⊢
    exact valid_setHeader { system with ring := { system.ring with tailThreshold := threshold } }
      refreshed len.toNat rfl (below.trans_le bounded) asserted

theorem Valid.write {entry i : Nat} (writing : system.producer = .writing entry)
    (within : i < system.ring.appDataLen entry) (byte : UInt8) :
    Valid { system with ring := system.ring.storeByte entry i byte } := by
  have producer := valid.producer
  rw [writing] at producer
  obtain ⟨own, usage, fits, reserve⟩ := producer
  have large := le_footprint (system.ring.appDataLen entry)
  have header : Memory.AgreeOn entry (entry + 8)
      (system.ring.storeByte entry i byte).memory system.ring.memory :=
    Memory.storeByte_agreeOn _ _ _ (by omega)
  have usage' := usageLen_congr (Nat.le_refl 8) header
  have appData' := appDataLen_congr (Nat.le_refl 8) header
  refine ⟨valid.queue.frame (valid.queue.frame_memory .refl fits.le ?_), ?_⟩
  · rw [← own]
    intro low size apart
    unfold RangesApart at apart
    exact Memory.storeByte_agreeOn _ _ _ (by omega)
  · simp only [writing]
    exact ⟨own, usage'.trans (usage.trans (congrArg footprint appData').symm),
      ((congrArg (system.ring.tail + ·) usage').le).trans_lt fits,
      usage'.le.trans reserve⟩

theorem Valid.adjustEntryLength {entry : Nat} {len : UInt32}
    (writing : system.producer = .writing entry)
    (asserted : len.toNat ≤ system.ring.appDataLen entry) :
    Valid { system with ring := system.ring.adjustEntryLength entry len } := by
  have producer := valid.producer
  rw [writing] at producer
  obtain ⟨own, usage, fits, reserve⟩ := producer
  have smaller := footprint_mono asserted
  have bounded := system.ring.reserveSize.toNat_lt
  have large := le_footprint (system.ring.appDataLen entry)
  have lengths : allocateLen len = footprint len.toNat := allocateLen_eq (by omega)
  have next := valid_setHeader system valid.queue len.toNat own (by omega) (by omega)
  rw [← writing, ← lengths] at next
  exact next

theorem Valid.postEntry {entry : Nat} (writing : system.producer = .writing entry) :
    Valid { system with
      ring := system.ring.postEntry entry
      producer := .idle
      posted := system.posted ++ [system.ring.message entry] } := by
  have producer := valid.producer
  rw [writing] at producer
  obtain ⟨rfl, usage, fits, reserve⟩ := producer
  have holds := holds_message usage
  exact ⟨valid.queue.post holds (holds.usage.symm.le.trans reserve), trivial⟩

theorem Valid.consumerStep {q : Queue} (next : q.Valid)
    (moved : system.toQueue.ConsumerStep q) : Valid { system with toQueue := q } := by
  refine ⟨next, ?_⟩
  have producer := valid.producer
  have head := moved.head
  cases writing : system.producer with
  | idle => trivial
  | writing entry =>
    rw [writing] at producer
    simp only [ProducerPC.Valid, usageLen, appDataLen, getContEntry, moved.memory, moved.sizes.1,
      moved.sizes.2, moved.tail] at producer ⊢
    obtain ⟨own, usage, fits, reserve⟩ := producer
    exact ⟨own, usage, by omega, reserve⟩

end

def LengthFits (_ : System) : Action → Prop
  | .tryAllocEntry length => length.toNat + 7 < 2 ^ 32
  | _ => True

instance (system : System) : ∀ action, Decidable (LengthFits system action)
  | .tryAllocEntry _ => inferInstanceAs (Decidable (_ < _))
  | .write _ _ | .adjustEntryLength _ | .postEntry | .tryWaitEntry | .read | .freeEntry =>
    inferInstanceAs (Decidable True)

abbrev queueStep (memorySize : Nat) := BoundedFifo.step messageSize memorySize

theorem Valid.push (valid : Valid system) {entry : Nat}
    (writing : system.producer = .writing entry) :
    queueStep system.ring.memorySize.toNat system.fifo (.push (system.ring.message entry)) =
      some { items := (system.posted ++ [system.ring.message entry]).drop system.freed
             taken := (system.posted ++ [system.ring.message entry]).take system.freed } := by
  have producer := valid.producer
  rw [writing] at producer
  obtain ⟨own, usage, fits, reserve⟩ := producer
  have size : messageSize (system.ring.message entry) = system.ring.usageLen entry :=
    (holds_message usage).usage.symm
  have extent := valid.queue.extent
  simp only [queueStep, BoundedFifo.step]
  rw [if_pos (by omega), List.drop_append_of_le_length valid.queue.counted,
    List.take_append_of_le_length valid.queue.counted]
  rfl

def ValidFor (ring : ContinueMemory) (system : System) : Prop :=
  Valid system ∧ SameSizes ring system.ring

theorem Valid.stutter {ring : ContinueMemory} {next : System} (valid : Valid next)
    (earlier : SameSizes ring system.ring) (sizes : SameSizes system.ring next.ring)
    (fifo : next.fifo = system.fifo) : ValidFor ring next ∧
      ∃ operations, execute (queueStep ring.memorySize.toNat) system.fifo operations =
        some next.fifo :=
  ⟨⟨valid, sizes.1.trans earlier.1, sizes.2.trans earlier.2⟩, [], by rw [fifo]; rfl⟩

theorem simulates (ring : ContinueMemory) :
    Simulates System.step LengthFits (ValidFor ring) (fun system => system.fifo)
      (queueStep ring.memorySize.toNat) := by
  rintro system action next ⟨valid, sizes⟩ fits went
  cases action with
  | tryAllocEntry len =>
    simp only [System.step] at went
    split at went
    · next idle =>
      split at went
      · next asserted =>
        have kept := valid.tryAllocEntry idle fits asserted
        have same := system.ring.tryAllocEntry_sizes len
        split at went
        · next allocated =>
          cases went
          rw [allocated] at kept same
          exact kept.stutter sizes same rfl
        · next refused =>
          cases went
          rw [refused] at kept same
          exact kept.stutter sizes same rfl
      · cases went
    · cases went
  | write i byte =>
    simp only [System.step] at went
    split at went
    · next writing =>
      split at went
      · next within =>
        cases went
        exact (valid.write writing within byte).stutter sizes ⟨rfl, rfl⟩ rfl
      · cases went
    · cases went
  | adjustEntryLength len =>
    simp only [System.step] at went
    split at went
    · next writing =>
      split at went
      · next asserted =>
        cases went
        exact (valid.adjustEntryLength writing asserted).stutter sizes ⟨rfl, rfl⟩ rfl
      · cases went
    · cases went
  | postEntry =>
    simp only [System.step] at went
    split at went
    · next entry writing =>
      cases went
      refine ⟨⟨valid.postEntry writing, sizes⟩, [.push (system.ring.message entry)], ?_⟩
      rw [← sizes.1]
      exact execute_cons.mpr ⟨_, valid.push writing, rfl⟩
    · cases went
  | tryWaitEntry =>
    obtain ⟨q, waited, rfl⟩ := Option.map_eq_some_iff.mp went
    obtain ⟨kept, moved, same⟩ := valid.queue.tryWaitEntry waited
    exact (valid.consumerStep kept moved).stutter sizes moved.sizes same
  | read =>
    obtain ⟨q, got, rfl⟩ := Option.map_eq_some_iff.mp went
    obtain ⟨kept, moved, same⟩ := valid.queue.read got
    exact (valid.consumerStep kept moved).stutter sizes moved.sizes same
  | freeEntry =>
    obtain ⟨q, freed, rfl⟩ := Option.map_eq_some_iff.mp went
    obtain ⟨kept, moved, popped⟩ := valid.queue.freeEntry freed
    refine ⟨⟨valid.consumerStep kept moved, moved.sizes.1.trans sizes.1,
      moved.sizes.2.trans sizes.2⟩, [.pop], ?_⟩
    exact execute_cons.mpr ⟨_, popped, rfl⟩

/-- What the ring is for: it behaves as a queue of messages, the consumer reads
the posted messages in order, at any moment the live entries hold what was
posted, waiting fails on an empty queue and allocating on a full one only, and
the entry being written shares no byte with a live one. -/
structure IsFifo (system : System) (blockSize : Nat) : Prop where
  refines : ∃ operations, execute (queueStep system.ring.memorySize.toNat) {} operations =
    some system.fifo
  inOrder : system.received <+: system.posted
  contents : ∀ position data, (position, data) ∈ system.live →
    system.ring.message (system.ring.getContEntry position) = data
  waits : system.ring.tryWaitEntry.1 = none → system.fifo.items = []
  refuses : ∀ length, (system.ring.tryAllocEntry length).1 = none →
    system.ring.memorySize.toNat ≤
      extent messageSize system.fifo.items + allocateLen length
  apart : ∀ entry, system.producer = .writing entry → ∀ position data,
    (position, data) ∈ system.live →
      RangesApart (system.ring.getContEntry position) (8 + data.length)
        entry (8 + system.ring.appDataLen entry)
  inBlock : (∀ entry, system.producer = .writing entry →
      entry + 8 + system.ring.appDataLen entry ≤ blockSize) ∧
    ∀ position data, (position, data) ∈ system.live →
      system.ring.getContEntry position + 8 + data.length ≤ blockSize

theorem Valid.refuses (valid : Valid system) (length : UInt32)
    (failed : (system.ring.tryAllocEntry length).1 = none) : system.ring.memorySize.toNat ≤
      extent messageSize system.fifo.items + allocateLen length := by
  obtain ⟨threshold, _, _, _, full⟩ :=
    hasRoom_spec system.ring system.ring.tail (allocateLen length)
  have extent := valid.queue.extent
  unfold ContinueMemory.tryAllocEntry at failed
  split at failed
  · next refused =>
    rw [refused] at full
    have noRoom := full rfl
    omega
  · cases failed

theorem Valid.isFifo (valid : Valid system)
    (refines : ∃ operations, execute (queueStep system.ring.memorySize.toNat) {} operations =
      some system.fifo) :
    IsFifo system (system.ring.memorySize.toNat + system.ring.reserveSize.toNat) where
  refines := refines
  inOrder := valid.queue.inOrder
  contents position data mem := (valid.queue.stored position data mem).data
  waits := valid.queue.waits
  refuses := valid.refuses
  apart entry writing position data mem := by
    have producer := valid.producer
    rw [writing] at producer
    obtain ⟨own, usage, fits, _⟩ := producer
    have apart := valid.queue.apart mem .refl fits.le
    have entryLarge := le_footprint (system.ring.appDataLen entry)
    have large := le_footprint data.length
    unfold messageSize at apart
    unfold RangesApart at *
    omega
  inBlock := by
    refine ⟨fun entry writing => ?_, fun position data mem => ?_⟩
    · have producer := valid.producer
      rw [writing] at producer
      obtain ⟨own, usage, _, reserve⟩ := producer
      have large := le_footprint (system.ring.appDataLen entry)
      have inside := valid.queue.inBlock system.ring.tail reserve
      omega
    · have large := le_footprint data.length
      have inside := valid.queue.inBlock position (valid.queue.reserve position data mem)
      unfold messageSize at inside
      omega

theorem start_valid {memorySize : UInt32} (reserveSize : UInt32) (pageSize : Nat)
    (small : memorySize.toNat ≤ 2 ^ 31) : Valid (System.start memorySize reserveSize pageSize) :=
  ⟨create_valid reserveSize pageSize small, trivial⟩

/-- In every run in which no requested length wraps around the ring is a FIFO
of byte messages, and all of it stays inside the block `Create` allocated. -/
theorem isFifo_of_lengthFits (memorySize reserveSize : UInt32) (pageSize : Nat)
    (pages : pageSize ∣ 2 ^ 32) (small : memorySize.toNat ≤ 2 ^ 31)
    (block : (realMemorySize memorySize).toNat + reserveSize.toNat < 2 ^ 32)
    (actions : List Action) (final : System) (guarded : Guarded System.step LengthFits
      (System.start memorySize reserveSize pageSize) actions)
    (ran : execute System.step (System.start memorySize reserveSize pageSize) actions =
      some final) : IsFifo final (totalMemorySize memorySize reserveSize pageSize) := by
  obtain ⟨exponent, size, eight⟩ := realMemorySize_eq small
  obtain ⟨⟨valid, sizes⟩, refines⟩ := (simulates (create memorySize reserveSize pageSize)).run
      ⟨start_valid reserveSize pageSize small, rfl, rfl⟩ guarded ran
  have whole := create_block pages eight block
  rw [← sizes.1, ← sizes.2] at whole
  rw [← sizes.1] at refines
  rw [← whole]
  exact valid.isFifo refines

def shrunkRun : List Action :=
  [.tryAllocEntry 3, .write 0 7, .write 1 8, .adjustEntryLength 2, .postEntry, .tryWaitEntry,
    .read, .freeEntry]

theorem shrunkRun_isFifo : ∃ final,
    execute System.step (System.start 32 64 4096) shrunkRun = some final ∧
      final.received = [[7, 8]] ∧ IsFifo final (totalMemorySize 32 64 4096) := by
  obtain ⟨final, ran, received⟩ :
      ∃ final, execute System.step (System.start 32 64 4096) shrunkRun = some final ∧
        final.received = [[7, 8]] := execute_check (by decide +kernel)
  exact ⟨final, ran, received, isFifo_of_lengthFits 32 64 4096 (by decide) (by decide)
    (by decide +kernel) shrunkRun final (by decide +kernel) ran⟩

/-- The length `0xFFFFFFFF` is allocated eight bytes at the start of the ring;
writing its data runs into the entry that is live at offset sixteen. -/
def wrappedRun : List Action :=
  [.tryAllocEntry 8, .postEntry, .tryWaitEntry, .read, .freeEntry,
    .tryAllocEntry 8, .write 0 5, .postEntry,
    .tryAllocEntry 0xFFFFFFFF, .write 16 9, .tryWaitEntry, .read]

theorem wrappedRun_not_isFifo : ∃ final,
    execute System.step (System.start 32 64 4096) wrappedRun = some final ∧
      ¬ IsFifo final (totalMemorySize 32 64 4096) := by
  obtain ⟨final, ran, received, posted⟩ :
      ∃ final, execute System.step (System.start 32 64 4096) wrappedRun = some final ∧
        final.received = [[0, 0, 0, 0, 0, 0, 0, 0], [9, 0, 0, 0, 0, 0, 0, 0]] ∧
        final.posted = [[0, 0, 0, 0, 0, 0, 0, 0], [5, 0, 0, 0, 0, 0, 0, 0]] :=
    execute_check (by decide +kernel)
  refine ⟨final, ran, fun fifo => ?_⟩
  have inOrder := fifo.inOrder
  rw [received, posted] at inOrder
  exact absurd inOrder (by decide)

end AdkAaf.Adk.SingleProducer
