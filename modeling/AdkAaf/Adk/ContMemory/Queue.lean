import AdkAaf.Adk.ContMemory.Basic
import AdkAaf.Lib.BoundedFifo

/-! A `ContinueMemory` with its consumer, and the queue of messages it stands
for. What producers do is left open here: the frame lemma says which changes
of the ring leave the queue as it is. -/

set_option autoImplicit false

namespace AdkAaf.Adk

open ContinueMemory Lib List

inductive ConsumerPC where
  | idle
  | holding (entry : Nat)
  | seen (entry : Nat)

/-- The ring, its consumer, and the history: the messages as they were posted,
as the consumer read them, and how many entries are freed. -/
structure Queue where
  ring : ContinueMemory
  consumer : ConsumerPC := .idle
  posted : List (List UInt8) := []
  received : List (List UInt8) := []
  freed : Nat := 0

namespace Queue

def tryWaitEntry (queue : Queue) : Option Queue :=
  match queue.consumer with
  | .idle =>
    match queue.ring.tryWaitEntry with
    | (some entry, ring) => some { queue with ring, consumer := .holding entry }
    | (none, ring) => some { queue with ring }
  | .holding _ | .seen _ => none

def read (queue : Queue) : Option Queue :=
  match queue.consumer with
  | .holding entry => some
      { queue with
        consumer := .seen entry
        received := queue.received ++ [queue.ring.message entry] }
  | .idle | .seen _ => none

def freeEntry (queue : Queue) : Option Queue :=
  match queue.consumer with
  | .seen entry => some
      { queue with
        ring := queue.ring.freeEntry entry
        consumer := .idle
        freed := queue.freed + 1 }
  | .idle | .holding _ => none

def messageSize (data : List UInt8) : Nat := footprint data.length

theorem messageSize_pos (data : List UInt8) : 8 ≤ messageSize data :=
  Nat.le_trans (Nat.le_add_right 8 _) (le_footprint data.length)

def fifo (queue : Queue) : BoundedFifo (List UInt8) :=
  { items := queue.posted.drop queue.freed, taken := queue.posted.take queue.freed }

def live (queue : Queue) : List (Nat × List UInt8) :=
  placements messageSize queue.ring.head queue.fifo.items

def ConsumerValid (queue : Queue) : ConsumerPC → Prop
  | .idle => queue.received = queue.posted.take queue.freed
  | .holding entry =>
    entry = queue.ring.getContEntry queue.ring.head ∧ queue.freed < queue.posted.length ∧
      queue.received = queue.posted.take queue.freed
  | .seen entry =>
    entry = queue.ring.getContEntry queue.ring.head ∧ queue.freed < queue.posted.length ∧
      queue.received = queue.posted.take (queue.freed + 1)

structure Valid (queue : Queue) : Prop where
  counted : queue.freed ≤ queue.posted.length
  powerOfTwo : ∃ exponent, queue.ring.memorySize.toNat = 2 ^ exponent
  extent : queue.ring.tail = queue.ring.head + extent messageSize queue.fifo.items
  stored : ∀ position data, (position, data) ∈ queue.live →
    queue.ring.Holds (queue.ring.getContEntry position) data
  reserve : ∀ position data, (position, data) ∈ queue.live →
    messageSize data ≤ queue.ring.reserveSize.toNat
  headThreshold : queue.ring.headThreshold ≤ queue.ring.tail
  tailThreshold : queue.ring.tailThreshold ≤ queue.ring.head + queue.ring.memorySize.toNat
  consumer : queue.ConsumerValid queue.consumer

variable {queue : Queue}

theorem ConsumerValid.congr {pc : ConsumerPC} {next : Queue} {more : List (List UInt8)}
    (ok : queue.ConsumerValid pc) (counted : queue.freed ≤ queue.posted.length)
    (entry : next.ring.getContEntry next.ring.head = queue.ring.getContEntry queue.ring.head)
    (posted : next.posted = queue.posted ++ more) (received : next.received = queue.received)
    (freed : next.freed = queue.freed) : next.ConsumerValid pc := by
  cases pc with
  | idle =>
    simpa only [ConsumerValid, posted, received, freed,
      take_append_of_le_length counted] using ok
  | holding held =>
    obtain ⟨at_, unread, got⟩ := ok
    refine ⟨at_.trans entry.symm, ?_, ?_⟩
    · simp only [posted, freed, length_append]
      omega
    · simp [posted, received, freed, take_append_of_le_length counted, got]
  | seen held =>
    obtain ⟨at_, unread, got⟩ := ok
    refine ⟨at_.trans entry.symm, ?_, ?_⟩
    · simp only [posted, freed, length_append]
      omega
    · simp [posted, received, freed, take_append_of_le_length unread, got]

/-- A change of the ring that leaves the cursors of the queue and the bytes of
its entries alone. -/
structure Frame (queue : Queue) (ring : ContinueMemory) : Prop where
  sizes : SameSizes queue.ring ring
  head : ring.head = queue.ring.head
  headThreshold : ring.headThreshold = queue.ring.headThreshold
  tail : ring.tail = queue.ring.tail
  tailThreshold : ring.tailThreshold ≤ queue.ring.head + queue.ring.memorySize.toNat
  agree : ∀ position data, (position, data) ∈ queue.live →
    Memory.AgreeOn (queue.ring.getContEntry position)
      (queue.ring.getContEntry position + messageSize data) ring.memory queue.ring.memory

theorem Frame.getContEntry {ring : ContinueMemory} (frame : queue.Frame ring) (position : Nat) :
    ring.getContEntry position = queue.ring.getContEntry position := by
  simp [ContinueMemory.getContEntry, frame.sizes.1]

section

variable (ok : queue.Valid)
include ok

theorem Valid.frame {ring : ContinueMemory} (frame : queue.Frame ring) :
    Valid { queue with ring } where
  counted := ok.counted
  powerOfTwo := by
    simp only [frame.sizes.1]
    exact ok.powerOfTwo
  extent := by
    simp only [frame.tail, frame.head]
    exact ok.extent
  stored position data mem := by
    simp only [live, fifo, frame.head] at mem
    simp only [frame.getContEntry]
    exact (ok.stored position data mem).congr (frame.agree position data mem)
  reserve position data mem := by
    simp only [live, fifo, frame.head] at mem
    simp only [frame.sizes.2]
    exact ok.reserve position data mem
  headThreshold := by
    simp only [frame.headThreshold, frame.tail]
    exact ok.headThreshold
  tailThreshold := by
    simp only [frame.head, frame.sizes.1]
    exact frame.tailThreshold
  consumer := by
    refine ok.consumer.congr ok.counted ?_ (append_nil _).symm rfl rfl
    simp [frame.getContEntry, frame.head]

theorem Valid.apart {place behind length : Nat} {data : List UInt8}
    (mem : (place, data) ∈ queue.live) (after : queue.ring.tail ≤ behind)
    (fits : behind + length ≤ queue.ring.head + queue.ring.memorySize.toNat) :
    RangesApart (queue.ring.getContEntry place) (messageSize data)
      (queue.ring.getContEntry behind) length := by
  obtain ⟨exponent, size⟩ := ok.powerOfTwo
  obtain ⟨begins, ends⟩ := placements_bounds messageSize mem
  have extent := ok.extent
  rw [getContEntry_eq size, getContEntry_eq size]
  exact rangesApart_of_window begins (by omega) fits

theorem Valid.frame_memory {memory : Memory} {behind length : Nat}
    (after : queue.ring.tail ≤ behind)
    (fits : behind + length ≤ queue.ring.head + queue.ring.memorySize.toNat)
    (outside : ∀ low size, RangesApart low size (queue.ring.getContEntry behind) length →
      Memory.AgreeOn low (low + size) memory queue.ring.memory) :
    queue.Frame { queue.ring with memory } :=
  ⟨⟨rfl, rfl⟩, rfl, rfl, rfl, ok.tailThreshold,
    fun _ _ mem => outside _ _ (ok.apart mem after fits)⟩

theorem Valid.frame_tailThreshold {threshold : Nat}
    (bounded : threshold ≤ queue.ring.head + queue.ring.memorySize.toNat) :
    Valid { queue with ring := { queue.ring with tailThreshold := threshold } } :=
  ok.frame ⟨⟨rfl, rfl⟩, rfl, rfl, rfl, bounded, fun _ _ _ _ _ _ => rfl⟩

theorem Valid.post {data : List UInt8}
    (newest : queue.ring.Holds (queue.ring.getContEntry queue.ring.tail) data)
    (small : messageSize data ≤ queue.ring.reserveSize.toNat) :
    Valid { queue with
      ring := queue.ring.postEntry (queue.ring.getContEntry queue.ring.tail)
      posted := queue.posted ++ [data] } := by
  have grown : queue.ring.usageLen (queue.ring.getContEntry queue.ring.tail) = messageSize data :=
    newest.usage
  have items : (queue.posted ++ [data]).drop queue.freed = queue.fifo.items ++ [data] :=
    drop_append_of_le_length ok.counted
  -- the new entry takes the place right behind the live ones
  have placed : ∀ place item, (place, item) ∈ placements messageSize queue.ring.head
        ((queue.posted ++ [data]).drop queue.freed) →
      (place, item) ∈ queue.live ∨ place = queue.ring.tail ∧ item = data := by
    intro place item mem
    rw [items, placements_append, ← ok.extent] at mem
    simpa [placements, live] using mem
  refine ⟨?_, ok.powerOfTwo, ?_, ?_, ?_, ?_, ok.tailThreshold, ?_⟩
  · simp only [length_append]
    exact Nat.le_add_right_of_le ok.counted
  · simp only [ContinueMemory.postEntry, fifo, items, extent_append, ok.extent,
      extent_cons, extent_nil, ← grown]
    omega
  · intro place item mem
    rcases placed place item mem with earlier | ⟨rfl, rfl⟩
    · exact (ok.stored place item earlier).of_memory rfl
    · exact newest.of_memory rfl
  · intro place item mem
    rcases placed place item mem with earlier | ⟨rfl, rfl⟩
    · exact ok.reserve place item earlier
    · exact small
  · exact ok.headThreshold.trans (Nat.le_add_right _ _)
  · exact ok.consumer.congr ok.counted rfl rfl rfl rfl

end

structure ConsumerStep (queue next : Queue) : Prop where
  memory : next.ring.memory = queue.ring.memory
  sizes : SameSizes queue.ring next.ring
  tail : next.ring.tail = queue.ring.tail
  reservedTail : next.ring.reservedTail = queue.ring.reservedTail
  head : queue.ring.head ≤ next.ring.head
  posted : next.posted = queue.posted

section

variable (ok : queue.Valid)
include ok

theorem Valid.tryWaitEntry {next : Queue} (went : queue.tryWaitEntry = some next) :
    next.Valid ∧ queue.ConsumerStep next ∧ next.fifo = queue.fifo := by
  obtain ⟨threshold, waited, choice, outcome⟩ := tryWaitEntry_spec queue.ring
  have bounded : threshold ≤ queue.ring.tail := by
    rcases choice with same | refreshed
    · exact same ▸ ok.headThreshold
    · exact refreshed.le
  have consumer := ok.consumer
  unfold Queue.tryWaitEntry at went
  split at went
  · next idle =>
    rw [idle] at consumer
    split at went
    · next found =>
      cases went
      rw [found] at waited outcome
      subst waited
      rcases outcome with ⟨none, _⟩ | ⟨some, filled⟩
      · cases none
      · cases some
        refine ⟨⟨ok.counted, ok.powerOfTwo, ok.extent, fun place data mem =>
          (ok.stored place data mem).of_memory rfl, ok.reserve, bounded,
          ok.tailThreshold, rfl, ?_, consumer⟩, ⟨rfl, ⟨rfl, rfl⟩, rfl, rfl, .refl, rfl⟩,
          rfl⟩
        have extent := ok.extent
        apply Nat.lt_of_not_le
        intro all
        have empty : queue.fifo.items = [] := drop_eq_nil_of_le all
        rw [empty, extent_nil] at extent
        omega
    · next missing =>
      cases went
      rw [missing] at waited
      subst waited
      refine ⟨{ ok with
        stored := fun place data mem => (ok.stored place data mem).of_memory rfl
        headThreshold := bounded
        consumer := ?_ }, ⟨rfl, ⟨rfl, rfl⟩, rfl, rfl, .refl, rfl⟩, rfl⟩
      simp only [idle]
      exact consumer
  all_goals cases went

theorem Valid.oldest (unread : queue.freed < queue.posted.length) :
    ∃ data rest, queue.fifo.items = data :: rest ∧
      queue.posted.take (queue.freed + 1) = queue.posted.take queue.freed ++ [data] ∧
      queue.posted.drop (queue.freed + 1) = rest ∧
      queue.ring.Holds (queue.ring.getContEntry queue.ring.head) data := by
  refine ⟨queue.posted[queue.freed], queue.posted.drop (queue.freed + 1),
    drop_eq_getElem_cons unread, take_succ_eq_append_getElem unread, rfl, ?_⟩
  apply ok.stored queue.ring.head
  rw [live, fifo, drop_eq_getElem_cons unread, placements]
  exact mem_cons_self

theorem Valid.read {next : Queue} (went : queue.read = some next) :
    next.Valid ∧ queue.ConsumerStep next ∧ next.fifo = queue.fifo := by
  unfold Queue.read at went
  split at went
  · next holding =>
    cases went
    have consumer := ok.consumer
    rw [holding] at consumer
    obtain ⟨rfl, unread, received⟩ := consumer
    obtain ⟨data, rest, items, taken, dropped, holds⟩ := ok.oldest unread
    refine ⟨⟨ok.counted, ok.powerOfTwo, ok.extent, ok.stored, ok.reserve,
      ok.headThreshold, ok.tailThreshold, rfl, unread, ?_⟩,
      ⟨rfl, ⟨rfl, rfl⟩, rfl, rfl, .refl, rfl⟩, rfl⟩
    simp [received, holds.data, taken]
  all_goals cases went

theorem Valid.freeEntry {next : Queue} (went : queue.freeEntry = some next) :
    next.Valid ∧ queue.ConsumerStep next ∧
      BoundedFifo.step messageSize queue.ring.memorySize.toNat queue.fifo .pop =
        some next.fifo := by
  unfold Queue.freeEntry at went
  split at went
  · next seen =>
    cases went
    have consumer := ok.consumer
    rw [seen] at consumer
    obtain ⟨rfl, unread, received⟩ := consumer
    obtain ⟨data, rest, items, taken, dropped, holds⟩ := ok.oldest unread
    have extent := ok.extent
    have threshold := ok.tailThreshold
    rw [items, extent_cons] at extent
    have usage : queue.ring.usageLen (queue.ring.getContEntry queue.ring.head) =
        messageSize data := holds.usage
    have remaining : ∀ place item,
        (place, item) ∈ placements messageSize (queue.ring.head + messageSize data) rest →
          (place, item) ∈ queue.live := by
      intro place item mem
      rw [live, items, placements]
      exact mem_cons_of_mem _ mem
    refine ⟨⟨unread, ok.powerOfTwo, ?_, ?_, ?_, ok.headThreshold, ?_, received⟩,
      ⟨rfl, ⟨rfl, rfl⟩, rfl, rfl, Nat.le_add_right _ _, rfl⟩, ?_⟩
    · simp only [ContinueMemory.freeEntry, fifo, usage, dropped]
      omega
    · intro place item mem
      simp only [live, fifo, ContinueMemory.freeEntry, usage, dropped] at mem
      exact (ok.stored place item (remaining place item mem)).of_memory rfl
    · intro place item mem
      simp only [live, fifo, ContinueMemory.freeEntry, usage, dropped] at mem
      exact ok.reserve place item (remaining place item mem)
    · simp only [ContinueMemory.freeEntry]
      omega
    · simp only [BoundedFifo.step]
      rw [items]
      simp [fifo, taken, dropped]
  all_goals cases went

theorem Valid.inOrder : queue.received <+: queue.posted := by
  have consumer := ok.consumer
  cases pc : queue.consumer with rw [pc] at consumer
  | idle => exact consumer ▸ take_prefix _ _
  | holding entry | seen entry => exact consumer.2.2 ▸ take_prefix _ _

theorem Valid.waits (failed : queue.ring.tryWaitEntry.1 = none) : queue.fifo.items = [] := by
  obtain ⟨threshold, _, _, outcome⟩ := tryWaitEntry_spec queue.ring
  have extent := ok.extent
  rcases outcome with ⟨_, empty⟩ | ⟨found, _⟩
  · cases items : queue.fifo.items with
    | nil => rfl
    | cons data rest =>
      rw [items, extent_cons] at extent
      have large := messageSize_pos data
      omega
  · rw [found] at failed
    cases failed

theorem Valid.inBlock (position : Nat) {length : Nat}
    (reserve : length ≤ queue.ring.reserveSize.toNat) : queue.ring.getContEntry position + length ≤
      queue.ring.memorySize.toNat + queue.ring.reserveSize.toNat := by
  obtain ⟨exponent, size⟩ := ok.powerOfTwo
  have positive : 0 < 2 ^ exponent := Nat.two_pow_pos exponent
  have inside := Nat.mod_lt position (show 0 < queue.ring.memorySize.toNat by omega)
  rw [getContEntry_eq size]
  omega

end

theorem create_valid {memorySize : UInt32} (reserveSize : UInt32) (pageSize : Nat)
    (small : memorySize.toNat ≤ 2 ^ 31) :
    Valid { ring := create memorySize reserveSize pageSize } := by
  obtain ⟨exp, size, _⟩ := realMemorySize_eq small
  refine ⟨Nat.le_refl 0, ⟨exp, size⟩, rfl, ?_, ?_, Nat.le_refl 0, ?_, rfl⟩
  · nofun
  · nofun
  · simp only [create]
    omega

end Queue

end AdkAaf.Adk
