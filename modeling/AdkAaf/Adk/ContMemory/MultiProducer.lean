import AdkAaf.Adk.ContMemory.Queue

/-! Any number of producers on one `ContinueMemory`. `TryLockAllocEntry` reserves
room under its lock and advances `reserved_tail`; `PostEntryThreadSafe` waits
until the tail reaches the producer's own entry, which it recognises by the
address, and then advances the tail. The comparison and the addition are
separate steps. -/

set_option autoImplicit false

namespace AdkAaf.Adk.MultiProducer

open ContinueMemory Queue Function Lib Option

inductive ProducerPC where
  | idle
  | writing (entry : Nat)
  | posting (entry : Nat)
  | advancing (entry : Nat)

def ProducerPC.ownEntry : ProducerPC → Option Nat
  | .idle => none
  | .writing entry | .posting entry | .advancing entry => some entry

/-- The producers and the history: the reservations in the order in which they
were made, with their lengths, those not posted yet with the data their
producers have put into them, and the posts. -/
structure System (Producer : Type) extends Queue where
  producers : Producer → ProducerPC := fun _ => .idle
  reserved : List (Producer × Nat) := []
  outstanding : List (Producer × List UInt8) := []
  posts : List (Producer × List UInt8) := []

inductive Action (Producer : Type) where
  | tryLockAllocEntry (producer : Producer) (length : UInt32)
  | write (producer : Producer) (index : Nat) (byte : UInt8)
  | beginPost (producer : Producer)
  | compareTail (producer : Producer)
  | advanceTail (producer : Producer)
  | tryWaitEntry
  | read
  | freeEntry

section

variable {Producer : Type} [DecidableEq Producer]

variable (system : System Producer) (producer : Producer)

def System.setPC (pc : ProducerPC) : System Producer :=
  { system with producers := update system.producers producer pc }

def setByte (index : Nat) (byte : UInt8) (reservation : Producer × List UInt8) :
    Producer × List UInt8 :=
  if reservation.1 = producer then (reservation.1, reservation.2.set index byte) else reservation

def System.ownData : List UInt8 :=
  ((system.outstanding.find? fun reservation => reservation.1 = producer).map (·.2)).getD []

def System.step : Action Producer → Option (System Producer)
  | .tryLockAllocEntry producer length =>
    match system.producers producer with
    | .idle =>
      if allocateLen length ≤ system.ring.reserveSize.toNat then
        match system.ring.tryLockAllocEntry length with
        | (some entry, ring) => some
            ({ system with
                ring
                reserved := system.reserved ++ [(producer, length.toNat)]
                outstanding := system.outstanding ++ [(producer, ring.message entry)] }.setPC
              producer (.writing entry))
        | (none, ring) => some { system with ring }
      else
        none
    | .writing _ | .posting _ | .advancing _ => none
  | .write producer index byte =>
    match system.producers producer with
    | .writing entry =>
      if index < system.ring.appDataLen entry then some
        { system with
          ring := system.ring.storeByte entry index byte
          outstanding := system.outstanding.map (setByte producer index byte) }
      else
        none
    | .idle | .posting _ | .advancing _ => none
  | .beginPost producer =>
    match system.producers producer with
    | .writing entry => some (system.setPC producer (.posting entry))
    | .idle | .posting _ | .advancing _ => none
  | .compareTail producer =>
    match system.producers producer with
    | .posting entry =>
      if entry = system.ring.getContEntry system.ring.tail then
        some (system.setPC producer (.advancing entry))
      else
        some system
    | .idle | .writing _ | .advancing _ => none
  | .advanceTail producer =>
    match system.producers producer with
    | .advancing entry => some
        ({ system with
            ring := system.ring.postEntry entry
            posted := system.posted ++ [system.ownData producer]
            posts := system.posts ++ [(producer, system.ownData producer)]
            outstanding := system.outstanding.filter fun reservation =>
              reservation.1 ≠ producer }.setPC producer .idle)
    | .idle | .writing _ | .posting _ => none
  | .tryWaitEntry => system.toQueue.tryWaitEntry.map fun queue => { system with toQueue := queue }
  | .read => system.toQueue.read.map fun queue => { system with toQueue := queue }
  | .freeEntry => system.toQueue.freeEntry.map fun queue => { system with toQueue := queue }

end

def System.start {Producer : Type} (memorySize reserveSize : UInt32) (pageSize : Nat) :
    System Producer :=
  { ring := create memorySize reserveSize pageSize }

section

variable {Producer : Type}

def reservationSize (reservation : Producer × List UInt8) : Nat := messageSize reservation.2

def System.waiting (system : System Producer) : List (Nat × Producer × List UInt8) :=
  placements reservationSize system.ring.tail system.outstanding

def summary (reservation : Producer × List UInt8) : Producer × Nat :=
  (reservation.1, reservation.2.length)

structure Valid (system : System Producer) : Prop where
  queue : system.toQueue.Valid
  extent : system.ring.reservedTail =
    system.ring.tail + extent reservationSize system.outstanding
  room : system.ring.reservedTail < system.ring.head + system.ring.memorySize.toNat
  written : ∀ position reservation, (position, reservation) ∈ system.waiting →
    system.ring.Holds (system.ring.getContEntry position) reservation.2 ∧
      messageSize reservation.2 ≤ system.ring.reserveSize.toNat
  owned : ∀ position reservation, (position, reservation) ∈ system.waiting →
    (system.producers reservation.1).ownEntry = some (system.ring.getContEntry position)
  distinct : (system.outstanding.map (·.1)).Nodup
  busy : ∀ producer, system.producers producer ≠ .idle →
    ∃ data, (producer, data) ∈ system.outstanding
  first : ∀ producer entry, system.producers producer = .advancing entry →
    system.outstanding.head?.map (·.1) = some producer
  reservations : system.reserved = (system.posts ++ system.outstanding).map summary
  posted : system.posted = system.posts.map (·.2)

variable {system : System Producer}

theorem reservationSize_pos (reservation : Producer × List UInt8) :
    0 < reservationSize reservation :=
  Nat.lt_of_lt_of_le (by decide) (messageSize_pos reservation.2)

variable {place : Nat}

theorem Valid.bounds (ok : Valid system) {resv : Producer × List UInt8}
    (mem : (place, resv) ∈ system.waiting) :
    system.ring.head ≤ place ∧ system.ring.tail ≤ place ∧
      place + messageSize resv.2 ≤ system.ring.reservedTail := by
  obtain ⟨begins, ends⟩ := placements_bounds reservationSize mem
  have extent := ok.extent
  have queued := ok.queue.extent
  unfold reservationSize at ends extent
  omega

variable {reservation reservation' : Producer × List UInt8}

theorem Valid.waiting_apart (ok : Valid system) {position' : Nat}
    (mem : (place, reservation) ∈ system.waiting)
    (member' : (position', reservation') ∈ system.waiting) (apart : place ≠ position') :
    RangesApart (system.ring.getContEntry place) (messageSize reservation.2)
      (system.ring.getContEntry position') (messageSize reservation'.2) := by
  obtain ⟨exponent, size⟩ := ok.queue.powerOfTwo
  have extent := ok.extent
  have queued := ok.queue.extent
  have room := ok.room
  rw [getContEntry_eq size, getContEntry_eq size]
  exact placements_apart reservationSize (by omega) mem member' apart

theorem Valid.same_place (ok : Valid system) {position' : Nat}
    (mem : (place, reservation) ∈ system.waiting)
    (member' : (position', reservation') ∈ system.waiting)
    (same : system.ring.getContEntry place = system.ring.getContEntry position') :
    place = position' ∧ reservation = reservation' := by
  have equal : place = position' := by
    by_contra different
    have apart := ok.waiting_apart mem member' different
    have large := messageSize_pos reservation.2
    have large' := messageSize_pos reservation'.2
    unfold RangesApart at apart
    omega
  subst equal
  exact ⟨rfl, placements_unique reservationSize reservationSize_pos mem member'⟩

theorem Valid.place_of_busy (ok : Valid system) {producer : Producer} {entry : Nat}
    (busy : (system.producers producer).ownEntry = some entry) :
    ∃ position data, (position, producer, data) ∈ system.waiting ∧
      entry = system.ring.getContEntry position := by
  obtain ⟨data, mem⟩ :=
    ok.busy producer (fun idle => by simp [idle, ProducerPC.ownEntry] at busy)
  obtain ⟨position, placed⟩ := exists_placement reservationSize mem system.ring.tail
  have owned := ok.owned position (producer, data) placed
  rw [busy] at owned
  exact ⟨position, data, placed, some.inj owned⟩

variable {producer : Producer}

theorem Valid.idle_not_outstanding (ok : Valid system) (idle : system.producers producer = .idle) :
    producer ∉ system.outstanding.map (·.1) := by
  intro listed
  obtain ⟨resv, mem, rfl⟩ := List.mem_map.mp listed
  obtain ⟨place, placed⟩ := exists_placement reservationSize mem system.ring.tail
  have owned := ok.owned place resv placed
  simp [idle, ProducerPC.ownEntry] at owned

theorem Valid.setTailThreshold (ok : Valid system) {threshold : Nat}
    (bounded : threshold ≤ system.ring.head + system.ring.memorySize.toNat) :
    Valid { system with ring := { system.ring with tailThreshold := threshold } } where
  queue := ok.queue.frame_tailThreshold bounded
  __ := ok
  written position reservation mem :=
    (ok.written position reservation mem).imp_left fun holds => holds.of_memory rfl

variable [DecidableEq Producer]

variable {data : List UInt8}

theorem Valid.reserve (ok : Valid system) {producer : Producer} {len : Nat} {ring : ContinueMemory}
    (idle : system.producers producer = .idle) (sized : data.length = len)
    (frame : system.toQueue.Frame ring)
    (advanced : ring.reservedTail = system.ring.reservedTail + messageSize data)
    (fits : system.ring.reservedTail + messageSize data <
      system.ring.head + system.ring.memorySize.toNat)
    (small : messageSize data ≤ system.ring.reserveSize.toNat)
    (newest : ring.Holds (system.ring.getContEntry system.ring.reservedTail) data)
    (others : ∀ place resv, (place, resv) ∈ system.waiting →
      Memory.AgreeOn (system.ring.getContEntry place)
        (system.ring.getContEntry place + messageSize resv.2)
        ring.memory system.ring.memory) :
    Valid ({ system with
        ring
        reserved := system.reserved ++ [(producer, len)]
        outstanding := system.outstanding ++ [(producer, data)] }.setPC producer
      (.writing (system.ring.getContEntry system.ring.reservedTail))) := by
  have unlisted := ok.idle_not_outstanding idle
  have placed : ∀ place resv,
      (place, resv) ∈ placements reservationSize ring.tail
        (system.outstanding ++ [(producer, data)]) →
      (place, resv) ∈ system.waiting ∨
        place = system.ring.reservedTail ∧ resv = (producer, data) := by
    intro place resv mem
    rw [frame.tail, placements_append, ← ok.extent] at mem
    simpa [placements, System.waiting] using mem
  -- a producer with an older resv is not the one that reserves
  have older : ∀ place resv, (place, resv) ∈ system.waiting →
      resv.1 ≠ producer := by
    intro place resv mem same
    have owned := ok.owned place resv mem
    rw [same, idle] at owned
    cases owned
  refine ⟨ok.queue.frame frame, ?_, ?_, ?_, ?_, ?_, ?_, ?_, ?_, ok.posted⟩
  · simp only [System.setPC, advanced, frame.tail, extent_append, extent_cons,
      extent_nil, ok.extent, reservationSize]
    omega
  · simp only [System.setPC, advanced, frame.head, frame.sizes.1]
    exact fits
  · intro place resv mem
    simp only [System.setPC, frame.getContEntry, frame.sizes.2]
    rcases placed place resv mem with earlier | ⟨rfl, rfl⟩
    · obtain ⟨holds, reserve⟩ := ok.written place resv earlier
      exact ⟨holds.congr (others place resv earlier), reserve⟩
    · exact ⟨newest, small⟩
  · intro place resv mem
    simp only [System.setPC, frame.getContEntry]
    rcases placed place resv mem with earlier | ⟨rfl, rfl⟩
    · rw [update_of_ne (older place resv earlier)]
      exact ok.owned place resv earlier
    · rw [update_self]
      rfl
  · simp only [System.setPC, List.map_append, List.map_cons, List.map_nil]
    exact List.nodup_append.mpr ⟨ok.distinct, by simp, fun first mem second single => by
      rw [List.mem_singleton.mp single]
      exact fun same => unlisted (same ▸ mem)⟩
  · intro other busy
    by_cases same : other = producer
    · exact ⟨data, by simp [System.setPC, same]⟩
    · simp only [System.setPC, update_of_ne same] at busy
      obtain ⟨held, mem⟩ := ok.busy other busy
      exact ⟨held, List.mem_append_left _ mem⟩
  · intro other entry advancing
    by_cases same : other = producer
    · simp only [System.setPC, same, update_self] at advancing
      cases advancing
    · simp only [System.setPC, update_of_ne same] at advancing
      have first := ok.first other entry advancing
      cases listed : system.outstanding with
      | nil => simp [listed] at first
      | cons resv rest =>
        rw [listed] at first
        exact first
  · simp [System.setPC, ok.reservations, List.map_append, List.map_cons, List.map_nil,
      summary, sized, List.append_assoc]

theorem Valid.tryLockAllocEntry (ok : Valid system) {len : UInt32} {entry : Nat}
    {ring : ContinueMemory} (idle : system.producers producer = .idle)
    (fits : len.toNat + 7 < 2 ^ 32) (asserted : allocateLen len ≤ system.ring.reserveSize.toNat)
    (allocated : system.ring.tryLockAllocEntry len = (some entry, ring)) :
    Valid ({ system with
        ring
        reserved := system.reserved ++ [(producer, len.toNat)]
        outstanding := system.outstanding ++ [(producer, ring.message entry)] }.setPC producer
      (.writing entry)) := by
  obtain ⟨threshold, checked, choice, room, _⟩ :=
    hasRoom_spec system.ring system.ring.reservedTail (allocateLen len)
  have bounded : threshold ≤ system.ring.head + system.ring.memorySize.toNat := by
    rcases choice with same | refreshed
    · exact same ▸ ok.queue.tailThreshold
    · exact refreshed.le
  have lengths := allocateLen_eq fits
  have large := le_footprint len.toNat
  have limit := system.ring.reserveSize.toNat_lt
  unfold ContinueMemory.tryLockAllocEntry at allocated
  split at allocated
  · cases allocated
  · next found =>
    rw [found] at checked room
    simp only at checked room
    subst checked
    have below := room trivial
    cases allocated
    rw [lengths] at below asserted
    have usage := setHeader_usageLen { system.ring with tailThreshold := threshold }
      (system.ring.getContEntry system.ring.reservedTail) (allocateLen len) len.toNat
      (by omega)
    have appData := setHeader_appDataLen { system.ring with tailThreshold := threshold }
      (system.ring.getContEntry system.ring.reservedTail) (allocateLen len) len.toNat
      (by omega)
    have holds := holds_message (usage.trans (lengths.trans (congrArg footprint appData).symm))
    have counted := holds.appDataLen.symm.trans appData
    have sized := congrArg footprint counted
    have reach := ok.extent
    have apart : ∀ low size, RangesApart low size
        (system.ring.getContEntry system.ring.reservedTail) (footprint len.toNat) →
        Memory.AgreeOn low (low + size)
          (ContinueMemory.setHeader { system.ring with tailThreshold := threshold }
            (system.ring.getContEntry system.ring.reservedTail) (allocateLen len)
            len.toNat).memory system.ring.memory :=
      setHeader_outside { system.ring with tailThreshold := threshold } (by omega)
    refine ok.reserve idle counted ⟨⟨rfl, rfl⟩, rfl, rfl, rfl, bounded,
      fun place data mem =>
        apart _ _ (ok.queue.apart mem (by omega) (by omega))⟩ ?_ ?_ ?_ (holds.of_memory rfl)
      fun place resv mem => apart _ _ ?_
    · exact congrArg (system.ring.reservedTail + ·) (lengths.trans sized.symm)
    · exact Nat.lt_of_le_of_lt ((congrArg (system.ring.reservedTail + ·) sized).le)
        (below.trans_le bounded)
    · exact sized.le.trans asserted
    · obtain ⟨exp, size⟩ := ok.queue.powerOfTwo
      obtain ⟨begins, _, ends⟩ := ok.bounds mem
      rw [getContEntry_eq size, getContEntry_eq size]
      exact rangesApart_of_window begins ends (by omega)

theorem setByte_size (producer : Producer) (i : Nat) (byte : UInt8)
    (reservation : Producer × List UInt8) :
    reservationSize (setByte producer i byte reservation) = reservationSize reservation := by
  unfold setByte
  split <;> simp [reservationSize, messageSize]

@[simp] theorem setByte_fst (producer : Producer) (i : Nat) (byte : UInt8)
    (resv : Producer × List UInt8) :
    (setByte producer i byte resv).1 = resv.1 := by
  unfold setByte
  split <;> rfl

theorem setByte_summary (producer : Producer) (i : Nat) (byte : UInt8)
    (reservation : Producer × List UInt8) :
    summary (setByte producer i byte reservation) = summary reservation := by
  unfold setByte
  split <;> simp [summary]

theorem Valid.write (ok : Valid system) {producer : Producer} {entry index : Nat}
    (writing : system.producers producer = .writing entry)
    (within : index < system.ring.appDataLen entry) (byte : UInt8) :
    Valid { system with
      ring := system.ring.storeByte entry index byte
      outstanding := system.outstanding.map (setByte producer index byte) } := by
  have inHand : (system.producers producer).ownEntry = some entry := by rw [writing]; rfl
  obtain ⟨position, data, placed, rfl⟩ := ok.place_of_busy inHand
  have holds : system.ring.Holds (system.ring.getContEntry position) data :=
    (ok.written position (producer, data) placed).1
  have counted : system.ring.appDataLen (system.ring.getContEntry position) = data.length :=
    holds.appDataLen
  obtain ⟨begins, behind, ends⟩ := ok.bounds placed
  have room := ok.room
  have large := le_footprint data.length
  have fits : position + messageSize data ≤ system.ring.head + system.ring.memorySize.toNat :=
    (ends.trans_lt room).le
  -- the byte lies inside the producer's own reservation
  have outside : ∀ low size, RangesApart low size (system.ring.getContEntry position)
      (messageSize data) → Memory.AgreeOn low (low + size)
        (system.ring.storeByte (system.ring.getContEntry position) index byte).memory
        system.ring.memory := by
    intro low size apart
    simp only [RangesApart, messageSize] at apart
    exact Memory.storeByte_agreeOn _ _ _ (by omega)
  have updated : ∀ place reservation,
      (place, reservation) ∈ placements reservationSize system.ring.tail
        (system.outstanding.map (setByte producer index byte)) →
      ∃ before, (place, before) ∈ system.waiting ∧
        reservation = setByte producer index byte before := by
    intro place reservation mem
    rw [placements_map reservationSize (setByte_size producer index byte)] at mem
    obtain ⟨⟨at_, before⟩, earlier, same⟩ := List.mem_map.mp mem
    cases same
    exact ⟨before, earlier, rfl⟩
  refine ⟨ok.queue.frame (ok.queue.frame_memory behind fits outside), ?_, ok.room,
    ?_, ?_, ?_, ?_, ?_, ?_, ok.posted⟩
  · simp only [extent_map reservationSize (setByte_size producer index byte)]
    exact ok.extent
  · intro place reservation mem
    obtain ⟨before, earlier, rfl⟩ := updated place reservation mem
    obtain ⟨stored, reserve⟩ := ok.written place before earlier
    by_cases own : before.1 = producer
    · have owned := ok.owned place before earlier
      rw [own, writing] at owned
      obtain ⟨rfl, rfl⟩ := ok.same_place placed earlier (some.inj owned)
      have set : setByte producer index byte (producer, data) = (producer, data.set index byte) :=
        if_pos rfl
      rw [set]
      refine ⟨holds.storeByte (by omega) byte, ?_⟩
      simp only [messageSize, List.length_set]
      exact reserve
    · have other : setByte producer index byte before = before := if_neg own
      have different : place ≠ position := by
        rintro rfl
        have same := placements_unique reservationSize reservationSize_pos earlier placed
        exact own (congrArg Prod.fst same)
      have apart := ok.waiting_apart earlier placed different
      rw [other]
      exact ⟨stored.congr (outside _ _ apart), reserve⟩
  · intro place reservation mem
    obtain ⟨before, earlier, rfl⟩ := updated place reservation mem
    simp only [setByte_fst]
    exact ok.owned place before earlier
  · simp only [List.map_map, comp_def, setByte_fst]
    exact ok.distinct
  · intro other busy
    obtain ⟨held, mem⟩ := ok.busy other busy
    exact ⟨(setByte producer index byte (other, held)).2, List.mem_map.mpr
      ⟨(other, held), mem, Prod.ext (setByte_fst producer index byte (other, held)) rfl⟩⟩
  · intro other at_ advancing
    have first := ok.first other at_ advancing
    simpa [map_map, comp_def] using first
  · simp [ok.reservations, List.map_append, List.map_map, comp_def,
      setByte_summary]

theorem Valid.setPC (ok : Valid system) {pc : ProducerPC}
    (same : pc.ownEntry = (system.producers producer).ownEntry)
    (busy : system.producers producer ≠ .idle)
    (first : ∀ entry, pc = .advancing entry → system.outstanding.head?.map (·.1) = some producer) :
    Valid (system.setPC producer pc) where
  __ := ok
  owned position reservation mem := by
    have owned := ok.owned position reservation mem
    simp only [System.setPC]
    by_cases own : reservation.1 = producer
    · rw [own, update_self, same, ← own]
      exact owned
    · rw [update_of_ne own]
      exact owned
  busy other working := by
    simp only [System.setPC] at working
    by_cases own : other = producer
    · exact ok.busy other (own ▸ busy)
    · rw [update_of_ne own] at working
      exact ok.busy other working
  first other entry advancing := by
    simp only [System.setPC] at advancing
    by_cases own : other = producer
    · rw [own, update_self] at advancing
      exact own ▸ first entry advancing
    · rw [update_of_ne own] at advancing
      exact ok.first other entry advancing

omit [DecidableEq Producer] in
theorem Valid.first_of_tail (ok : Valid system) {entry : Nat}
    (busy : (system.producers producer).ownEntry = some entry)
    (atTail : entry = system.ring.getContEntry system.ring.tail) :
    ∃ data rest, system.outstanding = (producer, data) :: rest := by
  obtain ⟨place, data, placed, equal⟩ := ok.place_of_busy busy
  cases listed : system.outstanding with
  | nil => simp [System.waiting, listed, placements] at placed
  | cons oldest rest =>
    have head : (system.ring.tail, oldest) ∈ system.waiting := by
      rw [System.waiting, listed, placements]
      exact List.mem_cons_self
    obtain ⟨_, same⟩ := ok.same_place placed head (equal.symm.trans atTail)
    exact ⟨data, rest, by rw [same]⟩

theorem System.ownData_of_first {rest : List (Producer × List UInt8)}
    (listed : system.outstanding = (producer, data) :: rest) : system.ownData producer = data := by
  simp [System.ownData, listed]

theorem Valid.advanceTail (ok : Valid system) {producer : Producer} {entry : Nat}
    (advancing : system.producers producer = .advancing entry) :
    Valid ({ system with
        ring := system.ring.postEntry entry
        posted := system.posted ++ [system.ownData producer]
        posts := system.posts ++ [(producer, system.ownData producer)]
        outstanding := system.outstanding.filter fun resv =>
          resv.1 ≠ producer }.setPC producer .idle) := by
  have first := ok.first producer entry advancing
  cases listed : system.outstanding with
  | nil => simp [listed] at first
  | cons oldest rest =>
    obtain ⟨owner, data⟩ := oldest
    obtain rfl : owner = producer := by simpa [listed] using first
    have own := System.ownData_of_first listed
    have head : (system.ring.tail, owner, data) ∈ system.waiting := by
      rw [System.waiting, listed, placements]
      exact List.mem_cons_self
    obtain ⟨holds, small⟩ := ok.written _ _ head
    have owned := ok.owned _ _ head
    simp only [advancing, ProducerPC.ownEntry] at owned
    cases owned
    have distinct := ok.distinct
    simp only [listed, List.map_cons, List.nodup_cons] at distinct
    have remaining : ((owner, data) :: rest).filter (fun resv => resv.1 ≠ owner) =
        rest := by
      rw [List.filter_cons_of_neg (by simp), List.filter_eq_self]
      intro resv mem
      simp only [ne_eq, decide_not, Bool.not_eq_true', decide_eq_false_iff_not]
      exact fun same => distinct.1 (List.mem_map.mpr ⟨resv, mem, same⟩)
    have usage : system.ring.usageLen (system.ring.getContEntry system.ring.tail) =
        messageSize data := holds.usage
    have extent := ok.extent
    rw [listed, extent_cons] at extent
    rw [own, remaining]
    have later : ∀ place resv, (place, resv) ∈ placements reservationSize
          (system.ring.postEntry (system.ring.getContEntry system.ring.tail)).tail rest →
        (place, resv) ∈ system.waiting ∧ resv.1 ≠ owner := by
      intro place resv mem
      simp only [ContinueMemory.postEntry, usage] at mem
      refine ⟨?_, ?_⟩
      · rw [System.waiting, listed, placements]
        exact List.mem_cons_of_mem _ mem
      · intro same
        exact distinct.1 (List.mem_map.mpr
          ⟨resv, mem_of_placement reservationSize mem, same⟩)
    refine ⟨ok.queue.post holds small, ?_, ok.room, ?_, ?_, distinct.2, ?_, ?_, ?_, ?_⟩
    · simp only [System.setPC, ContinueMemory.postEntry, usage]
      simp only [reservationSize] at extent ⊢
      omega
    · intro place resv mem
      obtain ⟨stored, reserve⟩ := ok.written place resv (later _ _ mem).1
      exact ⟨stored.of_memory rfl, reserve⟩
    · intro place resv mem
      obtain ⟨earlier, apart⟩ := later _ _ mem
      simp only [System.setPC, update_of_ne apart]
      exact ok.owned place resv earlier
    · intro other working
      have apart : other ≠ owner := by
        rintro rfl
        simp [System.setPC] at working
      simp only [System.setPC, update_of_ne apart] at working
      obtain ⟨held, mem⟩ := ok.busy other working
      rw [listed] at mem
      rcases List.mem_cons.mp mem with same | inRest
      · exact absurd (congrArg Prod.fst same) apart
      · exact ⟨held, inRest⟩
    · intro other at_ advances
      have apart : other ≠ owner := by
        rintro rfl
        simp [System.setPC] at advances
      simp only [System.setPC, update_of_ne apart] at advances
      have oldest := ok.first other at_ advances
      simp only [listed, List.head?_cons, map_some, some.injEq] at oldest
      exact absurd oldest.symm apart
    · simp [System.setPC, ok.reservations, listed, List.append_assoc]
    · simp [System.setPC, ok.posted, List.map_append, List.map_cons, List.map_nil]

omit [DecidableEq Producer] in
theorem Valid.consumerStep (ok : Valid system) {q : Queue} (next : q.Valid)
    (moved : system.toQueue.ConsumerStep q) : Valid { system with toQueue := q } := by
  have same : ∀ position, q.ring.getContEntry position = system.ring.getContEntry position := by
    intro position
    simp [getContEntry, moved.sizes.1]
  have head := moved.head
  have room := ok.room
  refine ⟨next, ?_, ?_, ?_, ?_, ok.distinct, ok.busy, ok.first, ok.reservations, ?_⟩
  · simp only [moved.reservedTail, moved.tail]
    exact ok.extent
  · simp only [moved.reservedTail, moved.sizes.1]
    omega
  · intro position resv mem
    simp only [System.waiting, moved.tail] at mem
    obtain ⟨stored, reserve⟩ := ok.written position resv mem
    simp only [same, moved.sizes.2]
    exact ⟨stored.of_memory moved.memory, reserve⟩
  · intro position resv mem
    simp only [System.waiting, moved.tail] at mem
    simp only [same]
    exact ok.owned position resv mem
  · simp only [moved.posted]
    exact ok.posted

/-- The requested length leaves room for the alignment in 32 bits. -/
def LengthFits (_ : System Producer) : Action Producer → Prop
  | .tryLockAllocEntry _ length => length.toNat + 7 < 2 ^ 32
  | _ => True

variable {action : Action Producer}

theorem Valid.step {next : System Producer} (ok : Valid system)
    (fits : LengthFits system action) (went : system.step action = some next) : Valid next := by
  cases action with
  | tryLockAllocEntry producer len =>
    simp only [System.step] at went
    split at went
    · next idle =>
      split at went
      · next asserted =>
        split at went
        · next allocated =>
          cases went
          exact ok.tryLockAllocEntry idle fits asserted allocated
        · next refused =>
          cases went
          obtain ⟨threshold, rfl, choice⟩ := tryLockAllocEntry_refused refused
          refine ok.setTailThreshold ?_
          rcases choice with same | refreshed
          · exact same ▸ ok.queue.tailThreshold
          · exact refreshed.le
      · cases went
    all_goals cases went
  | write producer j byte =>
    simp only [System.step] at went
    split at went
    · next writing =>
      split at went
      · next within =>
        cases went
        exact ok.write writing within byte
      · cases went
    all_goals cases went
  | beginPost producer =>
    simp only [System.step] at went
    split at went
    · next writing =>
      cases went
      refine ok.setPC (by rw [writing]; rfl) (by rw [writing]; exact nofun) ?_
      exact nofun
    all_goals cases went
  | compareTail producer =>
    simp only [System.step] at went
    split at went
    · next entry posting =>
      split at went
      · next atTail =>
        cases went
        refine ok.setPC (by rw [posting]; rfl) (by rw [posting]; exact nofun) fun _ _ => ?_
        have busy : (system.producers producer).ownEntry = some entry := by rw [posting]; rfl
        obtain ⟨data, rest, listed⟩ := ok.first_of_tail busy atTail
        rw [listed]
        rfl
      · cases went
        exact ok
    all_goals cases went
  | advanceTail producer =>
    simp only [System.step] at went
    split at went
    · next advancing =>
      cases went
      exact ok.advanceTail advancing
    all_goals cases went
  | tryWaitEntry =>
    obtain ⟨q, waited, rfl⟩ := map_eq_some_iff.mp went
    obtain ⟨kept, moved, _⟩ := ok.queue.tryWaitEntry waited
    exact ok.consumerStep kept moved
  | read =>
    obtain ⟨q, got, rfl⟩ := map_eq_some_iff.mp went
    obtain ⟨kept, moved, _⟩ := ok.queue.read got
    exact ok.consumerStep kept moved
  | freeEntry =>
    obtain ⟨q, freed, rfl⟩ := map_eq_some_iff.mp went
    obtain ⟨kept, moved, _⟩ := ok.queue.freeEntry freed
    exact ok.consumerStep kept moved

theorem step_sizes {next : System Producer} (ok : Valid system)
    (went : system.step action = some next) : SameSizes system.ring next.ring := by
  cases action with
  | tryLockAllocEntry producer len =>
    have sizes := system.ring.tryLockAllocEntry_sizes len
    simp only [System.step] at went
    split at went
    · split at went
      · split at went
        · next allocated =>
          cases went
          rwa [allocated] at sizes
        · next refused =>
          cases went
          rwa [refused] at sizes
      · cases went
    all_goals cases went
  | write producer j byte =>
    simp only [System.step] at went
    split at went
    · split at went
      · cases went
        exact ⟨rfl, rfl⟩
      · cases went
    all_goals cases went
  | beginPost producer | advanceTail producer =>
    simp only [System.step] at went
    split at went
    · cases went
      exact ⟨rfl, rfl⟩
    all_goals cases went
  | compareTail producer =>
    simp only [System.step] at went
    split at went
    · split at went <;> cases went <;> exact ⟨rfl, rfl⟩
    all_goals cases went
  | tryWaitEntry =>
    obtain ⟨q, waited, rfl⟩ := map_eq_some_iff.mp went
    exact (ok.queue.tryWaitEntry waited).2.1.sizes
  | read =>
    obtain ⟨q, got, rfl⟩ := map_eq_some_iff.mp went
    exact (ok.queue.read got).2.1.sizes
  | freeEntry =>
    obtain ⟨q, freed, rfl⟩ := map_eq_some_iff.mp went
    exact (ok.queue.freeEntry freed).2.1.sizes

def ValidFor (ring : ContinueMemory) (system : System Producer) : Prop :=
  Valid system ∧ SameSizes ring system.ring

theorem ValidFor.step {ring : ContinueMemory} {next : System Producer}
    (held : ValidFor ring system) (fits : LengthFits system action)
    (went : system.step action = some next) : ValidFor ring next := by
  obtain ⟨ok, sizes⟩ := held
  have same := step_sizes ok went
  exact ⟨ok.step fits went, same.1.trans sizes.1, same.2.trans sizes.2⟩

/-- The posts are the oldest reservations in their order, every other
reservation is still in its producer's hands, and the consumer reads what the
producers wrote, in that order. -/
structure InReservationOrder (system : System Producer) (blockSize : Nat) : Prop where
  ordered : system.posts.map summary <+: system.reserved
  complete : system.reserved = (system.posts ++ system.outstanding).map summary
  pending : ∀ reservation ∈ system.outstanding, system.producers reservation.1 ≠ .idle
  visible : system.received <+: system.posts.map (·.2)
  contents : ∀ position data, (position, data) ∈ system.live →
    system.ring.message (system.ring.getContEntry position) = data
  waits : system.ring.tryWaitEntry.1 = none → system.freed = system.posts.length
  cursors : system.ring.tail ≤ system.ring.reservedTail ∧
    system.ring.reservedTail < system.ring.head + system.ring.memorySize.toNat
  inBlock : (∀ position data, (position, data) ∈ system.live →
      system.ring.getContEntry position + 8 + data.length ≤ blockSize) ∧
    ∀ position reservation, (position, reservation) ∈ system.waiting →
      system.ring.getContEntry position + 8 + reservation.2.length ≤ blockSize

omit [DecidableEq Producer] in
theorem Valid.inReservationOrder (ok : Valid system) :
    InReservationOrder system (system.ring.memorySize.toNat + system.ring.reserveSize.toNat) where
  ordered := by
    rw [ok.reservations, List.map_append]
    exact List.prefix_append _ _
  complete := ok.reservations
  pending reservation mem idle :=
    ok.idle_not_outstanding idle (List.mem_map.mpr ⟨reservation, mem, rfl⟩)
  visible := ok.posted ▸ ok.queue.inOrder
  contents position data mem := (ok.queue.stored position data mem).data
  waits failed := by
    have empty := List.drop_eq_nil_iff.mp (ok.queue.waits failed)
    have counted := ok.queue.counted
    rw [ok.posted, List.length_map] at empty counted
    omega
  cursors := ⟨by have extent := ok.extent; omega, ok.room⟩
  inBlock := by
    refine ⟨fun position data mem => ?_, fun position reservation mem => ?_⟩
    · have large := le_footprint data.length
      have inside := ok.queue.inBlock position (ok.queue.reserve position data mem)
      unfold messageSize at inside
      omega
    · have large := le_footprint reservation.2.length
      have inside := ok.queue.inBlock position (ok.written position reservation mem).2
      unfold messageSize at inside
      omega

omit [DecidableEq Producer] in
theorem start_valid {memorySize : UInt32} (reserveSize : UInt32) (pageSize : Nat)
    (small : memorySize.toNat ≤ 2 ^ 31) :
    Valid (System.start memorySize reserveSize pageSize : System Producer) := by
  obtain ⟨exp, size, eight⟩ := realMemorySize_eq small
  refine ⟨create_valid reserveSize pageSize small, rfl, ?_, ?_, ?_, List.nodup_nil, ?_, ?_, rfl,
    rfl⟩
  · simp only [System.start, create]
    omega
  · intros; contradiction
  · intros; contradiction
  · exact fun producer busy => absurd rfl busy
  · intros; contradiction

/-- In every run in which no requested length wraps around, entries become
visible in the order of their reservations. -/
theorem inReservationOrder_of_lengthFits (memorySize reserveSize : UInt32) (pageSize : Nat)
    (pages : pageSize ∣ 2 ^ 32) (small : memorySize.toNat ≤ 2 ^ 31)
    (block : (realMemorySize memorySize).toNat + reserveSize.toNat < 2 ^ 32)
    (actions : List (Action Producer)) (final : System Producer)
    (guarded : Guarded System.step LengthFits
      (System.start memorySize reserveSize pageSize) actions)
    (ran : execute System.step (System.start memorySize reserveSize pageSize) actions =
      some final) : InReservationOrder final (totalMemorySize memorySize reserveSize pageSize) := by
  obtain ⟨exponent, size, eight⟩ := realMemorySize_eq small
  have start : ValidFor (create memorySize reserveSize pageSize)
      (System.start memorySize reserveSize pageSize : System Producer) :=
    ⟨start_valid reserveSize pageSize small, rfl, rfl⟩
  obtain ⟨valid, sizes⟩ := invariant_of_guarded ValidFor.step start guarded ran
  have whole := create_block pages eight block
  rw [← sizes.1, ← sizes.2] at whole
  rw [← whole]
  exact valid.inReservationOrder

instance (system : System Producer) : ∀ action, Decidable (LengthFits system action)
  | .tryLockAllocEntry _ _ => inferInstanceAs (Decidable (_ < _))
  | .write _ _ _ | .beginPost _ | .compareTail _ | .advanceTail _ | .tryWaitEntry | .read
  | .freeEntry => inferInstanceAs (Decidable True)

end

def overtakenRun : List (Action Bool) :=
  [.tryLockAllocEntry false 1, .tryLockAllocEntry true 2, .write true 0 9, .beginPost true,
    .compareTail true, .write false 0 7, .beginPost false, .compareTail false, .advanceTail false,
    .compareTail true, .advanceTail true, .tryWaitEntry, .read, .freeEntry]

theorem overtakenRun_inReservationOrder : ∃ final,
    execute System.step (System.start 64 64 4096) overtakenRun = some final ∧
      final.posts = [(false, [7]), (true, [9, 0])] ∧
      InReservationOrder final (totalMemorySize 64 64 4096) := by
  obtain ⟨final, ran, posts⟩ :
      ∃ final, execute System.step (System.start 64 64 4096) overtakenRun = some final ∧
        final.posts = [(false, [7]), (true, [9, 0])] := execute_check (by decide +kernel)
  exact ⟨final, ran, posts, inReservationOrder_of_lengthFits 64 64 4096 (by decide) (by decide)
    (by decide +kernel) overtakenRun final (by decide +kernel) ran⟩

/-- `true` is given eight bytes for `0xFFFFFFFF` at the start of the ring and
overwrites the length word of the reservation `false` holds at offset sixteen. -/
def overwrittenRun : List (Action Bool) :=
  [.tryLockAllocEntry false 8, .beginPost false, .compareTail false, .advanceTail false,
    .tryWaitEntry, .read, .freeEntry, .tryLockAllocEntry false 8,
    .tryLockAllocEntry true 0xFFFFFFFF, .write true 8 255, .beginPost false, .compareTail false,
    .advanceTail false]

theorem overwrittenRun_passes_reservedTail : ∃ final,
    execute System.step (System.start 32 64 4096) overwrittenRun = some final ∧
      final.ring.reservedTail < final.ring.tail ∧
      ¬ InReservationOrder final (totalMemorySize 32 64 4096) := by
  obtain ⟨final, ran, passed⟩ :
      ∃ final, execute System.step (System.start 32 64 4096) overwrittenRun = some final ∧
        final.ring.reservedTail < final.ring.tail := execute_check (by decide +kernel)
  exact ⟨final, ran, passed, fun inOrder => absurd inOrder.cursors.1 (Nat.not_le_of_lt passed)⟩

end AdkAaf.Adk.MultiProducer
