import AdkAaf.Adk.ContMemory.Basic
import AdkAaf.Lib.Transition

/-! How `ShmContMemManager` of `adk/src/lock_free_cont_memory.cpp` divides its
shared memory: a manager header, a slot for the header of each ring, and a
payload area from which `CreateShmContMemory` takes the rings one after another.
Offsets are counted from the manager header. The names of the rings and the
cursors in their headers play no part here. -/

set_option autoImplicit false

namespace AdkAaf.Adk.ShmContMemManager

open Lib

def sizeofShmManagerHeader : Nat := 276

def kContMemoryHeaderAlignedSize : UInt32 := 448

structure ShmManagerHeader where
  headerSize : UInt32
  contMemIndex : UInt32
  contMemLimit : UInt32
  memoryOffsetUsed : UInt32
  memoryOffsetLimit : UInt32
  deriving DecidableEq

/-- `ADK_ROUND_UP` to pages, in 64 bits. -/
def roundUpToPage (pageSize value : Nat) : Nat := (value + (pageSize - 1)) / pageSize * pageSize

/-- The value of an `int` with these bits as a `size_t`. -/
def signExtended (value : UInt32) : Nat :=
  if value.toNat < 2 ^ 31 then value.toNat else 2 ^ 64 - 2 ^ 32 + value.toNat

def realHeaderSize (appCtxSize : UInt32) : UInt32 :=
  let headerSize := max sizeofShmManagerHeader
    (signExtended (roundUp (kContMemoryHeaderAlignedSize + appCtxSize)))
  UInt32.ofNat ((headerSize + 63) / 64 * 64)

def totalHeaderSize (pageSize : Nat) (contMemNum appCtxSize : UInt32) : Nat :=
  roundUpToPage pageSize (realHeaderSize appCtxSize * (contMemNum + 1)).toNat

def totalPayloadSize (pageSize : Nat) (totalSize : UInt32) : Nat :=
  roundUpToPage pageSize totalSize.toNat

structure Request where
  memorySize : UInt32
  reserveSize : UInt32

/-- A ring that has been handed out: where its header lies, and what the header
says about the memory of the ring. -/
structure Ring where
  header : Nat
  memoryEntryOffset : UInt32
  memorySize : UInt32
  reserveSize : UInt32
  deriving DecidableEq

def Ring.entries (ring : Ring) : Nat := ring.header + ring.memoryEntryOffset.toNat

def Ring.size (ring : Ring) : Nat := ring.memorySize.toNat + ring.reserveSize.toNat

/-- A manager and, as history, the payload area that was mapped behind its header
slots, the size of an application context and the rings handed out. -/
structure Manager where
  shmHeader : ShmManagerHeader
  payloadBegin : Nat
  payloadEnd : Nat
  appCtxSize : UInt32
  rings : List Ring := []
  deriving DecidableEq

/-- `CreateShm`, which fails where the sizes add up to nothing. -/
def createShm (pageSize : Nat) (contMemNum totalSize appCtxSize : UInt32) : Option Manager :=
  let headers := totalHeaderSize pageSize contMemNum appCtxSize
  let payload := totalPayloadSize pageSize totalSize
  if headers + payload = 0 then none
  else some
    { shmHeader :=
        { headerSize := realHeaderSize appCtxSize
          contMemIndex := 0
          contMemLimit := contMemNum
          memoryOffsetUsed := UInt32.ofNat headers
          memoryOffsetLimit := UInt32.ofNat (headers + payload) }
      payloadBegin := headers
      payloadEnd := headers + payload
      appCtxSize }

def totalMemorySize (pageSize : Nat) (request : Request) : Nat :=
  roundUpToPage pageSize
    (ContinueMemory.realMemorySize request.memorySize + request.reserveSize).toNat

/-- `AllocMemory`; the size is a `uint32_t` parameter. -/
def ShmManagerHeader.allocMemory (header : ShmManagerHeader) (memorySize : UInt32) :
    Option UInt32 :=
  if header.memoryOffsetUsed + memorySize ≤ header.memoryOffsetLimit then
    some header.memoryOffsetUsed
  else
    none

def createShmContMemory (pageSize : Nat) (header : ShmManagerHeader) (request : Request) :
    Option Ring × ShmManagerHeader :=
  if header.contMemLimit ≤ header.contMemIndex then (none, header)
  else
    let total := totalMemorySize pageSize request
    match header.allocMemory (UInt32.ofNat total) with
    | none => (none, header)
    | some memory =>
      let real := ContinueMemory.realMemorySize request.memorySize
      let memoryHeader :=
        header.headerSize.toNat + (header.contMemIndex * header.headerSize).toNat
      (some
        { header := memoryHeader
          memoryEntryOffset := memory - UInt32.ofNat memoryHeader
          memorySize := real
          reserveSize := UInt32.ofNat total - real },
        { header with
          memoryOffsetUsed := header.memoryOffsetUsed + UInt32.ofNat total
          contMemIndex := header.contMemIndex + 1 })

def Manager.create (pageSize : Nat) (manager : Manager) (request : Request) : Option Manager :=
  let (ring, header) := createShmContMemory pageSize manager.shmHeader request
  some { manager with shmHeader := header, rings := manager.rings ++ ring.toList }

/-- The manager header and the header slots, with the contexts in them. -/
def Manager.headers (manager : Manager) : List (Nat × Nat) :=
  (0, sizeofShmManagerHeader) ::
    (List.range manager.shmHeader.contMemLimit.toNat).map fun index =>
      ((index + 1) * manager.shmHeader.headerSize.toNat,
        kContMemoryHeaderAlignedSize.toNat + manager.appCtxSize.toNat)

structure Manager.Carved (manager : Manager) (request : Request) (ring : Ring) : Prop where
  power : ∃ exponent, ring.memorySize.toNat = 2 ^ exponent
  memorySize : request.memorySize.toNat ≤ ring.memorySize.toNat
  reserveSize : request.reserveSize.toNat ≤ ring.reserveSize.toNat
  above : manager.payloadBegin ≤ ring.entries
  below : ring.entries + ring.size ≤ manager.payloadEnd
  headers : ∀ slot ∈ manager.headers, RangesApart slot.1 slot.2 ring.entries ring.size
  rings : ∀ other ∈ manager.rings,
    RangesApart other.entries other.size ring.entries ring.size

def Manager.Delivers (pageSize : Nat) (manager : Manager) (request : Request) : Prop :=
  match createShmContMemory pageSize manager.shmHeader request with
  | (none, header) => header = manager.shmHeader
  | (some ring, _) => manager.Carved request ring

structure CreationFits (pageSize : Nat) (contMemNum totalSize appCtxSize : UInt32) : Prop where
  slot : kContMemoryHeaderAlignedSize.toNat + appCtxSize.toNat + 63 < 2 ^ 32
  slots : (realHeaderSize appCtxSize).toNat * (contMemNum.toNat + 1) < 2 ^ 32
  total : totalHeaderSize pageSize contMemNum appCtxSize +
    totalPayloadSize pageSize totalSize < 2 ^ 32

/-- The sizes of a request that passes the checks, computed without any wrap. -/
def Manager.RequestFits (pageSize : Nat) (manager : Manager) (request : Request) : Prop :=
  manager.shmHeader.contMemLimit ≤ manager.shmHeader.contMemIndex ∨
    manager.shmHeader.allocMemory (UInt32.ofNat (totalMemorySize pageSize request)) = none ∨
    request.memorySize.toNat ≤ 2 ^ 31 ∧
      (ContinueMemory.realMemorySize request.memorySize).toNat + request.reserveSize.toNat <
        2 ^ 32 ∧
      manager.shmHeader.memoryOffsetUsed.toNat + totalMemorySize pageSize request < 2 ^ 32

structure Manager.Valid (manager : Manager) : Prop where
  slot : sizeofShmManagerHeader ≤ manager.shmHeader.headerSize.toNat ∧
    kContMemoryHeaderAlignedSize.toNat + manager.appCtxSize.toNat ≤
      manager.shmHeader.headerSize.toNat
  slots : (manager.shmHeader.contMemLimit.toNat + 1) * manager.shmHeader.headerSize.toNat ≤
    manager.payloadBegin
  begins : manager.payloadBegin ≤ manager.shmHeader.memoryOffsetUsed.toNat
  limit : manager.shmHeader.memoryOffsetLimit.toNat = manager.payloadEnd
  small : manager.payloadEnd < 2 ^ 32
  rings : ∀ ring ∈ manager.rings, ring.entries + ring.size ≤
    manager.shmHeader.memoryOffsetUsed.toNat

variable {pageSize : Nat}

theorem le_roundUpToPage (page : 0 < pageSize) (value : Nat) :
    value ≤ roundUpToPage pageSize value := by
  have split := Nat.div_add_mod (value + (pageSize - 1)) pageSize
  have remainder := Nat.mod_lt (value + (pageSize - 1)) page
  rw [Nat.mul_comm] at split
  rw [roundUpToPage]
  omega

theorem roundUpToPage_le {bound val : Nat} (page : 0 < pageSize) (pages : pageSize ∣ bound)
    (inside : val ≤ bound) : roundUpToPage pageSize val ≤ bound := by
  obtain ⟨count, rfl⟩ := pages
  rw [roundUpToPage, Nat.mul_comm pageSize]
  apply Nat.mul_le_mul_right
  apply Nat.lt_succ_iff.mp
  apply (Nat.div_lt_iff_lt_mul page).mpr
  rw [Nat.succ_mul, Nat.mul_comm count]
  omega

theorem le_realHeaderSize {appCtxSize : UInt32}
    (fits : kContMemoryHeaderAlignedSize.toNat + appCtxSize.toNat + 63 < 2 ^ 32) :
    sizeofShmManagerHeader ≤ (realHeaderSize appCtxSize).toNat ∧
      kContMemoryHeaderAlignedSize.toNat + appCtxSize.toNat ≤
        (realHeaderSize appCtxSize).toNat := by
  have aligned : kContMemoryHeaderAlignedSize.toNat = 448 := rfl
  have sum : (kContMemoryHeaderAlignedSize + appCtxSize).toNat = 448 + appCtxSize.toNat := by
    rw [UInt32.toNat_add, aligned, Nat.mod_eq_of_lt (by omega)]
  have rounded : (roundUp (kContMemoryHeaderAlignedSize + appCtxSize)).toNat =
      (448 + appCtxSize.toNat + 63) / 64 * 64 := by
    rw [roundUp, UInt32.toNat_mul, UInt32.toNat_div, UInt32.toNat_add, sum]
    simp only [UInt32.reduceToNat]
    omega
  have extended : signExtended (roundUp (kContMemoryHeaderAlignedSize + appCtxSize)) % 2 ^ 32 =
        (448 + appCtxSize.toNat + 63) / 64 * 64 ∧
      448 ≤ signExtended (roundUp (kContMemoryHeaderAlignedSize + appCtxSize)) := by
    rw [signExtended, rounded]
    split <;> omega
  have larger : max sizeofShmManagerHeader
      (signExtended (roundUp (kContMemoryHeaderAlignedSize + appCtxSize))) =
        signExtended (roundUp (kContMemoryHeaderAlignedSize + appCtxSize)) :=
    Nat.max_eq_right (Nat.le_trans (by decide) extended.2)
  have manager : sizeofShmManagerHeader = 276 := rfl
  rw [realHeaderSize, larger, UInt32.toNat_ofNat', manager]
  omega

variable {manager : Manager}

theorem createShm_valid {contMemNum totalSize appCtxSize : UInt32}
    (page : 0 < pageSize) (fits : CreationFits pageSize contMemNum totalSize appCtxSize)
    (created : createShm pageSize contMemNum totalSize appCtxSize = some manager) :
    manager.Valid := by
  have covered := le_roundUpToPage page (realHeaderSize appCtxSize * (contMemNum + 1)).toNat
  have slots : (realHeaderSize appCtxSize * (contMemNum + 1)).toNat =
      (contMemNum.toNat + 1) * (realHeaderSize appCtxSize).toNat := by
    have several := Nat.le_mul_of_pos_left (contMemNum.toNat + 1)
      (Nat.lt_of_lt_of_le (by decide) (le_realHeaderSize fits.slot).1)
    have count : (contMemNum + 1).toNat = contMemNum.toNat + 1 :=
      Nat.mod_eq_of_lt (several.trans_lt fits.slots)
    rw [UInt32.toNat_mul, count, Nat.mod_eq_of_lt fits.slots, Nat.mul_comm]
  unfold createShm at created
  dsimp only at created
  split at created
  · cases created
  · have small := fits.total
    rw [← Option.some.inj created]
    refine ⟨le_realHeaderSize fits.slot, ?_, ?_, ?_, small, ?_⟩
    · exact slots.symm.le.trans covered
    · exact Nat.le_of_eq (UInt32.toNat_ofNat_of_lt'
        (Nat.lt_of_le_of_lt (Nat.le_add_right _ _) small)).symm
    · exact UInt32.toNat_ofNat_of_lt' small
    · nofun

theorem add_offset {header : Nat} {memory : UInt32} (ordered : header ≤ memory.toNat) :
    header + (memory - UInt32.ofNat header).toNat = memory.toNat := by
  have bounded := memory.toNat_lt
  rw [UInt32.toNat_sub, UInt32.toNat_ofNat']
  omega

variable {request : Request}

theorem size_eq (page : 0 < pageSize)
    (sum : (ContinueMemory.realMemorySize request.memorySize).toNat +
      request.reserveSize.toNat < 2 ^ 32) (total : totalMemorySize pageSize request < 2 ^ 32) :
    (ContinueMemory.realMemorySize request.memorySize).toNat +
        (UInt32.ofNat (totalMemorySize pageSize request) -
          ContinueMemory.realMemorySize request.memorySize).toNat =
      totalMemorySize pageSize request := by
  have covers : (ContinueMemory.realMemorySize request.memorySize +
      request.reserveSize).toNat ≤ totalMemorySize pageSize request := le_roundUpToPage page _
  rw [UInt32.toNat_add, Nat.mod_eq_of_lt sum] at covers
  have whole : (UInt32.ofNat (totalMemorySize pageSize request)).toNat =
      totalMemorySize pageSize request := UInt32.toNat_ofNat_of_lt' total
  have filled := @add_offset (ContinueMemory.realMemorySize request.memorySize).toNat
    (UInt32.ofNat (totalMemorySize pageSize request)) (by omega)
  rwa [UInt32.ofNat_toNat, whole] at filled

theorem Manager.Valid.allocated (ok : manager.Valid)
    (free : ¬ manager.shmHeader.contMemLimit ≤ manager.shmHeader.contMemIndex)
    {memory : UInt32} (found : manager.shmHeader.allocMemory
      (UInt32.ofNat (totalMemorySize pageSize request)) = some memory) :
    ∃ ring, createShmContMemory pageSize manager.shmHeader request = (some ring,
        { manager.shmHeader with
          memoryOffsetUsed := manager.shmHeader.memoryOffsetUsed +
            UInt32.ofNat (totalMemorySize pageSize request)
          contMemIndex := manager.shmHeader.contMemIndex + 1 }) ∧
      ring.entries = manager.shmHeader.memoryOffsetUsed.toNat ∧
      ring.memorySize = ContinueMemory.realMemorySize request.memorySize ∧
      ring.reserveSize = UInt32.ofNat (totalMemorySize pageSize request) - ring.memorySize ∧
      manager.shmHeader.memoryOffsetUsed + UInt32.ofNat (totalMemorySize pageSize request) ≤
        manager.shmHeader.memoryOffsetLimit := by
  have placed : manager.shmHeader.headerSize.toNat +
      (manager.shmHeader.contMemIndex * manager.shmHeader.headerSize).toNat ≤
        manager.shmHeader.memoryOffsetUsed.toNat := by
    have less : manager.shmHeader.contMemIndex.toNat + 1 ≤
        manager.shmHeader.contMemLimit.toNat + 1 :=
      Nat.succ_le_succ (Nat.le_of_lt (Nat.lt_of_not_le fun full =>
        free (UInt32.le_iff_toNat_le.mpr full)))
    have slots := Nat.le_trans (Nat.mul_le_mul_right manager.shmHeader.headerSize.toNat less)
      (ok.slots.trans ok.begins)
    rw [UInt32.toNat_mul]
    rw [Nat.succ_mul] at slots
    omega
  unfold ShmManagerHeader.allocMemory at found
  split at found
  · next room =>
    unfold createShmContMemory
    rw [if_neg free]
    dsimp only [ShmManagerHeader.allocMemory]
    rw [if_pos room]
    refine ⟨_, rfl, ?_, rfl, rfl, room⟩
    exact add_offset placed
  · cases found

theorem le_realMemorySize {memorySize : UInt32} (small : memorySize.toNat ≤ 2 ^ 31) :
    memorySize.toNat ≤ (ContinueMemory.realMemorySize memorySize).toNat := by
  have larger : (max 8 memorySize).toNat = max 8 memorySize.toNat := toNat_max 8 memorySize
  obtain ⟨exp, _, size, covers⟩ :=
    @roundToPowerOf2_of_le (max 8 memorySize) (by omega) (by omega)
  rw [ContinueMemory.realMemorySize]
  omega

theorem Manager.Valid.header_below (ok : manager.Valid)
    {slot : Nat × Nat} (mem : slot ∈ manager.headers) :
    slot.1 + slot.2 ≤ manager.payloadBegin := by
  refine Nat.le_trans ?_ ok.slots
  rcases List.mem_cons.mp mem with rfl | mem
  · rw [Nat.zero_add, Nat.succ_mul]
    exact ok.slot.1.trans (Nat.le_add_left _ _)
  · obtain ⟨i, inside, rfl⟩ := List.mem_map.mp mem
    have later := Nat.mul_le_mul_right manager.shmHeader.headerSize.toNat
      (Nat.succ_le_succ (Nat.succ_le_of_lt (List.mem_range.mp inside)))
    rw [Nat.succ_mul] at later
    exact Nat.le_trans (Nat.add_le_add_left ok.slot.2 _) later

theorem Manager.Valid.delivers_iff (ok : manager.Valid)
    (pages : pageSize ∣ 2 ^ 32) (request : Request) :
    manager.Delivers pageSize request ↔ manager.RequestFits pageSize request := by
  unfold Manager.Delivers Manager.RequestFits
  by_cases free : manager.shmHeader.contMemLimit ≤ manager.shmHeader.contMemIndex
  · rw [createShmContMemory, if_pos free]
    exact iff_of_true rfl (.inl free)
  cases found : manager.shmHeader.allocMemory (UInt32.ofNat (totalMemorySize pageSize request)) with
  | none =>
    rw [createShmContMemory, if_neg free]
    dsimp only
    rw [found]
    exact iff_of_true rfl (.inr (.inl rfl))
  | some memory =>
    obtain ⟨ring, made, entries, memorySize, reserveSize, room⟩ := ok.allocated free found
    simp only [made, free, reduceCtorEq, false_or]
    have small := ok.small
    have page := Nat.pos_of_dvd_of_pos pages (Nat.two_pow_pos 32)
    have covers : (ContinueMemory.realMemorySize request.memorySize +
        request.reserveSize).toNat ≤ totalMemorySize pageSize request := le_roundUpToPage page _
    have most : totalMemorySize pageSize request ≤ 2 ^ 32 :=
      roundUpToPage_le page pages (Nat.le_of_lt (UInt32.toNat_lt _))
    have limit := UInt32.le_iff_toNat_le.mp room
    rw [ok.limit, UInt32.toNat_add, UInt32.toNat_ofNat'] at limit
    constructor
    · intro carved
      have ends := carved.below
      have reserved := carved.reserveSize
      rw [entries, Ring.size] at ends
      have asked : request.memorySize.toNat ≤ 2 ^ 31 := by
        by_contra large
        obtain ⟨exp, power⟩ := carved.power
        have positive := Nat.two_pow_pos exp
        have greater : (max 8 request.memorySize).toNat = max 8 request.memorySize.toNat :=
          toNat_max 8 request.memorySize
        rw [memorySize, ContinueMemory.realMemorySize, roundToPowerOf2_of_gt (by omega)] at power
        exact Nat.ne_of_lt positive power
      have sum : (ContinueMemory.realMemorySize request.memorySize).toNat +
          request.reserveSize.toNat < 2 ^ 32 := by
        rw [← memorySize]
        omega
      refine ⟨asked, sum, ?_⟩
      have positive := (ContinueMemory.realMemorySize_eq asked).choose_spec.2
      rw [reserveSize, UInt32.toNat_sub, UInt32.toNat_ofNat', memorySize] at ends
      omega
    · rintro ⟨asked, sum, whole⟩
      have size : ring.memorySize.toNat + ring.reserveSize.toNat =
          totalMemorySize pageSize request := by
        rw [reserveSize, memorySize]
        exact size_eq page sum (by omega)
      rw [UInt32.toNat_add, Nat.mod_eq_of_lt sum] at covers
      have ends : ring.entries + ring.size ≤ manager.payloadEnd := by
        rw [Ring.size, entries]
        omega
      obtain ⟨exp, power, positive⟩ := ContinueMemory.realMemorySize_eq asked
      refine ⟨⟨exp, memorySize ▸ power⟩, ?_, ?_, entries ▸ ok.begins, ends, ?_, ?_⟩
      · exact memorySize ▸ le_realMemorySize asked
      · rw [memorySize] at size
        omega
      · intro slot mem
        exact .inl (entries ▸ (ok.header_below mem).trans ok.begins)
      · intro other mem
        exact .inl (entries ▸ ok.rings other mem)

theorem Manager.Valid.create {manager next : Manager} (valid : manager.Valid)
    (pages : pageSize ∣ 2 ^ 32) (fits : manager.RequestFits pageSize request)
    (created : manager.create pageSize request = some next) : next.Valid := by
  have delivers := (valid.delivers_iff pages request).mpr fits
  unfold Manager.create at created
  cases result : createShmContMemory pageSize manager.shmHeader request with
  | mk outcome header =>
    rw [Manager.Delivers, result] at delivers
    rw [result] at created
    obtain rfl := Option.some.inj created
    cases outcome with
    | none =>
      have same : header = manager.shmHeader := delivers
      subst same
      exact { valid with rings := fun ring mem => valid.rings ring (by simpa using mem) }
    | some ring =>
      have free : ¬ manager.shmHeader.contMemLimit ≤ manager.shmHeader.contMemIndex := by
        intro full
        rw [createShmContMemory, if_pos full] at result
        cases result
      cases found : manager.shmHeader.allocMemory
          (UInt32.ofNat (totalMemorySize pageSize request)) with
      | none =>
        rw [createShmContMemory, if_neg free] at result
        dsimp only at result
        rw [found] at result
        cases result
      | some memory =>
        obtain ⟨_, made, entries, memorySize, reserveSize, room⟩ := valid.allocated free found
        have same := Prod.mk.inj (made.symm.trans result)
        obtain ⟨rfl, rfl⟩ : _ = ring ∧ _ = header := ⟨Option.some.inj same.1, same.2⟩
        obtain ⟨_, sum, whole⟩ := (fits.resolve_left free).resolve_left (by rw [found]; simp)
        have used : (manager.shmHeader.memoryOffsetUsed +
            UInt32.ofNat (totalMemorySize pageSize request)).toNat =
              manager.shmHeader.memoryOffsetUsed.toNat + totalMemorySize pageSize request := by
          rw [UInt32.toNat_add, UInt32.toNat_ofNat']
          omega
        refine { valid with begins := ?_, rings := ?_ }
        · exact valid.begins.trans (used ▸ Nat.le_add_right _ _)
        · intro other mem
          refine Nat.le_trans ?_ used.symm.le
          rcases List.mem_append.mp mem with earlier | last
          · exact (valid.rings other earlier).trans (Nat.le_add_right _ _)
          · obtain rfl : other = _ := by simpa using last
            rw [entries, Ring.size, reserveSize, memorySize]
            exact Nat.add_le_add_left
              (Nat.le_of_eq (size_eq (Nat.pos_of_dvd_of_pos pages (Nat.two_pow_pos 32)) sum
                (by omega))) _

/-- Where the sizes at creation fit, every call of a run delivers if and only if
the sizes of every call fit. -/
theorem delivers_iff_fits {contMemNum totalSize appCtxSize : UInt32} {manager : Manager}
    (pages : pageSize ∣ 2 ^ 32) (fits : CreationFits pageSize contMemNum totalSize appCtxSize)
    (created : createShm pageSize contMemNum totalSize appCtxSize = some manager)
    (requests : List Request) :
    Guarded (Manager.create pageSize) (Manager.Delivers pageSize) manager requests ↔
      Guarded (Manager.create pageSize) (Manager.RequestFits pageSize) manager requests :=
  guarded_iff_of_invariant (fun valid => valid.delivers_iff pages _)
    (fun valid fitting ran => valid.create pages fitting ran)
    (createShm_valid (Nat.pos_of_dvd_of_pos pages (Nat.two_pow_pos 32)) fits created)

def threeGibibytes : Manager :=
  { shmHeader := ⟨448, 0, 2, 4096, 0xC0001000⟩
    payloadBegin := 4096
    payloadEnd := 0xC0001000
    appCtxSize := 0 }

def twoRings : List Request := [⟨0x40000000, 0⟩, ⟨0x40000000, 4096⟩]

theorem twoRings_delivered :
    Guarded (Manager.create 4096) (Manager.Delivers 4096) threeGibibytes twoRings ↔
      Guarded (Manager.create 4096) (Manager.RequestFits 4096) threeGibibytes twoRings :=
  delivers_iff_fits (by decide)
    (⟨by decide, by decide, by decide⟩ : CreationFits 4096 2 0xC0000000 0)
    (by decide +kernel) _

/-- A second ring of two gibibytes does not fit, but the sum of its check wraps. -/
theorem secondRing_not_delivered : createShm 4096 2 0xC0000000 0 = some threeGibibytes ∧
      ¬ Guarded (Manager.create 4096) (Manager.Delivers 4096) threeGibibytes
        [⟨0x80000000, 0⟩, ⟨0x80000000, 0⟩] := by
  refine ⟨by decide +kernel, fun delivered => ?_⟩
  have first : threeGibibytes.create 4096 ⟨0x80000000, 0⟩ = some { threeGibibytes with
        shmHeader := ⟨448, 1, 2, 0x80001000, 0xC0001000⟩
        rings := [⟨448, 3648, 0x80000000, 0⟩] } := by decide +kernel
  obtain ⟨second, _⟩ := (delivered.cons first).2
  have made : createShmContMemory 4096 ⟨448, 1, 2, 0x80001000, 0xC0001000⟩ ⟨0x80000000, 0⟩ =
      (some ⟨896, 0x80000C80, 0x80000000, 0⟩, ⟨448, 2, 2, 0x1000, 0xC0001000⟩) := by
    decide +kernel
  rw [Manager.Delivers, made] at second
  have carved : Manager.Carved _ _ _ := second
  exact absurd carved.below (by decide +kernel)

end AdkAaf.Adk.ShmContMemManager
