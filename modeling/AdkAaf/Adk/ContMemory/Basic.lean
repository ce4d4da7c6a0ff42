import AdkAaf.Adk.ArchGeneric
import AdkAaf.Lib.ByteMemory
import AdkAaf.Lib.RingWindow

/-! `ContinueMemory` of `adk/include/adk/lock_free_cont_memory.h`: a ring of
variable-length entries. An entry is kept contiguous by letting it run past the
end of the ring into a reserve zone.

`head`, `tail` and the thresholds are monotonic 64-bit positions, modelled as
naturals. The statistics of the header (`produce_nr`, `consume_nr`, the failure
counters, `max_clen_snap`) and the application context are left out. -/

set_option autoImplicit false

namespace AdkAaf.Adk

open Lib

def kAlignedSize : UInt32 := 8

def kAlignedBits : UInt32 := 0xFFFFFFF8

structure ContinueMemory where
  memorySize : UInt32
  reserveSize : UInt32
  head : Nat := 0
  headThreshold : Nat := 0
  tail : Nat := 0
  reservedTail : Nat := 0
  tailThreshold : Nat
  memory : Memory

namespace ContinueMemory

def calcAllocSize (length : UInt32) : UInt32 := (length + (kAlignedSize - 1)) &&& kAlignedBits

/-- `sizeof(struct ContEntry) + CalcAllocSize(length)`, a 64-bit sum. -/
def allocateLen (length : UInt32) : Nat := 8 + (calcAllocSize length).toNat

def realMemorySize (memorySize : UInt32) : UInt32 := roundToPowerOf2 (max 8 memorySize)

/-- The bytes allocated behind the header. The sum is one of 32-bit values, the
rounding is done in 64 bits. -/
def totalMemorySize (memorySize reserveSize : UInt32) (pageSize : Nat) : Nat :=
  ((realMemorySize memorySize + reserveSize).toNat + (pageSize - 1)) / pageSize * pageSize

def create (memorySize reserveSize : UInt32) (pageSize : Nat) : ContinueMemory :=
  let real := realMemorySize memorySize
  { memorySize := real
    reserveSize := UInt32.ofNat (totalMemorySize memorySize reserveSize pageSize) - real
    tailThreshold := real.toNat
    memory := fun _ => 0 }

variable (ring : ContinueMemory)

def getContEntry (monotonicPos : Nat) : Nat :=
  monotonicPos &&& (ring.memorySize - 1).toNat

def usageLen (entry : Nat) : Nat := ring.memory.loadWord entry 4

def appDataLen (entry : Nat) : Nat := ring.memory.loadWord (entry + 4) 4

/-- What a reader of the entry finds: `app_len` bytes from `buffer` on. -/
def message (entry : Nat) : List UInt8 :=
  ring.memory.loadBytes (entry + 8) (ring.appDataLen entry)

def setHeader (entry len appLen : Nat) : ContinueMemory :=
  { ring with memory := (ring.memory.storeWord entry 4 len).storeWord (entry + 4) 4 appLen }

def storeByte (ring : ContinueMemory) (entry index : Nat) (byte : UInt8) : ContinueMemory :=
  { ring with memory := ring.memory.storeByte (entry + 8 + index) byte }

/-- The check of `tail_threshold`, refreshed from `head` when it looks full. -/
def hasRoom (cursor length : Nat) : Bool × ContinueMemory :=
  if ring.tailThreshold ≤ cursor + length then
    let refreshed := { ring with tailThreshold := ring.head + ring.memorySize.toNat }
    (decide (cursor + length < refreshed.tailThreshold), refreshed)
  else
    (true, ring)

def tryAllocEntry (length : UInt32) : Option Nat × ContinueMemory :=
  match ring.hasRoom ring.tail (allocateLen length) with
  | (false, checked) => (none, checked)
  | (true, checked) =>
    let entry := checked.getContEntry checked.tail
    (some entry, checked.setHeader entry (allocateLen length) length.toNat)

/-- `TryLockAllocEntryImpl`, executed under its lock. -/
def tryLockAllocEntry (length : UInt32) : Option Nat × ContinueMemory :=
  match ring.hasRoom ring.reservedTail (allocateLen length) with
  | (false, checked) => (none, checked)
  | (true, checked) =>
    let entry := checked.getContEntry checked.reservedTail
    (some entry,
      { checked.setHeader entry (allocateLen length) length.toNat with
        reservedTail := checked.reservedTail + allocateLen length })

def adjustEntryLength (entry : Nat) (length : UInt32) : ContinueMemory :=
  ring.setHeader entry (allocateLen length) length.toNat

def postEntry (entry : Nat) : ContinueMemory :=
  { ring with tail := ring.tail + ring.usageLen entry }

def tryWaitEntry : Option Nat × ContinueMemory :=
  if ring.headThreshold ≤ ring.head then
    let refreshed := { ring with headThreshold := ring.tail }
    if refreshed.headThreshold ≤ refreshed.head then
      (none, refreshed)
    else
      (some (refreshed.getContEntry refreshed.head), refreshed)
  else
    (some (ring.getContEntry ring.head), ring)

def freeEntry (entry : Nat) : ContinueMemory :=
  { ring with head := ring.head + ring.usageLen entry }

def footprint (length : Nat) : Nat := 8 + (length + 7) / 8 * 8

theorem allocateLen_eq {len : UInt32} (fits : len.toNat + 7 < 2 ^ 32) :
    allocateLen len = footprint len.toNat := by
  have sum : (len + (kAlignedSize - 1)).toNat = len.toNat + 7 := by
    exact Nat.mod_eq_of_lt fits
  unfold allocateLen footprint calcAllocSize
  rw [UInt32.toNat_and, sum]
  exact congrArg (8 + ·) (and_kAlignedBits fits)

theorem le_footprint (length : Nat) : 8 + length ≤ footprint length := by
  unfold footprint
  omega

theorem footprint_mono {small large : Nat} (le : small ≤ large) :
    footprint small ≤ footprint large := by
  unfold footprint
  omega

theorem realMemorySize_eq {memorySize : UInt32} (small : memorySize.toNat ≤ 2 ^ 31) :
    ∃ exp, (realMemorySize memorySize).toNat = 2 ^ exp ∧
      8 ≤ (realMemorySize memorySize).toNat := by
  have larger : (max 8 memorySize).toNat = max 8 memorySize.toNat := by
    show (if (8 : UInt32) ≤ memorySize then memorySize else 8).toNat = _
    split
    · next le => exact (Nat.max_eq_right (UInt32.le_iff_toNat_le.mp le)).symm
    · next gt =>
      refine (Nat.max_eq_left ?_).symm
      exact Nat.le_of_not_le fun le => gt (UInt32.le_iff_toNat_le.mpr le)
  have upper : (max 8 memorySize).toNat ≤ 2 ^ 31 := larger ▸ Nat.max_le.mpr ⟨by decide, small⟩
  obtain ⟨exp, _, size, covers⟩ := roundToPowerOf2_of_le (by omega) upper
  exact ⟨exp, size, by rw [realMemorySize]; omega⟩

theorem create_block {memorySize reserveSize : UInt32} {pageSize : Nat} (pages : pageSize ∣ 2 ^ 32)
    (eight : 8 ≤ (realMemorySize memorySize).toNat)
    (fits : (realMemorySize memorySize).toNat + reserveSize.toNat < 2 ^ 32) :
    (create memorySize reserveSize pageSize).memorySize.toNat +
      (create memorySize reserveSize pageSize).reserveSize.toNat =
        totalMemorySize memorySize reserveSize pageSize := by
  obtain ⟨count, whole⟩ := pages
  have page : 0 < pageSize := Nat.pos_of_ne_zero fun zero => by simp [zero] at whole
  have sum : (realMemorySize memorySize + reserveSize).toNat =
      (realMemorySize memorySize).toNat + reserveSize.toNat := by
    exact Nat.mod_eq_of_lt fits
  have below : totalMemorySize memorySize reserveSize pageSize ≤ 2 ^ 32 := by
    rw [totalMemorySize, sum, whole, Nat.mul_comm pageSize]
    refine Nat.mul_le_mul_right _ (Nat.lt_succ_iff.mp ((Nat.div_lt_iff_lt_mul page).mpr ?_))
    rw [Nat.succ_mul, Nat.mul_comm count, ← whole]
    omega
  have above : (realMemorySize memorySize).toNat + reserveSize.toNat ≤
      totalMemorySize memorySize reserveSize pageSize := by
    rw [totalMemorySize, sum]
    have split := Nat.div_add_mod
      ((realMemorySize memorySize).toNat + reserveSize.toNat + (pageSize - 1)) pageSize
    have remainder := Nat.mod_lt
      ((realMemorySize memorySize).toNat + reserveSize.toNat + (pageSize - 1)) page
    rw [Nat.mul_comm] at split
    omega
  simp only [create, UInt32.toNat_sub, UInt32.toNat_ofNat']
  omega

theorem getContEntry_eq {ring : ContinueMemory} {exponent : Nat}
    (size : ring.memorySize.toNat = 2 ^ exponent) (monotonicPos : Nat) :
    ring.getContEntry monotonicPos = monotonicPos % ring.memorySize.toNat := by
  have pos : 0 < 2 ^ exponent := Nat.two_pow_pos exponent
  have mask : (ring.memorySize - 1).toNat = 2 ^ exponent - 1 := by
    rw [UInt32.toNat_sub_of_le _ 1 (UInt32.le_iff_toNat_le.mpr (by
      simp only [UInt32.toNat_one, size]; omega)), size]
    rfl
  rw [getContEntry, mask, Nat.and_two_pow_sub_one_eq_mod, size]

structure Holds (ring : ContinueMemory) (entry : Nat) (data : List UInt8) : Prop where
  usage : ring.usageLen entry = footprint data.length
  data : ring.message entry = data

theorem Holds.appDataLen {ring : ContinueMemory} {entry : Nat} {data : List UInt8}
    (holds : ring.Holds entry data) : ring.appDataLen entry = data.length := by
  rw [← holds.data, message, Memory.length_loadBytes]

theorem holds_message {ring : ContinueMemory} {entry : Nat}
    (usage : ring.usageLen entry = footprint (ring.appDataLen entry)) :
    ring.Holds entry (ring.message entry) :=
  ⟨by rw [usage, message, Memory.length_loadBytes], rfl⟩

section Frame

variable {ring next : ContinueMemory} {entry length : Nat}

theorem usageLen_congr (large : 8 ≤ length)
    (agree : Memory.AgreeOn entry (entry + length) next.memory ring.memory) :
    next.usageLen entry = ring.usageLen entry :=
  Memory.loadWord_congr (agree.mono .refl (by omega))

theorem appDataLen_congr (large : 8 ≤ length)
    (agree : Memory.AgreeOn entry (entry + length) next.memory ring.memory) :
    next.appDataLen entry = ring.appDataLen entry :=
  Memory.loadWord_congr (agree.mono (by omega) (by omega))

variable {data : List UInt8}

theorem Holds.congr (holds : ring.Holds entry data)
    (agree : Memory.AgreeOn entry (entry + footprint data.length) next.memory ring.memory) :
    next.Holds entry data := by
  have large := le_footprint data.length
  have appLen := appDataLen_congr (by omega) agree
  refine ⟨(usageLen_congr (by omega) agree).trans holds.usage, ?_⟩
  rw [← holds.data, message, message, appLen]
  refine Memory.loadBytes_congr (agree.mono (by omega) ?_)
  rw [holds.appDataLen]
  omega

theorem Holds.storeByte (holds : ring.Holds entry data) {i : Nat}
    (within : i < data.length) (byte : UInt8) :
    (ring.storeByte entry i byte).Holds entry (data.set i byte) := by
  have header : Memory.AgreeOn entry (entry + 8)
      (ring.storeByte entry i byte).memory ring.memory :=
    Memory.storeByte_agreeOn _ _ _ (by omega)
  have appLen := (appDataLen_congr (Nat.le_refl 8) header).trans holds.appDataLen
  refine ⟨?_, ?_⟩
  · rw [usageLen_congr (Nat.le_refl 8) header, holds.usage, List.length_set]
  · rw [message, appLen]
    refine (Memory.loadBytes_storeByte ring.memory (entry + 8) data.length i byte
      within).trans ?_
    rw [← holds.appDataLen]
    exact congrArg (List.set · i byte) holds.data

theorem Holds.of_memory (holds : ring.Holds entry data)
    (same : next.memory = ring.memory) : next.Holds entry data :=
  holds.congr fun addr _ _ => congrFun same addr

theorem setHeader_agreeOn (ring : ContinueMemory) {low high : Nat} (len appLen : Nat)
    (outside : RangesApart entry 8 low (high - low)) (ordered : low ≤ high) :
    Memory.AgreeOn low high (ring.setHeader entry len appLen).memory ring.memory := by
  unfold RangesApart at outside
  exact (Memory.storeWord_agreeOn _ _ (by omega)).trans
    (Memory.storeWord_agreeOn _ _ (by omega))

theorem setHeader_outside (ring : ContinueMemory) {len appLen : Nat}
    (covers : 8 ≤ length) (low size : Nat) (apart : RangesApart low size entry length) :
    Memory.AgreeOn low (low + size) (ring.setHeader entry len appLen).memory ring.memory := by
  refine setHeader_agreeOn ring len appLen ?_ (by omega)
  unfold RangesApart at *
  omega

theorem setHeader_usageLen (ring : ContinueMemory) (entry len appLen : Nat)
    (small : len < 2 ^ 32) : (ring.setHeader entry len appLen).usageLen entry = len := by
  have kept : (ring.setHeader entry len appLen).usageLen entry =
      (ring.memory.storeWord entry 4 len).loadWord entry 4 :=
    Memory.loadWord_congr (Memory.storeWord_agreeOn _ _ (by omega))
  rw [kept, Memory.loadWord_storeWord]
  exact Nat.mod_eq_of_lt small

theorem setHeader_appDataLen (ring : ContinueMemory) (entry len appLen : Nat)
    (small : appLen < 2 ^ 32) : (ring.setHeader entry len appLen).appDataLen entry = appLen := by
  simp only [appDataLen, setHeader, Memory.loadWord_storeWord]
  exact Nat.mod_eq_of_lt small

end Frame

theorem hasRoom_spec (cursor len : Nat) :
    ∃ threshold, (ring.hasRoom cursor len).2 = { ring with tailThreshold := threshold } ∧
      (threshold = ring.tailThreshold ∨ threshold = ring.head + ring.memorySize.toNat) ∧
      ((ring.hasRoom cursor len).1 = true → cursor + len < threshold) ∧
      ((ring.hasRoom cursor len).1 = false →
        ring.head + ring.memorySize.toNat ≤ cursor + len) := by
  unfold hasRoom
  split
  · refine ⟨_, rfl, .inr rfl, ?_, ?_⟩
    all_goals simp
  · refine ⟨ring.tailThreshold, rfl, .inl rfl, ?_, ?_⟩
    · intro
      omega
    · simp

def SameSizes (next : ContinueMemory) : Prop :=
  next.memorySize = ring.memorySize ∧ next.reserveSize = ring.reserveSize

theorem tryAllocEntry_sizes (len : UInt32) : SameSizes ring (ring.tryAllocEntry len).2 := by
  obtain ⟨threshold, checked, _⟩ := hasRoom_spec ring ring.tail (allocateLen len)
  unfold tryAllocEntry
  split
  · next full =>
    rw [full] at checked
    subst checked
    exact ⟨rfl, rfl⟩
  · next found =>
    rw [found] at checked
    subst checked
    exact ⟨rfl, rfl⟩

theorem tryLockAllocEntry_sizes (len : UInt32) : SameSizes ring (ring.tryLockAllocEntry len).2 := by
  obtain ⟨threshold, checked, _⟩ := hasRoom_spec ring ring.reservedTail (allocateLen len)
  unfold tryLockAllocEntry
  split
  · next full =>
    rw [full] at checked
    subst checked
    exact ⟨rfl, rfl⟩
  · next found =>
    rw [found] at checked
    subst checked
    exact ⟨rfl, rfl⟩

theorem tryLockAllocEntry_refused {ring next : ContinueMemory} {len : UInt32}
    (refused : ring.tryLockAllocEntry len = (none, next)) :
    ∃ threshold, next = { ring with tailThreshold := threshold } ∧
      (threshold = ring.tailThreshold ∨ threshold = ring.head + ring.memorySize.toNat) := by
  obtain ⟨threshold, checked, choice, _⟩ := hasRoom_spec ring ring.reservedTail (allocateLen len)
  unfold tryLockAllocEntry at refused
  split at refused
  · next full =>
    rw [full] at checked
    cases refused
    exact ⟨threshold, checked, choice⟩
  · cases refused

theorem tryWaitEntry_spec :
    ∃ threshold, ring.tryWaitEntry.2 = { ring with headThreshold := threshold } ∧
      (threshold = ring.headThreshold ∨ threshold = ring.tail) ∧
      (ring.tryWaitEntry.1 = none ∧ ring.tail ≤ ring.head ∨
        ring.tryWaitEntry.1 = some (ring.getContEntry ring.head) ∧ ring.head < threshold) := by
  unfold tryWaitEntry
  split
  · dsimp only
    split
    · next empty => exact ⟨_, rfl, .inr rfl, .inl ⟨rfl, empty⟩⟩
    · next filled => exact ⟨_, rfl, .inr rfl, .inr ⟨rfl, Nat.lt_of_not_le filled⟩⟩
  · next known => exact ⟨_, rfl, .inl rfl, .inr ⟨rfl, Nat.lt_of_not_le known⟩⟩

end ContinueMemory

end AdkAaf.Adk
