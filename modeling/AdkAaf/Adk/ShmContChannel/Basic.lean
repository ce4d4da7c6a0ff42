import AdkAaf.Adk.ArchGeneric
import AdkAaf.Lib.ByteMemory
import AdkAaf.Lib.RingWindow
import Mathlib.Logic.Function.Basic

/-! The shared memory of an sccl channel (`adk/include/adk/shm_cont_channel.h`): the
words of the header, the write-ahead records of the proxies and the entries.
64-bit words are naturals, with the wrap-around of their additions written out. -/

set_option autoImplicit false

namespace AdkAaf.Adk.Sccl

open Lib

def kIndexShift : Nat := 48

def kCursorMask : Nat := 2 ^ kIndexShift - 1

def kMaxProxySize : Nat := 1024

def kLengthShift : Nat := kIndexShift / 2

def kMaxLength : Nat := 2 ^ kLengthShift

def kLengthMask : Nat := kMaxLength - 1

def add64 (left right : Nat) : Nat := (left + right) % 2 ^ 64

def aligned (length : UInt32) : UInt32 := (length + 7) &&& 0xFFFFFFF8

/-- `Aligned(Entry::Size() + length)`: the 64-bit sum is cut to the `uint32_t`
parameter of `Aligned`. -/
def allocLen (length : UInt32) : Nat := (aligned (8 + length)).toNat

/-! ## The tail word

While a proxy sets up an entry the tail carries its index above the cursor. -/

def restore (mixed : Nat) : Nat := mixed &&& kCursorMask

def unmixed (mixed : Nat) : Nat := (mixed >>> kIndexShift) % 2 ^ 16

def isMixed (mixed : Nat) : Bool := unmixed mixed != 0

def mix (index cursor : Nat) : Nat := add64 (index <<< kIndexShift) cursor

namespace Entry

def bufferSize (word : Nat) : Nat := word &&& kLengthMask

def index (word : Nat) : Nat := (word >>> kIndexShift) % 2 ^ 16

def acquire (index len : Nat) : Nat := (index <<< kIndexShift) ||| (len <<< kLengthShift)

def setBufferSize (word length : Nat) : Nat := add64 word length

def release (word : Nat) : Nat := word &&& kCursorMask

def allocatedLength (word : Nat) : Nat := (word >>> kLengthShift) &&& kLengthMask

def isAcquired (word index : Nat) : Bool := index == Entry.index word && bufferSize word == 0

end Entry

structure WAL where
  cursor : Nat := 0
  threshold : Nat

/-- The records of the proxies are found by `wal->index`, which runs from 1 to
`kMaxProxySize`. -/
structure Shm where
  memorySize : UInt32
  maxMessageSize : UInt32
  head : Nat := 0
  headThreshold : Nat := 0
  tail : Nat := 0
  wals : Nat → WAL
  memory : Memory

namespace Shm

def create (memorySize maxMessageSize : UInt32) (memory : Memory) : Option Shm :=
  if kMaxLength ≤ maxMessageSize.toNat then
    none
  else
    some
      { memorySize := roundToPowerOf2 memorySize
        maxMessageSize := maxMessageSize
        wals := fun _ => { threshold := (roundToPowerOf2 memorySize).toNat }
        memory := memory }

def getEntry (shm : Shm) (cursor : Nat) : Nat := cursor &&& (shm.memorySize - 1).toNat

def entryWord (shm : Shm) (cursor : Nat) : Nat := shm.memory.loadWord (shm.getEntry cursor) 8

def setEntryWord (shm : Shm) (cursor word : Nat) : Shm :=
  { shm with memory := shm.memory.storeWord (shm.getEntry cursor) 8 word }

def setWAL (shm : Shm) (index : Nat) (wal : WAL) : Shm :=
  { shm with wals := Function.update shm.wals index wal }

def refreshThreshold (shm : Shm) : Shm :=
  if shm.headThreshold ≤ shm.head then
    { shm with headThreshold := restore shm.tail }
  else
    shm

def freeEntry (shm : Shm) : Shm :=
  { shm with head := add64 shm.head (Entry.allocatedLength (shm.entryWord shm.head)) }

end Shm

def entryValue (index len size : Nat) : Nat := index * 2 ^ 48 + len * 2 ^ 24 + size

theorem restore_eq (word : Nat) : restore word = word % 2 ^ 48 :=
  Nat.and_two_pow_sub_one_eq_mod word 48

theorem unmixed_eq {word : Nat} (small : word < 2 ^ 64) : unmixed word = word / 2 ^ 48 := by
  rw [unmixed, kIndexShift, Nat.shiftRight_eq_div_pow, Nat.mod_eq_of_lt]
  omega

theorem mix_eq {i cursor : Nat} (bounded : i ≤ kMaxProxySize) (small : cursor < 2 ^ 48) :
    mix i cursor = i * 2 ^ 48 + cursor := by
  unfold kMaxProxySize at bounded
  rw [mix, add64, kIndexShift, Nat.shiftLeft_eq, Nat.mod_eq_of_lt]
  omega

section Words

variable {index len size : Nat}

theorem acquire_eq (fits : len < kMaxLength) :
    Entry.acquire index len = entryValue index len 0 := by
  unfold kMaxLength kLengthShift kIndexShift at fits
  have low : len <<< kLengthShift < 2 ^ kIndexShift := by
    simp only [kLengthShift, kIndexShift, Nat.shiftLeft_eq]
    omega
  rw [Entry.acquire, ← Nat.shiftLeft_add_eq_or_of_lt low]
  simp only [entryValue, kLengthShift, kIndexShift, Nat.shiftLeft_eq]
  omega

theorem bufferSize_entryValue (fits : size < kMaxLength) :
    Entry.bufferSize (entryValue index len size) = size := by
  unfold kMaxLength kLengthShift kIndexShift at fits
  have masked := Nat.and_two_pow_sub_one_eq_mod (entryValue index len size) 24
  rw [Entry.bufferSize, kLengthMask, kMaxLength, kLengthShift, kIndexShift, masked, entryValue]
  omega

theorem index_entryValue (bounded : index ≤ kMaxProxySize) (lenFits : len < kMaxLength)
    (sizeFits : size < kMaxLength) : Entry.index (entryValue index len size) = index := by
  unfold kMaxLength kLengthShift kIndexShift at lenFits sizeFits
  unfold kMaxProxySize at bounded
  rw [Entry.index, kIndexShift, Nat.shiftRight_eq_div_pow, entryValue]
  omega

theorem allocatedLength_entryValue (lenFits : len < kMaxLength) (sizeFits : size < kMaxLength) :
    Entry.allocatedLength (entryValue index len size) = len := by
  unfold kMaxLength kLengthShift kIndexShift at lenFits sizeFits
  have masked := Nat.and_two_pow_sub_one_eq_mod (entryValue index len size >>> 24) 24
  rw [Entry.allocatedLength, kLengthMask, kMaxLength, kLengthShift, kIndexShift, masked,
    Nat.shiftRight_eq_div_pow, entryValue]
  omega

theorem entryValue_lt (bounded : index ≤ kMaxProxySize) (lenFits : len < kMaxLength)
    (sizeFits : size < kMaxLength) : entryValue index len size < 2 ^ 64 := by
  unfold kMaxLength kLengthShift kIndexShift at lenFits sizeFits
  unfold kMaxProxySize at bounded
  rw [entryValue]
  omega

theorem setBufferSize_entryValue (bounded : index ≤ kMaxProxySize) (lenFits : len < kMaxLength)
    (sizeFits : size < kMaxLength) :
    Entry.setBufferSize (entryValue index len 0) size = entryValue index len size := by
  have sum : entryValue index len 0 + size = entryValue index len size := by
    unfold entryValue
    omega
  have small := entryValue_lt bounded lenFits sizeFits
  rw [Entry.setBufferSize, add64, sum, Nat.mod_eq_of_lt small]

theorem release_entryValue (lenFits : len < kMaxLength) :
    Entry.release (entryValue index len 0) = entryValue 0 len 0 := by
  unfold kMaxLength kLengthShift kIndexShift at lenFits
  have masked := Nat.and_two_pow_sub_one_eq_mod (entryValue index len 0) 48
  rw [Entry.release, kCursorMask, kIndexShift, masked]
  simp only [entryValue]
  omega

end Words

theorem allocLen_eq {length : UInt32} (fits : length.toNat + 15 < 2 ^ 32) :
    allocLen length = (length.toNat + 15) / 8 * 8 := by
  have sum : (8 + length + 7).toNat = length.toNat + 15 := by
    rw [UInt32.toNat_add, UInt32.toNat_add]
    simp only [show (8 : UInt32).toNat = 8 from rfl, show (7 : UInt32).toNat = 7 from rfl]
    omega
  rw [allocLen, aligned, UInt32.toNat_and, sum]
  exact and_kAlignedBits fits

/-- What `Agent::Init` guarantees about the sizes. The ring is empty when the
rounding has wrapped around. -/
structure Sized (memorySize maxMessageSize : UInt32) : Prop where
  memorySize : memorySize = 0 ∨ ∃ exponent, memorySize.toNat = 2 ^ exponent
  maxMessageSize : maxMessageSize.toNat < kMaxLength

theorem roundToPowerOf2_cases (v : UInt32) :
    roundToPowerOf2 v = 0 ∨ ∃ exponent, (roundToPowerOf2 v).toNat = 2 ^ exponent := by
  by_cases zero : v.toNat = 0
  · left
    obtain rfl : v = 0 := UInt32.toNat_inj.mp zero
    decide
  · by_cases large : 2 ^ 31 < v.toNat
    · exact .inl (roundToPowerOf2_of_gt large)
    · obtain ⟨exponent, _, size, _⟩ := roundToPowerOf2_of_le (v := v) (by omega) (by omega)
      exact .inr ⟨exponent, size⟩

theorem Sized.getEntry_eq {shm : Shm} (sized : Sized shm.memorySize shm.maxMessageSize)
    (pos : 0 < shm.memorySize.toNat) (cursor : Nat) :
    shm.getEntry cursor = cursor % shm.memorySize.toNat := by
  rcases sized.memorySize with zero | ⟨exponent, size⟩
  · rw [zero] at pos
    cases pos
  · have mask : (shm.memorySize - 1).toNat = 2 ^ exponent - 1 := by
      rw [UInt32.toNat_sub_of_le _ 1 (UInt32.le_iff_toNat_le.mpr pos), size]
      rfl
    rw [Shm.getEntry, mask, Nat.and_two_pow_sub_one_eq_mod, size]

section Store

variable {shm : Shm} {cursor other word : Nat}

theorem entryWord_setEntryWord_self (small : word < 2 ^ 64) :
    (shm.setEntryWord cursor word).entryWord cursor = word := by
  have fits : word < 256 ^ 8 := small
  have loaded := Memory.loadWord_storeWord shm.memory (shm.getEntry cursor) 8 word
  rw [Nat.mod_eq_of_lt fits] at loaded
  exact loaded

theorem entryWord_setEntryWord_apart
    (apart : RangesApart (shm.getEntry cursor) 8 (shm.getEntry other) 8) :
    (shm.setEntryWord cursor word).entryWord other = shm.entryWord other :=
  Memory.loadWord_congr (Memory.storeWord_agreeOn _ _ apart)

theorem entryWord_storeByte {addr : Nat} {byte : UInt8}
    (outside : addr < shm.getEntry other ∨ shm.getEntry other + 8 ≤ addr) :
    Shm.entryWord { shm with memory := shm.memory.storeByte addr byte } other =
      shm.entryWord other :=
  Memory.loadWord_congr (Memory.storeByte_agreeOn _ _ _ outside)

end Store

end AdkAaf.Adk.Sccl
