import AdkAaf.Adk.ContMemory.Basic
import AdkAaf.Lib.Transition

/-! The queues of `RecordMsgBinaryV2` of `adk/include/adk/record_msg_binary_v2.h`:
how the constructor sizes its rings, and which messages `TryPutMsg` can store
when nothing else is stored. -/

set_option autoImplicit false

namespace AdkAaf.Adk

open List

structure RecordMsgBinaryV2 where
  continueMemoryVec : List ContinueMemory

namespace RecordMsgBinaryV2

open ContinueMemory

def kMaxContMemSize : UInt32 := 512 * 1024 * 1024

def kDefaultContMemSize : UInt32 := 32 * 1024 * 1024

def kMsgMaxSize : UInt32 := 4 * 1024 * 1024

def msgMaxContentSize : UInt32 := kMsgMaxSize - 10 * 1024

inductive ErrorCode where
  | kSuccess
  | kFailure
  | kWouldblock

/-- The number of queues and the size asked for each; the product is one of
`uint32_t`. -/
def queueSizes (queueNum : UInt8) (queueSize : UInt32) : UInt8 × UInt32 :=
  let queueNum := if queueNum = 0 then 1 else queueNum
  let queueSize := if queueSize = 0 then kDefaultContMemSize / queueNum.toUInt32 else queueSize
  if kMaxContMemSize < queueSize * queueNum.toUInt32 then (1, kMaxContMemSize)
  else (queueNum, queueSize)

def create (queueNum : UInt8) (queueSize : UInt32) (pageSize : Nat) : RecordMsgBinaryV2 :=
  let sizes := queueSizes queueNum queueSize
  ⟨replicate sizes.1.toNat (ContinueMemory.create sizes.2 kMsgMaxSize pageSize)⟩

def fill (ring : ContinueMemory) (entry : Nat) (message : List UInt8) : ContinueMemory :=
  message.zipIdx.foldl (fun ring byte => ring.storeByte entry byte.2 byte.1) ring

def tryPutMsg (recorder : RecordMsgBinaryV2) (message : List UInt8) (queueIndex : UInt8) :
    ErrorCode × RecordMsgBinaryV2 :=
  if msgMaxContentSize.toNat < message.length then (.kFailure, recorder)
  else
    let index := queueIndex.toNat % recorder.continueMemoryVec.length
    match recorder.continueMemoryVec[index]? with
    | none => (.kFailure, recorder)
    | some ring =>
      match ring.tryLockAllocEntry (UInt32.ofNat message.length) with
      | (none, ring) => (.kWouldblock, ⟨recorder.continueMemoryVec.set index ring⟩)
      | (some entry, ring) =>
        (.kSuccess, ⟨recorder.continueMemoryVec.set index
          ((fill ring entry message).postEntry entry)⟩)

/-- What producers and the consumer do to a queue, one access at a time; the
calls of any number of threads are interleavings of these. -/
inductive Action where
  | tryLockAllocEntry (queue : Nat) (length : UInt32)
  | storeByte (queue entry index : Nat) (byte : UInt8)
  | postEntry (queue entry : Nat)
  | tryWaitEntry (queue : Nat)
  | freeEntry (queue entry : Nat)

def onQueue (recorder : RecordMsgBinaryV2) (queue : Nat)
    (operation : ContinueMemory → ContinueMemory) : RecordMsgBinaryV2 :=
  ⟨recorder.continueMemoryVec.modify queue operation⟩

def step (recorder : RecordMsgBinaryV2) : Action → RecordMsgBinaryV2
  | .tryLockAllocEntry queue length => recorder.onQueue queue (·.tryLockAllocEntry length |>.2)
  | .storeByte queue entry index byte => recorder.onQueue queue (·.storeByte entry index byte)
  | .postEntry queue entry => recorder.onQueue queue (·.postEntry entry)
  | .tryWaitEntry queue => recorder.onQueue queue (·.tryWaitEntry.2)
  | .freeEntry queue entry => recorder.onQueue queue (·.freeEntry entry)

def AllEmpty (recorder : RecordMsgBinaryV2) : Prop :=
  ∀ ring ∈ recorder.continueMemoryVec, ring.tail = ring.head ∧ ring.reservedTail = ring.head

/-- The sizes asked for that leave every ring at least as large as the largest
entry: a fifteenth of the default, or more than half of `kMsgMaxSize`, which the
rounding doubles, and no more than the rounding can represent. -/
def Suffices (queueNum : UInt8) (queueSize : UInt32) : Prop :=
  queueSize = 0 ∧ queueNum.toNat ≤ 15 ∨
    queueSize ≠ 0 ∧ (2 ^ 29 < queueSize.toNat * max 1 queueNum.toNat % 2 ^ 32 ∨
      2 ^ 21 < queueSize.toNat ∧ queueSize.toNat ≤ 2 ^ 31)

/-- The sizes of a ring do not change, and its threshold never promises more room
than there is. -/
structure Kept (size : UInt32) (ring : ContinueMemory) : Prop where
  size : ring.memorySize = realMemorySize size
  threshold : ring.tailThreshold ≤ ring.head + ring.memorySize.toNat

variable {size : UInt32} {ring : ContinueMemory}

section

variable (kept : Kept size ring)
include kept

theorem Kept.tryLockAllocEntry (length : UInt32) : Kept size (ring.tryLockAllocEntry length).2 := by
  obtain ⟨threshold, checked, choice, _⟩ := hasRoom_spec ring ring.reservedTail (allocateLen length)
  have bounded : threshold ≤ ring.head + ring.memorySize.toNat := by
    rcases choice with same | refreshed
    · exact same ▸ kept.threshold
    · exact refreshed.le
  unfold ContinueMemory.tryLockAllocEntry
  cases found : ring.hasRoom ring.reservedTail (allocateLen length) with
  | mk room next =>
    rw [found] at checked
    subst checked
    cases room with
    | false | true => exact ⟨kept.size, bounded⟩

theorem Kept.tryWaitEntry : Kept size ring.tryWaitEntry.2 := by
  obtain ⟨threshold, next, _⟩ := tryWaitEntry_spec ring
  rw [next]
  exact ⟨kept.size, kept.threshold⟩

theorem Kept.storeByte (entry i : Nat) (byte : UInt8) :
    Kept size (ring.storeByte entry i byte) :=
  ⟨kept.size, kept.threshold⟩

theorem Kept.postEntry (entry : Nat) : Kept size (ring.postEntry entry) :=
  ⟨kept.size, kept.threshold⟩

theorem Kept.freeEntry (entry : Nat) : Kept size (ring.freeEntry entry) :=
  ⟨kept.size, kept.threshold.trans (Nat.add_le_add_right (Nat.le_add_right _ _) _)⟩

theorem Kept.tryLockAllocEntry_isSome (empty : ring.reservedTail = ring.head) (length : UInt32) :
    (ring.tryLockAllocEntry length).1.isSome ↔
      allocateLen length < (realMemorySize size).toNat := by
  obtain ⟨threshold, _, choice, room, full⟩ :=
    hasRoom_spec ring ring.reservedTail (allocateLen length)
  have threshold := kept.threshold
  rw [← kept.size]
  unfold ContinueMemory.tryLockAllocEntry
  cases found : ring.hasRoom ring.reservedTail (allocateLen length) with
  | mk verdict next =>
    rw [found] at room full
    cases verdict with
    | false =>
      have beyond := full rfl
      simp only [Option.isSome_none, Bool.false_eq_true, false_iff]
      omega
    | true =>
      have within := room rfl
      simp only [Option.isSome_some, true_iff]
      omega

end

variable {recorder : RecordMsgBinaryV2}

theorem kept_onQueue {operation : ContinueMemory → ContinueMemory}
    (kept : ∀ ring ∈ recorder.continueMemoryVec, Kept size ring)
    (keeps : ∀ ring, Kept size ring → Kept size (operation ring)) (queue : Nat) :
    ∀ ring ∈ (recorder.onQueue queue operation).continueMemoryVec, Kept size ring := by
  intro ring mem
  obtain ⟨pos, found⟩ := mem_iff_getElem?.mp mem
  rw [onQueue, getElem?_modify] at found
  obtain ⟨before, earlier, made⟩ := Option.map_eq_some_iff.mp found
  have old := kept before (mem_of_getElem? earlier)
  split at made
  · exact made ▸ keeps before old
  · exact made ▸ old

theorem kept_step (kept : ∀ ring ∈ recorder.continueMemoryVec, Kept size ring) (action : Action) :
    ∀ ring ∈ (recorder.step action).continueMemoryVec, Kept size ring := by
  cases action with
  | tryLockAllocEntry queue length =>
    exact kept_onQueue kept (fun _ old => old.tryLockAllocEntry length) queue
  | storeByte queue entry i byte =>
    exact kept_onQueue kept (fun _ old => old.storeByte entry i byte) queue
  | postEntry queue entry => exact kept_onQueue kept (fun _ old => old.postEntry entry) queue
  | tryWaitEntry queue => exact kept_onQueue kept (fun _ old => old.tryWaitEntry) queue
  | freeEntry queue entry => exact kept_onQueue kept (fun _ old => old.freeEntry entry) queue

theorem kept_run (actions : List Action)
    (kept : ∀ ring ∈ recorder.continueMemoryVec, Kept size ring) :
    ∀ ring ∈ (actions.foldl step recorder).continueMemoryVec, Kept size ring := by
  induction actions generalizing recorder with
  | nil => exact kept
  | cons action rest ih => exact ih (kept_step kept action)

theorem length_run (actions : List Action) (recorder : RecordMsgBinaryV2) :
    (actions.foldl step recorder).continueMemoryVec.length = recorder.continueMemoryVec.length := by
  induction actions generalizing recorder with
  | nil => rfl
  | cons action rest ih =>
    rw [foldl_cons, ih]
    cases action <;> exact length_modify _ _ _

theorem kept_create (queueNum : UInt8) (queueSize : UInt32) (pageSize : Nat) :
    ∀ ring ∈ (create queueNum queueSize pageSize).continueMemoryVec,
      Kept (queueSizes queueNum queueSize).2 ring := by
  intro ring mem
  obtain ⟨_, rfl⟩ := mem_replicate.mp mem
  exact ⟨rfl, Nat.le_add_left _ _⟩

theorem msgMaxContentSize_toNat : msgMaxContentSize.toNat = 4184064 := by decide

theorem largest_lt_iff : allocateLen msgMaxContentSize < (realMemorySize size).toNat ↔
      2 ^ 21 < size.toNat ∧ size.toNat ≤ 2 ^ 31 := by
  have largest : allocateLen msgMaxContentSize = 4184072 := by decide
  have asked : (max 8 size).toNat = max 8 size.toNat := toNat_max 8 size
  rw [largest, realMemorySize]
  constructor
  · intro fits
    constructor
    · by_contra small
      obtain ⟨exponent, low, rounded, _⟩ := @roundToPowerOf2_le (max 8 size) 21 (by omega)
        (by omega) (by decide)
      have bound := Nat.pow_le_pow_right (by decide : 0 < 2) low
      omega
    · by_contra large
      rw [roundToPowerOf2_of_gt (by omega)] at fits
      exact Nat.not_lt_zero _ fits
  · rintro ⟨large, small⟩
    obtain ⟨exponent, _, rounded, covers⟩ := @roundToPowerOf2_of_le (max 8 size) (by omega)
      (by omega)
    have high : 21 < exponent := (Nat.pow_lt_pow_iff_right (by decide : 1 < 2)).mp (by omega)
    have bound := Nat.pow_le_pow_right (by decide : 0 < 2) high
    omega

theorem toNat_queueNum (queueNum : UInt8) :
    (if queueNum = 0 then 1 else queueNum).toNat = max 1 queueNum.toNat := by
  split
  · next zero => subst zero; rfl
  · next nonzero =>
    have pos : queueNum.toNat ≠ 0 := fun zero => nonzero (UInt8.toNat_inj.mp zero)
    omega

theorem queueNum_pos (queueNum : UInt8) (queueSize : UInt32) :
    0 < (queueSizes queueNum queueSize).1.toNat := by
  have number := toNat_queueNum queueNum
  unfold queueSizes
  extract_lets count size
  split
  · exact Nat.one_pos
  · exact Nat.lt_of_lt_of_le (Nat.le_max_left 1 _) number.symm.le

theorem suffices_iff (queueNum : UInt8) (queueSize : UInt32) :
    Suffices queueNum queueSize ↔ 2 ^ 21 < (queueSizes queueNum queueSize).2.toNat ∧
      (queueSizes queueNum queueSize).2.toNat ≤ 2 ^ 31 := by
  have number := toNat_queueNum queueNum
  have most : kMaxContMemSize.toNat = 2 ^ 29 := by decide
  have whole : kDefaultContMemSize.toNat = 2 ^ 25 := by decide
  unfold queueSizes Suffices
  dsimp only
  generalize (if queueNum = 0 then 1 else queueNum) = count at number ⊢
  have product : ∀ size : UInt32, kMaxContMemSize < size * count.toUInt32 ↔
      2 ^ 29 < size.toNat * max 1 queueNum.toNat % 2 ^ 32 := by
    intro size
    rw [UInt32.lt_iff_toNat_lt, most, UInt32.toNat_mul, UInt8.toNat_toUInt32, number]
  by_cases default : queueSize = 0
  · have share : (kDefaultContMemSize / count.toUInt32).toNat = 2 ^ 25 / max 1 queueNum.toNat := by
      rw [UInt32.toNat_div, whole, UInt8.toNat_toUInt32, number]
    have within := Nat.div_mul_le_self (2 ^ 25) (max 1 queueNum.toNat)
    have enough : 2 ^ 21 < 2 ^ 25 / max 1 queueNum.toNat ↔ max 1 queueNum.toNat ≤ 15 := by
      rw [← Nat.succ_le_iff, Nat.le_div_iff_mul_le (by omega)]
      omega
    have atMost := Nat.div_le_self (2 ^ 25) (max 1 queueNum.toNat)
    have single : ¬ kMaxContMemSize < kDefaultContMemSize / count.toUInt32 * count.toUInt32 := by
      rw [product, share]
      omega
    rw [if_pos default, if_neg single, share, enough]
    simp only [default, ne_eq, not_true, true_and, false_and, or_false]
    omega
  · rw [if_neg default]
    simp only [default, ne_eq, not_false_iff, true_and, false_and, false_or]
    by_cases many : kMaxContMemSize < queueSize * count.toUInt32
    · have large := (product queueSize).mp many
      rw [if_pos many, most]
      exact iff_of_true (.inl large) (by decide)
    · have fewer := mt (product queueSize).mpr many
      rw [if_neg many]
      simp only [fewer, false_or]

theorem tryPutMsg_kSuccess (kept : ∀ ring ∈ recorder.continueMemoryVec, Kept size ring)
    (empty : recorder.AllEmpty) (queues : 0 < recorder.continueMemoryVec.length)
    {message : List UInt8} (short : message.length ≤ msgMaxContentSize.toNat) (queueIndex : UInt8) :
    (recorder.tryPutMsg message queueIndex).1 = .kSuccess ↔
      allocateLen (UInt32.ofNat message.length) < (realMemorySize size).toNat := by
  have found := getElem?_eq_getElem (Nat.mod_lt queueIndex.toNat queues)
  have mem := mem_of_getElem? found
  rw [← (kept _ mem).tryLockAllocEntry_isSome (empty _ mem).2]
  unfold tryPutMsg
  rw [if_neg (Nat.not_lt.mpr short)]
  dsimp only
  rw [found]
  dsimp only
  split
  · next refused => simp [refused]
  · next allocated => simp [allocated]

/-- Every message that the size check admits can be stored in empty queues, at
whatever positions the runs have left them, exactly for the sizes that suffice. -/
theorem tryPutMsg_succeeds_on_empty_iff (queueNum : UInt8) (queueSize : UInt32) (pageSize : Nat) :
    (∀ actions : List Action, (actions.foldl step (create queueNum queueSize pageSize)).AllEmpty →
      ∀ (message : List UInt8) (queueIndex : UInt8), message.length ≤ msgMaxContentSize.toNat →
        ((actions.foldl step (create queueNum queueSize pageSize)).tryPutMsg message
          queueIndex).1 = .kSuccess) ↔ Suffices queueNum queueSize := by
  have created := kept_create queueNum queueSize pageSize
  have queues : 0 < (create queueNum queueSize pageSize).continueMemoryVec.length :=
    Nat.lt_of_lt_of_eq (queueNum_pos queueNum queueSize) length_replicate.symm
  rw [suffices_iff, ← largest_lt_iff]
  constructor
  · intro always
    have empty : (create queueNum queueSize pageSize).AllEmpty := by
      intro ring member
      obtain ⟨_, rfl⟩ := mem_replicate.mp member
      exact ⟨rfl, rfl⟩
    have longest : (replicate msgMaxContentSize.toNat (0 : UInt8)).length =
        msgMaxContentSize.toNat := length_replicate
    have stored := (tryPutMsg_kSuccess created empty queues longest.le 0).mp
      (always [] empty _ 0 longest.le)
    rwa [longest, UInt32.ofNat_toNat] at stored
  · intro large actions empty message queueIndex short
    refine (tryPutMsg_kSuccess (kept_run actions created) empty
      (Nat.lt_of_lt_of_eq queues (length_run actions _).symm) short queueIndex).mpr ?_
    have shorter : (UInt32.ofNat message.length).toNat = message.length := by
      rw [msgMaxContentSize_toNat] at short
      exact UInt32.toNat_ofNat_of_lt' (short.trans_lt (by decide))
    rw [allocateLen_eq (by rw [shorter]; rw [msgMaxContentSize_toNat] at short; omega), shorter]
    rw [allocateLen_eq (by decide)] at large
    exact (footprint_mono short).trans_lt large

theorem oneMebibyte_refuses : ¬ ∀ actions : List Action,
    (actions.foldl step (create 1 1048576 4096)).AllEmpty →
      ∀ (message : List UInt8) (queueIndex : UInt8), message.length ≤ msgMaxContentSize.toNat →
        ((actions.foldl step (create 1 1048576 4096)).tryPutMsg message queueIndex).1 =
          .kSuccess := by
  intro always
  have empty : (create 1 1048576 4096).AllEmpty := by
    intro ring member
    obtain ⟨_, rfl⟩ := mem_replicate.mp member
    exact ⟨rfl, rfl⟩
  have length : (replicate 2097152 (0 : UInt8)).length = 2097152 := length_replicate
  have short : (replicate 2097152 (0 : UInt8)).length ≤ msgMaxContentSize.toNat := by
    rw [length, msgMaxContentSize_toNat]
    decide
  have stored := (tryPutMsg_kSuccess (kept_create 1 1048576 4096) empty (by decide) short 0).mp
    (always [] empty _ 0 short)
  rw [length] at stored
  exact absurd stored (by decide)

end RecordMsgBinaryV2

end AdkAaf.Adk
