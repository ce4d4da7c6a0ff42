import AdkAaf.Adk.LockFreeMsgQueue.Manager
import Mathlib.Data.List.Nodup

/-! The rings of a segment follow one another, and the names of its rows are distinct: both
hold as long as no 32-bit number wraps around and a name is not added twice. -/

set_option autoImplicit false

namespace AdkAaf.Adk.LockFreeMsgQueue

open Function Lib List

open Lib (cString)

theorem cString_nameCopy {name : Name} (short : name.length < 256) (plain : 0 ∉ name) :
    cString (nameCopy name) = name := by
  have whole : name.take 255 = name := take_of_length_le (Nat.le_of_lt_succ short)
  rw [nameCopy, whole, cString_charArray short plain]

namespace MQManager

theorem insertName_apply (map : Name → Option UInt32) (row : QueueMemoryHeader × Nat)
    (name : Name) : insertName map row name =
      (map name).or (if cString row.1.queueName = name then some row.2.toUInt32 else none) := by
  unfold insertName
  split
  · next known =>
    split
    · next same =>
      subst same
      obtain ⟨i, found⟩ := Option.isSome_iff_exists.mp known
      rw [found]
      rfl
    · rw [Option.or_none]
  · next unknown =>
    rw [update_apply]
    by_cases same : name = cString row.1.queueName
    · subst same
      rw [if_pos rfl, if_pos rfl, Option.not_isSome_iff_eq_none.mp unknown]
      rfl
    · rw [if_neg same, if_neg (Ne.symm same), Option.or_none]

theorem foldl_insertName (rows : List (QueueMemoryHeader × Nat)) (map : Name → Option UInt32)
    (name : Name) : rows.foldl insertName map name =
      (map name).or ((rows.find? fun row => cString row.1.queueName = name).map
        fun row => row.2.toUInt32) := by
  induction rows generalizing map with
  | nil => simp
  | cons row rest ih =>
    rw [foldl_cons, ih, insertName_apply, Option.or_assoc, find?_cons]
    by_cases same : cString row.1.queueName = name
    all_goals simp [same]

structure Knows (manager : MQManager) (table : MQTable) : Prop where
  entryPayloadSize : manager.entryPayloadSize = table.entryPayloadSize
  queueHeaderSize : manager.queueHeaderSize = table.queueHeaderSize
  entrySize : manager.entrySize = calcEntrySize table.entryPayloadSize
  mapped : ∀ name index, manager.nameToIndexMap name = some index →
    ∃ header, table.headers[index.toNat]? = some header ∧ cString header.queueName = name
  seen : ∀ index header, index < manager.lastIterate.toNat →
    table.headers[index]? = some header →
    (manager.nameToIndexMap (cString header.queueName)).isSome
  looked : manager.lastIterate.toNat ≤ table.headers.length

section Directory

variable {manager : MQManager} {table : MQTable}

theorem knows_attach (table : MQTable) : (attach table).Knows table where
  entryPayloadSize := rfl
  queueHeaderSize := rfl
  entrySize := rfl
  mapped _ _ found := by cases found
  seen _ _ before := absurd before (Nat.not_lt_zero _)
  looked := Nat.zero_le _

variable {index : Nat} {header : QueueMemoryHeader}

theorem mem_zipIdx_drop {rows : List QueueMemoryHeader} {count : Nat} :
    (header, index) ∈ rows.zipIdx.drop count ↔ count ≤ index ∧ rows[index]? = some header := by
  rw [mem_iff_getElem?]
  simp only [List.getElem?_drop, List.getElem?_zipIdx]
  constructor
  · rintro ⟨place, found⟩
    obtain ⟨row, at_, pair⟩ := Option.map_eq_some_iff.mp found
    cases pair
    rw [Nat.zero_add]
    exact ⟨Nat.le_add_right _ _, at_⟩
  · rintro ⟨after, at_⟩
    obtain ⟨place, rfl⟩ := Nat.exists_eq_add_of_le after
    refine ⟨place, ?_⟩
    rw [at_, Option.map_some, Nat.zero_add]

theorem toNat_toUInt32_of_getElem? (few : table.headers.length < 2 ^ 32)
    (at_ : table.headers[index]? = some header) : index.toUInt32.toNat = index := by
  have below := (List.getElem?_eq_some_iff.mp at_).1
  exact Nat.mod_eq_of_lt (below.trans few)

section

variable (knows : manager.Knows table) (few : table.headers.length < 2 ^ 32)
  (num : table.mqNum.toNat = table.headers.length)
include knows few num

theorem Knows.iterate :
    (manager.iterate table).Knows table ∧ ∀ header ∈ table.headers,
        ((manager.iterate table).nameToIndexMap (cString header.queueName)).isSome := by
  have all : ∀ header ∈ table.headers,
      ((manager.iterate table).nameToIndexMap (cString header.queueName)).isSome := by
    intro header mem
    obtain ⟨index, at_⟩ := List.getElem?_of_mem mem
    simp only [MQManager.iterate, foldl_insertName, Option.isSome_or, Bool.or_eq_true]
    by_cases before : index < manager.lastIterate.toNat
    · exact .inl (knows.seen index header before at_)
    · refine .inr ?_
      rw [Option.isSome_map, find?_isSome]
      exact ⟨(header, index), mem_zipIdx_drop.mpr ⟨Nat.le_of_not_lt before, at_⟩,
        decide_eq_true rfl⟩
  refine ⟨?_, all⟩
  exact {
    __ := knows
    mapped := fun name index found => by
      simp only [MQManager.iterate, foldl_insertName] at found
      rcases Option.or_eq_some_iff.mp found with before | ⟨-, added⟩
      · exact knows.mapped name index before
      · obtain ⟨row, first, rfl⟩ := Option.map_eq_some_iff.mp added
        have named : cString row.1.queueName = name := by simpa using find?_some first
        obtain ⟨-, at_⟩ := mem_zipIdx_drop.mp (mem_of_find?_eq_some first)
        rw [toNat_toUInt32_of_getElem? few at_]
        exact ⟨row.1, at_, named⟩
    seen := fun index header _ at_ => all header (mem_of_getElem? at_)
    looked := num.le }

theorem Knows.attachName (distinct : (table.headers.map (cString ·.queueName)).Nodup)
    {index : UInt32} (at_ : table.headers[index.toNat]? = some header) :
    (manager.attachName table (cString header.queueName)).1 = manager.attachIndex table index := by
  -- the map cannot have another row under this name
  have unique : ∀ {other : MQManager} {found : UInt32}, other.Knows table →
      other.nameToIndexMap (cString header.queueName) = some found → found = index := by
    intro other found known mapped
    obtain ⟨header', at', named⟩ := known.mapped _ found mapped
    rw [← UInt32.toNat_inj]
    have first : (table.headers.map (cString ·.queueName))[found.toNat]? =
        some (cString header.queueName) := by
      rw [List.getElem?_map, at', Option.map_some, named]
    have second : (table.headers.map (cString ·.queueName))[index.toNat]? =
        some (cString header.queueName) := by
      rw [List.getElem?_map, at_, Option.map_some]
    have below := (List.getElem?_eq_some_iff.mp first).1
    exact (List.getElem?_inj below distinct).mp (first.trans second.symm)
  unfold MQManager.attachName
  cases mapped : manager.nameToIndexMap (cString header.queueName) with
  | some found =>
    cases unique knows mapped
    rfl
  | none =>
    obtain ⟨known, all⟩ := knows.iterate few num
    obtain ⟨found, found_⟩ := Option.isSome_iff_exists.mp (all header (mem_of_getElem? at_))
    dsimp only
    rw [found_, Option.bind_some, unique known found_]
    rfl

end

end Directory

end MQManager

theorem calcEntrySize_zero_or_dvd (payloadSize : UInt32) :
    (calcEntrySize payloadSize).toNat = 0 ∨ (calcEntrySize payloadSize).toNat ∣ 2 ^ 32 := by
  rw [calcEntrySize, roundToPowerOf2_toNat]
  generalize ((payloadSize.toUInt64 + 8).toUInt32 - 1).toNat.size = bits
  rcases Nat.lt_or_ge bits 32 with small | large
  · rw [Nat.mod_eq_of_lt (Nat.pow_lt_pow_right (by decide) small)]
    exact .inr (Nat.pow_dvd_pow 2 small.le)
  · exact .inl (Nat.mod_eq_zero_of_dvd (Nat.pow_dvd_pow 2 large))

theorem mul_mod_le {size total : Nat} (power : size = 0 ∨ size ∣ 2 ^ 32) :
    size * (total % 2 ^ 32) ≤ size * total % 2 ^ 64 := by
  rcases power with rfl | ⟨factor, whole⟩
  · simp
  · have split : 2 ^ 64 = size * (factor * 2 ^ 32) := by
      rw [← Nat.mul_assoc, ← whole, ← Nat.pow_add]
    rw [split, Nat.mul_mod_mul_left]
    apply Nat.mul_le_mul_left
    rw [← Nat.mod_mul_left_mod total factor (2 ^ 32)]
    exact Nat.mod_le _ _

namespace MQManager

theorem totalHeaderSize_toNat : totalHeaderSize.toNat = 4096 * 4161 := rfl

theorem totalQueueSize_toNat (entryPayloadSize queueSize extraSize : UInt32) :
    (totalQueueSize entryPayloadSize queueSize extraSize).toNat =
      (calcEntrySize entryPayloadSize).toNat *
        (queueSize.toNat * 4160 + extraSize.toNat) % 2 ^ 64 := by
  have most : maxSharedMsgQueues.toUInt64.toNat = 4160 := rfl
  rw [totalQueueSize, UInt64.toNat_add, UInt64.toNat_mul, UInt64.toNat_mul, UInt64.toNat_mul, most]
  simp only [UInt32.toNat_toUInt64, Nat.mod_mul_mod, Nat.add_mod_mod, Nat.mod_add_mod]
  rw [Nat.mul_add, Nat.mul_assoc]

theorem totalEntryNum_le (entryPayloadSize queueSize extraSize : UInt32) :
    (calcEntrySize entryPayloadSize).toNat * (queueSize * maxSharedMsgQueues + extraSize).toNat ≤
      (totalQueueSize entryPayloadSize queueSize extraSize).toNat := by
  have most : maxSharedMsgQueues.toNat = 4160 := rfl
  have total : (queueSize * maxSharedMsgQueues + extraSize).toNat =
      (queueSize.toNat * 4160 + extraSize.toNat) % 2 ^ 32 := by
    rw [UInt32.toNat_add, UInt32.toNat_mul, most, Nat.mod_add_mod]
  rw [total, totalQueueSize_toNat]
  exact mul_mod_le (calcEntrySize_zero_or_dvd entryPayloadSize)

theorem entriesPlace_toNat {manager : MQManager} (size : manager.queueHeaderSize = pageSize)
    {used : UInt32} (fits : used.toNat * manager.entrySize.toNat < 2 ^ 32) :
    (manager.entriesPlace used).toNat =
      totalHeaderSize.toNat + used.toNat * manager.entrySize.toNat := by
  have headers : pageSize.toUInt64 + (pageSize * maxSharedMsgQueues).toUInt64 = totalHeaderSize :=
    rfl
  have product : (used * manager.entrySize).toUInt64.toNat =
      used.toNat * manager.entrySize.toNat := by
    rw [UInt32.toNat_toUInt64, UInt32.toNat_mul, Nat.mod_eq_of_lt fits]
  rw [entriesPlace, size, headers, UInt64.toNat_add, product, totalHeaderSize_toNat]
  exact Nat.mod_eq_of_lt (by omega)

end MQManager

def rowPlace (index : UInt32) : UInt64 := pageSize.toUInt64 + (pageSize * index).toUInt64

def rowQueue (index : Nat) (header : QueueMemoryHeader) : MPSCQueue :=
  MPSCQueue.init index.toUInt32 (rowPlace index.toUInt32) header

def ringStart (index : Nat) (header : QueueMemoryHeader) : Nat :=
  (rowQueue index header).entries.toNat

def ringEnd (index : Nat) (header : QueueMemoryHeader) : Nat :=
  ringStart index header + Segment.ringSize (rowQueue index header)

structure MQTable.LaidOut (table : MQTable) : Prop where
  queueHeaderSize : table.queueHeaderSize = pageSize
  mqNum : table.mqNum.toNat = table.headers.length
  few : table.headers.length ≤ 4160
  bounds : ∀ index header, table.headers[index]? = some header →
    MQManager.totalHeaderSize.toNat ≤ ringStart index header ∧
      ringEnd index header ≤ MQManager.totalHeaderSize.toNat +
        table.totalEntryNumUsed.toNat * (calcEntrySize table.entryPayloadSize).toNat
  ordered : ∀ first second header other, first < second →
    table.headers[first]? = some header → table.headers[second]? = some other →
    ringEnd first header ≤ ringStart second other
  used : table.totalEntryNumUsed ≤ table.totalEntryNum
  distinct : (table.headers.map (cString ·.queueName)).Nodup

section Layout

variable {table : MQTable} {manager : MQManager} {name : Name} {blockNum : UInt32}

section

variable (laid : table.LaidOut) (knows : manager.Knows table)
include laid knows

theorem MQTable.LaidOut.attachIndex (index : UInt32) :
    manager.attachIndex table index = (table.headers[index.toNat]?).map (rowQueue index.toNat) := by
  have back : index.toNat.toUInt32 = index := UInt32.ofNat_toNat
  have place : manager.headerPlace index = rowPlace index := by
    rw [MQManager.headerPlace, knows.queueHeaderSize, laid.queueHeaderSize, rowPlace]
  unfold MQManager.attachIndex
  split
  · next above =>
    rw [ge_iff_le, UInt32.le_iff_toNat_le, laid.mqNum] at above
    rw [List.getElem?_eq_none above]
    rfl
  · rw [place]
    unfold rowQueue
    rw [back]

theorem MQTable.LaidOut.ringStart_newHeader
    (placed : table.totalEntryNumUsed.toNat * manager.entrySize.toNat < 2 ^ 32) :
    ringStart table.headers.length (manager.newHeader table name blockNum) =
      MQManager.totalHeaderSize.toNat +
        table.totalEntryNumUsed.toNat * (calcEntrySize table.entryPayloadSize).toNat := by
  have size := knows.queueHeaderSize.trans laid.queueHeaderSize
  have place : manager.headerPlace table.mqNum = rowPlace table.mqNum := by
    rw [MQManager.headerPlace, size, rowPlace]
  rw [← knows.entrySize, ← MQManager.entriesPlace_toNat size placed, ringStart, rowQueue,
    ← laid.mqNum]
  simp only [Nat.toUInt32, UInt32.ofNat_toNat, MPSCQueue.init, MQManager.newHeader, place]
  rw [UInt64.add_comm, UInt64.sub_add_cancel]

theorem MQTable.LaidOut.createQueue_eq (unknown : manager.nameToIndexMap name = none)
    (room : ¬ MQManager.Full table (roundToPowerOf2 blockNum)) :
    manager.createQueue table name blockNum = (some (rowQueue table.headers.length
          (manager.newHeader table name (roundToPowerOf2 blockNum))),
        { table with
          headers := table.headers ++ [manager.newHeader table name (roundToPowerOf2 blockNum)]
          totalEntryNumUsed := table.totalEntryNumUsed + roundToPowerOf2 blockNum
          mqNum := table.mqNum + 1 }) := by
  have place : manager.headerPlace table.mqNum = rowPlace table.mqNum := by
    rw [MQManager.headerPlace, knows.queueHeaderSize, laid.queueHeaderSize, rowPlace]
  unfold MQManager.createQueue
  rw [unknown]
  rw [if_neg room, rowQueue, ← laid.mqNum]
  simp [Nat.toUInt32, UInt32.ofNat_toNat, place]

theorem MQTable.LaidOut.append (room : ¬ MQManager.Full table blockNum)
    (fresh : name ∉ table.headers.map (cString ·.queueName))
    (counted : table.totalEntryNumUsed.toNat + blockNum.toNat < 2 ^ 32)
    (placed : table.totalEntryNumUsed.toNat * manager.entrySize.toNat < 2 ^ 32)
    (short : name.length < 256) (plain : 0 ∉ name) :
    MQTable.LaidOut { table with
        headers := table.headers ++ [manager.newHeader table name blockNum]
        totalEntryNumUsed := table.totalEntryNumUsed + blockNum
        mqNum := table.mqNum + 1 } := by
  obtain ⟨below, enough⟩ := not_or.mp room
  have below' : table.headers.length < 4160 := by
    rw [← laid.mqNum]
    exact UInt32.lt_iff_toNat_lt.mp (UInt32.not_le.mp below)
  have sum : (table.totalEntryNumUsed + blockNum).toNat =
      table.totalEntryNumUsed.toNat + blockNum.toNat := by
    rw [UInt32.toNat_add, Nat.mod_eq_of_lt counted]
  have start := @ringStart_newHeader _ _ name blockNum laid knows placed
  have size : Segment.ringSize
      (rowQueue table.headers.length (manager.newHeader table name blockNum)) =
      blockNum.toNat * (calcEntrySize table.entryPayloadSize).toNat := by
    rw [← knows.entryPayloadSize]
    rfl
  -- a row is an old one, or the new one behind them
  have rows : ∀ i header,
      (table.headers ++ [manager.newHeader table name blockNum])[i]? = some header →
      table.headers[i]? = some header ∨
        (i = table.headers.length ∧ header = manager.newHeader table name blockNum) := by
    intro i header at_
    rcases Nat.lt_trichotomy i table.headers.length with before | same | after
    · rw [List.getElem?_append_left before] at at_
      exact .inl at_
    · rw [same, List.getElem?_concat_length, Option.some.injEq] at at_
      exact .inr ⟨same, at_.symm⟩
    · rw [List.getElem?_eq_none (by simp; omega)] at at_
      cases at_
  exact {
    queueHeaderSize := laid.queueHeaderSize
    mqNum := by
      have one : (1 : UInt32).toNat = 1 := rfl
      rw [List.length_append, List.length_singleton, UInt32.toNat_add, laid.mqNum, one]
      exact Nat.mod_eq_of_lt (by omega)
    few := by
      rw [List.length_append, List.length_singleton]
      exact below'
    bounds := fun i header at_ => by
      rw [sum, Nat.add_mul, ← Nat.add_assoc]
      rcases rows i header at_ with old | ⟨rfl, rfl⟩
      · obtain ⟨lower, upper⟩ := laid.bounds i header old
        exact ⟨lower, upper.trans (Nat.le_add_right _ _)⟩
      · rw [ringEnd, size, start]
        exact ⟨Nat.le_add_right _ _, .refl⟩
    ordered := fun first second header other before at_ at' => by
      rcases rows first header at_ with old | ⟨rfl, -⟩
      · rcases rows second other at' with old' | ⟨rfl, rfl⟩
        · exact laid.ordered first second header other before old old'
        · rw [start]
          exact (laid.bounds first header old).2
      · have last := (List.getElem?_eq_some_iff.mp at').1
        rw [List.length_append, List.length_singleton] at last
        omega
    used := by
      simp only [gt_iff_lt, UInt32.not_lt] at enough
      exact enough
    distinct := by
      rw [map_append, map_singleton, nodup_append]
      refine ⟨laid.distinct, nodup_singleton _, ?_⟩
      rintro other mem new_ new rfl
      rw [mem_singleton.mp new] at mem
      exact fresh (cString_nameCopy short plain ▸ mem) }

end

theorem MQManager.Knows.append (knows : manager.Knows table) {used num : UInt32}
    {header : QueueMemoryHeader} :
    manager.Knows { table with
        headers := table.headers ++ [header]
        totalEntryNumUsed := used
        mqNum := num } where
  __ := knows
  mapped name index found := by
    obtain ⟨row, at_, named⟩ := knows.mapped name index found
    have below := (List.getElem?_eq_some_iff.mp at_).1
    exact ⟨row, (List.getElem?_append_left below).trans at_, named⟩
  seen index row before at_ := by
    have below := before.trans_le knows.looked
    rw [List.getElem?_append_left below] at at_
    exact knows.seen index row before at_
  looked := by
    rw [List.length_append]
    exact knows.looked.trans (Nat.le_add_right _ _)

end Layout

namespace Segment

structure Valid (segment : Segment) : Prop where
  laid : segment.table.LaidOut
  knows : ∀ id manager, segment.managers id = some manager → manager.Knows segment.table
  room : MQManager.totalHeaderSize.toNat +
    segment.table.totalEntryNum.toNat * (calcEntrySize segment.table.entryPayloadSize).toNat ≤
      segment.size.toNat
  created : ∀ entry ∈ segment.created, ∃ header,
    segment.table.headers[entry.2.mqIndex.toNat]? = some header ∧
      cString header.queueName = entry.1 ∧ rowQueue entry.2.mqIndex.toNat header = entry.2

section Steps

variable {segment next : Segment}

theorem create_valid {entryPayloadSize queueSize extraSize : UInt32}
    (created : create entryPayloadSize queueSize extraSize = some segment)
    (fits : MQManager.totalHeaderSize.toNat +
      (MQManager.totalQueueSize entryPayloadSize queueSize extraSize).toNat < 2 ^ 64) :
    segment.Valid := by
  unfold create at created
  dsimp only at created
  split at created <;> cases created
  refine ⟨⟨rfl, rfl, Nat.zero_le _, ?_, ?_, ?_, nodup_nil⟩, ?_, ?_, ?_⟩
  · nofun
  · nofun
  · exact UInt32.zero_le
  · intro id manager attached
    simp only [update_apply] at attached
    split at attached
    · rw [← Option.some.inj attached]
      exact MQManager.knows_attach _
    · cases attached
  · dsimp only
    rw [UInt64.toNat_add, Nat.mod_eq_of_lt fits, Nat.mul_comm]
    exact Nat.add_le_add_left (MQManager.totalEntryNum_le _ _ _) _
  · nofun

theorem Valid.few (valid : segment.Valid) : segment.table.headers.length < 2 ^ 32 :=
  valid.laid.few.trans_lt (by decide)

variable {manager : MQManager}

variable {id : Nat} {name : Name} {index : UInt32}

theorem Valid.mapped (valid : segment.Valid) (attached : segment.managers id = some manager)
    (found : manager.nameToIndexMap name = some index) :
    ∃ header, segment.table.headers[index.toNat]? = some header ∧ cString header.queueName = name ∧
      manager.attachIndex segment.table index = some (rowQueue index.toNat header) := by
  have knows := valid.knows id manager attached
  obtain ⟨header, at_, named⟩ := knows.mapped name index found
  refine ⟨header, at_, named, ?_⟩
  rw [valid.laid.attachIndex knows, at_, Option.map_some]

theorem rowQueue_mqIndex (index : UInt32) (header : QueueMemoryHeader) :
    (rowQueue index.toNat header).mqIndex = index := UInt32.ofNat_toNat

section

variable (valid : segment.Valid)
include valid

theorem Valid.attach (knows : manager.Knows segment.table) :
    Valid { segment with managers := update segment.managers id (some manager) } where
  __ := valid
  knows other found attached := by
    simp only [update_apply] at attached
    split at attached
    · rw [← Option.some.inj attached]
      exact knows
    · exact valid.knows other found attached

theorem Valid.createQueue {blockNum : UInt32}
    (may : segment.Allowed (.createQueue id name blockNum))
    (attached : segment.managers id = some manager) :
    Valid { segment with
        table := (manager.createQueue segment.table name blockNum).2
        created := ((manager.createQueue segment.table name blockNum).1.map
          fun queue => (name, queue)).toList ++ segment.created } := by
  have knows := valid.knows id manager attached
  cases found : manager.nameToIndexMap name with
  | some index =>
    obtain ⟨header, at_, named, queue⟩ := valid.mapped attached found
    have same : manager.createQueue segment.table name blockNum =
        (some (rowQueue index.toNat header), segment.table) := by
      unfold MQManager.createQueue
      rw [found, ← queue]
    rw [same]
    refine { valid with created := fun entry mem => ?_ }
    rcases mem_cons.mp mem with rfl | old
    · refine ⟨header, ?_, named, ?_⟩
      · rw [rowQueue_mqIndex]
        exact at_
      · rw [rowQueue_mqIndex]
    · exact valid.created entry old
  | none =>
    obtain ⟨fresh, counted⟩ := may manager (Option.mem_def.mpr attached) found
    by_cases room : MQManager.Full segment.table (roundToPowerOf2 blockNum)
    · have same : manager.createQueue segment.table name blockNum = (none, segment.table) := by
        unfold MQManager.createQueue
        rw [found]
        exact if_pos room
      rw [same]
      exact valid
    · have below : segment.table.mqNum < maxSharedMsgQueues :=
        UInt32.not_le.mp fun above => room (.inl above)
      obtain ⟨sum, rest⟩ := counted below
      obtain ⟨placed, short, plain⟩ := rest room
      rw [valid.laid.createQueue_eq knows found room]
      refine ⟨valid.laid.append knows room fresh sum placed short plain,
        fun other found attached => (valid.knows other found attached).append, valid.room,
        fun entry mem => ?_⟩
      rcases mem_cons.mp mem with rfl | old
      · have index : (rowQueue segment.table.headers.length (manager.newHeader segment.table name
            (roundToPowerOf2 blockNum))).mqIndex.toNat = segment.table.headers.length :=
          Nat.mod_eq_of_lt valid.few
        refine ⟨manager.newHeader segment.table name (roundToPowerOf2 blockNum), ?_,
          cString_nameCopy short plain, ?_⟩
        · dsimp only
          rw [index, List.getElem?_concat_length]
        · dsimp only
          rw [index]
      · obtain ⟨header, at_, facts⟩ := valid.created entry old
        have before := (List.getElem?_eq_some_iff.mp at_).1
        exact ⟨header, (List.getElem?_append_left before).trans at_, facts⟩

theorem Valid.step {action : Action} (may : segment.Allowed action)
    (went : segment.step action = some next) : next.Valid := by
  cases action with
  | attach id =>
    cases went
    exact valid.attach (MQManager.knows_attach _)
  | createQueue id name blockNum =>
    obtain ⟨manager, attached, rfl⟩ := Option.map_eq_some_iff.mp went
    exact valid.createQueue may attached
  | attachIndex id i =>
    obtain ⟨manager, -, rfl⟩ := Option.map_eq_some_iff.mp went
    exact valid
  | attachName id name =>
    obtain ⟨manager, attached, rfl⟩ := Option.map_eq_some_iff.mp went
    have knows := valid.knows id manager attached
    apply valid.attach
    unfold MQManager.attachName
    split
    · exact knows
    · exact (knows.iterate valid.few valid.laid.mqNum).1

theorem Valid.queueAt {queue : MPSCQueue} (found : segment.queueAt index = some queue) :
    ∃ header, segment.table.headers[index.toNat]? = some header ∧
      rowQueue index.toNat header = queue := by
  rw [Segment.queueAt, valid.laid.attachIndex (MQManager.knows_attach _)] at found
  exact Option.map_eq_some_iff.mp found

theorem Valid.safe : segment.Safe where
  inside index queue found := by
    obtain ⟨header, at_, rfl⟩ := valid.queueAt found
    obtain ⟨lower, upper⟩ := valid.laid.bounds _ header at_
    have used := Nat.mul_le_mul_right (calcEntrySize segment.table.entryPayloadSize).toNat
      (UInt32.le_iff_toNat_le.mp valid.laid.used)
    have room := valid.room
    refine ⟨lower, upper.trans ?_⟩
    omega
  apart first second queue other different found found' := by
    obtain ⟨header, at_, rfl⟩ := valid.queueAt found
    obtain ⟨header', at', rfl⟩ := valid.queueAt found'
    have apart : first.toNat ≠ second.toNat := fun same => different (UInt32.toNat_inj.mp same)
    rcases Nat.lt_or_gt_of_ne apart with before | after
    · exact .inl (valid.laid.ordered _ _ _ _ before at_ at')
    · exact .inr (valid.laid.ordered _ _ _ _ after at' at_)
  named entry mem id manager attached := by
    have knows := valid.knows id manager attached
    obtain ⟨header, at_, named, queue⟩ := valid.created entry mem
    have index : manager.attachIndex segment.table entry.2.mqIndex = some entry.2 := by
      rw [valid.laid.attachIndex knows, at_, Option.map_some, queue]
    refine ⟨?_, index⟩
    rw [← named, knows.attachName valid.few valid.laid.mqNum valid.laid.distinct at_]
    exact index
  existing entry mem id manager blockNum attached allowed := by
    obtain ⟨header, at_, named, queue⟩ := valid.created entry mem
    cases found : manager.nameToIndexMap entry.1 with
    | none =>
      obtain ⟨fresh, -⟩ := allowed manager (Option.mem_def.mpr attached) found
      refine absurd ?_ fresh
      rw [← named]
      exact mem_map_of_mem (mem_of_getElem? at_)
    | some index =>
      have knows := valid.knows id manager attached
      have mine := knows.attachName valid.few valid.laid.mqNum valid.laid.distinct at_
      rw [valid.laid.attachIndex knows, at_, Option.map_some, queue, named] at mine
      unfold MQManager.attachName at mine
      rw [found] at mine
      unfold MQManager.createQueue
      rw [found]
      exact congrArg (fun queue => (queue, segment.table)) mine
  distinct := valid.laid.distinct

end

end Steps

end Segment

end AdkAaf.Adk.LockFreeMsgQueue
