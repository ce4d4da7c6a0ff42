import AdkAaf.Adk.EncryptConfig.Basic
import AdkAaf.Lib.Frames

/-! The records that follow one another behind the image, and what the functions of
`ConfigFile` make of them. -/

set_option autoImplicit false

namespace AdkAaf.Adk.EncryptConfig

open Lib List

open Lib (charArray cString)
open Lib.ByteFile (readAt writeAt)
open Lib.LittleEndian (encode32 decode32)

theorem arrayXOR_arrayXOR (arr : Bytes) : arrayXOR (arrayXOR arr) = arr := by
  apply ext_getElem?
  intro i
  simp only [arrayXOR, getElem?_mapIdx, Option.map_map]
  have twice : ∀ (byte key : UInt8), byte ^^^ key ^^^ key = byte := by
    intro byte key
    rw [UInt8.xor_assoc, UInt8.xor_self, UInt8.xor_zero]
  cases arr[i]? with
  | none => rfl
  | some byte => exact congrArg some (twice byte _)

@[simp] theorem length_arrayXOR (arr : Bytes) : (arrayXOR arr).length = arr.length :=
  length_mapIdx

theorem readAt_zero {buff field behind : Bytes} {count : Nat} (at_ : buff = field ++ behind)
    (size : count = field.length) : readAt buff 0 count = field := by
  rw [at_, ← nil_append (field ++ behind)]
  exact ByteFile.readAt_append rfl size

namespace ConfigFileInfo

variable {info : ConfigFileInfo}

theorem length_encode (size : info.fileName.length = 256) :
    info.encode.length = fileInfoLength := by
  simp [encode, length_append, size, LittleEndian.length_encode32, fileInfoLength]

theorem decode_encode (size : info.fileName.length = 256) : decode info.encode = info := by
  have name : readAt info.encode 0 256 = info.fileName := readAt_zero rfl size.symm
  have fileSize : readAt info.encode 256 4 = encode32 info.fileSize :=
    ByteFile.readAt_append size.symm rfl
  have capacity : readAt info.encode 260 4 = encode32 info.fileCapacity := by
    have split : info.encode = (info.fileName ++ encode32 info.fileSize) ++
        (encode32 info.fileCapacity ++ []) := by
      rw [encode, append_nil, append_assoc]
    rw [split]
    exact ByteFile.readAt_append (by rw [length_append, size]; rfl) rfl
  rw [decode, name, fileSize, capacity, LittleEndian.decode32_encode32,
    LittleEndian.decode32_encode32]

end ConfigFileInfo

namespace EncryptHeader

variable {header : EncryptHeader}

structure WellFormed (header : EncryptHeader) : Prop where
  eigenVal : header.eigenVal.length = 8
  version : header.version.length = 256
  custom : header.custom.length = 64

theorem length_encode (formed : header.WellFormed) : header.encode.length = headerLength := by
  simp [encode, length_append, formed.eigenVal, formed.version, formed.custom,
    LittleEndian.length_encode32, headerLength]

theorem decode_encode (formed : header.WellFormed) : decode header.encode = header := by
  have split : ∀ (before field behind : Bytes) (pos count : Nat),
      header.encode = before ++ (field ++ behind) → pos = before.length →
      count = field.length → readAt header.encode pos count = field := by
    intro before field behind pos count at_ start size
    rw [at_]
    exact ByteFile.readAt_append start size
  have fileNum := split [] (encode32 header.fileNum) _ 0 4 rfl rfl rfl
  have offset := split (encode32 header.fileNum) (encode32 header.fileListOffset) _ 4 4 rfl rfl rfl
  have eigenVal := split (encode32 header.fileNum ++ encode32 header.fileListOffset)
    header.eigenVal (header.version ++ header.custom) 8 8
    (by rw [encode, append_assoc]) rfl formed.eigenVal.symm
  have version := split
    (encode32 header.fileNum ++ encode32 header.fileListOffset ++ header.eigenVal)
    header.version header.custom 16 256 (by simp only [encode, append_assoc])
    (by rw [length_append, formed.eigenVal]; rfl) formed.version.symm
  have custom := split
    (encode32 header.fileNum ++ encode32 header.fileListOffset ++ header.eigenVal ++ header.version)
    header.custom [] 272 64 (by simp only [encode, append_assoc, append_nil])
    (by rw [length_append, length_append, formed.eigenVal, formed.version]; rfl)
    formed.custom.symm
  rw [decode, fileNum, offset, eigenVal, version, custom, LittleEndian.decode32_encode32,
    LittleEndian.decode32_encode32]

end EncryptHeader

structure Record where
  name : Bytes
  stored : Bytes
  capacity : UInt32

namespace Record

structure WellFormed (record : Record) : Prop where
  short : record.name.length < 256
  plain : 0 ∉ record.name
  fits : record.stored.length ≤ record.capacity.toNat

def info (record : Record) : ConfigFileInfo where
  fileName := charArray 256 record.name
  fileSize := record.stored.length.toUInt32
  fileCapacity := record.capacity

def space (record : Record) : Bytes :=
  replicate (record.capacity.toNat - record.stored.length) 32

def bytes (record : Record) : Bytes := record.info.encode ++ (record.stored ++ record.space)

variable {record : Record}

theorem length_info (record : Record) : record.info.encode.length = fileInfoLength :=
  ConfigFileInfo.length_encode (length_charArray 256 record.name)

theorem decode_info (record : Record) : ConfigFileInfo.decode record.info.encode = record.info :=
  ConfigFileInfo.decode_encode (length_charArray 256 record.name)

theorem WellFormed.length_bytes (formed : record.WellFormed) :
    record.bytes.length = fileInfoLength + record.capacity.toNat := by
  have fits := formed.fits
  rw [bytes, length_append, length_append, length_info, space, length_replicate]
  omega

theorem WellFormed.toNat_fileSize (formed : record.WellFormed) :
    record.info.fileSize.toNat = record.stored.length :=
  Nat.mod_eq_of_lt (formed.fits.trans_lt record.capacity.toNat_lt)

theorem WellFormed.cString_name (formed : record.WellFormed) :
    cString record.info.fileName = record.name :=
  cString_charArray formed.short formed.plain

end Record

abbrev area (records : List Record) : Bytes := Frames.stream Record.bytes records

section Records

variable {records : List Record} {before behind : Bytes} {stream : Stream} {offset : UInt32}

theorem length_area_cons (record : Record) (rest : List Record) :
    (area (record :: rest)).length = record.bytes.length + (area rest).length := by
  rw [area, Frames.stream_cons, length_append]

theorem toNat_behind {record : Record} {rest : List Record} (formed : record.WellFormed)
    (fits : offset.toNat + (area (record :: rest)).length < 2 ^ 32) :
    (offset + fileInfoLength.toUInt32 + record.info.fileCapacity).toNat =
      offset.toNat + record.bytes.length := by
  have info : fileInfoLength.toUInt32.toNat = fileInfoLength := rfl
  have capacity : record.info.fileCapacity.toNat = record.capacity.toNat := rfl
  rw [length_area_cons, formed.length_bytes] at fits
  rw [UInt32.toNat_add, UInt32.toNat_add, info, capacity, formed.length_bytes, Nat.mod_add_mod]
  rw [Nat.mod_eq_of_lt (by omega), Nat.add_assoc]

theorem toNat_streamPos (formed : ∀ record ∈ records, record.WellFormed)
    (fits : offset.toNat + (area records).length < 2 ^ 32) :
    (ConfigFile.streamPos offset (records.map Record.info)).toNat =
      offset.toNat + (area records).length := by
  induction records generalizing offset with
  | nil => rfl
  | cons record rest ih =>
    have own := formed record mem_cons_self
    have here := toNat_behind own fits
    have sum := length_area_cons record rest
    rw [map_cons, ConfigFile.streamPos, foldl_cons]
    have tail := ih (fun record mem => formed record (mem_cons_of_mem _ mem))
      (show (offset + fileInfoLength.toUInt32 + record.info.fileCapacity).toNat +
        (area rest).length < 2 ^ 32 by omega)
    rw [ConfigFile.streamPos] at tail
    rw [tail, here, sum, Nat.add_assoc]

theorem Stream.write_of_good (good : stream.failed = false) (pos : Nat) (bytes : Bytes) :
    stream.write pos bytes = { stream with bytes := writeAt stream.bytes pos bytes } := by
  unfold Stream.write
  rw [if_neg (by rw [good]; simp)]

theorem read_eq {pos count : Nat} {field : Bytes} (good : stream.failed = false)
    (at_ : stream.bytes = before ++ (field ++ behind)) (start : pos = before.length)
    (size : count = field.length) : stream.read pos count = (field, stream) := by
  have found : readAt stream.bytes pos count = field := by
    rw [at_]
    exact ByteFile.readAt_append start size
  unfold Stream.read
  rw [if_neg (by rw [good]; simp), found, size]
  cases stream
  cases good
  simp

theorem readInfos_area (good : stream.failed = false)
    (formed : ∀ record ∈ records, record.WellFormed)
    (at_ : stream.bytes = before ++ (area records ++ behind)) (start : offset.toNat = before.length)
    (fits : before.length + (area records).length < 2 ^ 32) :
    ConfigFile.readInfos stream offset records.length = (records.map Record.info, stream) := by
  induction records generalizing before offset with
  | nil => rfl
  | cons record rest ih =>
    have own := formed record mem_cons_self
    rw [← start] at fits
    have here := toNat_behind own fits
    have sum := length_area_cons record rest
    have info : stream.bytes = before ++ (record.info.encode ++
        (record.stored ++ record.space ++ (area rest ++ behind))) := by
      rw [at_, area, Frames.stream_cons, Record.bytes]
      simp [append_assoc]
    have later : stream.bytes = before ++ record.bytes ++ (area rest ++ behind) := by
      rw [at_, area, Frames.stream_cons]
      simp [append_assoc]
    have read := read_eq good info start (Record.length_info record).symm
    have tail := ih (fun record mem => formed record (mem_cons_of_mem _ mem)) later
      (here.trans (by rw [length_append, start])) (by rw [length_append]; omega)
    rw [length_cons, ConfigFile.readInfos, read]
    dsimp only
    rw [Record.decode_info, tail]
    rfl

end Records

end AdkAaf.Adk.EncryptConfig
