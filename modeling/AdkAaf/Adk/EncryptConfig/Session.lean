import AdkAaf.Adk.EncryptConfig.Layout

/-! One session: what an open file holds, and what reading, writing and updating a record
make of it. -/

set_option autoImplicit false

namespace AdkAaf.Adk.EncryptConfig

open Lib List

open Lib (charArray cString)
open Lib.ByteFile (readAt writeAt)

structure Identity where
  image : Bytes
  custom : Bytes
  version : Bytes

structure Identity.Sized (identity : Identity) : Prop where
  custom : identity.custom.length < 64
  plain : 0 ∉ identity.custom
  version : identity.version.length < 256

structure ConfigFile.Holds (config : ConfigFile) (identity : Identity) (records : List Record)
    (tail : Bytes) : Prop where
  good : config.outFile.failed = false
  bytes : config.outFile.bytes = identity.image ++ (area records ++ tail)
  fileNum : config.confHeader.fileNum = records.length.toUInt32
  offset : records ≠ [] → config.confHeader.fileListOffset.toNat = identity.image.length
  custom : config.confHeader.custom = charArray 64 identity.custom
  version : config.confHeader.version = charArray 256 identity.version
  fileList : config.fileList = records.map Record.info
  formed : ∀ record ∈ records, record.WellFormed
  distinct : (records.map Record.name).Nodup
  fits : identity.image.length + (area records).length + tail.length < 2 ^ 32

section Split

variable {records : List Record} {record : Record} {index : Nat}

theorem area_split (at_ : records[index]? = some record) : area records =
      area (records.take index) ++ (record.bytes ++ area (records.drop (index + 1))) := by
  obtain ⟨below, get⟩ := List.getElem?_eq_some_iff.mp at_
  have split : records.drop index = record :: records.drop (index + 1) := by
    rw [← get]
    exact List.drop_eq_getElem_cons below
  rw [← Frames.stream_cons record, ← split, ← Frames.stream_append,
    take_append_drop]

theorem area_set (at_ : records[index]? = some record) (new : Record) :
    area (records.set index new) =
      area (records.take index) ++ (new.bytes ++ area (records.drop (index + 1))) := by
  obtain ⟨below, -⟩ := List.getElem?_eq_some_iff.mp at_
  rw [← Frames.stream_cons new, ← Frames.stream_append,
    List.set_eq_take_append_cons_drop, if_pos below]

theorem length_le_area (formed : ∀ record ∈ records, record.WellFormed) :
    records.length ≤ (area records).length := by
  induction records with
  | nil => exact Nat.zero_le _
  | cons record rest ih =>
    have own := (formed record mem_cons_self).length_bytes
    have tail := ih fun record mem => formed record (mem_cons_of_mem _ mem)
    have info : fileInfoLength = 264 := rfl
    rw [length_area_cons, length_cons]
    omega

end Split

namespace ConfigFile

section Operations

variable {config : ConfigFile} {identity : Identity} {records : List Record} {tail : Bytes}
variable {record : Record} {index : Nat} {name value : Bytes}

theorem Holds.count (holds : config.Holds identity records tail) :
    records.length.toUInt32.toNat = records.length := by
  have short := length_le_area holds.formed
  have fits := holds.fits
  exact Nat.mod_eq_of_lt (show records.length < 2 ^ 32 by omega)

theorem Holds.empty (holds : config.Holds identity records tail)
    (none : config.confHeader.fileNum = 0) : records = [] := by
  have count := holds.count
  rw [← holds.fileNum, none] at count
  exact length_eq_zero_iff.mp count.symm

theorem findIdx?_congr {Item : Type} {items : List Item} {first second : Item → Bool}
    (same : ∀ item ∈ items, first item = second item) :
    items.findIdx? first = items.findIdx? second := by
  induction items with
  | nil => rfl
  | cons item rest ih =>
    rw [List.findIdx?_cons, List.findIdx?_cons, same item mem_cons_self,
      ih fun item mem => same item (mem_cons_of_mem _ mem)]

section

variable (holds : config.Holds identity records tail)
include holds

theorem Holds.findConfigFile (name : Bytes) :
    config.findConfigFile name = records.findIdx? (·.name = name) := by
  rw [ConfigFile.findConfigFile, holds.fileList, List.findIdx?_map]
  refine findIdx?_congr fun record mem => ?_
  rw [Function.comp_apply, (holds.formed record mem).cString_name]

theorem Holds.found (at_ : records[index]? = some record) :
    config.findConfigFile record.name = some index := by
  obtain ⟨below, get⟩ := List.getElem?_eq_some_iff.mp at_
  rw [holds.findConfigFile, List.findIdx?_eq_some_iff_getElem]
  refine ⟨below, by simp [get], fun other before => ?_⟩
  have names : (records.map Record.name)[index]? = some record.name := by
    rw [List.getElem?_map, at_, Option.map_some]
  intro same
  have first : (records.map Record.name)[other]? = some record.name := by
    rw [List.getElem?_map, List.getElem?_eq_getElem (before.trans below), Option.map_some,
      of_decide_eq_true same]
  have bound := (List.getElem?_eq_some_iff.mp first).1
  have equal := (List.getElem?_inj bound holds.distinct).mp (first.trans names.symm)
  exact Nat.ne_of_lt before equal

theorem Holds.record_of_found (found : config.findConfigFile name = some index) :
    ∃ record, records[index]? = some record ∧ record.name = name := by
  rw [holds.findConfigFile, List.findIdx?_eq_some_iff_getElem] at found
  obtain ⟨below, named, -⟩ := found
  exact ⟨_, List.getElem?_eq_getElem below, of_decide_eq_true named⟩

section

variable (at_ : records[index]? = some record)
include at_

theorem Holds.info_at : config.fileList[index]? = some record.info := by
  rw [holds.fileList, List.getElem?_map, at_, Option.map_some]

theorem Holds.streamPos :
    (streamPos config.confHeader.fileListOffset (config.fileList.take index)).toNat =
      identity.image.length + (area (records.take index)).length := by
  have split := congrArg length (area_split at_)
  have fits := holds.fits
  have offset := holds.offset (ne_nil_of_mem (mem_of_getElem? at_))
  rw [length_append] at split
  rw [holds.fileList, ← map_take, toNat_streamPos, offset]
  · exact fun record mem => holds.formed record (mem_of_mem_take mem)
  · rw [offset]
    omega

theorem Holds.readFile : config.readFile record.name = (record.stored, config) := by
  have mem := mem_of_getElem? at_
  have formed := holds.formed record mem
  have some_ : config.confHeader.fileNum ≠ 0 := fun none =>
    ne_nil_of_mem mem (holds.empty none)
  have whole := cString_of_plain formed.plain
  have place := holds.streamPos at_
  have split := congrArg length (area_split at_)
  have bytes := formed.length_bytes
  have info : fileInfoLength.toUInt32.toNat = fileInfoLength := rfl
  have fits := holds.fits
  have start : (ConfigFile.streamPos config.confHeader.fileListOffset
      (config.fileList.take index) + fileInfoLength.toUInt32).toNat =
      (identity.image ++ area (records.take index) ++ record.info.encode).length := by
    rw [length_append] at split
    rw [length_append] at split
    rw [UInt32.toNat_add, place, info, length_append, length_append,
      Record.length_info]
    exact Nat.mod_eq_of_lt (by omega)
  have stands : config.outFile.bytes =
      identity.image ++ area (records.take index) ++ record.info.encode ++
        (record.stored ++ (record.space ++ area (records.drop (index + 1)) ++ tail)) := by
    rw [holds.bytes, area_split at_, Record.bytes]
    simp [append_assoc]
  have read := read_eq holds.good stands start formed.toNat_fileSize
  unfold ConfigFile.readFile
  rw [if_neg some_, whole, holds.found at_]
  dsimp only
  rw [holds.info_at at_]
  dsimp only
  rw [read]

end

end

theorem Holds.writeFile (holds : config.Holds identity records [])
    (new : ∀ record ∈ records, record.name ≠ name) (short : name.length < 256) (plain : 0 ∉ name)
    (fits : config.outFile.bytes.length + 364 + value.length < 2 ^ 32) :
    (config.writeFile name value).1 = true ∧ (config.writeFile name value).2.Holds identity
        (records ++ [⟨name, value, value.length.toUInt32 + 100⟩]) [] ∧
      (config.writeFile name value).2.aesKey = config.aesKey := by
  have absent : config.findConfigFile name = none := by
    rw [holds.findConfigFile, List.findIdx?_eq_none_iff]
    intro record mem
    exact decide_eq_false (new record mem)
  have size : value.length.toUInt32.toNat = value.length :=
    Nat.mod_eq_of_lt (show value.length < 2 ^ 32 by omega)
  have capacity : (value.length.toUInt32 + 100).toNat = value.length + 100 := by
    have hundred : (100 : UInt32).toNat = 100 := rfl
    rw [UInt32.toNat_add, size, hundred]
    exact Nat.mod_eq_of_lt (by omega)
  have formed : Record.WellFormed ⟨name, value, value.length.toUInt32 + 100⟩ :=
    ⟨short, plain, by rw [capacity]; exact Nat.le_add_right _ _⟩
  have appended : area (records ++ [⟨name, value, value.length.toUInt32 + 100⟩]) =
      area records ++ Record.bytes ⟨name, value, value.length.toUInt32 + 100⟩ := by
    simp [Frames.stream]
  have bytes := holds.bytes
  rw [append_nil] at bytes
  unfold ConfigFile.writeFile
  rw [if_neg (by rw [absent]; simp), if_neg (Nat.not_le.mpr short)]
  dsimp only
  rw [Stream.write_of_good holds.good, ByteFile.writeAt_end rfl]
  refine ⟨rfl, ?_, rfl⟩
  exact {
    __ := holds
    bytes := by
      rw [bytes, appended, append_nil, Record.bytes, Record.space, capacity,
        Nat.add_sub_cancel_left]
      simp only [append_assoc]
      rfl
    fileNum := by
      rw [holds.fileNum, length_append, length_singleton]
      exact (UInt32.ofNat_add _ _).symm
    offset := fun _ => by
      split
      · next none =>
        have empty := holds.empty none
        rw [Stream.length, holds.good, if_neg (by simp), bytes, empty]
        simp only [Frames.stream, map_nil, flatten_nil, append_nil]
        exact Nat.mod_eq_of_lt (by have fits := holds.fits; omega)
      · next some_ =>
        refine holds.offset ?_
        rintro rfl
        exact some_ holds.fileNum
    fileList := by
      rw [holds.fileList, map_append]
      rfl
    formed := fun record mem => by
      rcases mem_append.mp mem with old | own
      · exact holds.formed record old
      · rw [mem_singleton.mp own]
        exact formed
    distinct := by
      rw [map_append, nodup_append]
      refine ⟨holds.distinct, nodup_singleton _, ?_⟩
      rintro other mem new_ own rfl
      obtain ⟨record, old, named⟩ := mem_map.mp mem
      exact new record old (named.trans (mem_singleton.mp own))
    fits := by
      have info : fileInfoLength = 264 := rfl
      have total := congrArg length bytes
      rw [length_append] at total
      rw [appended, length_append, formed.length_bytes, capacity, length_nil]
      omega }

theorem Holds.updateFile (holds : config.Holds identity records tail)
    (at_ : records[index]? = some record) (small : value.length ≤ record.capacity.toNat) :
    (config.updateFile index record.info value).Holds identity
      (records.set index { record with stored := value }) tail := by
  have formed := holds.formed record (mem_of_getElem? at_)
  have formed' : Record.WellFormed { record with stored := value } :=
    ⟨formed.short, formed.plain, small⟩
  have same := formed'.length_bytes.trans formed.length_bytes.symm
  have space : (record.capacity - value.length.toUInt32).toNat =
      record.capacity.toNat - value.length := by
    have size := formed'.toNat_fileSize
    have size' : value.length.toUInt32.toNat = value.length := size
    rw [UInt32.toNat_sub_of_le, size']
    rw [UInt32.le_iff_toNat_le, size']
    exact small
  have place : (ConfigFile.streamPos config.confHeader.fileListOffset
      (config.fileList.take index)).toNat =
      (identity.image ++ area (records.take index)).length := by
    rw [holds.streamPos at_, length_append]
  have stands : config.outFile.bytes = identity.image ++ area (records.take index) ++
      (record.bytes ++ (area (records.drop (index + 1)) ++ tail)) := by
    rw [holds.bytes, area_split at_]
    simp [append_assoc]
  have sizes : (area (records.set index { record with stored := value })).length =
      (area records).length := by
    rw [area_set at_, area_split at_, length_append, length_append, length_append,
      length_append, same]
  have names : (records.set index { record with stored := value }).map Record.name =
      records.map Record.name := by
    have below := (List.getElem?_eq_some_iff.mp at_).1
    apply ext_getElem?
    intro place
    rw [List.getElem?_map, List.getElem?_map, List.getElem?_set]
    by_cases same : index = place
    · rw [if_pos same, if_pos below, ← same, at_]
      rfl
    · rw [if_neg same]
  unfold ConfigFile.updateFile
  dsimp only [Record.info]
  rw [Stream.write_of_good holds.good, space]
  exact {
    __ := holds
    bytes := by
      rw [stands, area_set at_]
      refine (ByteFile.writeAt_append place same).trans ?_
      simp [append_assoc]
    fileNum := by
      rw [length_set]
      exact holds.fileNum
    offset := fun some_ => holds.offset (by simpa using some_)
    fileList := by
      rw [holds.fileList, map_set]
      rfl
    formed := fun other mem => by
      rcases mem_or_eq_of_mem_set mem with old | rfl
      · exact holds.formed other old
      · exact formed'
    distinct := by
      rw [names]
      exact holds.distinct
    fits := by
      rw [sizes]
      exact holds.fits }

theorem Holds.updateConfigFile (holds : config.Holds identity records tail) (services : Services)
    (at_ : records[index]? = some record) (key : config.aesKey ≠ [])
    (nonempty : services.encryptStr config.aesKey value ≠ []) :
    config.updateConfigFile services record.name value =
      if (services.encryptStr config.aesKey value).length > record.capacity.toNat then (4, config)
      else (0, config.updateFile index record.info (services.encryptStr config.aesKey value)) := by
  unfold ConfigFile.updateConfigFile
  rw [holds.found at_]
  dsimp only
  rw [holds.info_at at_]
  dsimp only
  rw [if_neg key, if_neg nonempty]
  rfl

def EndsInHeader (bytes : Bytes) : Prop :=
  headerLength ≤ bytes.length.toUInt32.toNat ∧
    arrayXOR (EncryptHeader.decode
      (readAt bytes (bytes.length - headerLength) headerLength)).eigenVal = archConf

instance (bytes : Bytes) : Decidable (EndsInHeader bytes) :=
  inferInstanceAs (Decidable (_ ∧ _))

def fileHeader (identity : Identity) (records : List Record) : EncryptHeader where
  fileNum := records.length.toUInt32
  fileListOffset := identity.image.length.toUInt32
  eigenVal := arrayXOR archConf
  version := charArray 256 identity.version
  custom := arrayXOR (charArray 64 identity.custom)

theorem fileHeader_wellFormed (identity : Identity) (records : List Record) :
    (fileHeader identity records).WellFormed where
  eigenVal := rfl
  version := length_charArray 256 _
  custom := (length_arrayXOR _).trans (length_charArray 64 _)

theorem length_fileHeader (identity : Identity) (records : List Record) :
    (fileHeader identity records).encode.length = headerLength :=
  EncryptHeader.length_encode (fileHeader_wellFormed identity records)

theorem readHeader_of_not_endsInHeader (good : config.outFile.failed = false)
    (headless : ¬ EndsInHeader config.outFile.bytes) :
    ∃ header, config.readHeader = (false, { config with confHeader := header }) := by
  have len : config.outFile.length = config.outFile.bytes.length.toUInt32 := by
    rw [Stream.length, good, if_neg (by simp)]
  unfold ConfigFile.readHeader
  split
  · exact ⟨_, rfl⟩
  · next long =>
    rw [len] at long
    have within : headerLength ≤ config.outFile.bytes.length :=
      (Nat.le_of_not_lt long).trans (Nat.mod_le _ _)
    have size : (readAt config.outFile.bytes (config.outFile.bytes.length - headerLength)
        headerLength).length = headerLength := ByteFile.length_readAt (by omega)
    have read : config.outFile.read (config.outFile.bytes.length - headerLength) headerLength =
        (readAt config.outFile.bytes (config.outFile.bytes.length - headerLength) headerLength,
          config.outFile) := by
      unfold Stream.read
      dsimp only
      rw [size, Nat.sub_self, replicate_zero, append_nil]
      cases stream : config.outFile with
      | mk bytes failed =>
        rw [stream] at good
        cases good
        simp
    rw [read]
    dsimp only
    rw [if_pos fun ends => headless ⟨Nat.le_of_not_lt long, ends⟩]
    exact ⟨_, rfl⟩

theorem readHeader_of_records (good : config.outFile.failed = false) (bytes : config.outFile.bytes =
      identity.image ++ (area records ++ (fileHeader identity records).encode))
    (formed : ∀ record ∈ records, record.WellFormed)
    (fits : identity.image.length + (area records).length + headerLength < 2 ^ 32) :
    config.readHeader =
      (true,
        { config with
          confHeader :=
            { fileHeader identity records with
              eigenVal := archConf
              custom := charArray 64 identity.custom }
          fileList := records.map Record.info }) := by
  have size := length_fileHeader identity records
  have total := congrArg length bytes
  rw [length_append, length_append, size] at total
  have length : config.outFile.length.toNat = config.outFile.bytes.length := by
    rw [Stream.length, good, if_neg (by simp)]
    exact Nat.mod_eq_of_lt (show config.outFile.bytes.length < 2 ^ 32 by omega)
  have stands : config.outFile.bytes =
      identity.image ++ area records ++ ((fileHeader identity records).encode ++ []) := by
    rw [bytes, append_nil, append_assoc]
  have start : config.outFile.bytes.length - headerLength =
      (identity.image ++ area records).length := by
    rw [length_append]
    omega
  have count : records.length.toUInt32.toNat = records.length := by
    have short := length_le_area formed
    exact Nat.mod_eq_of_lt (show records.length < 2 ^ 32 by omega)
  have offset : identity.image.length.toUInt32.toNat = identity.image.length :=
    Nat.mod_eq_of_lt (show identity.image.length < 2 ^ 32 by omega)
  have infos := readInfos_area good formed bytes offset (by omega)
  unfold ConfigFile.readHeader
  rw [if_neg (by rw [length]; omega), read_eq good stands start size.symm]
  dsimp only
  rw [EncryptHeader.decode_encode (fileHeader_wellFormed identity records)]
  simp [fileHeader, arrayXOR_arrayXOR, ne_eq, not_true_eq_false, count, infos]

theorem Holds.header (holds : config.Holds identity records tail) (listed : records ≠ []) :
    { config.confHeader with
      fileNum := config.fileList.length.toUInt32
      eigenVal := arrayXOR archConf
      custom := arrayXOR config.confHeader.custom } = fileHeader identity records := by
  have offset : config.confHeader.fileListOffset = identity.image.length.toUInt32 := by
    have fits := holds.fits
    rw [← UInt32.toNat_inj, holds.offset listed]
    exact (Nat.mod_eq_of_lt (show identity.image.length < 2 ^ 32 by omega)).symm
  dsimp only
  rw [holds.custom, holds.version, holds.fileList, length_map, offset]
  rfl

theorem Holds.writeHeader (holds : config.Holds identity records tail) (listed : records ≠ [])
    (ends : tail = (fileHeader identity records).encode ∨
      (tail = [] ∧ ¬ EndsInHeader config.outFile.bytes))
    (fits : identity.image.length + (area records).length + headerLength < 2 ^ 32) :
    config.writeHeader.outFile.bytes =
      identity.image ++ (area records ++ (fileHeader identity records).encode) := by
  have header := holds.header listed
  unfold ConfigFile.writeHeader
  dsimp only
  rw [header]
  rcases ends with rfl | ⟨rfl, headless⟩
  · have read := @readHeader_of_records { config with confHeader := fileHeader identity records }
      identity records holds.good holds.bytes holds.formed fits
    have size := length_fileHeader identity records
    have start : config.outFile.bytes.length - headerLength =
        (identity.image ++ area records).length := by
      rw [holds.bytes, length_append, length_append, length_append, size]
      omega
    have stands : config.outFile.bytes =
        identity.image ++ area records ++ ((fileHeader identity records).encode ++ []) := by
      rw [holds.bytes, append_nil, append_assoc]
    rw [read]
    rw [if_pos rfl, Stream.write_of_good holds.good]
    rw [start, stands, ByteFile.writeAt_append rfl rfl, append_nil, append_assoc]
  · obtain ⟨garbage, read⟩ :=
      @readHeader_of_not_endsInHeader { config with confHeader := fileHeader identity records }
        holds.good headless
    rw [read]
    rw [if_neg (by simp), Stream.write_of_good holds.good]
    rw [ByteFile.writeAt_end rfl, holds.bytes, append_nil, append_assoc]

variable {md5 : Bytes}

theorem md5_ne_nil (sized : md5.length = 256) : md5 ≠ [] := by
  rintro rfl
  cases sized

theorem key1_plain : key1.length < 256 ∧ 0 ∉ key1 := by decide

theorem holds_opened (services : Services) {bytes : Bytes}
    (closed : bytes = identity.image ++ (area records ++ (fileHeader identity records).encode))
    (formed : ∀ record ∈ records, record.WellFormed) (distinct : (records.map Record.name).Nodup)
    (sized : identity.Sized)
    (fits : identity.image.length + (area records).length + headerLength < 2 ^ 32)
    (first : ∃ capacity, records[0]? = some ⟨key1, md5, capacity⟩) (whole : md5.length = 256) :
    (opened services bytes).Holds identity records (fileHeader identity records).encode ∧
      (opened services bytes).aesKey = generateKey services identity.custom md5 := by
  have read := @readHeader_of_records { outFile := { bytes := bytes } } identity records rfl closed
    formed fits
  have size := length_fileHeader identity records
  have holds : Holds
      { outFile := { bytes := bytes }
        confHeader :=
          { fileHeader identity records with
            eigenVal := archConf
            custom := charArray 64 identity.custom }
        fileList := records.map Record.info } identity records
      (fileHeader identity records).encode :=
    { good := rfl
      bytes := closed
      fileNum := rfl
      offset := fun _ =>
        Nat.mod_eq_of_lt (show identity.image.length < 2 ^ 32 by omega)
      custom := rfl
      version := rfl
      fileList := rfl
      formed := formed
      distinct := distinct
      fits := by rw [size]; exact fits }
  obtain ⟨capacity, at_⟩ := first
  have key := holds.readFile at_
  unfold opened
  rw [read]
  dsimp only at key ⊢
  rw [if_pos rfl, key]
  rw [if_neg (md5_ne_nil whole), cString_charArray sized.custom sized.plain]
  exact ⟨⟨rfl, closed, rfl, holds.offset, rfl, rfl, rfl, formed, distinct, holds.fits⟩, rfl⟩

theorem holds_create (services : Services) (sized : identity.Sized)
    (headless : ¬ EndsInHeader identity.image) (small : identity.image.length < 2 ^ 31)
    (whole : md5.length = 256) :
    (create services identity.image identity.custom md5 identity.version).Holds identity
        [⟨key1, md5, 356⟩] [] ∧
      (create services identity.image identity.custom md5 identity.version).aesKey =
        generateKey services identity.custom md5 := by
  obtain ⟨garbage, read⟩ :=
    @readHeader_of_not_endsInHeader { outFile := { bytes := identity.image } } rfl headless
  have empty : Holds
      { aesKey := generateKey services identity.custom md5
        confHeader :=
          { EncryptHeader.zero with
            custom := charArray 64 identity.custom
            version := charArray 256 identity.version }
        outFile := { bytes := identity.image } } identity [] [] :=
    { good := rfl
      bytes := (append_nil _).symm
      fileNum := rfl
      offset := fun some_ => absurd rfl some_
      custom := rfl
      version := rfl
      fileList := rfl
      formed := fun record mem => absurd mem not_mem_nil
      distinct := nodup_nil
      fits := small.trans_le (by decide) }
  obtain ⟨-, holds, key⟩ := empty.writeFile (fun record mem => absurd mem not_mem_nil)
    key1_plain.1 key1_plain.2
    (show identity.image.length + 364 + md5.length < 2 ^ 32 by omega)
  have capacity : md5.length.toUInt32 + 100 = 356 := by
    rw [whole]
    rfl
  rw [capacity, nil_append] at holds
  unfold create
  rw [read]
  dsimp only
  rw [if_neg (Nat.not_le.mpr sized.custom), if_neg (Nat.not_le.mpr sized.version),
    if_neg (md5_ne_nil whole)]
  exact ⟨holds, key⟩

theorem generateKey_ne_nil (services : Services) (custom : Bytes) (whole : md5.length = 256) :
    generateKey services custom md5 ≠ [] := by
  unfold generateKey
  rw [if_neg (by simp [whole])]
  intro none
  cases congrArg length none

end Operations

end ConfigFile

end AdkAaf.Adk.EncryptConfig
