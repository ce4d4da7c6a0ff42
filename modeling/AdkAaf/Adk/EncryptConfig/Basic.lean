import AdkAaf.Lib.ByteFile
import AdkAaf.Lib.CharArray
import AdkAaf.Lib.LittleEndian
import AdkAaf.Lib.Transition
import Mathlib.Data.UInt

/-! `ConfigFile` (`adk/src/encrypt_config/encrypt_config.cpp`): records with a name and a value
are appended to an executable, and behind them a header with the number of records and the
place of the first one. -/

set_option autoImplicit false

namespace AdkAaf.Adk.EncryptConfig

open List

open Lib (charArray cString)
open Lib.ByteFile (readAt writeAt)
open Lib.LittleEndian (encode32 decode32)

abbrev Bytes := List UInt8

/-- What another process or the library does: `EncryptStr` and `DecryptStr` with a key, and
`boost::hash_range`. -/
structure Services where
  encryptStr : Bytes → Bytes → Bytes
  decryptStr : Bytes → Bytes → Bytes
  hashRange : Bytes → UInt64

structure ConfigFileInfo where
  fileName : Bytes
  fileSize : UInt32
  fileCapacity : UInt32

structure EncryptHeader where
  fileNum : UInt32
  fileListOffset : UInt32
  eigenVal : Bytes
  version : Bytes
  custom : Bytes

def fileInfoLength : Nat := 264

def headerLength : Nat := 336

namespace ConfigFileInfo

def encode (info : ConfigFileInfo) : Bytes :=
  info.fileName ++ (encode32 info.fileSize ++ encode32 info.fileCapacity)

def decode (buff : Bytes) : ConfigFileInfo where
  fileName := readAt buff 0 256
  fileSize := decode32 (readAt buff 256 4)
  fileCapacity := decode32 (readAt buff 260 4)

end ConfigFileInfo

namespace EncryptHeader

def zero : EncryptHeader where
  fileNum := 0
  fileListOffset := 0
  eigenVal := replicate 8 0
  version := replicate 256 0
  custom := replicate 64 0

def encode (header : EncryptHeader) : Bytes :=
  encode32 header.fileNum ++ (encode32 header.fileListOffset ++
    (header.eigenVal ++ (header.version ++ header.custom)))

def decode (buff : Bytes) : EncryptHeader where
  fileNum := decode32 (readAt buff 0 4)
  fileListOffset := decode32 (readAt buff 4 4)
  eigenVal := readAt buff 8 8
  version := readAt buff 16 256
  custom := readAt buff 272 64

end EncryptHeader

def arrayXOR (arr : Bytes) : Bytes :=
  arr.mapIdx fun i byte => byte ^^^ [0x5f, 0x37, 0x59, 0xdf].getD (i % 4) 0

def archConf : Bytes := [65, 114, 99, 104, 67, 111, 110, 102]

/-! ## The stream

After a read that comes to the end of the file every operation fails. What such a read leaves
in its buffer is taken as zero. -/

structure Stream where
  bytes : Bytes
  failed : Bool := false

namespace Stream

/-- `tellp` at the end, as `uint32_t`. -/
def length (stream : Stream) : UInt32 :=
  if stream.failed then 0xFFFFFFFF else stream.bytes.length.toUInt32

def read (stream : Stream) (position count : Nat) : Bytes × Stream :=
  if stream.failed then
    (replicate count 0, stream)
  else
    let bytes := readAt stream.bytes position count
    (bytes ++ replicate (count - bytes.length) 0,
      { stream with failed := bytes.length < count })

def write (stream : Stream) (position : Nat) (bytes : Bytes) : Stream :=
  if stream.failed then stream
  else { stream with bytes := writeAt stream.bytes position bytes }

end Stream

structure ConfigFile where
  aesKey : Bytes := []
  confHeader : EncryptHeader := .zero
  outFile : Stream
  fileList : List ConfigFileInfo := []

/-- `GenerateKey`; the four ways to mix are chosen by two bits of the hash. -/
def mix (kind : UInt64) (a b c d : UInt8) : UInt8 :=
  if kind = 0 then (a &&& b) ||| (c &&& d)
  else if kind = 1 then (a &&& c) ||| (b &&& d)
  else if kind = 2 then (a &&& d) ||| (b &&& c)
  else (a ^^^ b) ||| (c &&& d)

def generateKey (services : Services) (custom md5 : Bytes) : Bytes :=
  if md5.length ≠ 256 then
    []
  else
    let kind := (services.hashRange custom &&& 0x30000000) >>> 28
    let code := fun i => md5.getD i 0
    (range 16).map fun i =>
      ([0, 4, 8, 12].map fun k => mix kind (code (16 * i + k)) (code (16 * i + k + 1))
        (code (16 * i + k + 2)) (code (16 * i + k + 3))).sum

namespace ConfigFile

def readInfos (stream : Stream) (streamPos : UInt32) : Nat → List ConfigFileInfo × Stream
  | 0 => ([], stream)
  | count + 1 =>
    let (buff, stream) := stream.read streamPos.toNat fileInfoLength
    let info := ConfigFileInfo.decode buff
    let (rest, stream) :=
      readInfos stream (streamPos + fileInfoLength.toUInt32 + info.fileCapacity) count
    (info :: rest, stream)

variable (config : ConfigFile) (name : Bytes)

def readHeader : Bool × ConfigFile :=
  if config.outFile.length.toNat < headerLength then
    (false, config)
  else
    let (buff, stream) :=
      config.outFile.read (config.outFile.bytes.length - headerLength) headerLength
    let header := EncryptHeader.decode buff
    let header := { header with eigenVal := arrayXOR header.eigenVal }
    if header.eigenVal ≠ archConf then
      (false, { config with confHeader := header, outFile := stream })
    else
      let header := { header with custom := arrayXOR header.custom }
      let (infos, stream) := readInfos stream header.fileListOffset header.fileNum.toNat
      (true, { config with confHeader := header, outFile := stream, fileList := infos })

/-- The header in memory stays scrambled, or becomes that of the file. -/
def writeHeader : ConfigFile :=
  let header : EncryptHeader :=
    { config.confHeader with
      fileNum := config.fileList.length.toUInt32
      eigenVal := arrayXOR archConf
      custom := arrayXOR config.confHeader.custom }
  let (found, read) := readHeader { config with confHeader := header }
  let position :=
    if found then read.outFile.bytes.length - headerLength else read.outFile.bytes.length
  { read with outFile := read.outFile.write position header.encode }

def findConfigFile : Option Nat :=
  config.fileList.findIdx? fun info => cString info.fileName = name

def streamPos (offset : UInt32) (infos : List ConfigFileInfo) : UInt32 :=
  infos.foldl (fun pos info => pos + fileInfoLength.toUInt32 + info.fileCapacity) offset

def readFile : Bytes × ConfigFile :=
  if config.confHeader.fileNum = 0 then
    ([], config)
  else
    match config.findConfigFile (cString name) with
    | none => ([], config)
    | some index =>
      let pos := streamPos config.confHeader.fileListOffset (config.fileList.take index)
      match config.fileList[index]? with
      | none => ([], config)
      | some info =>
        let (bytes, stream) := config.outFile.read
          (pos + fileInfoLength.toUInt32).toNat info.fileSize.toNat
        (bytes, { config with outFile := stream })

def writeFile (value : Bytes) : Bool × ConfigFile :=
  if (config.findConfigFile name).isSome then
    (false, config)
  else if name.length ≥ 256 then
    (false, config)
  else
    let size := value.length.toUInt32
    let info : ConfigFileInfo :=
      { fileName := charArray 256 name, fileSize := size, fileCapacity := size + 100 }
    (true,
      { config with
        confHeader :=
          { config.confHeader with
            fileListOffset :=
              if config.confHeader.fileNum = 0 then config.outFile.length
              else config.confHeader.fileListOffset
            fileNum := config.confHeader.fileNum + 1 }
        outFile := config.outFile.write config.outFile.bytes.length
          (info.encode ++ (value ++ replicate 100 32))
        fileList := config.fileList ++ [info] })

def updateFile (index : Nat) (info : ConfigFileInfo) (value : Bytes) : ConfigFile :=
  let info := { info with fileSize := value.length.toUInt32 }
  let pos := streamPos config.confHeader.fileListOffset (config.fileList.take index)
  { config with
    outFile := config.outFile.write pos.toNat
      (info.encode ++ (value ++ replicate (info.fileCapacity - info.fileSize).toNat 32))
    fileList := config.fileList.set index info }

section Interface

variable (services : Services)

variable (config : ConfigFile) (name : Bytes)

def readConfigFile : Bytes :=
  let encrypted := (config.readFile name).1
  if encrypted = [] then [] else services.decryptStr config.aesKey encrypted

def readValue : Bytes := (config.readFile name).1

def writeConfigFile (value : Bytes) : Bool × ConfigFile :=
  if config.aesKey = [] then
    (false, config)
  else
    let encrypted := services.encryptStr config.aesKey value
    if encrypted = [] then (false, config) else config.writeFile name encrypted

def writeStringPair (value : Bytes) : Bool × ConfigFile :=
  if value = [] then (false, config) else config.writeFile name value

def updateConfigFile (value : Bytes) : Nat × ConfigFile :=
  match config.findConfigFile name with
  | none => (1, config)
  | some index =>
    match config.fileList[index]? with
    | none => (1, config)
    | some info =>
      if config.aesKey = [] then
        (6, config)
      else
        let encrypted := services.encryptStr config.aesKey value
        if encrypted = [] then
          (3, config)
        else if encrypted.length > info.fileCapacity.toNat then
          (4, config)
        else
          (0, config.updateFile index info encrypted)

def key1 : Bytes := [75, 69, 89, 49]

/-- `ConfigFile(exe_path)`. -/
def opened (image : Bytes) : ConfigFile :=
  let (found, config) := readHeader { outFile := { bytes := image } }
  if found then
    let (md5, config) := config.readFile key1
    if md5 = [] then config
    else { config with aesKey := generateKey services (cString config.confHeader.custom) md5 }
  else
    config

/-- `ConfigFile(exe_path, custom, md5_str, version)`. -/
def create (image custom md5 version : Bytes) : ConfigFile :=
  let (found, config) := readHeader { outFile := { bytes := image } }
  let config :=
    if found then
      let length := config.outFile.length - config.confHeader.fileListOffset
      { config with
        outFile := config.outFile.write config.confHeader.fileListOffset.toNat
          (replicate length.toNat 0)
        fileList := [] }
    else
      config
  if custom.length ≥ 64 then
    config
  else if version.length ≥ 256 then
    config
  else
    let config :=
      { config with
        confHeader :=
          { EncryptHeader.zero with
            custom := charArray 64 custom
            version := charArray 256 version } }
    if md5 = [] then config
    else
      (writeFile { config with aesKey := generateKey services custom md5 } key1 md5).2

end Interface

end ConfigFile

end AdkAaf.Adk.EncryptConfig
