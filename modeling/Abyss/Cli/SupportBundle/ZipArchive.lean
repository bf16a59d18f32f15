import Abyss.Archive.Zip
import Abyss.Text.Utf8

/-! The support bundle: its archive, encoded in one pass over the entries and one over the
central directory, and written beside its destination. -/
namespace Abyss.Cli.SupportBundle
open Abyss.Text Abyss.Data Abyss.Archive

abbrev Bytes := List UInt8

inductive IoErrorKind where
  | invalidInput | alreadyExists | other
  deriving DecidableEq, Repr

structure IoError where
  kind : IoErrorKind
  message : String
  deriving DecidableEq, Repr

/-- `CliError::filesystem`. -/
structure CliError where
  action : String
  path : Str
  source : IoError

section Encoding

def appendU16 (buffer : Bytes) (value : UInt16) : Bytes := buffer ++ leBytes 2 value.toNat
def appendU32 (buffer : Bytes) (value : UInt32) : Bytes := buffer ++ leBytes 4 value.toNat

/-- `u32::try_from`. -/
def u32TryFrom (n : Nat) (message : String) : Except IoError UInt32 :=
  if n < 2 ^ 32 then .ok (UInt32.ofNat n) else .error ⟨.invalidInput, message⟩

/-- `u16::try_from`. -/
def u16TryFrom (n : Nat) (message : String) : Except IoError UInt16 :=
  if n < 2 ^ 16 then .ok (UInt16.ofNat n) else .error ⟨.invalidInput, message⟩

/-- A civil time in UTC. -/
structure UtcTime where
  year : Int
  month : Nat
  day : Nat
  hour : Nat
  minute : Nat
  second : Nat
  month_le : month ≤ 12
  day_le : day ≤ 31
  hour_lt : hour < 24
  minute_lt : minute < 60
  second_lt : second < 60

def dosYear (timestamp : UtcTime) : Nat := (max 0 (min (timestamp.year - 1980) 127)).toNat

def dosTimestamp (timestamp : UtcTime) : UInt16 × UInt16 :=
  let year := UInt16.ofNat (dosYear timestamp)
  let time := (UInt16.ofNat timestamp.hour <<< 11) ||| (UInt16.ofNat timestamp.minute <<< 5) |||
    (UInt16.ofNat timestamp.second >>> 1)
  let date := (year <<< 9) ||| (UInt16.ofNat timestamp.month <<< 5) ||| UInt16.ofNat timestamp.day
  (time, date)

/-- One bit of the inner loop of `crc32`. -/
def crc32Bit (crc : UInt32) : UInt32 := if crc &&& 1 = 1 then (0xEDB88320 : UInt32) ^^^ (crc >>> 1) else crc >>> 1

/-- One round of the outer loop. -/
def crc32Byte (crc : UInt32) (byte : UInt8) : UInt32 := crc32Bit^[8] (crc ^^^ byte.toUInt32)

def crc32 (bytes : Bytes) : UInt32 := bytes.foldl crc32Byte 0xFFFFFFFF ^^^ 0xFFFFFFFF

/-- What the first pass keeps of an entry for the second. -/
structure CentralEntry where
  path : Bytes
  checksum : UInt32
  size : UInt32
  offset : UInt32
  nameLength : UInt16

def appendLocalHeader (archive : Bytes) (timestamp : UInt16 × UInt16) (checksum size : UInt32) (nameLength : UInt16) : Bytes :=
  let archive := appendU32 archive 0x04034B50
  let archive := appendU16 archive 20
  let archive := appendU16 archive 0
  let archive := appendU16 archive 0
  let archive := appendU16 archive timestamp.1
  let archive := appendU16 archive timestamp.2
  let archive := appendU32 archive checksum
  let archive := appendU32 archive size
  let archive := appendU32 archive size
  let archive := appendU16 archive nameLength
  appendU16 archive 0

/-- One round of the first pass. -/
def appendEntry (timestamp : UInt16 × UInt16) (archive : Bytes) (centralDirectory : List CentralEntry)
    (entry : Str × Bytes) : Except IoError (Bytes × List CentralEntry) := do
  let name := toUtf8 entry.1
  let content := entry.2
  let size ← u32TryFrom content.length "support file exceeds ZIP limit"
  let nameLength ← u16TryFrom name.length "support path exceeds ZIP limit"
  let offset ← u32TryFrom archive.length "support archive exceeds ZIP limit"
  let checksum := crc32 content
  let archive := appendLocalHeader archive timestamp checksum size nameLength
  return (archive ++ name ++ content, centralDirectory ++ [⟨name, checksum, size, offset, nameLength⟩])

/-- The first pass. -/
def appendEntries (timestamp : UInt16 × UInt16) (archive : Bytes) (centralDirectory : List CentralEntry) :
    List (Str × Bytes) → Except IoError (Bytes × List CentralEntry)
  | [] => .ok (archive, centralDirectory)
  | entry :: entries => do
    let (archive, centralDirectory) ← appendEntry timestamp archive centralDirectory entry
    appendEntries timestamp archive centralDirectory entries

/-- One round of the second pass. -/
def appendCentralHeader (timestamp : UInt16 × UInt16) (archive : Bytes) (entry : CentralEntry) : Bytes :=
  let archive := appendU32 archive 0x02014B50
  let archive := appendU16 archive 20
  let archive := appendU16 archive 20
  let archive := appendU16 archive 0
  let archive := appendU16 archive 0
  let archive := appendU16 archive timestamp.1
  let archive := appendU16 archive timestamp.2
  let archive := appendU32 archive entry.checksum
  let archive := appendU32 archive entry.size
  let archive := appendU32 archive entry.size
  let archive := appendU16 archive entry.nameLength
  let archive := appendU16 archive 0
  let archive := appendU16 archive 0
  let archive := appendU16 archive 0
  let archive := appendU16 archive 0
  let archive := appendU32 archive 0
  let archive := appendU32 archive entry.offset
  archive ++ entry.path

def appendEndRecord (archive : Bytes) (entryCount : UInt16) (centralSize centralOffset : UInt32) : Bytes :=
  let archive := appendU32 archive 0x06054B50
  let archive := appendU16 archive 0
  let archive := appendU16 archive 0
  let archive := appendU16 archive entryCount
  let archive := appendU16 archive entryCount
  let archive := appendU32 archive centralSize
  let archive := appendU32 archive centralOffset
  appendU16 archive 0

/-- `try_from` and `checked_sub` of the length behind the central directory. -/
def centralSizeOf (length : Nat) (centralOffset : UInt32) : Except IoError UInt32 :=
  if length < 2 ^ 32 ∧ centralOffset.toNat ≤ length then .ok (UInt32.ofNat (length - centralOffset.toNat))
  else .error ⟨.invalidInput, "support archive exceeds ZIP limit"⟩

/-- The archive that `write_to` builds in memory. -/
def archiveBytes (now : UtcTime) (entries : List (Str × Bytes)) : Except IoError Bytes := do
  let timestamp := dosTimestamp now
  let (archive, centralDirectory) ← appendEntries timestamp [] [] entries
  let centralOffset ← u32TryFrom archive.length "support archive exceeds ZIP limit"
  let archive := centralDirectory.foldl (appendCentralHeader timestamp) archive
  let centralSize ← centralSizeOf archive.length centralOffset
  let entryCount ← u16TryFrom centralDirectory.length "too many support files"
  return appendEndRecord archive entryCount centralSize centralOffset

end Encoding

section Writing

/-- A path with its file name taken apart as `file_stem` and `extension` do. -/
structure FilePath where
  parent : Str
  stem : Str
  extension : Option Str
  deriving DecidableEq, Repr

namespace FilePath

def withExtension (path : FilePath) (extension : Str) : FilePath := { path with extension := some extension }

def display (path : FilePath) : Str :=
  path.parent ++ '/' :: path.stem ++ match path.extension with
    | none => []
    | some extension => '.' :: extension

/-- Where the process writes before it replaces the destination. -/
def temporary (destination : FilePath) (pid : Nat) : FilePath :=
  destination.withExtension ("tmp-".toList ++ Nat.toDigits 10 pid)

end FilePath

abbrev Files := FilePath → Option Bytes

/-- What the calls to the system do, where they do not succeed; a failed write leaves a front part. -/
structure Faults where
  createDirectory : Option IoError
  openTemporary : Option IoError
  writeAll : Option (IoError × Nat)
  syncAll : Option IoError
  replace : Option IoError
  removeFails : Bool

/-- `fs::rename`. -/
def rename (files : Files) (source destination : FilePath) : Files :=
  if source = destination then files
  else Function.update (Function.update files destination (files source)) source none

/-- From `create_new` on. -/
def store (faults : Faults) (temporary destination : FilePath) (archive : Bytes) (files : Files) :
    Except IoError Unit × Files :=
  if (files temporary).isSome then (.error ⟨.alreadyExists, "File exists"⟩, files) else
  match faults.openTemporary with
  | some error => (.error error, files)
  | none => match faults.writeAll with
    | some (error, written) => (.error error, Function.update files temporary (some (archive.take written)))
    | none => match faults.syncAll with
      | some error => (.error error, Function.update files temporary (some archive))
      | none => match faults.replace with
        | some error => (.error error, Function.update files temporary (some archive))
        | none => (.ok (), rename (Function.update files temporary (some archive)) temporary destination)

def encodeAndStore (faults : Faults) (now : UtcTime) (temporary destination : FilePath) (entries : List (Str × Bytes))
    (files : Files) : Except IoError Unit × Files :=
  match archiveBytes now entries with
  | .error error => (.error error, files)
  | .ok archive => store faults temporary destination archive files

def removeFile (faults : Faults) (path : FilePath) (files : Files) : Files :=
  if faults.removeFails then files else Function.update files path none

/-- `ZipArchive::write_to`. -/
def writeTo (faults : Faults) (now : UtcTime) (pid : Nat) (entries : List (Str × Bytes)) (destination : FilePath)
    (files : Files) : Except CliError Unit × Files :=
  match (if destination.parent = [] then none else faults.createDirectory) with
  | some source => (.error ⟨"create support bundle directory", destination.parent, source⟩, files)
  | none => match encodeAndStore faults now (destination.temporary pid) destination entries files with
    | (.ok (), files) => (.ok (), files)
    | (.error source, files) =>
      (.error ⟨"write support bundle", destination.display, source⟩, removeFile faults (destination.temporary pid) files)

end Writing
end Abyss.Cli.SupportBundle
