import Abyss.Archive.Crc32
import Abyss.Data.LittleEndian

/-! The ZIP format for stored members: a reader that starts from the end record, and the
layout of an archive. -/
namespace Abyss.Archive.Zip
open Abyss.Data

abbrev Bytes := List UInt8

def localSignature : Nat := 0x04034B50
def centralSignature : Nat := 0x02014B50
def endSignature : Nat := 0x06054B50

def localWidths : List Nat := [4, 2, 2, 2, 2, 2, 4, 4, 4, 2, 2]
def centralWidths : List Nat := [4, 2, 2, 2, 2, 2, 2, 4, 4, 4, 2, 2, 2, 2, 2, 4, 4]
def endWidths : List Nat := [4, 2, 2, 2, 2, 4, 4, 2]

section Reader

/-- What the end record says of the archive. -/
structure EndRecord where
  entries : Nat
  size : Nat
  offset : Nat
  deriving DecidableEq, Repr

/-- The end record at the front of some bytes, whose comment goes on to their end. The archive is on one disk. -/
def readEnd (bytes : Bytes) : Option EndRecord :=
  match takeFields endWidths bytes with
  | some ([signature, disk, startDisk, diskEntries, entries, size, offset, commentLength], comment) =>
    if signature = endSignature ∧ disk = 0 ∧ startDisk = 0 ∧ diskEntries = entries ∧ commentLength = comment.length then
      some ⟨entries, size, offset⟩
    else none
  | _ => none

/-- Search the end record from the last byte on. -/
def findEnd (bytes : Bytes) : Nat → Option (Nat × EndRecord)
  | 0 => (readEnd bytes).map (0, ·)
  | position + 1 => match readEnd (bytes.drop (position + 1)) with
    | some record => some (position + 1, record)
    | none => findEnd bytes position

/-- What a header says of a stored member. -/
structure Header where
  name : Bytes
  crc : Nat
  size : Nat
  deriving DecidableEq, Repr

/-- A local header, and what is behind it. -/
def readLocal (bytes : Bytes) : Option (Header × Bytes) :=
  match takeFields localWidths bytes with
  | some ([signature, _, flags, method, _, _, crc, compressedSize, size, nameLength, extraLength], bytes) => do
    let (name, bytes) ← splitAtChecked nameLength bytes
    let (_, bytes) ← splitAtChecked extraLength bytes
    if signature = localSignature ∧ flags = 0 ∧ method = 0 ∧ compressedSize = size then some (⟨name, crc, size⟩, bytes)
    else none
  | _ => none

/-- A header of the central directory with the offset of its local header, and what is behind it. -/
def readCentral (bytes : Bytes) : Option ((Header × Nat) × Bytes) :=
  match takeFields centralWidths bytes with
  | some ([signature, _, _, flags, method, _, _, crc, compressedSize, size, nameLength, extraLength, commentLength,
      disk, _, _, offset], bytes) => do
    let (name, bytes) ← splitAtChecked nameLength bytes
    let (_, bytes) ← splitAtChecked extraLength bytes
    let (_, bytes) ← splitAtChecked commentLength bytes
    if signature = centralSignature ∧ flags = 0 ∧ method = 0 ∧ compressedSize = size ∧ disk = 0 then
      some ((⟨name, crc, size⟩, offset), bytes)
    else none
  | _ => none

/-- The content of a member: its local header repeats the central one, and its checksum holds. -/
def readMember (archive : Bytes) (header : Header) (offset : Nat) : Option (Bytes × Bytes) := do
  let (own, bytes) ← readLocal (archive.drop offset)
  let (content, _) ← splitAtChecked header.size bytes
  if own = header ∧ (Crc32.checksum content).toNat = header.crc then some (header.name, content) else none

/-- The members of a central directory. -/
def readMembers (archive : Bytes) : Nat → Bytes → Option (List (Bytes × Bytes) × Bytes)
  | 0, directory => some ([], directory)
  | count + 1, directory => do
    let ((header, offset), directory) ← readCentral directory
    let member ← readMember archive header offset
    let (members, directory) ← readMembers archive count directory
    return (member :: members, directory)

/-- Read an archive: the central directory ends where the end record starts, and holds the members it counts. -/
def read (archive : Bytes) : Option (List (Bytes × Bytes)) := do
  let (position, record) ← findEnd archive (archive.length - endWidths.sum)
  let (members, rest) ← readMembers archive record.entries ((archive.drop record.offset).take record.size)
  if record.offset + record.size = position ∧ rest = [] then some members else none

end Reader

section Layout

/-- A stored member with its time stamp. -/
structure Member where
  name : Bytes
  content : Bytes
  time : Nat
  date : Nat

namespace Member
variable (m : Member)

def crc : Nat := (Crc32.checksum m.content).toNat

/-- The fields of the local header. -/
def localFields : List (Nat × Nat) :=
  [(4, localSignature), (2, 20), (2, 0), (2, 0), (2, m.time), (2, m.date), (4, m.crc), (4, m.content.length),
    (4, m.content.length), (2, m.name.length), (2, 0)]

def localRecord : Bytes := putFields m.localFields ++ (m.name ++ m.content)

/-- The fields of the central header. -/
def centralFields (offset : Nat) : List (Nat × Nat) :=
  [(4, centralSignature), (2, 20), (2, 20), (2, 0), (2, 0), (2, m.time), (2, m.date), (4, m.crc), (4, m.content.length),
    (4, m.content.length), (2, m.name.length), (2, 0), (2, 0), (2, 0), (2, 0), (4, 0), (4, offset)]

def centralRecord (offset : Nat) : Bytes := putFields (m.centralFields offset) ++ m.name

/-- The lengths and the stamp fit their fields. -/
def Fits : Prop := m.name.length < 2 ^ 16 ∧ m.content.length < 2 ^ 32 ∧ m.time < 2 ^ 16 ∧ m.date < 2 ^ 16

end Member

def localRecords (members : List Member) : Bytes := members.flatMap Member.localRecord

/-- The central directory of members whose first local record is at the offset. -/
def directory : Nat → List Member → Bytes
  | _, [] => []
  | offset, m :: members => m.centralRecord offset ++ directory (offset + m.localRecord.length) members

def endFields (count size offset : Nat) : List (Nat × Nat) :=
  [(4, endSignature), (2, 0), (2, 0), (2, count), (2, count), (4, size), (4, offset), (2, 0)]

def layout (members : List Member) : Bytes :=
  localRecords members ++ (directory 0 members ++
    putFields (endFields members.length (directory 0 members).length (localRecords members).length))

/-- Nothing in the layout of the members wraps. -/
def Fits (members : List Member) : Prop :=
  (∀ m ∈ members, m.Fits) ∧ members.length < 2 ^ 16 ∧ (localRecords members).length < 2 ^ 32 ∧
    (directory 0 members).length < 2 ^ 32

end Layout

section RoundTrip
variable {m : Member}

theorem Member.crc_lt (m : Member) : m.crc < 2 ^ 32 := UInt32.toNat_lt _

theorem readLocal_localRecord (h : m.Fits) (rest : Bytes) :
    readLocal (m.localRecord ++ rest) = some (⟨m.name, m.crc, m.content.length⟩, m.content ++ rest) := by
  obtain ⟨hname, hcontent, htime, hdate⟩ := h
  have hcrc := m.crc_lt
  have hfields : ∀ field ∈ m.localFields, field.2 < 256 ^ field.1 := by
    simp only [Member.localFields, List.mem_cons, List.not_mem_nil, or_false, forall_eq_or_imp, forall_eq, localSignature]
    omega
  have hread := takeFields_putFields hfields (m.name ++ (m.content ++ rest))
  rw [show m.localFields.map Prod.fst = localWidths from rfl] at hread
  rw [Member.localRecord, List.append_assoc, List.append_assoc, readLocal, hread]
  simp [Member.localFields, splitAtChecked]

theorem readCentral_centralRecord (h : m.Fits) {offset : Nat} (hoffset : offset < 2 ^ 32) (rest : Bytes) :
    readCentral (m.centralRecord offset ++ rest) = some ((⟨m.name, m.crc, m.content.length⟩, offset), rest) := by
  obtain ⟨hname, hcontent, htime, hdate⟩ := h
  have hcrc := m.crc_lt
  have hfields : ∀ field ∈ m.centralFields offset, field.2 < 256 ^ field.1 := by
    simp only [Member.centralFields, List.mem_cons, List.not_mem_nil, or_false, forall_eq_or_imp, forall_eq, centralSignature]
    omega
  have hread := takeFields_putFields hfields (m.name ++ rest)
  rw [show (m.centralFields offset).map Prod.fst = centralWidths from rfl] at hread
  rw [Member.centralRecord, List.append_assoc, readCentral, hread]
  simp [Member.centralFields, splitAtChecked]

theorem readEnd_endFields {count size offset : Nat} (hcount : count < 2 ^ 16) (hsize : size < 2 ^ 32)
    (hoffset : offset < 2 ^ 32) : readEnd (putFields (endFields count size offset)) = some ⟨count, size, offset⟩ := by
  have hfields : ∀ field ∈ endFields count size offset, field.2 < 256 ^ field.1 := by
    simp only [endFields, List.mem_cons, List.not_mem_nil, or_false, forall_eq_or_imp, forall_eq, endSignature]
    omega
  have hread := takeFields_putFields hfields []
  rw [show (endFields count size offset).map Prod.fst = endWidths from rfl, List.append_nil] at hread
  rw [readEnd, hread]
  simp [endFields]

theorem findEnd_of_readEnd {bytes : Bytes} {position : Nat} {record : EndRecord}
    (h : readEnd (bytes.drop position) = some record) : findEnd bytes position = some (position, record) := by
  cases position with
  | zero =>
    rw [List.drop_zero] at h
    rw [findEnd, h]
    rfl
  | succ position => rw [findEnd, h]

/-- A member is read from the place of its local record. -/
theorem readMember_localRecord (h : m.Fits) (front back : Bytes) :
    readMember (front ++ (m.localRecord ++ back)) ⟨m.name, m.crc, m.content.length⟩ front.length =
      some (m.name, m.content) := by
  rw [readMember, List.drop_left, readLocal_localRecord h]
  simp only [Option.bind_eq_bind, Option.bind_some, splitAtChecked_append]
  exact if_pos ⟨trivial, rfl⟩

/-- The central directory leads to the members, one local record after the other. -/
theorem readMembers_directory {members : List Member} (hfits : ∀ m ∈ members, m.Fits) {front : Bytes}
    (hspace : front.length + (localRecords members).length < 2 ^ 32) (back rest : Bytes) :
    readMembers (front ++ (localRecords members ++ back)) members.length (directory front.length members ++ rest) =
      some (members.map (fun m => (m.name, m.content)), rest) := by
  induction members generalizing front with
  | nil => rfl
  | cons m members ih =>
    have hm := hfits m (List.mem_cons_self ..)
    rw [localRecords, List.flatMap_cons, List.length_append] at hspace
    have harchive : front ++ (localRecords (m :: members) ++ back) =
        (front ++ m.localRecord) ++ (localRecords members ++ back) := by
      simp only [localRecords, List.flatMap_cons, List.append_assoc]
    have hrest := @ih (fun m' hm' => hfits m' (List.mem_cons_of_mem _ hm')) (front ++ m.localRecord)
      (by rw [List.length_append, localRecords]; omega)
    rw [List.length_append] at hrest
    have hmember := readMember_localRecord hm front (localRecords members ++ back)
    rw [← List.append_assoc front] at hmember
    rw [directory, List.append_assoc, List.length_cons, readMembers, readCentral_centralRecord hm (by omega), harchive]
    simp only [Option.bind_eq_bind, Option.bind_some, hmember, hrest]
    rfl

/-- The reader recovers the members of a layout in which nothing wraps. -/
theorem read_layout {members : List Member} (h : Fits members) :
    read (layout members) = some (members.map fun m => (m.name, m.content)) := by
  obtain ⟨hfits, hcount, hrecords, hdirectory⟩ := h
  have hend : readEnd ((layout members).drop ((localRecords members).length + (directory 0 members).length)) =
      some ⟨members.length, (directory 0 members).length, (localRecords members).length⟩ := by
    rw [layout, ← List.append_assoc, ← List.length_append, List.drop_left]
    exact readEnd_endFields hcount hdirectory hrecords
  have hlength : (layout members).length - endWidths.sum =
      (localRecords members).length + (directory 0 members).length := by
    rw [layout, List.length_append, List.length_append, length_putFields,
      show ((endFields members.length (directory 0 members).length (localRecords members).length).map Prod.fst) =
        endWidths from rfl]
    omega
  have hmembers := @readMembers_directory members hfits [] (by simpa using hrecords)
    (directory 0 members ++
      putFields (endFields members.length (directory 0 members).length (localRecords members).length)) []
  rw [List.nil_append, List.append_nil, List.length_nil] at hmembers
  have hslice : ((layout members).drop (localRecords members).length).take (directory 0 members).length =
      directory 0 members := by
    rw [layout, List.drop_left, List.take_left]
  rw [read, hlength, findEnd_of_readEnd hend]
  simp only [Option.bind_eq_bind, Option.bind_some, hslice]
  rw [layout, hmembers]
  simp

end RoundTrip
end Abyss.Archive.Zip
