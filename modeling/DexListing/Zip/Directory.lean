import DexListing.Zip.ExtraField
import DexListing.Zip.MemberName

/-!
# The directory of a zip archive

An archive ends with a record that gives the size of the directory before it; the directory ends
where that record starts. If the numbers are too long for the record, a locator stands before it
and a long end record before that one, where then the directory ends. Other bytes may come before
the archive, which shifts all offsets, and after its end record.
-/

set_option autoImplicit false

namespace DexListing.Zip

/-- Why a byte string cannot be opened as an archive. -/
inductive ArchiveFault
  | notAnArchive
  | severalDisks
  | directoryOffset
  | truncatedDirectory
  | directoryMagic
  | invalidName (part : Text.InvalidPart)
  | unsupportedVersion (version : Nat)
  | extraField (fault : ExtraFault)
  deriving DecidableEq, Repr

/-- What is said about a byte string that cannot be opened. -/
def ArchiveFault.message : ArchiveFault → String
  | notAnArchive => "File is not a zip file"
  | severalDisks => "zipfiles that span multiple disks are not supported"
  | directoryOffset => "Bad offset for central directory"
  | truncatedDirectory => "Truncated central directory"
  | directoryMagic => "Bad magic number for central directory"
  | invalidName part => part.message
  | unsupportedVersion version => s!"zip file version {version / 10}.{version % 10}"
  | extraField fault => fault.message

/-- What the directory says about a member. The offset is that of its local header in the byte
string, the shift counted in. -/
structure Member where
  recordedName : String
  flags : Nat
  method : Nat
  checksum : Nat
  compressedSize : Nat
  size : Nat
  attributes : Nat
  headerOffset : Int
  deriving DecidableEq, Repr

/-- The name of a member for looking it up: what it is recorded as, up to a zero character. -/
def Member.name (m : Member) : String :=
  String.ofList (m.recordedName.toList.takeWhile (· ≠ '\x00'))

/-- An opened archive. -/
structure Archive where
  data : Bytes
  members : List Member
  directoryStart : Nat

/-- The size of the end record. -/
def endRecordSize : Nat := 22

/-- The size of the fixed part of a directory entry. -/
def directoryEntrySize : Nat := 46

/-- The signature of the end record. -/
def endSignature : Nat := 0x06054B50

/-- The signature of a directory entry. -/
def entrySignature : Nat := 0x02014B50

/-- The size of the locator of a long end record. -/
def locatorSize : Nat := 20

/-- The signature of the locator. -/
def locatorSignature : Nat := 0x07064B50

/-- The size of the long end record. -/
def longEndRecordSize : Nat := 56

/-- The signature of the long end record. -/
def longEndSignature : Nat := 0x06064B50

/-- The greatest version of the format that is understood. -/
def maxVersion : Nat := 63

/-- How far from the end the end record may start, its own size apart. -/
def maxCommentSize : Nat := 0x10000

/-- The last of the `count` positions from `lowest` on with the signature of the end record. -/
def lastEndSignature? (data : Bytes) (lowest : Nat) : (count : Nat) → Option Nat
  | 0 => none
  | count + 1 =>
    if data.u4 (lowest + count) = endSignature then some (lowest + count)
    else lastEndSignature? data lowest count

/-- Where the end record starts: at the very end if an end record without comment is there, else
where its signature occurs last. -/
def endRecord? (data : Bytes) : Option Nat :=
  if data.size < endRecordSize then none
  else
    let last := data.size - endRecordSize
    if data.u4 last = endSignature && data.u2 (last + 20) = 0 then some last
    else
      let lowest := last - maxCommentSize
      match lastEndSignature? data lowest (data.size - 3 - lowest) with
      | none => none
      | some position => if position + endRecordSize ≤ data.size then some position else none

/-- Where the directory of an archive ends, its size, and the offset that it is said to have. -/
structure DirectoryPlace where
  stop : Nat
  size : Nat
  offset : Nat
  deriving DecidableEq, Repr

/-- What a long end record says, if a locator stands right before the end record at a position. The
long record is looked for right before the locator, wherever the locator says it is. -/
def longPlace? (data : Bytes) (position : Nat) : Except ArchiveFault (Option DirectoryPlace) :=
  if position < locatorSize || data.u4 (position - locatorSize) ≠ locatorSignature then .ok none
  else if data.u4 (position - 16) ≠ 0 || data.u4 (position - 4) > 1 then .error .severalDisks
  else if position < locatorSize + longEndRecordSize then .error .notAnArchive
  else
    let stop := position - locatorSize - longEndRecordSize
    if data.u4 stop ≠ longEndSignature then .ok none
    else .ok (some ⟨stop, data.u8 (stop + 40), data.u8 (stop + 48)⟩)

/-- Where the directory is: what the long end record says, or else the end record. -/
def directoryPlace (data : Bytes) : Except ArchiveFault DirectoryPlace :=
  match endRecord? data with
  | none => .error .notAnArchive
  | some position =>
    match longPlace? data position with
    | .error fault => .error fault
    | .ok (some place) => .ok place
    | .ok none => .ok ⟨position, data.u4 (position + 12), data.u4 (position + 16)⟩

/-- The extent of the member whose directory entry is at a position. -/
def readExtent (directory : Bytes) (position : Nat) : Except ExtraFault Extent :=
  let extraStart := position + directoryEntrySize + directory.u2 (position + 28)
  let extra := directory.extract extraStart (extraStart + directory.u2 (position + 30))
  let recorded : Extent :=
    ⟨directory.u4 (position + 24), directory.u4 (position + 20), directory.u4 (position + 42)⟩
  recorded.withExtra extra.size extra

/-- The name in the directory entry at a position. -/
def readName (directory : Bytes) (position : Nat) : Except Text.InvalidPart String :=
  let start := position + directoryEntrySize
  memberName (directory.u2 (position + 8))
    (directory.range start (start + directory.u2 (position + 28)))

/-- The member with a name whose directory entry is at a position; its offset is shifted. -/
def readMember (directory : Bytes) (shift : Int) (position : Nat) (recordedName : String)
    (extent : Extent) : Member :=
  { recordedName
    flags := directory.u2 (position + 8)
    method := directory.u2 (position + 10)
    checksum := directory.u4 (position + 16)
    compressedSize := extent.compressedSize
    size := extent.size
    attributes := directory.u4 (position + 38)
    headerOffset := extent.headerOffset + shift }

/-- The member whose directory entry, with the right signature, is at a position. -/
def readEntry (directory : Bytes) (shift : Int) (position : Nat) : Except ArchiveFault Member :=
  match readName directory position with
  | .error part => .error (.invalidName part)
  | .ok recordedName =>
    let version := directory.u1 (position + 6)
    if version > maxVersion then .error (.unsupportedVersion version)
    else
      match readExtent directory position with
      | .error fault => .error (.extraField fault)
      | .ok extent => .ok (readMember directory shift position recordedName extent)

/-- The entries of the directory from a position on. Every entry takes at least one byte, so as
many entries as there are bytes are enough. -/
def readMembers (directory : Bytes) (shift : Int) :
    (limit position : Nat) → Except ArchiveFault (List Member)
  | 0, _ => .ok []
  | limit + 1, position =>
    if position ≥ directory.size then .ok []
    else if position + directoryEntrySize > directory.size then .error .truncatedDirectory
    else if directory.u4 position ≠ entrySignature then .error .directoryMagic
    else
      let next := position + directoryEntrySize + directory.u2 (position + 28) +
        directory.u2 (position + 30) + directory.u2 (position + 32)
      match readEntry directory shift position with
      | .error fault => .error fault
      | .ok member =>
        match readMembers directory shift limit next with
        | .error fault => .error fault
        | .ok rest => .ok (member :: rest)

/-- Opens a byte string as an archive. -/
def Archive.ofBytes (data : Bytes) : Except ArchiveFault Archive :=
  match directoryPlace data with
  | .error fault => .error fault
  | .ok place =>
    if place.stop < place.size then .error .directoryOffset
    else
      let start := place.stop - place.size
      match readMembers (data.extract start place.stop) ((start : Int) - place.offset)
          place.size 0 with
      | .error fault => .error fault
      | .ok members => .ok ⟨data, members, start⟩

end DexListing.Zip
