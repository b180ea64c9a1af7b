import DexListing.Text.Quoted
import DexListing.Zip.Content
import DexListing.Zip.Crc32
import DexListing.Zip.Directory

/-!
# Extracting members

A member is found by its directory entry and checked against its local header before its data are
read. The checksum of its content must be the recorded one.
-/

set_option autoImplicit false

namespace DexListing.Zip

/-- Why a member cannot be extracted. -/
inductive MemberFault
  | hugeOffset
  | invalidOffset
  | truncatedHeader
  | headerMagic
  | patchedData
  | strongEncryption
  | invalidName (part : Text.InvalidPart)
  | nameDiffers (recorded : String) (found : List UInt8)
  | overlap (recorded : String)
  | encrypted (member : Member)
  | content (fault : ContentFault)
  | checksum (name : String)
  deriving DecidableEq, Repr

/-- The letter of the type of a file, by the high bits of its mode. -/
def fileTypeLetter (mode : Nat) : Char :=
  match mode / 0x1000 % 16 with
  | 1 => 'p'
  | 2 => 'c'
  | 4 => 'd'
  | 6 => 'b'
  | 8 => '-'
  | 10 => 'l'
  | 12 => 's'
  | _ => '?'

/-- Three letters of permissions from three bits; a set special bit changes the last one. -/
def permissionLetters (permissions : Nat) (special : Bool) (set unset : Char) : List Char :=
  [if permissions.testBit 2 then 'r' else '-', if permissions.testBit 1 then 'w' else '-',
    match permissions.testBit 0, special with
    | true, true => set
    | false, true => unset
    | true, false => 'x'
    | false, false => '-']

/-- The mode of a file in letters. -/
def modeText (mode : Nat) : String :=
  String.ofList (fileTypeLetter mode :: permissionLetters (mode / 64 % 8) (mode.testBit 11) 's' 'S'
    ++ permissionLetters (mode / 8 % 8) (mode.testBit 10) 's' 'S'
    ++ permissionLetters (mode % 8) (mode.testBit 9) 't' 'T')

/-- The names of the compression methods; others go by their number. -/
def methodText (method : Nat) : String :=
  match [(1, "shrink"), (2, "reduce"), (3, "reduce"), (4, "reduce"), (5, "reduce"), (6, "implode"),
      (7, "tokenize"), (8, "deflate"), (9, "deflate64"), (10, "implode"), (12, "bzip2"),
      (14, "lzma"), (18, "terse"), (19, "lz77"), (97, "wavpack"), (98, "ppmd")].lookup method with
  | some name => name
  | none => toString method

/-- A member in words. -/
def Member.description (m : Member) : String :=
  let mode := m.attributes / 0x10000
  let other := m.attributes % 0x10000
  "<ZipInfo filename=" ++ Text.quoted m.name ++
    (if m.method = 0 then "" else " compress_type=" ++ methodText m.method) ++
    (if mode = 0 then "" else " filemode=" ++ Text.quoted (modeText mode)) ++
    (if other = 0 then "" else " external_attr=0x" ++ Text.hex 1 other) ++
    s!" file_size={m.size}" ++
    (if m.method = 0 && m.size = m.compressedSize then ""
      else s!" compress_size={m.compressedSize}") ++ ">"

/-- What is said about a member that cannot be extracted. -/
def MemberFault.message : MemberFault → String
  | hugeOffset => "cannot fit 'int' into an offset-sized integer"
  | invalidOffset => "[Errno 22] Invalid argument"
  | truncatedHeader => "Truncated file header"
  | headerMagic => "Bad magic number for file header"
  | patchedData => "compressed patched data (flag bit 5)"
  | strongEncryption => "strong encryption (flag bit 6)"
  | invalidName part => part.message
  | nameDiffers recorded found =>
    "File name in directory " ++ Text.quoted recorded ++ " and header " ++
      Text.quotedBytes found ++ " differ."
  | overlap recorded => "Overlapped entries: " ++ Text.quoted recorded ++ " (possible zip bomb)"
  | encrypted member =>
    "File " ++ member.description ++ " is encrypted, password required for extraction"
  | content fault => fault.message
  | checksum name => "Bad CRC-32 for file " ++ Text.quoted name

/-- The size of the fixed part of a local header. -/
def localHeaderSize : Nat := 30

/-- The signature of a local header. -/
def localSignature : Nat := 0x04034B50

/-- The last member with a name, and the members listed before it. -/
def findMember? (name : String) : (passed : List Member) → List Member →
    Option (List Member × Member)
  | _, [] => none
  | passed, m :: rest =>
    match findMember? name (m :: passed) rest with
    | some found => some found
    | none => if m.name = name then some (passed, m) else none

/-- The position that the data of a member may not pass: where the next member starts, or the
directory. A member listed earlier at the same offset is the next one. -/
def Archive.limit (a : Archive) (earlier : List Member) (m : Member) : Int :=
  if earlier.any fun other => other.headerOffset = m.headerOffset then m.headerOffset
  else
    match (a.members.map Member.headerOffset).filter (m.headerOffset < ·) with
    | [] => a.directoryStart
    | first :: rest => rest.foldl min first

/-- The bound on offsets that fit the machine's integers, from zero in both directions. -/
def offsetBound : Int := 0x8000000000000000

/-- The last position that the system goes to in a file: with blocks of 4096 bytes there are fewer
than `0x100000000` of them. -/
def maxFilePosition : Int := 0xFFFFFFFF000

/-- The position of the local header of a member. -/
def Member.headerPosition (m : Member) : Except MemberFault Nat :=
  if m.headerOffset < -offsetBound ∨ offsetBound ≤ m.headerOffset then .error .hugeOffset
  else if m.headerOffset < 0 ∨ maxFilePosition < m.headerOffset then .error .invalidOffset
  else .ok m.headerOffset.toNat

/-- Checks that the name in the local header of a member is its recorded one. -/
def Member.checkName (m : Member) (flags : Nat) (found : List UInt8) : Except MemberFault Unit :=
  match memberName flags found with
  | .error part => .error (.invalidName part)
  | .ok name =>
    if name = m.recordedName then .ok () else .error (.nameDiffers m.recordedName found)

/-- Where the data of a member start, once its local header, which is at a position, is found
good. -/
def Archive.dataStartAfter (a : Archive) (limit : Int) (m : Member) (header : Nat) :
    Except MemberFault Nat :=
  if header + localHeaderSize > a.data.size then .error .truncatedHeader
  else if a.data.u4 header ≠ localSignature then .error .headerMagic
  else if m.flags.testBit 5 then .error .patchedData
  else if m.flags.testBit 6 then .error .strongEncryption
  else
    let nameStart := header + localHeaderSize
    let found := a.data.range nameStart (nameStart + a.data.u2 (header + 26))
    let start := min (nameStart + found.length + a.data.u2 (header + 28)) a.data.size
    match m.checkName (a.data.u2 (header + 6)) found with
    | .error fault => .error fault
    | .ok () =>
      if (start : Int) + m.compressedSize > limit then .error (.overlap m.recordedName)
      else if m.flags.testBit 0 then .error (.encrypted m)
      else .ok start

/-- Where the data of a member start. -/
def Archive.dataStart (a : Archive) (limit : Int) (m : Member) : Except MemberFault Nat :=
  match m.headerPosition with
  | .error fault => .error fault
  | .ok header => a.dataStartAfter limit m header

/-- Extracts a member, given those listed before it. -/
def Archive.extract (a : Archive) (earlier : List Member) (m : Member) :
    Except MemberFault Bytes :=
  match a.dataStart (a.limit earlier m) m with
  | .error fault => .error fault
  | .ok start =>
    let data := a.data.extract start (start + m.compressedSize)
    match contentOfData m.method ⟨m.compressedSize, m.size⟩ data with
    | .error fault => .error (.content fault)
    | .ok content =>
      if crc32 content = m.checksum then .ok content else .error (.checksum m.name)

end DexListing.Zip
