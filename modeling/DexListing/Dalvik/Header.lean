import DexListing.Bytes.Leb128
import DexListing.Text.Utf8

/-!
# The header of a container

A container starts with a fixed header that says where its tables are and how many entries they
have. The header is accepted when its magic number is there and the table of class definitions
ends within the container; the other tables are checked where they are read.
-/

set_option autoImplicit false

namespace DexListing

/-- Why the content of a container makes no sense. -/
inductive FormatFault
  | notAContainer
  | classTableTooLong
  | number (fault : Leb128.Fault)
  | stringIndex (index : Nat)
  | typeIndex (index : Nat)
  | unterminatedString
  | truncatedClass (index : Nat) (read : ShortRead)
  deriving DecidableEq, Repr

/-- Why something cannot be read from a container: its content makes no sense, or a fixed-size
item would lie outside it. -/
inductive ContainerError
  | format (fault : FormatFault)
  | outside (read : ShortRead)
  deriving DecidableEq, Repr

/-- What is said about a fault of format. -/
def FormatFault.message : FormatFault → String
  | .notAContainer => "Not a DEX container"
  | .classTableTooLong => "Class definitions extend past end of file"
  | .number fault => fault.message
  | .stringIndex index => s!"String index {index} out of range"
  | .typeIndex index => s!"Type index {index} out of range"
  | .unterminatedString => "Unterminated string data"
  | .truncatedClass index read => s!"Truncated class definition {index}: {read.message}"

/-- What is said about a container that cannot be read. -/
def ContainerError.message : ContainerError → String
  | .format fault => fault.message
  | .outside read => read.message

/-- A table of a container: the number of its entries and where the first one is. -/
structure Table where
  count : Nat
  offset : Nat
  deriving DecidableEq, Repr

/-- The parts of the header that listings need. -/
structure Header where
  version : String
  strings : Table
  types : Table
  protos : Table
  fields : Table
  methods : Table
  classes : Table
  deriving DecidableEq, Repr

/-- The size of the header. -/
def Header.size : Nat := 0x70

/-- The size of a class definition. -/
def classDefSize : Nat := 32

/-- The bytes that a container starts with: `dex` and a line feed. -/
def magic : List UInt8 := [0x64, 0x65, 0x78, 0x0A]

/-- The version is ASCII; any other byte is replaced. -/
def versionText (bytes : List UInt8) : String :=
  String.ofList (bytes.map fun b =>
    if b < 0x80 then Char.ofNat b.toNat else Text.replacement)

/-- A table's count and offset, from the two numbers at a position of the header. -/
def Table.at (data : Bytes) (position : Nat) : Table :=
  ⟨data.u4 position, data.u4 (position + 4)⟩

/-- The header of a container. -/
def Header.ofBytes (data : Bytes) : Except FormatFault Header :=
  if data.size < Header.size || data.range 0 4 != magic then .error .notAContainer
  else
    let header : Header := {
      version := versionText (data.range 4 7)
      strings := Table.at data 56
      types := Table.at data 64
      protos := Table.at data 72
      fields := Table.at data 80
      methods := Table.at data 88
      classes := Table.at data 96 }
    if header.classes.offset + header.classes.count * classDefSize > data.size then
      .error .classTableTooLong
    else .ok header

end DexListing
