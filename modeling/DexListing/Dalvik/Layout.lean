import DexListing.Dalvik.Descriptor
import DexListing.Dalvik.Header

/-!
# The layout of a container

The bytes of a container together with the header found in them. Strings and types are looked up
by index; everything else that a class refers to is found by offset. Strings are kept in modified
UTF-8, where the zero character is the pair `C0 80`.
-/

set_option autoImplicit false

namespace DexListing

/-- Bytes with an accepted header. -/
structure Layout where
  data : Bytes
  header : Header

namespace Layout

/-- Checks that a fixed-size item lies within the container. -/
def require (l : Layout) (offset size : Nat) : Except ContainerError Unit :=
  match l.data.require offset size with
  | .error read => .error (.outside read)
  | .ok () => .ok ()

/-- The four-byte number at an offset. -/
def u4 (l : Layout) (offset : Nat) : Except ContainerError Nat := do
  l.require offset 4
  return l.data.u4 offset

/-- The two-byte number at an offset. -/
def u2 (l : Layout) (offset : Nat) : Except ContainerError Nat := do
  l.require offset 2
  return l.data.u2 offset

/-- The variable-length number at an offset and the offset after it. -/
def leb128 (l : Layout) (offset : Nat) : Except ContainerError (Nat × Nat) :=
  match Leb128.read l.data offset with
  | .error fault => .error (.format (.number fault))
  | .ok result => .ok result

/-- Turns the written form of the zero character into a zero byte. -/
def unescapeZero : List UInt8 → List UInt8
  | 0xC0 :: 0x80 :: rest => 0 :: unescapeZero rest
  | b :: rest => b :: unescapeZero rest
  | [] => []

/-- The string whose data is at an offset: a length, which is passed over, and the characters up
to a zero byte. -/
def stringAt (l : Layout) (offset : Nat) : Except ContainerError String := do
  let (_, start) ← l.leb128 offset
  match l.data.findZero? start with
  | none => throw (.format .unterminatedString)
  | some stop => return Text.textOfUtf8 (unescapeZero (l.data.range start stop))

/-- The string with an index. -/
def string (l : Layout) (index : Nat) : Except ContainerError String := do
  if index ≥ l.header.strings.count then throw (.format (.stringIndex index))
  let offset ← l.u4 (l.header.strings.offset + index * 4)
  l.stringAt offset

/-- The index of the string that is the descriptor of the type with an index. -/
def descriptorIndex (l : Layout) (index : Nat) : Except ContainerError Nat := do
  if index ≥ l.header.types.count then throw (.format (.typeIndex index))
  l.u4 (l.header.types.offset + index * 4)

/-- The descriptor of the type with an index. -/
def typeDescriptor (l : Layout) (index : Nat) : Except ContainerError String := do
  l.string (← l.descriptorIndex index)

/-- The readable name of the type with an index. -/
def typeName (l : Layout) (index : Nat) : Except ContainerError String := do
  let descriptor ← l.typeDescriptor index
  return Descriptor.name descriptor

/-- How many entries of four bytes a table has within the container. -/
def entriesWithin (l : Layout) (t : Table) : Nat :=
  min t.count ((l.data.size - t.offset) / 4)

end Layout

end DexListing
