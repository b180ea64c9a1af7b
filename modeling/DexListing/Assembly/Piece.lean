import DexListing.Bytes.Leb128
import DexListing.Text.Utf8
import Mathlib.Algebra.GroupWithZero.Nat

/-!
# Pieces of a container

A container is a row of pieces: single bytes, numbers of a fixed size or in LEB128 form, and texts.
A piece takes its place whatever its value is, so that offsets can be worked out first; the bytes
exist only if every number fits its size.
-/

set_option autoImplicit false

namespace DexListing.Assembly

/-- A piece of a container. -/
inductive Piece
  | byte (b : UInt8)
  | short (n : Nat)
  | word (n : Nat)
  | number (n : Nat)
  | text (s : String)
  deriving DecidableEq

namespace Piece

/-- The number of bytes that a piece takes. -/
def size : Piece → Nat
  | byte _ => 1
  | short _ => 2
  | word _ => 4
  | number n => (Leb128.encode n).length
  | text s => (Text.utf8OfText s).length

/-- The bytes of a piece, if it fits its size. -/
def bytes? : Piece → Option (List UInt8)
  | byte b => some [b]
  | short n => if n < 0x10000 then some (Bytes.littleEndian 2 n) else none
  | word n => if n < 0x100000000 then some (Bytes.littleEndian 4 n) else none
  | number n => some (Leb128.encode n)
  | text s => some (Text.utf8OfText s)

/-- The number of bytes that pieces take. -/
def totalSize (pieces : List Piece) : Nat :=
  (pieces.map size).sum

/-- The bytes of pieces one after the other, if all of them fit. -/
def allBytes? : List Piece → Option (List UInt8)
  | [] => some []
  | p :: rest => do
    let bytes ← p.bytes?
    let more ← allBytes? rest
    return bytes ++ more

end Piece

end DexListing.Assembly
