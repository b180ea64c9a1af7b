/-!
# Byte strings and little-endian numbers

A byte string is an array of bytes. Reading past its end is a `ShortRead`, which records what was
asked for; once a range is known to be there, the numbers in it are read without failing.
-/

set_option autoImplicit false

namespace DexListing

/-- The content of a file. -/
abbrev Bytes := Array UInt8

/-- An attempt to read `size` bytes at `offset` of a byte string that has only `available` bytes. -/
structure ShortRead where
  size : Nat
  offset : Nat
  available : Nat
  deriving DecidableEq, Repr

/-- What is said about a short read. -/
def ShortRead.message (r : ShortRead) : String :=
  s!"unpack_from requires a buffer of at least {r.offset + r.size} bytes for unpacking " ++
    s!"{r.size} bytes at offset {r.offset} (actual buffer size is {r.available})"

namespace Bytes

/-- Checks that `size` bytes are there at `offset`. -/
def require (data : Bytes) (offset size : Nat) : Except ShortRead Unit :=
  if offset + size ≤ data.size then .ok () else .error ⟨size, offset, data.size⟩

/-- The byte at an offset, zero past the end. -/
def u1 (data : Bytes) (offset : Nat) : Nat :=
  (data.getD offset 0).toNat

/-- The two bytes at an offset as a little-endian number. -/
def u2 (data : Bytes) (offset : Nat) : Nat :=
  data.u1 offset + 0x100 * data.u1 (offset + 1)

/-- The four bytes at an offset as a little-endian number. -/
def u4 (data : Bytes) (offset : Nat) : Nat :=
  data.u2 offset + 0x10000 * data.u2 (offset + 2)

/-- The eight bytes at an offset as a little-endian number. -/
def u8 (data : Bytes) (offset : Nat) : Nat :=
  data.u4 offset + 0x100000000 * data.u4 (offset + 4)

/-- The lowest `count` bytes of a number, the lowest first. -/
def littleEndian : (count : Nat) → (n : Nat) → List UInt8
  | 0, _ => []
  | count + 1, n => UInt8.ofNat (n % 0x100) :: littleEndian count (n / 0x100)

/-- The bytes from `start` up to `stop`, as far as they are there. -/
def range (data : Bytes) (start stop : Nat) : List UInt8 :=
  (data.extract start stop).toList

/-- The position of the first zero byte at or after `start`. -/
def findZero? (data : Bytes) (start : Nat) : Option Nat :=
  if h : start < data.size then
    if data[start] = 0 then some start else findZero? data (start + 1)
  else none
termination_by data.size - start

end Bytes

end DexListing
