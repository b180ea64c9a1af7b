import DexListing.Bytes.Basic

/-!
# Checksums

The cyclic redundancy check of zip archives: polynomial `EDB88320`, bits taken from the lowest up,
register and result complemented.
-/

set_option autoImplicit false

namespace DexListing.Zip

/-- The polynomial, lowest bit first. -/
def crcPolynomial : UInt32 := 0xEDB88320

/-- The register after `count` more bits. -/
def crcBits : (count : Nat) → UInt32 → UInt32
  | 0, register => register
  | count + 1, register =>
    crcBits count
      (if register &&& 1 = 1 then (register >>> 1) ^^^ crcPolynomial else register >>> 1)

/-- The register after one more byte. -/
def crcByte (register : UInt32) (b : UInt8) : UInt32 :=
  crcBits 8 (register ^^^ b.toUInt32)

/-- The checksum of a byte string. -/
def crc32 (data : Bytes) : Nat :=
  (data.foldl crcByte 0xFFFFFFFF ^^^ 0xFFFFFFFF).toNat

end DexListing.Zip
