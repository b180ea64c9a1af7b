import DexListing.Bytes.Basic

/-!
# Variable-length numbers

An unsigned number in LEB128 form: groups of seven bits, the lowest first, one group a byte; every
byte but the last has its high bit set. A number may take six bytes.
-/

set_option autoImplicit false

namespace DexListing.Leb128

/-- Why there is no number at an offset. -/
inductive Fault
  | truncated
  | tooLong
  deriving DecidableEq, Repr

/-- What is said about a fault. -/
def Fault.message : Fault → String
  | .truncated => "Truncated LEB128 value"
  | .tooLong => "LEB128 value too long"

/-- The most bytes that one number may take. -/
def maxBytes : Nat := 6

/-- The number at `offset`, in at most `limit` bytes, and the offset after it. -/
def readWithin (data : Bytes) : (limit offset : Nat) → Except Fault (Nat × Nat)
  | 0, _ => .error .tooLong
  | limit + 1, offset =>
    match data[offset]? with
    | none => .error .truncated
    | some b =>
      if b.toNat < 0x80 then .ok (b.toNat, offset + 1)
      else
        match readWithin data limit (offset + 1) with
        | .error fault => .error fault
        | .ok (high, stop) => .ok (b.toNat % 0x80 + 0x80 * high, stop)

/-- The number at `offset` and the offset after it. -/
def read (data : Bytes) (offset : Nat) : Except Fault (Nat × Nat) :=
  readWithin data maxBytes offset

/-- The bytes of a number. -/
def encode (n : Nat) : List UInt8 :=
  if n < 0x80 then [UInt8.ofNat n] else UInt8.ofNat (n % 0x80 + 0x80) :: encode (n / 0x80)
termination_by n
decreasing_by omega

end DexListing.Leb128
