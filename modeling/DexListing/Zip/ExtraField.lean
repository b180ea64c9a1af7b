import DexListing.Bytes.Basic
import DexListing.Text.Hex

/-!
# Extra fields

A directory entry may carry a sequence of extra records, each with a tag and its size. Of interest
is only the one for numbers that are too long for their places in the entry: it holds, eight bytes
each, those of the numbers whose place is filled with ones.
-/

set_option autoImplicit false

namespace DexListing.Zip

/-- The numbers of a directory entry that may be given in long form. -/
inductive LongNumber
  | size
  | compressedSize
  | headerOffset
  deriving DecidableEq, Repr

/-- A number in words. -/
def LongNumber.description : LongNumber → String
  | size => "File size"
  | compressedSize => "Compress size"
  | headerOffset => "Header offset"

/-- Why the extra records of an entry make no sense. -/
inductive ExtraFault
  | truncatedRecord (tag size : Nat)
  | missingNumber (number : LongNumber)
  deriving DecidableEq, Repr

/-- What is said about extra records that make no sense. -/
def ExtraFault.message : ExtraFault → String
  | truncatedRecord tag size => "Corrupt extra field " ++ Text.hex 4 tag ++ s!" (size={size})"
  | missingNumber number =>
    "Corrupt zip64 extra field. " ++ number.description ++ " not found."

/-- Where the data of a member are and how long they are. -/
structure Extent where
  size : Nat
  compressedSize : Nat
  headerOffset : Nat
  deriving DecidableEq, Repr

/-- The tag of the record with long numbers. -/
def longNumbersTag : Nat := 1

/-- What stands in the place of a number that is given in long form: ones. A size may also have been
filled with ones by an earlier record of long numbers. -/
def LongNumber.marks : LongNumber → List Nat
  | size => [0xFFFFFFFF, 0xFFFFFFFFFFFFFFFF]
  | compressedSize | headerOffset => [0xFFFFFFFF]

/-- A number of an entry, taken from the front of the long ones if it is marked; gives also the
long ones that are left. -/
def takeLong (number : LongNumber) (recorded : Nat) (values : Bytes) :
    Except ExtraFault (Nat × Bytes) :=
  if recorded ∉ number.marks then .ok (recorded, values)
  else if values.size < 8 then .error (.missingNumber number)
  else .ok (values.u8 0, values.extract 8 values.size)

/-- The extent with its marked numbers taken from a record of long ones. -/
def Extent.withLongNumbers (e : Extent) (values : Bytes) : Except ExtraFault Extent := do
  let (size, values) ← takeLong .size e.size values
  let (compressedSize, values) ← takeLong .compressedSize e.compressedSize values
  let (headerOffset, _) ← takeLong .headerOffset e.headerOffset values
  return ⟨size, compressedSize, headerOffset⟩

/-- The extent after the extra records have been read. Every record takes at least four bytes, so
as many records as there are bytes are enough; fewer than four bytes at the end do not count. -/
def Extent.withExtra (e : Extent) : (limit : Nat) → (extra : Bytes) → Except ExtraFault Extent
  | 0, _ => .ok e
  | limit + 1, extra =>
    if extra.size < 4 then .ok e
    else
      let tag := extra.u2 0
      let size := extra.u2 2
      if size + 4 > extra.size then .error (.truncatedRecord tag size)
      else
        let rest := extra.extract (size + 4) extra.size
        if tag = longNumbersTag then
          match e.withLongNumbers (extra.extract 4 (size + 4)) with
          | .error fault => .error fault
          | .ok e => e.withExtra limit rest
        else e.withExtra limit rest

end DexListing.Zip
