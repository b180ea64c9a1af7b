/-!
# Ranges of code points

Properties of characters are kept as lists of ranges; a range holds its two ends.
-/

set_option autoImplicit false

namespace DexListing.Text

/-- The code points from `first` to `last`. -/
structure CodeRange where
  first : Nat
  last : Nat
  deriving DecidableEq, Repr

/-- A range holds a character whose code point lies between its ends. -/
def CodeRange.holds (r : CodeRange) (c : Char) : Bool :=
  r.first ≤ c.toNat && c.toNat ≤ r.last

end DexListing.Text
