/-!
# Hexadecimal numerals

Lower-case numerals to base sixteen, padded with zeros on the left to a least width.
-/

set_option autoImplicit false

namespace DexListing.Text

/-- The numeral of `n` to base sixteen in lower case, at least `width` digits wide. -/
def hexDigits (width n : Nat) : List Char :=
  let digits := Nat.toDigits 16 n
  List.replicate (width - digits.length) '0' ++ digits

/-- The numeral as text. -/
def hex (width n : Nat) : String :=
  String.ofList (hexDigits width n)

end DexListing.Text
