import DexListing.Text.CodeRange

/-!
# White space

The code points that Unicode 14 counts as white space, the separators of the control range
included, and the removal of white space from both ends of a text.
-/

set_option autoImplicit false

namespace DexListing.Text

/-- The ranges of white space, in ascending order. -/
def spaceRanges : List CodeRange := [
    ⟨0x9, 0xD⟩, ⟨0x1C, 0x20⟩, ⟨0x85, 0x85⟩, ⟨0xA0, 0xA0⟩,
    ⟨0x1680, 0x1680⟩, ⟨0x2000, 0x200A⟩, ⟨0x2028, 0x2029⟩, ⟨0x202F, 0x202F⟩,
    ⟨0x205F, 0x205F⟩, ⟨0x3000, 0x3000⟩]

/-- A character is white space when a range of the table holds it. -/
def isSpace (c : Char) : Bool :=
  spaceRanges.any (·.holds c)

/-- A list of characters without the white space at its front. -/
def dropSpace (cs : List Char) : List Char :=
  cs.dropWhile isSpace

/-- The text without the white space at its two ends. -/
def strip (s : String) : String :=
  String.ofList (dropSpace (dropSpace s.toList).reverse).reverse

end DexListing.Text
