/-!
# Texts cut at a character and joined by a text
-/

set_option autoImplicit false

namespace DexListing.Text

/-- The pieces of a text between the occurrences of a character; one more than it occurs. -/
def pieces (separator : Char) (s : String) : List String :=
  (s.toList.splitOn separator).map String.ofList

/-- The pieces that are not empty. -/
def segments (separator : Char) (s : String) : List String :=
  (pieces separator s).filter (· ≠ "")

/-- The texts with a separator between neighbours. -/
def joined (separator : String) (texts : List String) : String :=
  separator.intercalate texts

/-- The lines as one text, each closed by a line feed. -/
def unlines (lines : List String) : String :=
  String.join (lines.map (· ++ "\n"))

/-- The text holds the character. -/
def holds (s : String) (c : Char) : Bool :=
  s.toList.contains c

end DexListing.Text
