import DexListing.Text.Quoted

/-!
# Patterns for names

A pattern is matched against a whole name. An asterisk stands for any characters, also for none;
every other character stands for itself. The pieces between the asterisks are looked for from left
to right, each at the first place after the one before: what is left of the name is then as long
as it can be, so no other choice can succeed where this one fails.
-/

set_option autoImplicit false

namespace DexListing.Glob

/-- What follows the first occurrence of a piece. -/
def afterFirst? (piece : List Char) : List Char → Option (List Char)
  | [] => if piece.isEmpty then some [] else none
  | c :: rest =>
    if piece.isPrefixOf (c :: rest) then some ((c :: rest).drop piece.length)
    else afterFirst? piece rest

/-- The pieces occur in order, with any characters before each, and the last one at the end. -/
def matchesRest : List (List Char) → List Char → Bool
  | [], _ => true
  | [piece], name => piece.isSuffixOf name
  | piece :: next :: pieces, name =>
    match afterFirst? piece name with
    | none => false
    | some rest => matchesRest (next :: pieces) rest

/-- The pieces, with any characters between neighbours, make up the name. -/
def matchesPieces : List (List Char) → List Char → Bool
  | [], name => name.isEmpty
  | [piece], name => piece == name
  | piece :: next :: pieces, name =>
    piece.isPrefixOf name && matchesRest (next :: pieces) (name.drop piece.length)

/-- The name matches the pattern. -/
def accepts (pattern name : String) : Bool :=
  match pattern.toList.splitOn '*' with
  | [_] => pattern == name
  | pieces => matchesPieces pieces name.toList

/-- How a pattern is shown. -/
def describe (pattern : String) : String :=
  "PatternMatcher(" ++ Text.quoted pattern ++ ")"

end DexListing.Glob
