import DexListing.Text.Hex
import DexListing.Text.Printable

/-!
# Quoted literals

How a text or a byte string stands inside a message: in single quotes, or in double quotes when it
holds a single quote and no double quote. The backslash, the quote in use and the line feed, the
carriage return and the tab are escaped by a backslash; what is not printable by its number.
-/

set_option autoImplicit false

namespace DexListing.Text

/-- The quote for a text: double only where that spares escaping. -/
def quoteFor (hasSingle hasDouble : Bool) : Char :=
  if hasSingle && !hasDouble then '"' else '\''

/-- The escape that a character has a letter for, if it has one. -/
def letterEscape? (quote c : Char) : Option (List Char) :=
  if c = '\\' || c = quote then some ['\\', c]
  else if c = '\n' then some ['\\', 'n']
  else if c = '\r' then some ['\\', 'r']
  else if c = '\t' then some ['\\', 't']
  else none

/-- The escape of a code point by its number: two, four or eight digits, as few as will do. -/
def numberEscape (n : Nat) : List Char :=
  if n ≤ 0xFF then '\\' :: 'x' :: hexDigits 2 n
  else if n ≤ 0xFFFF then '\\' :: 'u' :: hexDigits 4 n
  else '\\' :: 'U' :: hexDigits 8 n

/-- One character of a quoted text. -/
def quoteChar (quote c : Char) : List Char :=
  match letterEscape? quote c with
  | some cs => cs
  | none => if isPrintable c then [c] else numberEscape c.toNat

/-- A text as a quoted literal. -/
def quoted (s : String) : String :=
  let cs := s.toList
  let quote := quoteFor (cs.contains '\'') (cs.contains '"')
  String.ofList (quote :: (cs.flatMap (quoteChar quote) ++ [quote]))

/-- One byte of a quoted byte string: printable ASCII stands for itself. -/
def quoteByte (quote : Char) (b : UInt8) : List Char :=
  let c := Char.ofNat b.toNat
  match letterEscape? quote c with
  | some cs => cs
  | none => if 0x20 ≤ b.toNat && b.toNat < 0x7F then [c] else numberEscape b.toNat

/-- A byte string as a quoted literal with a leading `b`. -/
def quotedBytes (bs : List UInt8) : String :=
  let quote := quoteFor (bs.contains 0x27) (bs.contains 0x22)
  String.ofList ('b' :: quote :: (bs.flatMap (quoteByte quote) ++ [quote]))

end DexListing.Text
