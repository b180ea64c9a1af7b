import DexListing.Text.Utf8

/-!
# Names of archive members

A name is UTF-8 if its flag says so, and code page 437 otherwise. Every byte string is a name in
the code page, but not in UTF-8.
-/

set_option autoImplicit false

namespace DexListing.Zip

/-- The upper half of code page 437; the lower half is ASCII. -/
def upperCodePage : List Char :=
  ("ÇüéâäàåçêëèïîìÄÅÉæÆôöòûùÿÖÜ¢£¥₧ƒáíóúñÑªº¿⌐¬½¼¡«»" ++
    "░▒▓│┤╡╢╖╕╣║╗╝╜╛┐└┴┬├─┼╞╟╚╔╩╦╠═╬╧╨╤╥╙╘╒╓╫╪┘┌█▄▌▐▀" ++
    "αßΓπΣσµτΦΘΩδ∞φε∩≡±≥≤⌠⌡÷≈°∙·√ⁿ²■\u00a0").toList

/-- The character of a byte in code page 437. -/
def codePageChar (b : UInt8) : Char :=
  if b < 0x80 then Char.ofNat b.toNat else upperCodePage.getD (b.toNat - 0x80) Text.replacement

/-- The bit of the flags that says that a name is UTF-8. -/
def utf8NameBit : Nat := 11

/-- The name that bytes stand for under given flags. -/
def memberName (flags : Nat) (bytes : List UInt8) : Except Text.InvalidPart String :=
  if flags.testBit utf8NameBit then Text.textOfValidUtf8 bytes
  else .ok (String.ofList (bytes.map codePageChar))

end DexListing.Zip
