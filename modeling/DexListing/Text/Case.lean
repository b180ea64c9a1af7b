import DexListing.Text.CaseTable

/-!
# Lower case

The full lower-case mapping of Unicode 14. Every character has its own lower-case form, with two
exceptions: the dotted capital I becomes two characters, and the capital sigma becomes the final
sigma where it ends a word.
-/

set_option autoImplicit false

namespace DexListing.Text

/-- A run holds the code points at multiples of its step. -/
def CaseRun.holds (r : CaseRun) (n : Nat) : Bool :=
  r.first ≤ n && n ≤ r.last && (n - r.first) % r.step == 0

/-- The lower-case form of a character on its own. -/
def lowerChar (c : Char) : Char :=
  if c.toNat < 0x80 then
    if 'A' ≤ c && c ≤ 'Z' then Char.ofNat (c.toNat + 32) else c
  else
    match lowerRuns.find? (·.holds c.toNat) with
    | some r => Char.ofNat (r.lower + (c.toNat - r.first))
    | none => c

/-- A letter with case that counts when the surroundings of a sigma are looked at. -/
def isCased (c : Char) : Bool :=
  casedRanges.any (·.holds c)

/-- A character that is passed over when the surroundings of a sigma are looked at. -/
def isCaseIgnorable (c : Char) : Bool :=
  caseIgnorableRanges.any (·.holds c)

/-- The next character that is not passed over is cased. -/
def casedNext (cs : List Char) : Bool :=
  (cs.dropWhile isCaseIgnorable).head?.any isCased

/-- The lower-case form of `c` between the characters `before` (nearest first) and `after`: a
capital sigma that ends a word is a final sigma. -/
def lowerAt (before : List Char) (c : Char) (after : List Char) : List Char :=
  if c.toNat = 0x3A3 then
    if casedNext before && !casedNext after then ['\u03c2'] else ['\u03c3']
  else if c.toNat = 0x130 then ['i', '\u0307']
  else [lowerChar c]

/-- Lower-cases characters from left to right; `before` are those passed, nearest first. -/
def lowerChars (before : List Char) : List Char → List Char
  | [] => []
  | c :: rest => lowerAt before c rest ++ lowerChars (c :: before) rest

/-- The text in lower case. -/
def lower (s : String) : String :=
  String.ofList (lowerChars [] s.toList)

end DexListing.Text
