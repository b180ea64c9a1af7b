import DexListing.Text.Hex
import DexListing.Text.Words

/-!
# Code dumps

Code units are listed eight to a line as four-digit hexadecimal numerals, each line after the
offset of its first unit.
-/

set_option autoImplicit false

namespace DexListing.CodeDump

/-- The number of units on a full line. -/
def unitsPerLine : Nat := 8

/-- One line: the offset of its first unit, a colon and the units. -/
def line (start : Nat) (units : List Nat) : String :=
  Text.hex 4 start ++ ": " ++ Text.joined " " (units.map (Text.hex 4))

/-- The lines of the units from an offset on. -/
def linesFrom (start : Nat) (units : List Nat) : List String :=
  match units with
  | [] => []
  | unit :: rest =>
    line start ((unit :: rest).take unitsPerLine) ::
      linesFrom (start + unitsPerLine) ((unit :: rest).drop unitsPerLine)
termination_by units.length
decreasing_by simp only [List.length_drop, List.length_cons, unitsPerLine]; omega

/-- The lines of all units. -/
def lines (units : List Nat) : List String :=
  linesFrom 0 units

end DexListing.CodeDump
