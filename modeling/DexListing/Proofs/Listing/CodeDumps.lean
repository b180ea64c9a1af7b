import DexListing.Listing.CodeDump
import DexListing.Proofs.Text.Hex
import DexListing.Proofs.Text.Joining
import Mathlib.Data.List.Forall2

/-!
# Reading code dumps

A line of a dump is read by cutting it at its colon and what stands behind that at its blanks
(`CodeDump.offsetText`, `CodeDump.words`); the numbers that the words stand for are the units of the
line (`CodeDump.numbers_line`). So code units can be told from the lines of their dump, and each line
tells where it belongs (`CodeDump.lines_read_back`). There is nothing in these lines but numerals,
blanks and colons (`CodeDump.holds_of_mem_linesFrom`).
-/

set_option autoImplicit false

namespace DexListing

namespace CodeDump

/-! ## One line -/

/-- What stands before the colon of a line. -/
def offsetText (l : String) : String :=
  (Text.pieces ':' l).headD ""

/-- The words behind the colon of a line. -/
def words (l : String) : List String :=
  (Text.pieces ':' l).tail.flatMap (Text.segments ' ')

/-- The numbers that the words of a line stand for. -/
def numbers (l : String) : List Nat :=
  (words l).map fun word => Text.hexValue word.toList

/-- Hexadecimal units hold no character that is no digit. -/
theorem holds_units_eq_false {c : Char} (hdigit : ∀ d < 16, Nat.digitChar d ≠ c)
    (units : List Nat) : ∀ t ∈ units.map (Text.hex 4), Text.holds t c = false := by
  intro t ht
  obtain ⟨unit, -, rfl⟩ := List.mem_map.mp ht
  exact Text.holds_hex hdigit 4 unit

/-- The only colon of a line stands behind its offset. -/
theorem pieces_line (start : Nat) (units : List Nat) :
    Text.pieces ':' (line start units) =
      [Text.hex 4 start, " " ++ Text.joined " " (units.map (Text.hex 4))] := by
  have hblank : Text.holds (" " ++ Text.joined " " (units.map (Text.hex 4))) ':' = false := by
    rw [Text.holds_append,
      Text.holds_joined_eq_false (by decide) (holds_units_eq_false (by decide) units)]
    rfl
  have hsingle : ∀ {t : String}, Text.holds t ':' = false → Text.pieces ':' t = [t] := by
    intro t ht
    have hcolon : ":".toList = [':'] := rfl
    exact Text.pieces_joined hcolon (List.cons_ne_nil t []) (List.forall_mem_singleton.mpr ht)
  have hline : line start units = Text.hex 4 start ++ ":" ++
      (" " ++ Text.joined " " (units.map (Text.hex 4))) := by
    rw [line, show ": " = ":" ++ " " from rfl, ← String.append_assoc, ← String.append_assoc]
  rw [hline, Text.pieces_append rfl, hsingle (Text.holds_hex (by decide) 4 start), hsingle hblank]
  rfl

/-- The text before the first delimiter of a line is the offset. -/
theorem offsetText_line (start : Nat) (units : List Nat) :
    offsetText (line start units) = Text.hex 4 start := by
  rw [offsetText, pieces_line]
  rfl

/-- The words after it are the units. -/
theorem words_line (start : Nat) (units : List Nat) :
    words (line start units) = units.map (Text.hex 4) := by
  have hpieces : Text.pieces ' ' (" " ++ Text.joined " " (units.map (Text.hex 4))) =
      "" :: Text.pieces ' ' (Text.joined " " (units.map (Text.hex 4))) := by
    have hblank : " ".toList = [' '] := rfl
    exact Text.pieces_append hblank "" _
  have hwords : Text.segments ' ' (" " ++ Text.joined " " (units.map (Text.hex 4))) =
      units.map (Text.hex 4) := by
    rw [Text.segments, hpieces]
    by_cases hunits : units.map (Text.hex 4) = []
    · rw [hunits]
      rfl
    · rw [Text.pieces_joined rfl hunits (holds_units_eq_false (by decide) units),
        List.filter_cons_of_neg (by decide), List.filter_eq_self]
      intro t ht
      obtain ⟨unit, -, rfl⟩ := List.mem_map.mp ht
      exact decide_eq_true (Text.hex_ne_empty 4 unit)
  rw [words, pieces_line, List.tail_cons, List.flatMap_singleton, hwords]

/-- The units of a line are read back. -/
theorem numbers_line (start : Nat) (units : List Nat) : numbers (line start units) = units := by
  have hvalue : ∀ unit, Text.hexValue (Text.hex 4 unit).toList = unit := by
    intro unit
    exact (Text.isHex_hex (by decide) unit).value
  rw [numbers, words_line, List.map_map]
  exact (List.map_congr_left fun unit _ => hvalue unit).trans (List.map_id units)

/-! ## All lines -/

/-- Without units there are no lines. -/
theorem linesFrom_nil (start : Nat) : linesFrom start [] = [] := by
  rw [linesFrom]

/-- The first line has the first eight units, and the others follow. -/
theorem linesFrom_of_ne_nil (start : Nat) {units : List Nat} (hne : units ≠ []) :
    linesFrom start units = line start (units.take 8) :: linesFrom (start + 8) (units.drop 8) := by
  cases units with
  | nil => exact absurd rfl hne
  | cons unit rest => rw [linesFrom, unitsPerLine]

/-- There is a line for every eight units, the last ones included. -/
theorem length_linesFrom (start : Nat) (units : List Nat) :
    (linesFrom start units).length = (units.length + 7) / 8 := by
  induction start, units using linesFrom.induct with
  | case1 start =>
    rw [linesFrom_nil]
    rfl
  | case2 start unit rest ih =>
    rw [unitsPerLine] at ih
    rw [linesFrom_of_ne_nil start (List.cons_ne_nil unit rest), List.length_cons, ih,
      List.length_drop, List.length_cons]
    omega

/-- The line with an index has eight units from eight times the index on, or as many as are left. -/
theorem getElem?_linesFrom {start i : Nat} {units : List Nat} {l : String}
    (h : (linesFrom start units)[i]? = some l) :
    8 * i < units.length ∧ l = line (start + 8 * i) ((units.drop (8 * i)).take 8) := by
  induction start, units using linesFrom.induct generalizing i with
  | case1 start =>
    rw [linesFrom_nil] at h
    exact nomatch h
  | case2 start unit rest ih =>
    rw [linesFrom_of_ne_nil start (List.cons_ne_nil unit rest)] at h
    cases i with
    | zero => exact ⟨Nat.succ_pos _, (Option.some.inj h).symm⟩
    | succ i =>
      obtain ⟨hi, hl⟩ := ih h
      rw [unitsPerLine] at hi hl
      rw [List.length_drop] at hi
      rw [List.drop_drop] at hl
      refine ⟨by omega, ?_⟩
      rw [hl, Nat.mul_succ, Nat.add_assoc, Nat.add_comm 8]

/-- The units of all lines are read back. -/
theorem flatMap_numbers_linesFrom (start : Nat) (units : List Nat) :
    (linesFrom start units).flatMap numbers = units := by
  induction start, units using linesFrom.induct with
  | case1 start => rw [linesFrom_nil, List.flatMap_nil]
  | case2 start unit rest ih =>
    rw [unitsPerLine] at ih
    rw [linesFrom_of_ne_nil start (List.cons_ne_nil unit rest), List.flatMap_cons, numbers_line, ih,
      List.take_append_drop]

/-- Lines from one offset are the same only for the same units. -/
theorem linesFrom_inj {start : Nat} {units others : List Nat} :
    linesFrom start units = linesFrom start others ↔ units = others := by
  constructor
  · intro h
    rw [← flatMap_numbers_linesFrom start units, h, flatMap_numbers_linesFrom]
  · rintro rfl
    rfl

/-- A character that is neither a digit nor between numerals is in no line. -/
theorem holds_of_mem_linesFrom {c : Char} (hdigit : ∀ d < 16, Nat.digitChar d ≠ c)
    (hbetween : Text.holds ": " c = false) {start : Nat} {units : List Nat} :
    ∀ l ∈ linesFrom start units, Text.holds l c = false := by
  have hblank : Text.holds " " c = false := by
    rw [show ": " = ":" ++ " " from rfl, Text.holds_append] at hbetween
    exact (Bool.or_eq_false_iff.mp hbetween).2
  intro l hl
  obtain ⟨i, hi⟩ := List.mem_iff_getElem?.mp hl
  obtain ⟨-, rfl⟩ := getElem?_linesFrom hi
  rw [line, Text.holds_append, Text.holds_append, Text.holds_hex hdigit, hbetween]
  exact Text.holds_joined_eq_false hblank (holds_units_eq_false hdigit _)

/-- A dump has a line for every eight units and one for those that are left. Each line is a numeral of
at least four digits, a colon and the numerals of its units; the numeral before the colon is that of
eight times the index of the line, the units are eight, or in the last line what is left, and the
numbers behind the colons of all lines are the units. So different units never look alike. -/
theorem lines_read_back (units : List Nat) :
    (lines units).length = (units.length + 7) / 8 ∧
    (∀ (i : Nat) (l : String), (lines units)[i]? = some l →
      l = offsetText l ++ ": " ++ Text.joined " " (words l) ∧
      Text.IsHex 4 (8 * i) (offsetText l) ∧
      List.Forall₂ (Text.IsHex 4) ((units.drop (8 * i)).take 8) (words l) ∧
      (i + 1 < (lines units).length → (words l).length = 8)) ∧
    (lines units).flatMap numbers = units ∧
    ∀ others, lines others = lines units → others = units := by
  have hlength : (lines units).length = (units.length + 7) / 8 := length_linesFrom 0 units
  refine ⟨hlength, ?_, flatMap_numbers_linesFrom 0 units, fun others => linesFrom_inj.mp⟩
  intro i l hl
  obtain ⟨hi, rfl⟩ := getElem?_linesFrom hl
  rw [offsetText_line, words_line, Nat.zero_add, hlength]
  refine ⟨rfl, Text.isHex_hex (by decide) _, ?_, fun hlast => ?_⟩
  · exact List.forall₂_map_right_iff.mpr
      (List.forall₂_same.mpr fun unit _ => Text.isHex_hex (by decide) unit)
  · rw [List.length_map, List.length_take, List.length_drop]
    omega

/-- Ten units, one of which needs a fifth digit, on a full line and one that is not. -/
theorem lines_read_back_tenUnits :
    let units := [0, 1, 2, 3, 4, 5, 6, 7, 0xfffff, 9]
    (lines units)[1]? = some "0008: fffff 0009" ∧
      Text.IsHex 4 8 (offsetText "0008: fffff 0009") ∧
      List.Forall₂ (Text.IsHex 4) [0xfffff, 9] (words "0008: fffff 0009") ∧
      (lines units).flatMap numbers = units := by
  intro units
  have hlines : lines units = ["0000: 0000 0001 0002 0003 0004 0005 0006 0007",
      "0008: fffff 0009"] := by
    rw [lines, linesFrom_of_ne_nil 0 (by decide), linesFrom_of_ne_nil _ (by decide)]
    decide +kernel
  have hsecond : (lines units)[1]? = some "0008: fffff 0009" := by
    rw [hlines]
    rfl
  obtain ⟨-, hline, hback, -⟩ := lines_read_back units
  obtain ⟨-, hoffset, hwords, -⟩ := hline 1 _ hsecond
  exact ⟨hsecond, hoffset, hwords, hback⟩

end CodeDump

end DexListing
