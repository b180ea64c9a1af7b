import DexListing.Text.Hex
import DexListing.Text.Words
import Mathlib.Algebra.GroupWithZero.Nat

/-!
# Reading hexadecimal numerals

The value of hexadecimal digits (`Text.hexValue`) gives back the number that a numeral was written
for, however wide it is (`Text.hexValue_hexDigits`). So different numbers have different numerals of
one least width (`Text.hex_inj`). A numeral has that width unless the number needs more digits
(`Text.isHex_hex`).
-/

set_option autoImplicit false

namespace DexListing.Text

/-- The value of a digit in lower case. -/
def digitValue (c : Char) : Nat :=
  if c.toNat < 58 then c.toNat - 48 else c.toNat - 87

/-- The number that digits to base sixteen stand for. -/
def hexValue (digits : List Char) : Nat :=
  digits.foldl (fun value c => 16 * value + digitValue c) 0

/-- A digit is read back. -/
theorem digitValue_digitChar {d : Nat} (hd : d < 16) : digitValue d.digitChar = d := by
  have hall : ∀ d : Fin 16, digitValue d.val.digitChar = d.val := by decide
  exact hall ⟨d, hd⟩

/-- One more digit on the right. -/
theorem hexValue_concat (digits : List Char) (c : Char) :
    hexValue (digits ++ [c]) = 16 * hexValue digits + digitValue c := by
  unfold hexValue
  rw [List.foldl_append]
  rfl

/-- A number is read back from its digits. -/
theorem hexValue_toDigits (n : Nat) : hexValue (Nat.toDigits 16 n) = n := by
  induction n using Nat.strongRecOn with
  | ind n ih =>
    rw [Nat.toDigits_eq_if (by decide)]
    split
    · next hlt =>
      have hone := hexValue_concat [] n.digitChar
      rwa [digitValue_digitChar hlt, show hexValue [] = 0 from rfl, Nat.mul_zero, Nat.zero_add]
        at hone
    · rw [hexValue_concat, ih (n / 16) (by omega),
        digitValue_digitChar (Nat.mod_lt n (by decide))]
      omega

/-- Zeros on the left do not count. -/
theorem hexValue_hexDigits (width n : Nat) : hexValue (hexDigits width n) = n := by
  have hzeros : ∀ (k : Nat) (digits : List Char),
      hexValue (List.replicate k '0' ++ digits) = hexValue digits := by
    intro k digits
    induction k with
    | zero => rfl
    | succ k ih => rw [List.replicate_succ, List.cons_append, ← ih]; rfl
  unfold hexDigits
  rw [hzeros, hexValue_toDigits]

/-- Different numbers have different hexadecimal texts. -/
theorem hex_inj {width n m : Nat} : hex width n = hex width m ↔ n = m := by
  constructor
  · intro h
    have hdigits := congrArg hexValue (String.ofList_injective h)
    rwa [hexValue_hexDigits, hexValue_hexDigits] at hdigits
  · rintro rfl
    rfl

/-- The characters of a numeral are digits. -/
theorem exists_digit_of_mem_hexDigits {width n : Nat} {c : Char} (hc : c ∈ hexDigits width n) :
    ∃ d < 16, c = Nat.digitChar d := by
  have hdigits : ∀ n, c ∈ Nat.toDigits 16 n → ∃ d < 16, c = Nat.digitChar d := by
    intro n
    induction n using Nat.strongRecOn with
    | ind n ih =>
      rw [Nat.toDigits_eq_if (by decide)]
      split
      · next hlt => exact fun hc => ⟨n, hlt, List.mem_singleton.mp hc⟩
      · intro hc
        rcases List.mem_append.mp hc with hc | hc
        · exact ih (n / 16) (by omega) hc
        · exact ⟨n % 16, Nat.mod_lt n (by decide), List.mem_singleton.mp hc⟩
  rcases List.mem_append.mp hc with hc | hc
  · exact ⟨0, by decide, (List.mem_replicate.mp hc).2⟩
  · exact hdigits n hc

/-- A character that is none of the sixteen digits is in no numeral. -/
theorem holds_hex {c : Char} (hc : ∀ d < 16, Nat.digitChar d ≠ c) (width n : Nat) :
    holds (hex width n) c = false := by
  have hnot : c ∉ hexDigits width n := by
    intro hmem
    obtain ⟨d, hd, hdigit⟩ := exists_digit_of_mem_hexDigits hmem
    exact hc d hd hdigit.symm
  simp [holds, hex, hnot]

/-- A character that is no decimal digit is in no decimal numeral. -/
theorem holds_numeral {c : Char} (hc : c.isDigit = false) (n : Nat) :
    holds (toString n) c = false := by
  have hdigits : c ∉ Nat.toDigits 10 n := fun hmem =>
    absurd (Nat.isDigit_of_mem_toDigits (by decide) (by decide) hmem) (Bool.eq_false_iff.mp hc)
  simp [holds, hdigits]

/-- A hexadecimal text is as long as its width, or as its digits if there are more. -/
theorem length_hex (width n : Nat) :
    (hex width n).length = max width (Nat.toDigits 16 n).length := by
  unfold hex hexDigits
  rw [String.length_ofList, List.length_append, List.length_replicate]
  omega

/-- A text is the numeral of a number to base sixteen in lower case: it has at least `width` digits,
and no more than these without need. -/
structure IsHex (width n : Nat) (s : String) : Prop where
  digits : ∀ c ∈ s.toList, c ∈ "0123456789abcdef".toList
  width_le : width ≤ s.length
  value : hexValue s.toList = n
  needed : width < s.length → 16 ^ (s.length - 1) ≤ n

/-- The hexadecimal text of a number is one, and stands for the number. -/
theorem isHex_hex {width : Nat} (hwidth : 0 < width) (n : Nat) :
    IsHex width n (hex width n) := by
  have htoList : (hex width n).toList = hexDigits width n := String.toList_ofList
  constructor
  · intro c hc
    rw [htoList] at hc
    obtain ⟨d, hd, rfl⟩ := exists_digit_of_mem_hexDigits hc
    have hall : ∀ d < 16, Nat.digitChar d ∈ "0123456789abcdef".toList := by decide
    exact hall d hd
  · rw [length_hex]
    exact Nat.le_max_left _ _
  · rw [htoList, hexValue_hexDigits]
  · intro hwide
    rw [length_hex] at hwide ⊢
    have hlength := Nat.length_toDigits_le_iff (b := 16) (n := n)
      (k := max width (Nat.toDigits 16 n).length - 1) (by decide) (by omega)
    exact Nat.not_lt.mp fun hlt => by have := hlength.mpr hlt; omega

/-- A numeral has a digit. -/
theorem hex_ne_empty (width n : Nat) : hex width n ≠ "" := by
  intro h
  have hdigits : hexDigits width n = [] := String.ofList_injective h
  have hne : Nat.toDigits 16 n ≠ [] := Nat.toDigits_ne_nil
  exact hne (List.append_eq_nil_iff.mp hdigits).2

end DexListing.Text
