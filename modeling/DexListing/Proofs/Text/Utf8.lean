import DexListing.Text.Utf8

/-!
# Decoding what was encoded

A character is one to four bytes, by the size of its code point. Whichever it is, reading the bytes
gives the character back and takes just these bytes (`readChar_encodeChar`), so decoding the bytes
of a text gives its characters, whatever stands after them (`decodeUtf8_encodeChar_append`).
-/

set_option autoImplicit false

namespace DexListing.Text

/-- A byte that continues a sequence. -/
def IsContinuation (b : UInt8) : Prop := 0x80 ≤ b.toNat ∧ b.toNat ≤ 0xBF

/-- The low six bits of a number as a continuation byte. -/
def continuation (n : Nat) : UInt8 := UInt8.ofNat (n % 0x40 + 0x80)

/-- A continuation byte has six bits of its number. -/
theorem toNat_continuation (n : Nat) : (continuation n).toNat = n % 0x40 + 0x80 := by
  unfold continuation
  rw [UInt8.toNat_ofNat']
  omega

/-- A continuation byte is one. -/
theorem isContinuation_continuation (n : Nat) : IsContinuation (continuation n) := by
  unfold IsContinuation
  rw [toNat_continuation]
  omega

/-! ## Continuation bytes -/

/-- All of some continuation bytes continue a sequence. -/
theorem continuations_append {tail : List UInt8} (h : ∀ b ∈ tail, IsContinuation b)
    (rest : List UInt8) : continuations tail.length 0x80 0xBF (tail ++ rest) = tail.length := by
  induction tail with
  | nil => rfl
  | cons b tail ih =>
    obtain ⟨hlow, hhigh⟩ := h b List.mem_cons_self
    have hb : ((0x80 : UInt8) ≤ b && b ≤ (0xBF : UInt8)) = true := by
      simpa [UInt8.le_iff_toNat_le] using And.intro hlow hhigh
    have hrest := ih fun x hx => h x (List.mem_cons_of_mem b hx)
    simp only [List.length_cons, List.cons_append, continuations, hb, if_true, hrest]

/-- A byte within the range that is asked for and continuation bytes after it all continue a
sequence. -/
theorem continuations_cons {low high b : UInt8} {tail : List UInt8}
    (hlow : low.toNat ≤ b.toNat) (hhigh : b.toNat ≤ high.toNat)
    (htail : ∀ x ∈ tail, IsContinuation x) (rest : List UInt8) :
    continuations (tail.length + 1) low high (b :: tail ++ rest) = tail.length + 1 := by
  have hb : (low ≤ b && b ≤ high) = true := by
    simpa [UInt8.le_iff_toNat_le] using And.intro hlow hhigh
  simp only [List.cons_append, continuations, hb, if_true, continuations_append htail]

/-- A lead byte with the bytes that its rule asks for stands for one character. -/
theorem readChar_sequence {lead b : UInt8} {tail : List UInt8} {rule : SequenceRule}
    (hlead : 0x80 ≤ lead.toNat) (hrule : sequenceRule? lead = some rule)
    (hcount : rule.count = tail.length + 1) (hlow : rule.low.toNat ≤ b.toNat)
    (hhigh : b.toNat ≤ rule.high.toNat) (htail : ∀ x ∈ tail, IsContinuation x)
    (rest : List UInt8) :
    readChar lead (b :: tail ++ rest) =
      (.ok (Char.ofNat (sequenceValue lead (b :: tail))), tail.length + 1) := by
  have hascii : ¬lead < 0x80 := by
    rw [UInt8.lt_iff_toNat_lt]
    exact Nat.not_lt.mpr hlead
  have htaken := continuations_cons hlow hhigh htail rest
  have htake : (b :: tail ++ rest).take (b :: tail).length = b :: tail := List.take_left
  rw [List.length_cons] at htake
  unfold readChar
  rw [if_neg hascii, hrule]
  dsimp only
  rw [hcount, htaken, if_pos rfl, htake]

/-! ## Lead bytes -/

/-- The rule of a lead byte, read off its number. -/
theorem sequenceRule?_eq (lead : UInt8) :
    sequenceRule? lead =
      if lead.toNat < 0xC2 then none
      else if lead.toNat < 0xE0 then some ⟨1, 0x80, 0xBF⟩
      else if lead.toNat = 0xE0 then some ⟨2, 0xA0, 0xBF⟩
      else if lead.toNat = 0xED then some ⟨2, 0x80, 0x9F⟩
      else if lead.toNat < 0xF0 then some ⟨2, 0x80, 0xBF⟩
      else if lead.toNat = 0xF0 then some ⟨3, 0x90, 0xBF⟩
      else if lead.toNat < 0xF4 then some ⟨3, 0x80, 0xBF⟩
      else if lead.toNat = 0xF4 then some ⟨3, 0x80, 0x8F⟩
      else none := by
  simp only [sequenceRule?, UInt8.lt_iff_toNat_lt, ← UInt8.toNat_inj]
  rfl

/-! ## The value of a sequence -/

/-- The code point in two bytes. -/
theorem sequenceValue_two (lead b : UInt8) :
    sequenceValue lead [b] = lead.toNat % 0x20 * 64 + b.toNat % 64 := by
  have hlead : leadValues 1 = 0x20 := by decide
  unfold sequenceValue
  rw [show [b].length = 1 from rfl, hlead]
  rfl

/-- The code point in three bytes. -/
theorem sequenceValue_three (lead b b' : UInt8) :
    sequenceValue lead [b, b'] = (lead.toNat % 0x10 * 64 + b.toNat % 64) * 64 + b'.toNat % 64 := by
  have hlead : leadValues 2 = 0x10 := by decide
  unfold sequenceValue
  rw [show [b, b'].length = 2 from rfl, hlead]
  rfl

/-- The code point in four bytes. -/
theorem sequenceValue_four (lead b b' b'' : UInt8) :
    sequenceValue lead [b, b', b''] =
      ((lead.toNat % 0x08 * 64 + b.toNat % 64) * 64 + b'.toNat % 64) * 64 + b''.toNat % 64 := by
  have hlead : leadValues 3 = 0x08 := by decide
  unfold sequenceValue
  rw [show [b, b', b''].length = 3 from rfl, hlead]
  rfl

/-! ## Characters by the number of their bytes -/

variable {v : Nat}

/-- An ASCII character is one byte. -/
theorem readChar_one (hv : v ≤ 0x7F) (rest : List UInt8) :
    readChar (UInt8.ofNat v) rest = (.ok (Char.ofNat v), 0) := by
  have hlead : (UInt8.ofNat v).toNat = v := by
    rw [UInt8.toNat_ofNat']
    omega
  have hascii : UInt8.ofNat v < 0x80 := by
    rw [UInt8.lt_iff_toNat_lt, hlead]
    exact Nat.lt_succ_of_le hv
  unfold readChar
  rw [if_pos hascii, hlead]

/-- A character of two bytes. -/
theorem readChar_two (hlow : 0x7F < v) (hhigh : v ≤ 0x7FF) (rest : List UInt8) :
    readChar (UInt8.ofNat (v / 64 % 0x20 + 0xC0)) ([continuation v] ++ rest) =
      (.ok (Char.ofNat v), 1) := by
  have hlead : (UInt8.ofNat (v / 64 % 0x20 + 0xC0)).toNat = v / 64 + 0xC0 := by
    rw [UInt8.toNat_ofNat']
    omega
  generalize UInt8.ofNat (v / 64 % 0x20 + 0xC0) = lead at hlead
  have hrule : sequenceRule? lead = some ⟨1, 0x80, 0xBF⟩ := by
    rw [sequenceRule?_eq, hlead, if_neg (by omega), if_pos (by omega)]
  obtain ⟨hfrom, hto⟩ := isContinuation_continuation v
  have hvalue : sequenceValue lead [continuation v] = v := by
    rw [sequenceValue_two, hlead, toNat_continuation]
    omega
  rw [readChar_sequence (by omega) hrule rfl hfrom hto (by simp), hvalue]
  rfl

/-- A character of three bytes. The range of the second byte keeps out what two bytes can hold, and
the surrogates. -/
theorem readChar_three (hlow : 0x7FF < v) (hhigh : v ≤ 0xFFFF) (hvalid : v < 0xD800 ∨ 0xDFFF < v)
    (rest : List UInt8) :
    readChar (UInt8.ofNat (v / 4096 % 0x10 + 0xE0))
        ([continuation (v / 64), continuation v] ++ rest) = (.ok (Char.ofNat v), 2) := by
  have hlead : (UInt8.ofNat (v / 4096 % 0x10 + 0xE0)).toNat = v / 4096 + 0xE0 := by
    rw [UInt8.toNat_ofNat']
    omega
  generalize UInt8.ofNat (v / 4096 % 0x10 + 0xE0) = lead at hlead
  have hrule : ∃ low high : UInt8, sequenceRule? lead = some ⟨2, low, high⟩ ∧
      low.toNat ≤ v / 64 % 0x40 + 0x80 ∧ v / 64 % 0x40 + 0x80 ≤ high.toNat := by
    rw [sequenceRule?_eq, hlead, if_neg (by omega), if_neg (by omega)]
    by_cases hfirst : v / 4096 + 0xE0 = 0xE0
    · rw [if_pos hfirst]
      exact ⟨0xA0, 0xBF, rfl, by show 0xA0 ≤ _; omega, by show _ ≤ 0xBF; omega⟩
    · rw [if_neg hfirst]
      by_cases hsurrogate : v / 4096 + 0xE0 = 0xED
      · rw [if_pos hsurrogate]
        exact ⟨0x80, 0x9F, rfl, by show 0x80 ≤ _; omega, by show _ ≤ 0x9F; omega⟩
      · rw [if_neg hsurrogate, if_pos (by omega)]
        exact ⟨0x80, 0xBF, rfl, by show 0x80 ≤ _; omega, by show _ ≤ 0xBF; omega⟩
  obtain ⟨low, high, hrule, hfrom, hto⟩ := hrule
  rw [← toNat_continuation] at hfrom hto
  have htail : ∀ x ∈ [continuation v], IsContinuation x := by
    simp [isContinuation_continuation]
  have hvalue : sequenceValue lead [continuation (v / 64), continuation v] = v := by
    rw [sequenceValue_three, hlead, toNat_continuation, toNat_continuation]
    omega
  rw [readChar_sequence (by omega) hrule rfl hfrom hto htail, hvalue]
  rfl

/-- A character of four bytes. The range of the second byte keeps out what three bytes can hold, and
what is no code point. -/
theorem readChar_four (hlow : 0xFFFF < v) (hhigh : v < 0x110000) (rest : List UInt8) :
    readChar (UInt8.ofNat (v / 262144 % 0x08 + 0xF0))
        ([continuation (v / 4096), continuation (v / 64), continuation v] ++ rest) =
      (.ok (Char.ofNat v), 3) := by
  have hlead : (UInt8.ofNat (v / 262144 % 0x08 + 0xF0)).toNat = v / 262144 + 0xF0 := by
    rw [UInt8.toNat_ofNat']
    omega
  generalize UInt8.ofNat (v / 262144 % 0x08 + 0xF0) = lead at hlead
  have hrule : ∃ low high : UInt8, sequenceRule? lead = some ⟨3, low, high⟩ ∧
      low.toNat ≤ v / 4096 % 0x40 + 0x80 ∧ v / 4096 % 0x40 + 0x80 ≤ high.toNat := by
    rw [sequenceRule?_eq, hlead, if_neg (by omega), if_neg (by omega), if_neg (by omega),
      if_neg (by omega), if_neg (by omega)]
    by_cases hfirst : v / 262144 + 0xF0 = 0xF0
    · rw [if_pos hfirst]
      exact ⟨0x90, 0xBF, rfl, by show 0x90 ≤ _; omega, by show _ ≤ 0xBF; omega⟩
    · rw [if_neg hfirst]
      by_cases hmiddle : v / 262144 + 0xF0 < 0xF4
      · rw [if_pos hmiddle]
        exact ⟨0x80, 0xBF, rfl, by show 0x80 ≤ _; omega, by show _ ≤ 0xBF; omega⟩
      · rw [if_neg hmiddle, if_pos (by omega)]
        exact ⟨0x80, 0x8F, rfl, by show 0x80 ≤ _; omega, by show _ ≤ 0x8F; omega⟩
  obtain ⟨low, high, hrule, hfrom, hto⟩ := hrule
  rw [← toNat_continuation] at hfrom hto
  have htail : ∀ x ∈ [continuation (v / 64), continuation v], IsContinuation x := by
    simp [isContinuation_continuation]
  have hvalue : sequenceValue lead [continuation (v / 4096), continuation (v / 64),
      continuation v] = v := by
    rw [sequenceValue_four, hlead, toNat_continuation, toNat_continuation, toNat_continuation]
    omega
  rw [readChar_sequence (by omega) hrule rfl hfrom hto htail, hvalue]
  rfl

/-- The code points between the surrogates and below the last one are those of characters. -/
theorem val_valid (c : Char) :
    c.val.toNat < 0xD800 ∨ (0xDFFF < c.val.toNat ∧ c.val.toNat < 0x110000) := c.valid

/-- Reading the bytes of a character gives it back and takes all of them. -/
theorem readChar_encodeChar (c : Char) :
    ∃ lead tail, String.utf8EncodeChar c = lead :: tail ∧
      ∀ rest, readChar lead (tail ++ rest) = (.ok c, tail.length) := by
  have hvalid := val_valid c
  have hchar : Char.ofNat c.val.toNat = c := Char.ofNat_toNat c
  unfold String.utf8EncodeChar
  dsimp only
  generalize c.val.toNat = v at hvalid hchar ⊢
  subst hchar
  split
  · next hone => exact ⟨_, [], rfl, readChar_one hone⟩
  · split
    · next hone htwo => exact ⟨_, [continuation v], rfl, readChar_two (by omega) htwo⟩
    · split
      · next hone htwo hthree =>
        exact ⟨_, [continuation (v / 64), continuation v], rfl,
          readChar_three (by omega) hthree (by omega)⟩
      · next hone htwo hthree =>
        exact ⟨_, [continuation (v / 4096), continuation (v / 64), continuation v], rfl,
          readChar_four (by omega) (by omega)⟩

/-! ## Texts -/

/-- The bytes of a character are decoded to it, whatever stands after them. -/
theorem decodeUtf8_encodeChar_append (c : Char) (rest : List UInt8) :
    decodeUtf8 (String.utf8EncodeChar c ++ rest) = c :: decodeUtf8 rest := by
  obtain ⟨lead, tail, hbytes, hread⟩ := readChar_encodeChar c
  rw [hbytes, List.cons_append, decodeUtf8]
  simp only [hread rest, List.drop_left]
  rfl

/-- A byte of a character is its code point, if that is ASCII, and else neither ASCII nor `C0`. -/
theorem toNat_of_mem_encodeChar {c : Char} {b : UInt8} (h : b ∈ String.utf8EncodeChar c) :
    (c.val.toNat ≤ 0x7F ∧ b.toNat = c.val.toNat) ∨ (0x80 ≤ b.toNat ∧ b.toNat ≠ 0xC0) := by
  have hvalid := val_valid c
  unfold String.utf8EncodeChar at h
  dsimp only at h
  generalize c.val.toNat = v at hvalid h ⊢
  split at h
  · next hone =>
    obtain rfl := List.mem_singleton.mp h
    left
    rw [UInt8.toNat_ofNat']
    omega
  · right
    split at h
    · simp only [List.mem_cons, List.not_mem_nil, or_false] at h
      rcases h with rfl | rfl <;> rw [UInt8.toNat_ofNat'] <;> omega
    · split at h
      · simp only [List.mem_cons, List.not_mem_nil, or_false] at h
        rcases h with rfl | rfl | rfl <;> rw [UInt8.toNat_ofNat'] <;> omega
      · simp only [List.mem_cons, List.not_mem_nil, or_false] at h
        rcases h with rfl | rfl | rfl | rfl <;> rw [UInt8.toNat_ofNat'] <;> omega

/-- No byte of another character can be taken for a part of the zero character, however that is
written. -/
theorem toNat_of_mem_encodeChar_of_ne {c : Char} (hc : c ≠ '\x00') {b : UInt8}
    (h : b ∈ String.utf8EncodeChar c) : b.toNat ≠ 0 ∧ b.toNat ≠ 0xC0 := by
  have hvalue : c.val.toNat ≠ 0 := by
    intro hzero
    apply hc
    rw [← Char.ofNat_toNat c, show c.toNat = 0 from hzero]
  rcases toNat_of_mem_encodeChar h with ⟨hascii, heq⟩ | ⟨hhigh, hne⟩
  · omega
  · omega

/-- A text has at least as many bytes as characters. -/
theorem length_le_length_utf8OfText (s : String) : s.length ≤ (utf8OfText s).length := by
  rw [← String.length_toList]
  unfold utf8OfText
  induction s.toList with
  | nil => exact Nat.zero_le _
  | cons c cs ih =>
    have hpos : 0 < (String.utf8EncodeChar c).length :=
      List.length_pos_iff.mpr String.utf8EncodeChar_ne_nil
    rw [List.flatMap_cons, List.length_append, List.length_cons]
    omega

end DexListing.Text
