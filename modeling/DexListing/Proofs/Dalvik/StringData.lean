import Mathlib.Data.List.Basic
import DexListing.Proofs.Bytes.Numbers
import DexListing.Proofs.Dalvik.Truncation
import DexListing.Proofs.Text.Utf8

/-!
# The data of strings

The data of a string are its length, which nothing depends on, its characters in some encoding, and
a zero byte. Of an encoding it matters that it has no zero byte of its own and what is made of it,
whatever stands after it (`Layout.ReadsAs`). Two encodings are of interest. UTF-8 with two bytes for
the zero character, as it is written by those who build containers, gives the string back
(`Container.string_of_escapedUtf8`). Modified UTF-8 differs from it for the characters above
`0xFFFF`: each of them is a pair of surrogates of three bytes, and each of these six bytes is shown
as a replacement character (`Container.string_of_modifiedUtf8`); so two strings that differ in such
characters look the same (`Container.string_surrogates`).
-/

set_option autoImplicit false

namespace DexListing

/-! ## Two encodings -/

namespace Text

/-- A character in UTF-8; the zero character takes two bytes. -/
def escapedChar (c : Char) : List UInt8 :=
  if c = '\x00' then [0xC0, 0x80] else String.utf8EncodeChar c

/-- A text in UTF-8, with two bytes for each zero character. -/
def escapedUtf8 (s : String) : List UInt8 := s.toList.flatMap escapedChar

/-- Without a zero character there is nothing to escape. -/
theorem escapedUtf8_eq {s : String} (hnul : '\x00' ∉ s.toList) : escapedUtf8 s = utf8OfText s := by
  apply List.flatMap_congr
  intro c hc
  have hne : c ≠ '\x00' := ne_of_mem_of_not_mem hc hnul
  rw [escapedChar, if_neg hne]

/-- The form that UTF-8 has for numbers of sixteen bits, for surrogates as well. -/
def threeByteForm (n : Nat) : List UInt8 :=
  [UInt8.ofNat (n / 4096 % 0x10 + 0xE0), continuation (n / 64), continuation n]

/-- A character that is no number of sixteen bits. -/
def IsSupplementary (c : Char) : Prop := 0x10000 ≤ c.toNat

instance (c : Char) : Decidable (IsSupplementary c) := inferInstanceAs (Decidable (_ ≤ _))

/-- The first number of the pair that a supplementary character is written as in UTF-16. -/
def highSurrogate (c : Char) : Nat := 0xD800 + (c.toNat - 0x10000) / 0x400

/-- The second number of the pair. -/
def lowSurrogate (c : Char) : Nat := 0xDC00 + (c.toNat - 0x10000) % 0x400

/-- A character in modified UTF-8: a supplementary one is a pair of surrogates. -/
def modifiedChar (c : Char) : List UInt8 :=
  if IsSupplementary c then threeByteForm (highSurrogate c) ++ threeByteForm (lowSurrogate c)
  else escapedChar c

/-- A text in modified UTF-8. -/
def modifiedUtf8 (s : String) : List UInt8 := s.toList.flatMap modifiedChar

example : modifiedUtf8 "a\x00😀" = [0x61, 0xC0, 0x80, 0xED, 0xA0, 0xBD, 0xED, 0xB8, 0x80] := by
  decide +kernel

/-- What is shown for a character in modified UTF-8. -/
def shownChar (c : Char) : List Char :=
  if IsSupplementary c then List.replicate 6 replacement else [c]

/-- What is shown for a text in modified UTF-8. -/
def shownText (s : String) : String := String.ofList (s.toList.flatMap shownChar)

/-- A text is shown as it is if it has no supplementary characters, and only then: no such character
is ever shown. -/
theorem shownText_eq_iff (s : String) :
    shownText s = s ↔ ∀ c ∈ s.toList, ¬IsSupplementary c := by
  constructor
  · intro heq c hc
    rw [← heq, shownText, String.toList_ofList] at hc
    obtain ⟨d, -, hshown⟩ := List.mem_flatMap.mp hc
    unfold shownChar at hshown
    split at hshown
    · rw [List.eq_of_mem_replicate hshown]
      decide
    · next hd => rwa [List.mem_singleton.mp hshown]
  · intro hnone
    have hsame : s.toList.flatMap shownChar = s.toList.flatMap fun c => [c] :=
      List.flatMap_congr fun c hc => if_neg (hnone c hc)
    rw [shownText, hsame, List.flatMap_singleton', String.ofList_toList]

/-! ## Bytes that are not UTF-8 -/

/-- A byte that can only continue a character is replaced. -/
theorem decodeUtf8_continuation {b : UInt8} (hb : IsContinuation b) (rest : List UInt8) :
    decodeUtf8 (b :: rest) = replacement :: decodeUtf8 rest := by
  obtain ⟨hlow, hhigh⟩ := hb
  have hascii : ¬b < 0x80 := by
    rw [UInt8.lt_iff_toNat_lt]
    exact Nat.not_lt.mpr hlow
  have hrule : sequenceRule? b = none := by
    rw [sequenceRule?_eq, if_pos (by omega)]
  have hread : readChar b rest = (.error .startByte, 0) := by
    unfold readChar
    rw [if_neg hascii, hrule]
  rw [decodeUtf8]
  simp only [hread, List.drop_zero]
  rfl

/-- The lead byte of a surrogate is replaced, because of the byte after it. -/
theorem decodeUtf8_surrogateLead {b : UInt8} (hb : 0x9F < b.toNat) (rest : List UInt8) :
    decodeUtf8 (0xED :: b :: rest) = replacement :: decodeUtf8 (b :: rest) := by
  have hout : (0x80 ≤ b && b ≤ 0x9F) = false := by
    rw [Bool.and_eq_false_iff]
    right
    rw [decide_eq_false_iff_not, UInt8.le_iff_toNat_le]
    exact Nat.not_le.mpr hb
  have hread : (readChar 0xED (b :: rest)).1.toOption = none ∧
      (readChar 0xED (b :: rest)).2 = 0 := by
    have hrule : sequenceRule? 0xED = some ⟨2, 0x80, 0x9F⟩ := rfl
    unfold readChar
    rw [if_neg (by decide), hrule]
    dsimp only
    rw [continuations, hout]
    exact ⟨rfl, rfl⟩
  rw [decodeUtf8]
  simp only [hread, List.drop_zero]
  rfl

/-- Each byte of a surrogate is replaced. -/
theorem decodeUtf8_surrogate {n : Nat} (hlow : 0xD800 ≤ n) (hhigh : n ≤ 0xDFFF)
    (rest : List UInt8) :
    decodeUtf8 (threeByteForm n ++ rest) = List.replicate 3 replacement ++ decodeUtf8 rest := by
  have hlead : UInt8.ofNat (n / 4096 % 0x10 + 0xE0) = 0xED := by
    rw [show n / 4096 % 0x10 + 0xE0 = 0xED by omega]
    rfl
  have hsecond : 0x9F < (continuation (n / 64)).toNat := by
    rw [toNat_continuation]
    omega
  change decodeUtf8 (UInt8.ofNat (n / 4096 % 0x10 + 0xE0) :: continuation (n / 64) ::
    continuation n :: rest) = _
  rw [hlead, decodeUtf8_surrogateLead hsecond,
    decodeUtf8_continuation (isContinuation_continuation _),
    decodeUtf8_continuation (isContinuation_continuation _)]
  rfl

/-- The first half of a character outside the basic plane is a surrogate. -/
theorem highSurrogate_bounds {c : Char} (hc : IsSupplementary c) :
    0xD800 ≤ highSurrogate c ∧ highSurrogate c ≤ 0xDFFF := by
  have hvalid : c.toNat < 0xD800 ∨ (0xDFFF < c.toNat ∧ c.toNat < 0x110000) := val_valid c
  unfold IsSupplementary at hc
  unfold highSurrogate
  omega

/-- The second half of a character is a surrogate. -/
theorem lowSurrogate_bounds (c : Char) : 0xD800 ≤ lowSurrogate c ∧ lowSurrogate c ≤ 0xDFFF := by
  unfold lowSurrogate
  omega

end Text

/-! ## What is read of an encoding -/

namespace Layout

/-- Nothing is turned into a zero byte where there is no `C0`. -/
theorem unescapeZero_append {bytes : List UInt8} (h : ∀ b ∈ bytes, b ≠ 0xC0)
    (rest : List UInt8) : unescapeZero (bytes ++ rest) = bytes ++ unescapeZero rest := by
  induction bytes with
  | nil => rfl
  | cons b bytes ih =>
    have hbytes := ih fun x hx => h x (List.mem_cons_of_mem b hx)
    rw [List.cons_append, unescapeZero, hbytes, List.cons_append]
    intro more hb
    exact absurd hb (h b List.mem_cons_self)

/-- Bytes without a zero byte are read as characters, and what stands after them is read as if they
were not there. -/
structure ReadsAs (bytes : List UInt8) (chars : List Char) : Prop where
  ne_zero : ∀ b ∈ bytes, b ≠ 0
  decodes : ∀ rest, Text.decodeUtf8 (unescapeZero (bytes ++ rest)) =
    chars ++ Text.decodeUtf8 (unescapeZero rest)

namespace ReadsAs

variable {bytes bytes' : List UInt8} {chars chars' : List Char}

/-- No bytes read as no characters. -/
theorem nil : ReadsAs [] [] := ⟨fun _ => nofun, fun _ => rfl⟩

/-- What is read byte by byte can be put together. -/
theorem append (h : ReadsAs bytes chars) (h' : ReadsAs bytes' chars') :
    ReadsAs (bytes ++ bytes') (chars ++ chars') := by
  constructor
  · intro b hb
    rcases List.mem_append.mp hb with hb | hb
    · exact h.ne_zero b hb
    · exact h'.ne_zero b hb
  · intro rest
    rw [List.append_assoc, h.decodes, h'.decodes, List.append_assoc]

/-- So texts are read if their characters are. -/
theorem flatMap {encode : Char → List UInt8} {read : Char → List Char}
    (h : ∀ c, ReadsAs (encode c) (read c)) (cs : List Char) :
    ReadsAs (cs.flatMap encode) (cs.flatMap read) := by
  induction cs with
  | nil => exact .nil
  | cons c cs ih =>
    rw [List.flatMap_cons, List.flatMap_cons]
    exact (h c).append ih

/-- Bytes that are neither zero nor `C0` are read as they are decoded. -/
theorem of_forall_ne (hbytes : ∀ b ∈ bytes, b.toNat ≠ 0 ∧ b.toNat ≠ 0xC0)
    (hdecodes : ∀ rest, Text.decodeUtf8 (bytes ++ rest) = chars ++ Text.decodeUtf8 rest) :
    ReadsAs bytes chars := by
  constructor
  · rintro b hb rfl
    exact (hbytes 0 hb).1 rfl
  · intro rest
    have hescape : ∀ b ∈ bytes, b ≠ 0xC0 := by
      rintro b hb rfl
      exact (hbytes 0xC0 hb).2 rfl
    rw [unescapeZero_append hescape, hdecodes]

end ReadsAs

/-- A character is read back from its escaped bytes. -/
theorem readsAs_escapedChar (c : Char) : ReadsAs (Text.escapedChar c) [c] := by
  unfold Text.escapedChar
  by_cases hzero : c = '\x00'
  · rw [if_pos hzero]
    constructor
    · rintro b hb rfl
      exact absurd hb (by decide)
    · intro rest
      change Text.decodeUtf8 (String.utf8EncodeChar '\x00' ++ unescapeZero rest) = _
      rw [hzero, Text.decodeUtf8_encodeChar_append]
      rfl
  · rw [if_neg hzero]
    refine .of_forall_ne (fun b hb => ?_) (Text.decodeUtf8_encodeChar_append c)
    exact Text.toNat_of_mem_encodeChar_of_ne hzero hb

/-- The bytes of a surrogate read as three replacement characters. -/
theorem readsAs_surrogate {n : Nat} (hlow : 0xD800 ≤ n) (hhigh : n ≤ 0xDFFF) :
    ReadsAs (Text.threeByteForm n) (List.replicate 3 Text.replacement) := by
  refine .of_forall_ne (fun b hb => ?_) (Text.decodeUtf8_surrogate hlow hhigh)
  simp only [Text.threeByteForm, List.mem_cons, List.not_mem_nil, or_false] at hb
  rcases hb with rfl | rfl | rfl
  · rw [UInt8.toNat_ofNat']
    omega
  · rw [Text.toNat_continuation]
    omega
  · rw [Text.toNat_continuation]
    omega

/-- The modified bytes of a character read as what is shown of it. -/
theorem readsAs_modifiedChar (c : Char) :
    ReadsAs (Text.modifiedChar c) (Text.shownChar c) := by
  unfold Text.modifiedChar Text.shownChar
  by_cases hc : Text.IsSupplementary c
  · rw [if_pos hc, if_pos hc]
    obtain ⟨hlow, hhigh⟩ := Text.highSurrogate_bounds hc
    obtain ⟨hlow', hhigh'⟩ := Text.lowSurrogate_bounds c
    exact (readsAs_surrogate hlow hhigh).append (readsAs_surrogate hlow' hhigh')
  · rw [if_neg hc, if_neg hc]
    exact readsAs_escapedChar c

/-- A text is read back from its escaped bytes. -/
theorem readsAs_escapedUtf8 (s : String) : ReadsAs (Text.escapedUtf8 s) s.toList := by
  have hreads := ReadsAs.flatMap readsAs_escapedChar s.toList
  rwa [List.flatMap_singleton'] at hreads

/-- The modified bytes of a text read as what is shown of its characters. -/
theorem readsAs_modifiedUtf8 (s : String) :
    ReadsAs (Text.modifiedUtf8 s) (s.toList.flatMap Text.shownChar) :=
  .flatMap readsAs_modifiedChar s.toList

/-! ## Strings -/

/-- The entry of the table of strings with an index leads to some bytes, whatever stands after
them. -/
structure HasStringData (l : Layout) (index : Nat) (bytes : List UInt8) : Prop where
  index_lt : index < l.header.strings.count
  stands : ∃ offset, l.u4 (l.header.strings.offset + index * 4) = .ok offset ∧
    l.data.Has offset bytes

variable {l : Layout} {bytes : List UInt8} {chars : List Char} {offset : Nat}

/-- Bytes between a length and a zero byte are read as characters. -/
theorem stringAt_of_readsAs {start length : Nat} (hreads : ReadsAs bytes chars)
    (hlength : l.leb128 offset = .ok (length, start)) (h : l.data.Has start (bytes ++ [0])) :
    l.stringAt offset = .ok (String.ofList chars) := by
  have hchars : Text.decodeUtf8 (unescapeZero bytes) = chars := by
    have hdecodes := hreads.decodes []
    rwa [List.append_nil, show Text.decodeUtf8 (unescapeZero []) = [] by
      simp [unescapeZero, Text.decodeUtf8], List.append_nil] at hdecodes
  unfold stringAt
  rw [hlength]
  dsimp only [bind, Except.bind]
  rw [h.findZero?_eq hreads.ne_zero]
  dsimp only
  rw [h.append.1.range_eq, Text.textOfUtf8, hchars]
  rfl

/-- The string with an index is what its data are read as, whatever its length is said to be. -/
theorem string_of_readsAs {index : Nat} {lengthBytes : List UInt8} (hreads : ReadsAs bytes chars)
    (hlength : Leb128.HasForm Leb128.maxBytes lengthBytes)
    (hdata : l.HasStringData index (lengthBytes ++ (bytes ++ [0]))) :
    l.string index = .ok (String.ofList chars) := by
  obtain ⟨offset, hoffset, hhas⟩ := hdata.stands
  obtain ⟨hhead, htail⟩ := hhas.append
  have hleb : l.leb128 offset = .ok (Leb128.value lengthBytes, offset + lengthBytes.length) := by
    unfold leb128 Leb128.read
    rw [Leb128.readWithin_of_hasForm hlength hhead]
  unfold string
  dsimp only
  rw [if_neg (Nat.not_le_of_lt hdata.index_lt), hoffset]
  exact stringAt_of_readsAs hreads hleb htail

/-- What lies within the bytes can be read. -/
theorem require_of_le {size : Nat} (h : offset + size ≤ l.data.size) :
    l.require offset size = .ok () := by
  unfold require Bytes.require
  rw [if_pos h]

/-- A number of four bytes is read back. -/
theorem u4_of_has {n : Nat} (hn : n < 0x100000000)
    (h : l.data.Has offset (Bytes.littleEndian 4 n)) : l.u4 offset = .ok n := by
  have hsize : offset + (Bytes.littleEndian 4 n).length ≤ l.data.size :=
    h.le_size (List.cons_ne_nil _ _)
  rw [Bytes.length_littleEndian] at hsize
  unfold u4
  rw [require_of_le hsize, h.u4_eq hn]
  rfl

end Layout

/-! ## Containers of two strings -/

namespace Container

/-- The bytes of a header that counts two strings and nothing else. -/
def twoStringsHead : List UInt8 :=
  magic ++ [0x30, 0x33, 0x35, 0] ++ List.replicate 48 0
    ++ [2, 0x70, 0, 0, 0, 0, 0, 0, 0, 0, 0, 0, 0, 0].flatMap (Bytes.littleEndian 4)

def twoStringsHeader : Header :=
  ⟨"035", ⟨2, 0x70⟩, ⟨0, 0⟩, ⟨0, 0⟩, ⟨0, 0⟩, ⟨0, 0⟩, ⟨0, 0⟩⟩

/-- A container that consists of the data of two strings, and of what leads to them. -/
def twoStrings (first second : List UInt8) : Container :=
  ofLayout ⟨(twoStringsHead ++ (Bytes.littleEndian 4 0x78 ++
    (Bytes.littleEndian 4 (0x78 + first.length) ++ (first ++ second)))).toArray, twoStringsHeader⟩

/-- A container with nothing but two strings is accepted. -/
theorem ofBytes_twoStrings (first second : List UInt8) :
    ofBytes (twoStrings first second).data = .ok (twoStrings first second) := by
  have hhead : Header.ofBytes twoStringsHead.toArray = .ok twoStringsHeader :=
    eq_ok_of_toOption (by decide +kernel)
  have hheader : Header.ofBytes (twoStrings first second).data = .ok twoStringsHeader := by
    unfold twoStrings ofLayout
    dsimp only
    rw [← List.append_toArray twoStringsHead]
    exact Header.ofBytes_append hhead _
  unfold ofBytes
  rw [hheader]
  rfl

/-- Both strings are where the table says, as far as offsets of four bytes reach. -/
theorem hasStringData_twoStrings {first : List UInt8} (second : List UInt8)
    (hfirst : 0x78 + first.length < 0x100000000) :
    (twoStrings first second).HasStringData 0 first ∧
      (twoStrings first second).HasStringData 1 second := by
  have hzero := Bytes.has_toArray (twoStringsHead ++ (Bytes.littleEndian 4 0x78 ++
    Bytes.littleEndian 4 (0x78 + first.length))) first second
  have hone := Bytes.has_toArray (twoStringsHead ++ (Bytes.littleEndian 4 0x78 ++
    (Bytes.littleEndian 4 (0x78 + first.length) ++ first))) second []
  have hentry := Bytes.has_toArray (twoStringsHead ++ Bytes.littleEndian 4 0x78)
    (Bytes.littleEndian 4 (0x78 + first.length)) (first ++ second)
  simp only [List.append_assoc, List.append_nil] at hzero hone hentry
  constructor
  · exact ⟨Nat.zero_lt_two, _, Layout.u4_of_has (by decide) (Bytes.has_toArray _ _ _), hzero⟩
  · refine ⟨Nat.one_lt_two, _, Layout.u4_of_has hfirst hentry, ?_⟩
    have hlength : (twoStringsHead ++ (Bytes.littleEndian 4 0x78 ++
        (Bytes.littleEndian 4 (0x78 + first.length) ++ first))).length = 0x78 + first.length := by
      simp only [List.length_append, Bytes.length_littleEndian,
        show twoStringsHead.length = 0x70 from rfl]
      omega
    rwa [hlength] at hone

end Container

namespace Container

variable {c : Container} {index : Nat} {lengthBytes : List UInt8} {s : String}

/-- A string whose data are UTF-8 with two bytes for each zero character comes back as it is, whatever
length stands in front of it, in as many bytes as a number may take; no replacement character is
added to it. -/
theorem string_of_escapedUtf8 (hlength : Leb128.HasForm Leb128.maxBytes lengthBytes)
    (hdata : c.HasStringData index (lengthBytes ++ (Text.escapedUtf8 s ++ [0]))) :
    c.string index = .ok s ∧
      ∀ text, c.string index = .ok text →
        text.toList.count Text.replacement = s.toList.count Text.replacement := by
  have hstring : c.string index = .ok s := by
    rw [string_eq, Layout.string_of_readsAs (Layout.readsAs_escapedUtf8 s) hlength hdata,
      String.ofList_toList]
  refine ⟨hstring, fun text htext => ?_⟩
  rw [hstring] at htext
  rw [Except.ok.inj htext]

/-- A zero character, and characters of one to four bytes after it, behind a length that takes three
bytes where one would do. -/
theorem string_of_escapedUtf8_mixed :
    let lengthBytes : List UInt8 := [0x85, 0x80, 0x00]
    let data := lengthBytes ++ (Text.escapedUtf8 "\x00aé€😀" ++ [0])
    let c := twoStrings data []
    ofBytes c.data = .ok c ∧ Leb128.HasForm Leb128.maxBytes lengthBytes ∧ c.HasStringData 0 data ∧
      c.string 0 = .ok "\x00aé€😀" := by
  intro lengthBytes data c
  have hlength : Leb128.HasForm Leb128.maxBytes lengthBytes :=
    .cons (by decide) (.cons (by decide) (.last (by decide)))
  have hdata : c.HasStringData 0 data := (hasStringData_twoStrings [] (by decide +kernel)).1
  exact ⟨ofBytes_twoStrings _ _, hlength, hdata, (string_of_escapedUtf8 hlength hdata).1⟩

/-- Of a string whose data are modified UTF-8, after any length, every supplementary character comes
back as six replacement characters, and every other character as it is. So the string comes back as
it is exactly if it has no supplementary characters. -/
theorem string_of_modifiedUtf8 (hlength : Leb128.HasForm Leb128.maxBytes lengthBytes)
    (hdata : c.HasStringData index (lengthBytes ++ (Text.modifiedUtf8 s ++ [0]))) :
    c.string index = .ok (Text.shownText s) ∧
      (c.string index = .ok s ↔ ∀ ch ∈ s.toList, ¬Text.IsSupplementary ch) := by
  have hstring : c.string index = .ok (Text.shownText s) := by
    rw [string_eq, Layout.string_of_readsAs (Layout.readsAs_modifiedUtf8 s) hlength hdata]
    rfl
  refine ⟨hstring, ?_⟩
  rw [hstring, Except.ok.injEq]
  exact Text.shownText_eq_iff s

/-- A string without supplementary characters comes back, one with them does not. -/
theorem string_of_modifiedUtf8_pair :
    let first := [2] ++ (Text.modifiedUtf8 "é\x00" ++ [0])
    let second := [3] ++ (Text.modifiedUtf8 "a😀" ++ [0])
    let c := twoStrings first second
    Leb128.HasForm Leb128.maxBytes [2] ∧ c.HasStringData 0 first ∧ c.string 0 = .ok "é\x00" ∧
      Leb128.HasForm Leb128.maxBytes [3] ∧ c.HasStringData 1 second ∧ c.string 1 ≠ .ok "a😀" := by
  intro first second c
  have hfirstForm : Leb128.HasForm Leb128.maxBytes [2] := .last (by decide)
  have hsecondForm : Leb128.HasForm Leb128.maxBytes [3] := .last (by decide)
  obtain ⟨hfirst, hsecond⟩ : c.HasStringData 0 first ∧ c.HasStringData 1 second :=
    hasStringData_twoStrings second (by decide +kernel)
  obtain ⟨hplain, -⟩ := string_of_modifiedUtf8 hfirstForm hfirst
  obtain ⟨-, hsupplementary⟩ := string_of_modifiedUtf8 hsecondForm hsecond
  rw [show Text.shownText "é\x00" = "é\x00" by decide +kernel] at hplain
  refine ⟨hfirstForm, hfirst, hplain, hsecondForm, hsecond, fun hsame => ?_⟩
  exact hsupplementary.mp hsame '😀' (by decide +kernel) (by decide)

/-- Two strings of one supplementary character each, in modified UTF-8, look the same; neither comes
back. -/
theorem string_surrogates :
    let first := [2] ++ (Text.modifiedUtf8 "😀" ++ [0])
    let second := [2] ++ (Text.modifiedUtf8 "😁" ++ [0])
    let c := twoStrings first second
    ofBytes c.data = .ok c ∧ Leb128.HasForm Leb128.maxBytes [2] ∧
      c.HasStringData 0 first ∧ c.HasStringData 1 second ∧
      c.string 0 = c.string 1 ∧ c.string 0 ≠ .ok "😀" ∧ c.string 1 ≠ .ok "😁" := by
  intro first second c
  have hform : Leb128.HasForm Leb128.maxBytes [2] := .last (by decide)
  obtain ⟨hfirst, hsecond⟩ : c.HasStringData 0 first ∧ c.HasStringData 1 second :=
    hasStringData_twoStrings second (by decide +kernel)
  have hzero : c.string 0 = .ok (Text.shownText "😀") := by
    rw [string_eq, Layout.string_of_readsAs (Layout.readsAs_modifiedUtf8 _) hform hfirst]
    rfl
  have hone : c.string 1 = .ok (Text.shownText "😁") := by
    rw [string_eq, Layout.string_of_readsAs (Layout.readsAs_modifiedUtf8 _) hform hsecond]
    rfl
  have hsame : Text.shownText "😀" = Text.shownText "😁" := by decide +kernel
  refine ⟨ofBytes_twoStrings _ _, hform, hfirst, hsecond, by rw [hzero, hone, hsame], ?_, ?_⟩
  · rw [hzero, ne_eq, Except.ok.injEq]
    decide +kernel
  · rw [hone, ne_eq, Except.ok.injEq]
    decide +kernel

end Container

end DexListing
