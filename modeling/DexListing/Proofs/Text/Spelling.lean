import DexListing.Text.Case
import DexListing.Text.Space
import Mathlib.Data.List.DropRight

/-!
# Spellings of a text

What stripping and lower-casing pass over. White space is its own lower-case form, nothing else
becomes white space in lower case, and it counts neither as a letter before or after a capital sigma
nor as something to be passed over there; so a text can be lower-cased without the white space
around it (`Text.lower_surrounded`, `Text.Trimmed.lower`). The case of ASCII letters changes neither
what is stripped nor the lower-case form (`Text.strip_toLower`, `Text.lower_toLower`). Two spellings
of a text, which differ in white space around it and in the case of ASCII letters, become the same
when they are stripped and lower-cased (`Text.Respells.lower_strip`).
-/

set_option autoImplicit false

namespace DexListing.Text

/-! ## White space around a text -/

/-- A text of white space. -/
def IsBlank (s : String) : Prop :=
  ∀ c ∈ s.toList, isSpace c = true

instance (s : String) : Decidable (IsBlank s) :=
  decidable_of_iff (s.toList.all isSpace = true) List.all_eq_true

/-- A text without white space around it. -/
structure Trimmed (s : String) : Prop where
  head : ∀ c ∈ s.toList.head?, isSpace c = false
  last : ∀ c ∈ s.toList.getLast?, isSpace c = false

/-- Stripping drops blanks at both ends. -/
theorem toList_strip (s : String) :
    (strip s).toList = (s.toList.dropWhile isSpace).rdropWhile isSpace :=
  String.toList_ofList

/-- A text is what is left of it with white space around it. -/
theorem exists_surrounded (s : String) :
    ∃ before after, IsBlank before ∧ IsBlank after ∧ s = before ++ strip s ++ after := by
  refine ⟨String.ofList (s.toList.takeWhile isSpace),
    String.ofList ((s.toList.dropWhile isSpace).rtakeWhile isSpace), ?_, ?_, ?_⟩
  · intro c hc
    rw [String.toList_ofList] at hc
    exact List.mem_takeWhile_imp hc
  · intro c hc
    rw [String.toList_ofList] at hc
    exact List.mem_rtakeWhile_imp hc
  · apply String.toList_inj.mp
    rw [String.toList_append, String.toList_append, String.toList_ofList, String.toList_ofList,
      toList_strip, List.append_assoc, List.rdropWhile_append_rtakeWhile,
      List.takeWhile_append_dropWhile]

/-- White space around a text does not count when it is stripped. -/
theorem strip_surrounded {before after : String} (hbefore : IsBlank before)
    (hafter : IsBlank after) (s : String) : strip (before ++ s ++ after) = strip s := by
  have hright : ∀ cs : List Char,
      (cs ++ after.toList).rdropWhile isSpace = cs.rdropWhile isSpace := by
    intro cs
    unfold List.rdropWhile
    rw [List.reverse_append,
      List.dropWhile_append_of_pos fun c hc => hafter c (List.mem_reverse.mp hc)]
  apply String.toList_inj.mp
  rw [toList_strip, toList_strip, String.toList_append, String.toList_append, List.append_assoc,
    List.dropWhile_append_of_pos hbefore, List.dropWhile_append]
  split
  · next hblank =>
    -- Nothing but white space: all of it goes from the left.
    rw [List.isEmpty_iff.mp hblank, List.dropWhile_eq_nil_iff.mpr hafter]
  · exact hright _

/-- A stripped text has no blanks at its ends. -/
theorem trimmed_strip (s : String) : Trimmed (strip s) := by
  refine ⟨fun c hc => ?_, fun c hc => ?_⟩
  · rw [toList_strip] at hc
    obtain ⟨rest, hrest⟩ := List.head?_eq_some_iff.mp hc
    obtain ⟨more, hmore⟩ := List.rdropWhile_prefix isSpace (s.toList.dropWhile isSpace)
    rw [hrest, List.cons_append] at hmore
    have hhead := List.head?_dropWhile_not isSpace s.toList
    rw [← hmore] at hhead
    exact hhead
  · rw [toList_strip] at hc
    obtain ⟨init, hinit⟩ := List.getLast?_eq_some_iff.mp hc
    have hlast := List.rdropWhile_last_not isSpace (s.toList.dropWhile isSpace)
    simp only [hinit, List.getLast_append_singleton] at hlast
    exact Bool.eq_false_iff.mpr (hlast (by simp))

/-- A text without white space around it is left as it is. -/
theorem Trimmed.strip_eq {s : String} (h : Trimmed s) : strip s = s := by
  apply String.toList_inj.mp
  rw [toList_strip]
  rcases List.eq_nil_or_concat' s.toList with hnil | ⟨init, last, hlist⟩
  · rw [hnil]
    rfl
  · obtain ⟨first, rest, hfirst⟩ := List.exists_cons_of_ne_nil (l := s.toList) (by simp [hlist])
    have hleft : s.toList.dropWhile isSpace = s.toList := by
      rw [hfirst, List.dropWhile_cons_of_neg]
      exact Bool.eq_false_iff.mp (h.head first (by simp [hfirst]))
    rw [hleft, hlist, List.rdropWhile_concat_neg]
    exact Bool.eq_false_iff.mp (h.last last (by simp [hlist]))

/-! ## White space in lower case -/

/-- The code points of white space. -/
def spaceCodes : List Nat :=
  spaceRanges.flatMap fun r => List.range' r.first (r.last + 1 - r.first)

/-- A property of white space needs only be looked at for each of its code points. -/
theorem of_isSpace {P : Char → Prop} (hcodes : ∀ n ∈ spaceCodes, P (Char.ofNat n)) {c : Char}
    (hc : isSpace c = true) : P c := by
  obtain ⟨r, hr, hholds⟩ := List.any_eq_true.mp hc
  have hmem : c.toNat ∈ spaceCodes := by
    refine List.mem_flatMap.mpr ⟨r, hr, List.mem_range'_1.mpr ?_⟩
    simp only [CodeRange.holds, Bool.and_eq_true, decide_eq_true_eq] at hholds
    omega
  have hP := hcodes c.toNat hmem
  rwa [Char.ofNat_toNat] at hP

/-- A blank has no other lower case. -/
theorem lowerAt_of_isSpace {c : Char} (hc : isSpace c = true) (before after : List Char) :
    lowerAt before c after = [c] := by
  have hplain : c.toNat ≠ 0x3A3 ∧ c.toNat ≠ 0x130 ∧ lowerChar c = c :=
    of_isSpace (P := fun c => c.toNat ≠ 0x3A3 ∧ c.toNat ≠ 0x130 ∧ lowerChar c = c)
      (by decide +kernel) hc
  rw [lowerAt, if_neg hplain.1, if_neg hplain.2.1, hplain.2.2]

/-- White space does not count for what stands around a sigma. -/
theorem casedNext_append_blank (cs : List Char) {blank : List Char}
    (hblank : ∀ c ∈ blank, isSpace c = true) : casedNext (cs ++ blank) = casedNext cs := by
  have hspace : ∀ c, isSpace c = true → isCaseIgnorable c = false ∧ isCased c = false :=
    fun c hc => of_isSpace (P := fun c => isCaseIgnorable c = false ∧ isCased c = false)
      (by decide +kernel) hc
  unfold casedNext
  rw [List.dropWhile_append]
  split
  · next hnone =>
    rw [List.isEmpty_iff.mp hnone]
    cases blank with
    | nil => rfl
    | cons c rest =>
      obtain ⟨hignored, hcased⟩ := hspace c (hblank c List.mem_cons_self)
      rw [List.dropWhile_cons_of_neg (by simp [hignored])]
      exact hcased
  · next hsome =>
    obtain ⟨c, rest, hrest⟩ := List.exists_cons_of_ne_nil fun hnil =>
      hsome (List.isEmpty_iff.mpr hnil)
    rw [hrest]
    rfl

section LowerChars

variable {blank : List Char} (hblank : ∀ c ∈ blank, isSpace c = true)

include hblank

/-- Blanks before characters stay as they are, and are what the first of them has before it. -/
theorem lowerChars_blank_append (before cs : List Char) :
    lowerChars before (blank ++ cs) = blank ++ lowerChars (blank.reverse ++ before) cs := by
  induction blank generalizing before with
  | nil => rfl
  | cons c rest ih =>
    rw [List.cons_append, lowerChars, lowerAt_of_isSpace (hblank c List.mem_cons_self),
      ih (fun d hd => hblank d (List.mem_cons_of_mem c hd))]
    simp

/-- Blanks after characters stay as they are and do not change what is before them. -/
theorem lowerChars_append_blank (before cs : List Char) :
    lowerChars before (cs ++ blank) = lowerChars before cs ++ blank := by
  induction cs generalizing before with
  | nil =>
    have hall := lowerChars_blank_append hblank before []
    rwa [List.append_nil, lowerChars, List.append_nil] at hall
  | cons c rest ih =>
    have hat : lowerAt before c (rest ++ blank) = lowerAt before c rest := by
      unfold lowerAt
      rw [casedNext_append_blank rest hblank]
    rw [List.cons_append, lowerChars, lowerChars, hat, ih, List.append_assoc]

/-- What is in front of the white space before a text does not count either. -/
theorem lowerChars_after_blank (before cs : List Char) :
    lowerChars (before ++ blank) cs = lowerChars before cs := by
  induction cs generalizing before with
  | nil => rfl
  | cons c rest ih =>
    have hat : lowerAt (before ++ blank) c rest = lowerAt before c rest := by
      unfold lowerAt
      rw [casedNext_append_blank before hblank]
    rw [lowerChars, lowerChars, hat, ← List.cons_append, ih]

end LowerChars

/-- White space around a text stays as it is in lower case and does not count for the rest. -/
theorem lower_surrounded {before after : String} (hbefore : IsBlank before)
    (hafter : IsBlank after) (s : String) :
    lower (before ++ s ++ after) = before ++ lower s ++ after := by
  have hreverse : ∀ c ∈ before.toList.reverse, isSpace c = true :=
    fun c hc => hbefore c (List.mem_reverse.mp hc)
  have hinner : lowerChars (before.toList.reverse ++ []) s.toList = lowerChars [] s.toList := by
    rw [List.append_nil]
    exact lowerChars_after_blank hreverse [] s.toList
  apply String.toList_inj.mp
  simp only [lower, String.toList_append, String.toList_ofList]
  rw [lowerChars_append_blank hafter, lowerChars_blank_append hbefore, hinner]

/-- Code points between two bounds are not white space if no range comes between the bounds. -/
theorem isSpace_ofNat {low high n : Nat} (hlow : low ≤ n) (hhigh : n ≤ high)
    (hapart : ∀ r ∈ spaceRanges, high < r.first ∨ r.last < low) :
    isSpace (Char.ofNat n) = false := by
  have hcode : (Char.ofNat n).toNat = n ∨ (Char.ofNat n).toNat = 0 := by
    by_cases hvalid : n.isValidChar
    · exact Or.inl ((congrArg Char.toNat (dif_pos hvalid)).trans rfl)
    · exact Or.inr ((congrArg Char.toNat (dif_neg hvalid)).trans rfl)
  have hpositive : ∀ r ∈ spaceRanges, 0 < r.first := by decide
  unfold isSpace
  rw [List.any_eq_false]
  intro r hr
  have hr' := hapart r hr
  have hfirst := hpositive r hr
  simp only [CodeRange.holds, Bool.and_eq_true, decide_eq_true_eq, not_and]
  omega

/-- No other character becomes white space in lower case. -/
theorem isSpace_lowerChar {c : Char} (hc : isSpace c = false) : isSpace (lowerChar c) = false := by
  have hruns : ∀ run ∈ lowerRuns, ∀ r ∈ spaceRanges,
      run.lower + (run.last - run.first) < r.first ∨ r.last < run.lower := by decide +kernel
  unfold lowerChar
  split
  · split
    · next hcapital =>
      rw [Bool.and_eq_true, decide_eq_true_eq, decide_eq_true_eq] at hcapital
      have hlow : 65 ≤ c.toNat := hcapital.1
      have hhigh : c.toNat ≤ 90 := hcapital.2
      exact isSpace_ofNat (Nat.add_le_add_right hlow 32) (Nat.add_le_add_right hhigh 32)
        (by decide)
    · exact hc
  · split
    · next run hfound =>
      have hholds := List.find?_some hfound
      simp only [CaseRun.holds, Bool.and_eq_true, decide_eq_true_eq] at hholds
      exact isSpace_ofNat (Nat.le_add_right _ _) (by omega)
        (hruns run (List.mem_of_find?_eq_some hfound))
    · exact hc

/-- No lower case of a character that is no blank has a blank in it. -/
theorem isSpace_of_mem_lowerAt {c d : Char} (hc : isSpace c = false) {before after : List Char}
    (hd : d ∈ lowerAt before c after) : isSpace d = false := by
  unfold lowerAt at hd
  split at hd
  · split at hd
    · obtain rfl := List.mem_singleton.mp hd
      decide
    · obtain rfl := List.mem_singleton.mp hd
      decide
  · split at hd
    · rcases List.mem_pair.mp hd with rfl | rfl <;> decide
    · obtain rfl := List.mem_singleton.mp hd
      exact isSpace_lowerChar hc

/-- The lower case of a character is never empty. -/
theorem lowerAt_ne_nil (before : List Char) (c : Char) (after : List Char) :
    lowerAt before c after ≠ [] := by
  unfold lowerAt
  split
  · split <;> exact List.cons_ne_nil _ _
  · split <;> exact List.cons_ne_nil _ _

/-- The last character is lower-cased last. -/
theorem exists_lowerChars_concat (before cs : List Char) (last : Char) :
    ∃ front, lowerChars before (cs ++ [last]) =
      front ++ lowerAt (cs.reverse ++ before) last [] := by
  induction cs generalizing before with
  | nil => exact ⟨[], by simp [lowerChars]⟩
  | cons c rest ih =>
    obtain ⟨front, hfront⟩ := ih (c :: before)
    refine ⟨lowerAt before c (rest ++ [last]) ++ front, ?_⟩
    rw [List.cons_append, lowerChars, hfront]
    simp

/-- A text without white space around it has none around it in lower case. -/
theorem Trimmed.lower {s : String} (h : Trimmed s) : Trimmed (Text.lower s) := by
  refine ⟨fun d hd => ?_, fun d hd => ?_⟩
  · rw [Text.lower, String.toList_ofList] at hd
    cases hs : s.toList with
    | nil =>
      rw [hs] at hd
      exact nomatch hd
    | cons first rest =>
      have hfirst := h.head first (by simp [hs])
      rw [hs, lowerChars, List.head?_append_of_ne_nil _ (lowerAt_ne_nil [] first rest)] at hd
      exact isSpace_of_mem_lowerAt hfirst (List.mem_of_mem_head? hd)
  · rw [Text.lower, String.toList_ofList] at hd
    rcases List.eq_nil_or_concat' s.toList with hnil | ⟨init, last, hs⟩
    · rw [hnil] at hd
      exact nomatch hd
    · have hlast := h.last last (by simp [hs])
      obtain ⟨front, hfront⟩ := exists_lowerChars_concat [] init last
      rw [hs, hfront, List.getLast?_append_of_ne_nil _ (lowerAt_ne_nil _ last [])] at hd
      exact isSpace_of_mem_lowerAt hlast (List.mem_of_getLast? hd)

/-! ## The case of ASCII letters -/

/-- What does not tell the capital letters of ASCII from the small ones. -/
theorem apply_toLower {α : Type} {f : Char → α}
    (hcapitals : ∀ n ∈ List.range' 65 26, f (Char.ofNat n).toLower = f (Char.ofNat n)) (c : Char) :
    f c.toLower = f c := by
  by_cases hc : c.val ≥ 'A'.val ∧ c.val ≤ 'Z'.val
  · have hlow : 65 ≤ c.toNat := hc.1
    have hhigh : c.toNat ≤ 90 := hc.2
    have hf := hcapitals c.toNat (List.mem_range'_1.mpr (by omega))
    rwa [Char.ofNat_toNat] at hf
  · exact congrArg f (dif_neg hc)

/-- The lower case of a letter is no blank, and a blank has no other lower case. -/
theorem isSpace_toLower (c : Char) : isSpace c.toLower = isSpace c :=
  apply_toLower (by decide +kernel) c

/-- A text in lower case has the characters in lower case. -/
theorem toList_toLower (s : String) : s.toLower.toList = s.toList.map Char.toLower :=
  String.toList_map

/-- Letters in lower case are stripped like the text itself. -/
theorem strip_toLower (s : String) : strip s.toLower = (strip s).toLower := by
  have hspace : isSpace ∘ Char.toLower = isSpace := funext isSpace_toLower
  apply String.toList_inj.mp
  rw [toList_toLower, toList_strip, toList_strip, toList_toLower, List.dropWhile_map, hspace]
  unfold List.rdropWhile
  rw [← List.map_reverse, List.dropWhile_map, hspace, List.map_reverse]

/-- Whether a cased letter follows does not depend on its case. -/
theorem casedNext_toLower (cs : List Char) : casedNext (cs.map Char.toLower) = casedNext cs := by
  have hignored : isCaseIgnorable ∘ Char.toLower = isCaseIgnorable :=
    funext (apply_toLower (by decide +kernel))
  have hcased : ∀ c, isCased c.toLower = isCased c := apply_toLower (by decide +kernel)
  unfold casedNext
  rw [List.dropWhile_map, hignored, List.head?_map, Option.any_map]
  simp only [hcased]

/-- The full lower case of a character is the same from a letter in lower case. -/
theorem lowerAt_toLower (before : List Char) (c : Char) (after : List Char) :
    lowerAt (before.map Char.toLower) c.toLower (after.map Char.toLower) =
      lowerAt before c after := by
  have hsigma : (c.toLower.toNat = 0x3A3) = (c.toNat = 0x3A3) :=
    apply_toLower (f := fun c => c.toNat = 0x3A3) (by decide) c
  have hdotted : (c.toLower.toNat = 0x130) = (c.toNat = 0x130) :=
    apply_toLower (f := fun c => c.toNat = 0x130) (by decide) c
  have hchar : lowerChar c.toLower = lowerChar c := apply_toLower (by decide) c
  unfold lowerAt
  rw [casedNext_toLower, casedNext_toLower, hchar]
  simp only [hsigma, hdotted]

/-- The case of ASCII letters does not count for the lower-case form. -/
theorem lower_toLower (s : String) : lower s.toLower = lower s := by
  have hchars : ∀ before cs : List Char,
      lowerChars (before.map Char.toLower) (cs.map Char.toLower) = lowerChars before cs := by
    intro before cs
    induction cs generalizing before with
    | nil => rfl
    | cons c rest ih =>
      rw [List.map_cons, lowerChars, lowerChars, lowerAt_toLower, ← List.map_cons, ih]
  unfold lower
  rw [toList_toLower, ← hchars [] s.toList]
  rfl

/-! ## Spellings -/

/-- A text is another one in another spelling, with other white space around it and with letters of
ASCII in another case. -/
def Respells (s t : String) : Prop :=
  ∃ before after before' after' text text',
    IsBlank before ∧ IsBlank after ∧ IsBlank before' ∧ IsBlank after' ∧
      text.toLower = text'.toLower ∧ s = before ++ text ++ after ∧ t = before' ++ text' ++ after'

/-- Spelling a text otherwise goes both ways. -/
theorem Respells.symm {s t : String} (h : Respells s t) : Respells t s := by
  obtain ⟨before, after, before', after', text, text', hb, ha, hb', ha', htext, hs, ht⟩ := h
  exact ⟨before', after', before, after, text', text, hb', ha', hb, ha, htext.symm, ht, hs⟩

/-- Spellings of one text are the same when they are stripped and in lower case. -/
theorem Respells.lower_strip {s t : String} (h : Respells s t) :
    lower (strip s) = lower (strip t) := by
  obtain ⟨before, after, before', after', text, text', hb, ha, hb', ha', htext, rfl, rfl⟩ := h
  calc lower (strip (before ++ text ++ after))
      = lower (strip text) := by rw [strip_surrounded hb ha]
    _ = lower (strip text.toLower) := by rw [strip_toLower, lower_toLower]
    _ = lower (strip text'.toLower) := by rw [htext]
    _ = lower (strip text') := by rw [strip_toLower, lower_toLower]
    _ = lower (strip (before' ++ text' ++ after')) := by rw [strip_surrounded hb' ha']

end DexListing.Text
