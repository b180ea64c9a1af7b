import DexListing.Glob

/-!
# Patterns as pieces with gaps

What a pattern means is that its pieces make up the name once a text is put into each gap
between neighbours (`filled`). The matcher looks for each piece at the first place where it occurs,
and never goes back. Both say the same (`accepts_iff_filled`): a piece that is found early leaves a
longer rest (`afterFirst?_append`), and the gap before the next piece takes up what is left over,
so the first place is as good as any other one.
-/

set_option autoImplicit false

namespace DexListing.Glob

/-- The pieces one after the other with the gaps between neighbours, the first gap after the first
piece. -/
def filled : (pieces gaps : List (List Char)) → List Char
  | piece :: pieces, gap :: gaps => piece ++ (gap ++ filled pieces gaps)
  | piece :: _, [] => piece
  | [], _ => []

/-- A single piece has no gaps. -/
@[simp] theorem filled_singleton (piece : List Char) : filled [piece] [] = piece := rfl

/-- The first gap stands between the first piece and the others. -/
@[simp] theorem filled_cons_cons (piece gap : List Char) (pieces gaps : List (List Char)) :
    filled (piece :: pieces) (gap :: gaps) = piece ++ (gap ++ filled pieces gaps) := rfl

/-- There is one more piece than there are separators. -/
theorem length_splitOn (c : Char) (cs : List Char) : (cs.splitOn c).length = cs.count c + 1 := by
  induction cs with
  | nil => simp
  | cons x cs ih =>
    rw [List.splitOn_cons_eq_if_modifyHead]
    by_cases hx : x = c
    · simp [hx, ih]
    · simp [hx, ih]

/-! ## The first place of a piece -/

/-- What follows the first occurrence of a piece does follow an occurrence of it. -/
theorem afterFirst?_eq_some {piece name rest : List Char}
    (h : afterFirst? piece name = some rest) : ∃ gap, name = gap ++ (piece ++ rest) := by
  induction name with
  | nil =>
    cases piece with
    | nil =>
      refine ⟨[], ?_⟩
      simpa [afterFirst?] using h
    | cons c piece => simp [afterFirst?] at h
  | cons c name ih =>
    unfold afterFirst? at h
    split at h
    · next hprefix =>
      obtain ⟨after, hafter⟩ := List.isPrefixOf_iff_prefix.mp hprefix
      rw [← hafter] at h ⊢
      refine ⟨[], ?_⟩
      simpa using h
    · obtain ⟨gap, hgap⟩ := ih h
      exact ⟨c :: gap, by simp [hgap]⟩

/-- The first occurrence of a piece leaves at least what any other occurrence leaves. -/
theorem afterFirst?_append (piece gap after : List Char) :
    ∃ more, afterFirst? piece (gap ++ (piece ++ after)) = some (more ++ after) := by
  induction gap with
  | nil =>
    refine ⟨[], ?_⟩
    cases hname : piece ++ after with
    | nil =>
      obtain ⟨rfl, rfl⟩ := List.append_eq_nil_iff.mp hname
      rfl
    | cons c name =>
      have hprefix : piece <+: c :: name := ⟨after, hname⟩
      have hafter : (c :: name).drop piece.length = after := by simp [← hname]
      simp [afterFirst?, hprefix, hafter]
  | cons c gap ih =>
    rw [List.cons_append, afterFirst?]
    split
    · -- The piece already stands here, so it ends within the gap and the piece that follow.
      refine ⟨(c :: (gap ++ piece)).drop piece.length, ?_⟩
      have hlength : piece.length ≤ (c :: (gap ++ piece)).length := by simp; omega
      rw [← List.drop_append_of_le_length hlength]
      simp
    · exact ih

/-! ## The matcher -/

/-- The loop over the pieces after the first one finds them with any texts before each of them. -/
theorem matchesRest_iff (piece : List Char) (pieces : List (List Char)) (name : List Char) :
    matchesRest (piece :: pieces) name = true ↔
      ∃ gap gaps, gaps.length = pieces.length ∧ name = gap ++ filled (piece :: pieces) gaps := by
  induction pieces generalizing piece name with
  | nil =>
    simp only [matchesRest, List.isSuffixOf_iff_suffix, List.length_nil, List.length_eq_zero_iff]
    constructor
    · rintro ⟨gap, rfl⟩
      exact ⟨gap, [], rfl, by simp⟩
    · rintro ⟨gap, gaps, rfl, rfl⟩
      exact ⟨gap, by simp⟩
  | cons next pieces ih =>
    constructor
    · intro h
      unfold matchesRest at h
      split at h
      · exact nomatch h
      · next rest hfirst =>
        obtain ⟨gap, rfl⟩ := afterFirst?_eq_some hfirst
        obtain ⟨between, gaps, hlength, rfl⟩ := (ih next rest).mp h
        exact ⟨gap, between :: gaps, by simp [hlength], by simp⟩
    · rintro ⟨gap, gaps, hlength, rfl⟩
      cases gaps with
      | nil => simp at hlength
      | cons between gaps =>
        rw [filled_cons_cons]
        obtain ⟨more, hfirst⟩ := afterFirst?_append piece gap (between ++ filled (next :: pieces) gaps)
        simp only [matchesRest, hfirst]
        apply (ih next _).mpr
        refine ⟨more ++ between, gaps, ?_, by simp⟩
        simpa using hlength

/-- The pieces of a pattern match the names that they make up with gaps. -/
theorem matchesPieces_iff (piece : List Char) (pieces : List (List Char)) (name : List Char) :
    matchesPieces (piece :: pieces) name = true ↔
      ∃ gaps, gaps.length = pieces.length ∧ name = filled (piece :: pieces) gaps := by
  cases pieces with
  | nil =>
    simp only [matchesPieces, beq_iff_eq, List.length_nil, List.length_eq_zero_iff]
    constructor
    · rintro rfl
      exact ⟨[], rfl, rfl⟩
    · rintro ⟨gaps, rfl, rfl⟩
      rfl
  | cons next pieces =>
    simp only [matchesPieces, Bool.and_eq_true, List.isPrefixOf_iff_prefix, matchesRest_iff]
    constructor
    · rintro ⟨⟨rest, rfl⟩, gap, gaps, hlength, hrest⟩
      rw [List.drop_left] at hrest
      exact ⟨gap :: gaps, by simp [hlength], by simp [hrest]⟩
    · rintro ⟨gaps, hlength, rfl⟩
      cases gaps with
      | nil => simp at hlength
      | cons gap gaps =>
        refine ⟨⟨_, rfl⟩, gap, gaps, ?_, ?_⟩
        · simpa using hlength
        · rw [filled_cons_cons, List.drop_left]

/-- The special case of a pattern in one piece is no special case. -/
theorem accepts_eq_matchesPieces (pattern name : String) :
    accepts pattern name = matchesPieces (pattern.toList.splitOn '*') name.toList := by
  unfold accepts
  split
  · next piece hpieces =>
    have hpiece : ['*'].intercalate (pattern.toList.splitOn '*') = pattern.toList :=
      List.intercalate_splitOn '*'
    rw [hpieces, List.intercalate_singleton] at hpiece
    rw [hpieces, hpiece, matchesPieces]
    apply Bool.eq_iff_iff.mpr
    simp [String.toList_inj]
  · rfl

/-- A name matches a pattern if the pieces of the pattern make it up with a text in each gap. -/
theorem accepts_iff_filled (pattern name : String) :
    accepts pattern name = true ↔
      ∃ gaps, gaps.length = pattern.toList.count '*' ∧
        name.toList = filled (pattern.toList.splitOn '*') gaps := by
  rw [accepts_eq_matchesPieces]
  have hlength := length_splitOn '*' pattern.toList
  cases hpieces : pattern.toList.splitOn '*' with
  | nil => exact absurd hpieces (List.splitOn_ne_nil '*' _)
  | cons piece pieces =>
    rw [hpieces, List.length_cons] at hlength
    rw [matchesPieces_iff, Nat.succ.inj hlength]

/-- Matching is gluing: a name matches a pattern exactly if it consists of the pieces of the pattern
with one text for each asterisk between them. So a pattern without an asterisk has only itself as a
match, and the pattern that is one asterisk has every name. -/
theorem accepts_iff_gaps (pattern name : String) :
    (accepts pattern name = true ↔
      ∃ gaps, gaps.length = pattern.toList.count '*' ∧
        name.toList = filled (pattern.toList.splitOn '*') gaps) ∧
      ('*' ∉ pattern.toList → (accepts pattern name = true ↔ name = pattern)) ∧
      accepts "*" name = true := by
  refine ⟨accepts_iff_filled pattern name, ?_, ?_⟩
  · intro hnone
    have hpieces : pattern.toList.splitOn '*' = [pattern.toList] :=
      List.splitOn_eq_singleton hnone
    rw [accepts_iff_filled, hpieces, List.count_eq_zero_of_not_mem hnone]
    constructor
    · rintro ⟨gaps, hlength, hname⟩
      rw [List.length_eq_zero_iff] at hlength
      subst hlength
      exact String.toList_inj.mp hname
    · rintro rfl
      exact ⟨[], rfl, rfl⟩
  · apply (accepts_iff_filled "*" name).mpr
    have hpieces : "*".toList.splitOn '*' = [[], []] := by decide
    refine ⟨[name.toList], rfl, ?_⟩
    rw [hpieces]
    simp

example : accepts "a*b*ab" "abab" = true := by decide

end DexListing.Glob
