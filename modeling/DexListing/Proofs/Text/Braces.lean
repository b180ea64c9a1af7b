import DexListing.Proofs.Text.Hex
import DexListing.Proofs.Text.Joining
import Mathlib.Tactic.Ring

/-!
# Braces in texts

The depth of characters is the number of braces that they leave open (`Text.depth`). Characters are
nested to a depth when they close what they open, close nothing else and never go beyond that depth
(`Text.Nested`). Texts without braces are nested to depth zero, a pair of braces around nested
characters adds one level (`Text.Nested.braced`), and nested characters can follow each other
(`Text.Nested.append`).
-/

set_option autoImplicit false

namespace DexListing.Text

/-- The opening brace. -/
def openBrace : Char := '\x7b'

/-- The closing brace. -/
def closeBrace : Char := '\x7d'

/-- How many more braces are opened than closed. -/
def depth (cs : List Char) : Int :=
  (cs.count openBrace : Int) - cs.count closeBrace

/-- Every brace that is closed is open, all are closed in the end, and at no time more than `bound`
are open. -/
structure Nested (bound : Nat) (cs : List Char) : Prop where
  within : ∀ p, p <+: cs → 0 ≤ depth p ∧ depth p ≤ bound
  closed : depth cs = 0

/-! ## Depth -/

/-- Nothing is open at the start. -/
@[simp] theorem depth_nil : depth [] = 0 := rfl

/-- The depth after two texts is the sum of theirs. -/
@[simp] theorem depth_append (cs ds : List Char) : depth (cs ++ ds) = depth cs + depth ds := by
  unfold depth
  rw [List.count_append, List.count_append]
  push_cast
  ring

/-- An opening brace goes one deeper. -/
@[simp] theorem depth_open (cs : List Char) : depth (openBrace :: cs) = 1 + depth cs := by
  unfold depth
  rw [List.count_cons_self, List.count_cons_of_ne (by decide)]
  push_cast
  ring

/-- A closing brace comes one up. -/
@[simp] theorem depth_close (cs : List Char) : depth (closeBrace :: cs) = -1 + depth cs := by
  unfold depth
  rw [List.count_cons_self, List.count_cons_of_ne (by decide)]
  push_cast
  ring

/-! ## Prefixes -/

/-- A prefix ends in the first part or in the second one. -/
theorem prefix_append_cases {p cs ds : List Char} (h : p <+: cs ++ ds) :
    p <+: cs ∨ ∃ q, q <+: ds ∧ p = cs ++ q := by
  rcases List.prefix_or_prefix_of_prefix h (List.prefix_append cs ds) with hp | ⟨q, rfl⟩
  · exact Or.inl hp
  · exact Or.inr ⟨q, (List.prefix_append_right_inj cs).mp h, rfl⟩

/-- A prefix of characters with a pair of braces ends before the braces, between them or after
them. -/
theorem prefix_braced_cases {p before inner after : List Char}
    (h : p <+: before ++ openBrace :: (inner ++ closeBrace :: after)) :
    p <+: before ∨ (∃ q, q <+: inner ∧ p = before ++ openBrace :: q) ∨
      ∃ q, q <+: after ∧ p = before ++ openBrace :: (inner ++ closeBrace :: q) := by
  rcases prefix_append_cases h with hp | ⟨q, hq, rfl⟩
  · exact Or.inl hp
  · rcases List.prefix_cons_iff.mp hq with rfl | ⟨q, rfl, hopened⟩
    · exact Or.inl (by simp)
    · refine Or.inr ?_
      rcases prefix_append_cases hopened with hq | ⟨r, hr, rfl⟩
      · exact Or.inl ⟨q, hq, rfl⟩
      · rcases List.prefix_cons_iff.mp hr with rfl | ⟨r, rfl, hclosed⟩
        · exact Or.inl ⟨inner, List.prefix_rfl, by rw [List.append_nil]⟩
        · exact Or.inr ⟨r, hclosed, rfl⟩

/-! ## Texts without braces -/

/-- There is no brace in the text. -/
def BraceFree (s : String) : Prop :=
  ∀ c ∈ [openBrace, closeBrace], holds s c = false

instance (s : String) : Decidable (BraceFree s) :=
  List.decidableBAll (fun c => holds s c = false) [openBrace, closeBrace]

namespace BraceFree

variable {s t separator : String} {texts : List String}

/-- Texts without braces have none together. -/
theorem append (hs : BraceFree s) (ht : BraceFree t) : BraceFree (s ++ t) := by
  intro c hc
  rw [holds_append, hs c hc, ht c hc]
  rfl

/-- Texts without braces have none when joined with a separator that has none. -/
theorem joined (hseparator : BraceFree separator) (htexts : ∀ t ∈ texts, BraceFree t) :
    BraceFree (joined separator texts) :=
  fun c hc => holds_joined_eq_false (hseparator c hc) fun t ht => htexts t ht c hc

/-- Lines without braces have none as a text. -/
theorem unlines (htexts : ∀ t ∈ texts, BraceFree t) : BraceFree (unlines texts) := by
  induction texts with
  | nil => decide
  | cons text rest ih =>
    obtain ⟨htext, hrest⟩ := List.forall_mem_cons.mp htexts
    rw [unlines_cons]
    exact (htext.append (by decide)).append (ih hrest)

/-- Hexadecimal digits are no braces. -/
theorem hex (width n : Nat) : BraceFree (hex width n) := by
  intro c hc
  rcases List.mem_pair.mp hc with rfl | rfl <;> exact holds_hex (by decide) width n

/-- Decimal digits are no braces. -/
theorem numeral (n : Nat) : BraceFree (toString n) := by
  intro c hc
  rcases List.mem_pair.mp hc with rfl | rfl <;> exact holds_numeral (by decide) n

/-- A part of a text without braces. -/
theorem ofList {cs : List Char} (hs : BraceFree s) (hcs : cs ⊆ s.toList) :
    BraceFree (String.ofList cs) := by
  intro c hc
  rw [holds_eq_false_iff, String.toList_ofList]
  exact fun hmem => holds_eq_false_iff.mp (hs c hc) (hcs hmem)

/-- The depth stays at zero. -/
theorem depth_eq_zero (hs : BraceFree s) {p : List Char} (hp : p <+: s.toList) : depth p = 0 := by
  have hnot : ∀ c ∈ [openBrace, closeBrace], p.count c = 0 := fun c hc =>
    List.count_eq_zero.mpr fun hmem => holds_eq_false_iff.mp (hs c hc) (hp.subset hmem)
  unfold depth
  rw [hnot openBrace (by decide), hnot closeBrace (by decide)]
  rfl

/-- A text without braces is nested to any depth. -/
theorem nested (hs : BraceFree s) (bound : Nat) : Nested bound s.toList where
  within := by
    intro p hp
    rw [hs.depth_eq_zero hp]
    omega
  closed := hs.depth_eq_zero List.prefix_rfl

end BraceFree

/-- Where a brace is open in characters with a pair of braces, this is between the braces, if what
is around them has no brace and all that is opened between them is closed. -/
theorem exists_prefix_of_depth_ne_zero {before after : String} {inner p : List Char}
    (hbefore : BraceFree before) (hinner : depth inner = 0) (hafter : BraceFree after)
    (hp : p <+: before.toList ++ openBrace :: (inner ++ closeBrace :: after.toList))
    (hdepth : depth p ≠ 0) : ∃ q, q <+: inner ∧ p = before.toList ++ openBrace :: q := by
  rcases prefix_braced_cases hp with hp | hp | ⟨q, hq, rfl⟩
  · exact absurd (hbefore.depth_eq_zero hp) hdepth
  · exact hp
  · refine absurd ?_ hdepth
    simp only [depth_append, depth_open, depth_close, hinner, hafter.depth_eq_zero hq,
      hbefore.depth_eq_zero List.prefix_rfl]
    rfl

/-! ## Nested characters -/

namespace Nested

variable {bound : Nat} {cs ds : List Char}

/-- Nested texts are nested one after the other, since each of them closes what it opens. -/
theorem append (hcs : Nested bound cs) (hds : Nested bound ds) : Nested bound (cs ++ ds) where
  within := by
    intro p hp
    rcases prefix_append_cases hp with hp | ⟨q, hq, rfl⟩
    · exact hcs.within p hp
    · rw [depth_append, hcs.closed, zero_add]
      exact hds.within q hq
  closed := by rw [depth_append, hcs.closed, hds.closed, add_zero]

/-- So are any number of them. -/
theorem flatMap {α : Type} {xs : List α} {f : α → List Char} (h : ∀ x ∈ xs, Nested bound (f x)) :
    Nested bound (xs.flatMap f) := by
  induction xs with
  | nil => exact BraceFree.nested (s := "") (by decide) bound
  | cons x xs ih =>
    obtain ⟨hx, hxs⟩ := List.forall_mem_cons.mp h
    exact hx.append (ih hxs)

/-- Braces around nested characters, between texts without braces. -/
theorem braced {before after : String} (hbefore : BraceFree before) (hcs : Nested bound cs)
    (hafter : BraceFree after) :
    Nested (bound + 1)
      (before.toList ++ openBrace :: (cs ++ closeBrace :: after.toList)) where
  within := by
    intro p hp
    have hall := hbefore.depth_eq_zero List.prefix_rfl
    rcases prefix_braced_cases hp with hp | ⟨q, hq, rfl⟩ | ⟨q, hq, rfl⟩
    · rw [hbefore.depth_eq_zero hp]
      omega
    · have hinner := hcs.within q hq
      simp only [depth_append, depth_open, hall]
      omega
    · simp only [depth_append, depth_open, depth_close, hall, hcs.closed,
        hafter.depth_eq_zero hq]
      omega
  closed := by
    simp only [depth_append, depth_open, depth_close, hcs.closed,
      hbefore.depth_eq_zero List.prefix_rfl, hafter.depth_eq_zero List.prefix_rfl]
    rfl

end Nested

end DexListing.Text
