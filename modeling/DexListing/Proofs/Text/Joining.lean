import DexListing.Text.Words
import Mathlib.Algebra.GroupWithZero.Nat
import Mathlib.Data.List.Basic

/-!
# Texts that come apart again

Where a text is put together from parts that do not hold the character between them, the parts can
be told from the whole: texts with a separator between neighbours (`Text.joined_inj`), and the lines
of a text (`Text.unlines_inj`). Both rest on there being only one place where a property of the
elements of a list first fails (`Text.append_inj_of_cut`).
-/

set_option autoImplicit false

namespace DexListing.Text

section Lists

variable {α : Type}

/-- What comes before the place where a property first fails. -/
theorem takeWhile_append_of_cut {p : α → Bool} {xs ys : List α} (hxs : ∀ x ∈ xs, p x = true)
    (hys : ∀ y ∈ ys.head?, p y = false) : (xs ++ ys).takeWhile p = xs := by
  rw [List.takeWhile_append_of_pos hxs]
  cases ys with
  | nil => simp
  | cons y rest => simp [hys y rfl]

/-- A list is cut in one way only where a property first fails. -/
theorem append_inj_of_cut {p : α → Bool} {xs xs' ys ys' : List α} (hxs : ∀ x ∈ xs, p x = true)
    (hys : ∀ y ∈ ys.head?, p y = false) (hxs' : ∀ x ∈ xs', p x = true)
    (hys' : ∀ y ∈ ys'.head?, p y = false) (h : xs ++ ys = xs' ++ ys') : xs = xs' ∧ ys = ys' := by
  have hfirst := congrArg (List.takeWhile p) h
  rw [takeWhile_append_of_cut hxs hys, takeWhile_append_of_cut hxs' hys'] at hfirst
  subst hfirst
  exact ⟨rfl, List.append_cancel_left h⟩

/-- A list is cut in one way only at the first occurrence of a value. -/
theorem append_cons_inj [DecidableEq α] {a : α} {xs xs' ys ys' : List α} (hxs : a ∉ xs)
    (hxs' : a ∉ xs') (h : xs ++ a :: ys = xs' ++ a :: ys') : xs = xs' ∧ ys = ys' := by
  have hne : ∀ {xs : List α}, a ∉ xs → ∀ x ∈ xs, decide (x ≠ a) = true := by
    intro xs hxs x hx
    exact decide_eq_true fun heq => hxs (heq ▸ hx)
  obtain ⟨hfirst, hrest⟩ := append_inj_of_cut (p := fun x => decide (x ≠ a)) (hne hxs) (by simp)
    (hne hxs') (by simp) h
  exact ⟨hfirst, (List.cons.inj hrest).2⟩

/-- Joining lists puts the separator before each one but the first. -/
theorem intercalate_cons (separator piece : List α) (rest : List (List α)) :
    separator.intercalate (piece :: rest) = piece ++ rest.flatMap (separator ++ ·) := by
  induction rest generalizing piece with
  | nil => simp
  | cons next rest ih =>
    rw [List.intercalate_cons_cons, ih, List.flatMap_cons, List.append_assoc, List.append_assoc]

/-- Lists that do not hold the value that each of them comes after can be told apart. -/
theorem flatMap_cons_inj [DecidableEq α] {a : α} (more : List α) {xs ys : List (List α)}
    (hxs : ∀ x ∈ xs, a ∉ x) (hys : ∀ y ∈ ys, a ∉ y)
    (h : xs.flatMap ((a :: more) ++ ·) = ys.flatMap ((a :: more) ++ ·)) : xs = ys := by
  induction xs generalizing ys with
  | nil =>
    cases ys with
    | nil => rfl
    | cons y ys => exact nomatch h
  | cons x xs ih =>
    cases ys with
    | nil => exact nomatch h
    | cons y ys =>
      have htail : ∀ zs : List (List α), ∀ z ∈ (zs.flatMap ((a :: more) ++ ·)).head?,
          decide (z ≠ a) = false := by
        intro zs z hz
        cases zs with
        | nil => exact nomatch hz
        | cons w zs =>
          obtain rfl : a = z := Option.some.inj hz
          simp
      have hhead : ∀ {z : List α}, a ∉ z → ∀ e ∈ z, decide (e ≠ a) = true := by
        intro z hz e he
        exact decide_eq_true fun heq => hz (heq ▸ he)
      rw [List.flatMap_cons, List.flatMap_cons, List.append_assoc, List.append_assoc] at h
      obtain ⟨rfl, hrest⟩ := append_inj_of_cut (hhead (hxs x List.mem_cons_self)) (htail xs)
        (hhead (hys y List.mem_cons_self)) (htail ys) (List.append_cancel_left h)
      rw [ih (fun x hx => hxs x (List.mem_cons_of_mem _ hx))
        (fun y hy => hys y (List.mem_cons_of_mem _ hy)) hrest]

end Lists

/-- A text does not hold a character that is not among its characters. -/
theorem holds_eq_false_iff {s : String} {c : Char} : holds s c = false ↔ c ∉ s.toList := by
  simp [holds]

/-- Two texts hold a character if one of them does. -/
theorem holds_append (s t : String) (c : Char) : holds (s ++ t) c = (holds s c || holds t c) := by
  simp [holds]

/-- Texts that are not empty come apart again, if they do not hold the character that begins the
separator. -/
theorem joined_inj {separator : String} {c : Char} {more : List Char}
    (hseparator : separator.toList = c :: more) {texts others : List String}
    (htexts : ∀ t ∈ texts, t ≠ "" ∧ holds t c = false)
    (hothers : ∀ t ∈ others, t ≠ "" ∧ holds t c = false)
    (h : joined separator texts = joined separator others) : texts = others := by
  have hlists := congrArg String.toList h
  unfold joined at hlists
  rw [String.toList_intercalate, String.toList_intercalate, hseparator] at hlists
  have hne : ∀ {t : String}, t ≠ "" → t.toList ≠ [] := String.toList_eq_nil_iff.not.mpr
  have hnot : ∀ {ts : List String}, (∀ t ∈ ts, t ≠ "" ∧ holds t c = false) →
      ∀ cs ∈ ts.map String.toList, c ∉ cs := by
    intro ts hts cs hcs
    obtain ⟨t, ht, rfl⟩ := List.mem_map.mp hcs
    exact holds_eq_false_iff.mp (hts t ht).2
  apply List.map_injective_iff.mpr (fun a b => String.toList_inj.mp)
  cases texts with
  | nil =>
    cases others with
    | nil => rfl
    | cons t rest =>
      rw [List.map_cons, intercalate_cons] at hlists
      exact absurd (List.append_eq_nil_iff.mp hlists.symm).1 (hne (hothers t List.mem_cons_self).1)
  | cons t rest =>
    cases others with
    | nil =>
      rw [List.map_cons, intercalate_cons] at hlists
      exact absurd (List.append_eq_nil_iff.mp hlists).1 (hne (htexts t List.mem_cons_self).1)
    | cons u others =>
      -- With a separator before the first text as well all texts look alike.
      apply flatMap_cons_inj more (hnot htexts) (hnot hothers)
      rw [List.map_cons, intercalate_cons, List.map_cons, intercalate_cons] at hlists
      rw [List.map_cons, List.flatMap_cons, List.map_cons, List.flatMap_cons, List.append_assoc,
        List.append_assoc, hlists]

/-- A text before others. -/
theorem joined_cons (separator text : String) {texts : List String} (hne : texts ≠ []) :
    joined separator (text :: texts) = text ++ separator ++ joined separator texts := by
  obtain ⟨next, rest, rfl⟩ := List.exists_cons_of_ne_nil hne
  exact String.intercalate_cons_cons

/-- Each text counts with one separator, but for the last one. -/
theorem utf8ByteSize_joined {texts : List String} (hne : texts ≠ []) :
    (joined "/" texts).utf8ByteSize + 1 = (texts.map fun text => text.utf8ByteSize + 1).sum := by
  induction texts with
  | nil => exact absurd rfl hne
  | cons text rest ih =>
    by_cases hrest : rest = []
    · subst hrest
      rw [show joined "/" [text] = text from String.intercalate_singleton]
      rfl
    · rw [joined_cons "/" text hrest, String.utf8ByteSize_append, String.utf8ByteSize_append,
        List.map_cons, List.sum_cons, ← ih hrest]
      exact Nat.add_assoc _ _ _

/-- Texts that are not empty have at least so many bytes, with the separators between them. -/
theorem two_mul_length_le_joined {texts : List String} (htexts : ∀ text ∈ texts, text ≠ "") :
    2 * texts.length ≤ (joined "/" texts).utf8ByteSize + 1 := by
  by_cases hne : texts = []
  · subst hne
    exact Nat.zero_le _
  · rw [utf8ByteSize_joined hne]
    clear hne
    induction texts with
    | nil => exact Nat.zero_le _
    | cons text rest ih =>
      have htext : text.utf8ByteSize ≠ 0 := fun hzero =>
        htexts text List.mem_cons_self (String.utf8ByteSize_eq_zero_iff.mp hzero)
      have hbound := ih fun other hother => htexts other (List.mem_cons_of_mem text hother)
      rw [List.map_cons, List.sum_cons, List.length_cons]
      omega

/-- What comes after the last text comes after all of them. -/
theorem joined_concat_append (separator : String) (texts : List String) (last after : String) :
    joined separator (texts ++ [last ++ after]) = joined separator (texts ++ [last]) ++ after := by
  induction texts with
  | nil => rfl
  | cons text rest ih =>
    rw [List.cons_append, joined_cons separator text (by simp), ih, List.cons_append,
      joined_cons separator text (by simp), ← String.append_assoc]

/-- The last two texts may already be one. -/
theorem joined_concat_concat (separator : String) (texts : List String) (text last : String) :
    joined separator (texts ++ [text ++ separator ++ last]) =
      joined separator (texts ++ [text, last]) := by
  induction texts with
  | nil =>
    rw [List.nil_append, List.nil_append, joined_cons separator text (by simp)]
    rfl
  | cons first rest ih =>
    rw [List.cons_append, joined_cons separator first (by simp), ih, List.cons_append,
      joined_cons separator first (by simp)]

/-- A character that is neither in the separator nor in the texts. -/
theorem holds_joined_eq_false {separator : String} {c : Char}
    (hseparator : holds separator c = false) {texts : List String}
    (htexts : ∀ t ∈ texts, holds t c = false) :
    holds (joined separator texts) c = false := by
  induction texts with
  | nil => rfl
  | cons text rest ih =>
    have htext := htexts text List.mem_cons_self
    have hrest := ih fun t ht => htexts t (List.mem_cons_of_mem text ht)
    cases rest with
    | nil => exact htext
    | cons next rest =>
      rw [holds_eq_false_iff] at hseparator htext hrest ⊢
      rw [joined_cons separator text (List.cons_ne_nil next rest)]
      simp [htext, hseparator, hrest]

/-- Texts that do not hold the separator come apart where the joined text is cut at it. -/
theorem pieces_joined {separator : String} {c : Char} (hseparator : separator.toList = [c])
    {texts : List String} (hne : texts ≠ []) (htexts : ∀ t ∈ texts, holds t c = false) :
    pieces c (joined separator texts) = texts := by
  have hlists : ∀ cs ∈ texts.map String.toList, c ∉ cs := by
    intro cs hcs
    obtain ⟨t, ht, rfl⟩ := List.mem_map.mp hcs
    exact holds_eq_false_iff.mp (htexts t ht)
  unfold pieces joined
  rw [String.toList_intercalate, hseparator, List.splitOn_intercalate c hlists (by simpa using hne),
    List.map_map]
  simp

/-- A text that is put together with the separator has the pieces of both parts. -/
theorem pieces_append {separator : String} {c : Char} (hseparator : separator.toList = [c])
    (s t : String) : pieces c (s ++ separator ++ t) = pieces c s ++ pieces c t := by
  unfold pieces
  rw [String.toList_append, String.toList_append, List.append_assoc, hseparator,
    List.singleton_append, List.splitOn_append_cons_self, List.map_append]

/-- The pieces of a text make it again. -/
theorem joined_pieces {separator : String} {c : Char} (hseparator : separator.toList = [c])
    (s : String) : joined separator (pieces c s) = s := by
  apply String.toList_inj.mp
  unfold joined pieces
  rw [String.toList_intercalate, hseparator, List.map_map]
  simp [Function.comp_def, List.intercalate_splitOn]

/-- The first line comes first, with its end. -/
theorem unlines_cons (line : String) (lines : List String) :
    unlines (line :: lines) = line ++ "\n" ++ unlines lines := by
  simp [unlines]

/-- One line is a text with its end. -/
theorem unlines_singleton (line : String) : unlines [line] = line ++ "\n" := by
  simp [unlines]

/-- Lines after lines are one text after the other. -/
theorem unlines_append (lines others : List String) :
    unlines (lines ++ others) = unlines lines ++ unlines others := by
  simp [unlines]

/-- A text that is written line by line, cut at its line feeds: a line feed in one of these lines
cuts it further, and nothing comes after the last one. -/
theorem pieces_unlines (lines : List String) :
    pieces '\n' (unlines lines) = lines.flatMap (pieces '\n') ++ [""] := by
  induction lines with
  | nil => rfl
  | cons line rest ih =>
    rw [unlines_cons, pieces_append rfl, ih, List.flatMap_cons, List.append_assoc]

/-- Lines without a line feed can be told from the text that they make. -/
theorem unlines_inj {lines others : List String} (hlines : ∀ l ∈ lines, holds l '\n' = false)
    (hothers : ∀ l ∈ others, holds l '\n' = false) (h : unlines lines = unlines others) :
    lines = others := by
  have hlists : ∀ {ls ms : List String}, (∀ l ∈ ls, holds l '\n' = false) →
      (∀ l ∈ ms, holds l '\n' = false) →
      ls.flatMap (fun l => l.toList ++ ['\n']) = ms.flatMap (fun l => l.toList ++ ['\n']) →
      ls = ms := by
    intro ls
    induction ls with
    | nil =>
      intro ms _ _ heq
      cases ms with
      | nil => rfl
      | cons m ms => simp at heq
    | cons l ls ih =>
      intro ms hls hms heq
      cases ms with
      | nil => simp at heq
      | cons m ms =>
        rw [List.flatMap_cons, List.flatMap_cons, List.append_assoc, List.append_assoc] at heq
        obtain ⟨hl, hrest⟩ := append_cons_inj
          (holds_eq_false_iff.mp (hls l List.mem_cons_self))
          (holds_eq_false_iff.mp (hms m List.mem_cons_self)) heq
        rw [String.toList_inj.mp hl, ih (fun l hl => hls l (List.mem_cons_of_mem _ hl))
          (fun m hm => hms m (List.mem_cons_of_mem _ hm)) hrest]
  apply hlists hlines hothers
  have htext := congrArg String.toList h
  unfold unlines at htext
  simpa [String.toList_join, List.flatMap_map] using htext

end DexListing.Text
