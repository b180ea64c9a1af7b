import DexListing.Listing.Display
import DexListing.Proofs.Text.Joining
import DexListing.Proofs.Text.Spelling

/-!
# Lists of named selections

A list selects what its elements name, and its first element that names nothing is what is reported
(`Selection.ofElements_eq_ok_iff`, `Selection.ofElements_eq_error_iff`). As a list that is put
together with a comma has the elements of both parts, it selects the union
(`Selection.parse_comma`). What an element names does not depend on its spelling
(`Selection.names_respells`), so lists select the same if each element of one stands in the other in
some spelling (`Selection.SameElements`).
-/

set_option autoImplicit false

namespace DexListing

namespace Selection

/-! ## Selections as sets of parts -/

/-- Selections that show the same parts are the same. -/
theorem eq_of_shows_iff {s t : Selection}
    (h : ∀ part, s.shows part = true ↔ t.shows part = true) : s = t := by
  obtain ⟨shows⟩ := s
  obtain ⟨shows'⟩ := t
  congr 1
  funext part
  exact Bool.eq_iff_iff.mpr (h part)

/-- A union shows what one of its selections shows. -/
theorem shows_union {s t : Selection} {part : DisplayOption} :
    (s.union t).shows part = true ↔ s.shows part = true ∨ t.shows part = true :=
  Bool.or_eq_true_iff

/-- How selections are grouped does not matter. -/
theorem union_assoc (s t u : Selection) : (s.union t).union u = s.union (t.union u) :=
  eq_of_shows_iff fun part => by simp only [shows_union, or_assoc]

/-- Nothing is added to the empty selection but the other one. -/
theorem none_union (s : Selection) : none.union s = s :=
  eq_of_shows_iff fun part => by simp [shows_union, none, ofList]

/-! ## What an element names -/

/-- The element is the name of a selection, but for case and the white space around it. -/
def IsNamed (element : String) : Prop :=
  ∃ s, (Text.lower (Text.strip element), s) ∈ presets

/-- The selection that the element names shows the part. -/
def Names (element : String) (part : DisplayOption) : Prop :=
  ∃ s, (Text.lower (Text.strip element), s) ∈ presets ∧ s.shows part = true

/-- An element names a selection if, stripped and in lower case, it is the name of a preset. -/
theorem ofElement?_eq_some_iff {element : String} {s : Selection} :
    ofElement? element = some s ↔ (Text.lower (Text.strip element), s) ∈ presets := by
  have hkeys : (presets.map Prod.fst).Nodup := by decide
  unfold ofElement?
  rw [List.lookup_eq_some_iff]
  constructor
  · rintro ⟨before, after, hpresets, -⟩
    rw [hpresets]
    exact List.mem_append_right before List.mem_cons_self
  · intro hmem
    obtain ⟨before, after, hpresets⟩ := List.append_of_mem hmem
    refine ⟨before, after, hpresets, fun preset hpreset => ?_⟩
    rw [hpresets, List.map_append, List.map_cons, List.nodup_append] at hkeys
    rw [bne_iff_ne]
    exact (hkeys.2.2 _ (List.mem_map_of_mem hpreset) _ List.mem_cons_self).symm

/-- An element names nothing if it is not the name of a preset. -/
theorem ofElement?_eq_none_iff {element : String} :
    ofElement? element = .none ↔ ¬IsNamed element := by
  unfold IsNamed
  rw [Option.eq_none_iff_forall_not_mem, not_exists]
  exact forall_congr' fun s => not_congr ofElement?_eq_some_iff

/-- What an element names does not depend on its spelling. -/
theorem names_respells {element other : String} (h : Text.Respells element other) :
    (IsNamed element ↔ IsNamed other) ∧ ∀ part, Names element part ↔ Names other part := by
  unfold IsNamed Names
  rw [h.lower_strip]
  exact ⟨Iff.rfl, fun part => Iff.rfl⟩

/-! ## What a list selects -/

/-- The elements of a list after another one count if all elements before them name something. -/
theorem ofElements_append (elements others : List String) :
    ofElements (elements ++ others) =
      match ofElements elements with
      | .error unknown => .error unknown
      | .ok s =>
        match ofElements others with
        | .error unknown => .error unknown
        | .ok t => .ok (s.union t) := by
  induction elements with
  | nil =>
    rw [List.nil_append]
    dsimp only [ofElements]
    cases ofElements others with
    | error unknown => rfl
    | ok t => exact congrArg Except.ok (none_union t).symm
  | cons element rest ih =>
    rw [List.cons_append, ofElements, ofElements, ih]
    cases ofElement? element with
    | none => rfl
    | some named =>
      cases ofElements rest with
      | error unknown => rfl
      | ok s =>
        cases ofElements others with
        | error unknown => rfl
        | ok t =>
          dsimp only
          rw [union_assoc]

/-- A list of elements that all name something selects what they name. -/
theorem exists_ofElements {elements : List String} (h : ∀ e ∈ elements, IsNamed e) :
    ∃ s, ofElements elements = .ok s ∧
      ∀ part, s.shows part = true ↔ ∃ e ∈ elements, Names e part := by
  induction elements with
  | nil => exact ⟨none, rfl, fun part => by simp [none, ofList]⟩
  | cons element rest ih =>
    obtain ⟨named, hnamed⟩ := h element List.mem_cons_self
    obtain ⟨s, hs, hshows⟩ := ih fun e he => h e (List.mem_cons_of_mem element he)
    have hfound := ofElement?_eq_some_iff.mpr hnamed
    refine ⟨named.union s, by rw [ofElements, hfound, hs], fun part => ?_⟩
    have hnames : Names element part ↔ named.shows part = true := by
      constructor
      · rintro ⟨other, hother, hpart⟩
        rw [← ofElement?_eq_some_iff, hfound] at hother
        exact Option.some.inj hother ▸ hpart
      · exact fun hpart => ⟨named, hnamed, hpart⟩
    rw [shows_union, hshows, List.exists_mem_cons_iff, hnames]

/-- The first element of a list that names nothing is what is wrong with it. -/
theorem ofElements_of_unknown {before : List String} (hbefore : ∀ e ∈ before, IsNamed e)
    {unknown : String} (hunknown : ¬IsNamed unknown) (after : List String) :
    ofElements (before ++ unknown :: after) = .error unknown := by
  obtain ⟨s, hs, -⟩ := exists_ofElements hbefore
  rw [ofElements_append, hs, ofElements, ofElement?_eq_none_iff.mpr hunknown]

/-- A list of which some element names nothing has a first one. -/
theorem exists_unknown {elements : List String} (h : ¬∀ e ∈ elements, IsNamed e) :
    ∃ before unknown after, elements = before ++ unknown :: after ∧
      (∀ e ∈ before, IsNamed e) ∧ ¬IsNamed unknown := by
  induction elements with
  | nil => exact absurd (List.forall_mem_nil _) h
  | cons element rest ih =>
    by_cases helement : IsNamed element
    · obtain ⟨before, unknown, after, rfl, hbefore, hunknown⟩ :=
        ih fun hrest => h (List.forall_mem_cons.mpr ⟨helement, hrest⟩)
      exact ⟨element :: before, unknown, after, rfl,
        List.forall_mem_cons.mpr ⟨helement, hbefore⟩, hunknown⟩
    · exact ⟨[], element, rest, rfl, List.forall_mem_nil _, helement⟩

/-- Elements give a selection if all of them are names; it shows what one of them names. -/
theorem ofElements_eq_ok_iff {elements : List String} {s : Selection} :
    ofElements elements = .ok s ↔ (∀ e ∈ elements, IsNamed e) ∧
      ∀ part, s.shows part = true ↔ ∃ e ∈ elements, Names e part := by
  by_cases hnamed : ∀ e ∈ elements, IsNamed e
  · obtain ⟨t, ht, hshows⟩ := exists_ofElements hnamed
    rw [ht, Except.ok.injEq, and_iff_right hnamed]
    constructor
    · rintro rfl
      exact hshows
    · intro hs
      exact eq_of_shows_iff fun part => (hshows part).trans (hs part).symm
  · obtain ⟨before, unknown, after, rfl, hbefore, hunknown⟩ := exists_unknown hnamed
    rw [ofElements_of_unknown hbefore hunknown]
    exact iff_of_false nofun fun h => hnamed h.1

/-- Elements fail at the first one that is no name. -/
theorem ofElements_eq_error_iff {elements : List String} {unknown : String} :
    ofElements elements = .error unknown ↔ ∃ before after,
      elements = before ++ unknown :: after ∧ (∀ e ∈ before, IsNamed e) ∧ ¬IsNamed unknown := by
  constructor
  · intro h
    have hnamed : ¬∀ e ∈ elements, IsNamed e := by
      intro hnamed
      obtain ⟨s, hs, -⟩ := exists_ofElements hnamed
      exact nomatch hs.symm.trans h
    obtain ⟨before, first, after, rfl, hbefore, hfirst⟩ := exists_unknown hnamed
    rw [ofElements_of_unknown hbefore hfirst] at h
    obtain rfl := Except.error.inj h
    exact ⟨before, after, rfl, hbefore, hfirst⟩
  · rintro ⟨before, after, rfl, hbefore, hunknown⟩
    exact ofElements_of_unknown hbefore hunknown after

/-- Two lists with a comma between them select the union. -/
theorem parse_comma (a b : String) :
    parse (a ++ "," ++ b) =
      match parse a with
      | .error unknown => .error unknown
      | .ok s =>
        match parse b with
        | .error unknown => .error unknown
        | .ok t => .ok (s.union t) := by
  unfold parse
  rw [Text.pieces_append rfl, ofElements_append]

/-! ## The elements of several lists -/

/-- The elements of comma-separated lists, in order. -/
def elements (values : List String) : List String :=
  values.flatMap (Text.pieces ',')

/-- Each element of one of the lists stands in the other one in some spelling. How often it does,
and where, does not matter. -/
structure SameElements (elements others : List String) : Prop where
  left : ∀ e ∈ elements, ∃ other ∈ others, Text.Respells e other
  right : ∀ other ∈ others, ∃ e ∈ elements, Text.Respells other e

/-- Elements that are joined by commas come apart again, however they are grouped. -/
theorem elements_joined {groups : List (List String)}
    (hgroups : ∀ group ∈ groups, group ≠ [] ∧ ∀ e ∈ group, Text.holds e ',' = false) :
    elements (groups.map (Text.joined ",")) = groups.flatten := by
  unfold elements
  rw [List.flatMap_map, List.flatten_eq_flatMap]
  refine List.flatMap_congr fun group hgroup => ?_
  obtain ⟨hne, hcomma⟩ := hgroups group hgroup
  exact Text.pieces_joined rfl hne hcomma

/-- Elements name something in any spelling. -/
theorem SameElements.forall_isNamed {elements others : List String}
    (h : SameElements elements others) (hnamed : ∀ e ∈ elements, IsNamed e) :
    ∀ other ∈ others, IsNamed other := by
  intro other hother
  obtain ⟨e, he, hspelling⟩ := h.right other hother
  exact (names_respells hspelling).1.mpr (hnamed e he)

/-- Elements that are the same up to spelling, order and repetition name the same parts. -/
theorem SameElements.exists_names_iff {elements others : List String}
    (h : SameElements elements others) (part : DisplayOption) :
    (∃ e ∈ elements, Names e part) ↔ ∃ other ∈ others, Names other part := by
  constructor
  · rintro ⟨e, he, hnames⟩
    obtain ⟨other, hother, hspelling⟩ := h.left e he
    exact ⟨other, hother, ((names_respells hspelling).2 part).mp hnames⟩
  · rintro ⟨other, hother, hnames⟩
    obtain ⟨e, he, hspelling⟩ := h.right other hother
    exact ⟨e, he, ((names_respells hspelling).2 part).mp hnames⟩

end Selection

end DexListing
