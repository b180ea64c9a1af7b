import DexListing.Assembly.Image
import DexListing.Proofs.Assembly.Pieces
import Mathlib.Data.List.Forall2

/-!
# The data part only grows

Each step of the layout puts pieces behind those that are there (`DataPart.Grows`), so whatever bytes
hold the data part at the end hold it as it was at each step before (`DataPart.HeldBy`). This is what
lets an item be looked at when it is laid out, although it is read when the container is complete.
Annotation items are shared by later sets, so it is kept along the way where they stand
(`DataPart.Sound`).
-/

set_option autoImplicit false

namespace DexListing.Assembly

namespace DataPart

variable {b : Builder} {d d' : DataPart} {data : Bytes}

/-- The bytes hold the pieces of the data part where it starts. -/
def HeldBy (d : DataPart) (data : Bytes) : Prop :=
  data.HasPieces d.start d.pieces

/-- The data part does not start at the offset that stands for nothing, and its annotation items are
where it says. -/
structure Sound (b : Builder) (d : DataPart) : Prop where
  start : 0 < d.start
  items : ∀ data, d.HeldBy data → ∀ name offset, OrderedMap.find? d.items name = some offset →
    data.HasPieces offset [.byte 1, .number (b.typeIndex name), .number 0]

/-- More pieces may have come to a data part; it starts where it did, and it is still sound if it
was. -/
structure Grows (b : Builder) (d d' : DataPart) : Prop where
  start : d'.start = d.start
  held : ∀ data, d'.HeldBy data → d.HeldBy data
  sound : d.Sound b → d'.Sound b

/-- A data part has grown out of itself. -/
theorem Grows.refl (b : Builder) (d : DataPart) : Grows b d d :=
  ⟨rfl, fun _ h => h, id⟩

/-- What has grown out of growth has grown. -/
theorem Grows.trans {d'' : DataPart} (h : Grows b d d') (h' : Grows b d' d'') : Grows b d d'' :=
  ⟨h'.start.trans h.start, fun data hheld => h.held data (h'.held data hheld), h'.sound ∘ h.sound⟩

/-- No item of a sound data part is at offset zero, for the header comes first. -/
theorem Sound.here_pos (h : d.Sound b) : 0 < d.here :=
  Nat.lt_of_lt_of_le h.start (Nat.le_add_right _ _)

/-! ## Putting pieces -/

/-- Bytes that hold a data part with more pieces hold it without them, and hold them. -/
theorem HeldBy.of_put {pieces : List Piece} (h : (d.put pieces).HeldBy data) :
    d.HeldBy data ∧ data.HasPieces d.here pieces :=
  Bytes.HasPieces.append h

/-- Putting pieces down keeps all that is there. -/
theorem put_grows (b : Builder) (d : DataPart) (pieces : List Piece) :
    Grows b d (d.put pieces) where
  start := rfl
  held _ h := h.of_put.1
  sound h := ⟨h.start, fun data hheld => h.items data hheld.of_put.1⟩

/-- Filling up to an aligned offset keeps all that is there. -/
theorem align_grows (b : Builder) (d : DataPart) : Grows b d d.align :=
  put_grows b d _

/-- Laying an item at an aligned offset keeps all that is there. -/
theorem lay_grows (b : Builder) (d : DataPart) (pieces : List Piece) :
    Grows b d (d.lay pieces).data :=
  put_grows b d pieces

/-! ## Items one after the other -/

section All

variable {α β : Type} {item : DataPart → α → Laid β}

/-- Laying items in turn keeps all that is there if each of them does. -/
theorem layAll_grows (hitem : ∀ d x, Grows b d (item d x).data) (d : DataPart) (xs : List α) :
    Grows b d (layAll item d xs).data := by
  induction xs generalizing d with
  | nil => exact .refl b d
  | cons x rest ih => exact (hitem d x).trans (ih (item d x).data)

/-- Each item gives one value. -/
theorem length_layAll (d : DataPart) (xs : List α) : (layAll item d xs).value.length = xs.length := by
  induction xs generalizing d with
  | nil => rfl
  | cons x rest ih => exact congrArg Nat.succ (ih (item d x).data)

/-- What bytes tell about each item as it is laid out they tell about all of them in the end. -/
theorem layAll_forall₂ {P : α → β → Prop} (hitem : ∀ d x, Grows b d (item d x).data)
    {xs : List α}
    (hread : ∀ d, d.Sound b → ∀ x ∈ xs, (item d x).data.HeldBy data → P x (item d x).value)
    (hsound : d.Sound b) (hheld : (layAll item d xs).data.HeldBy data) :
    List.Forall₂ P xs (layAll item d xs).value := by
  induction xs generalizing d with
  | nil => exact .nil
  | cons x rest ih =>
    have hfirst := (layAll_grows hitem (item d x).data rest).held data hheld
    refine .cons (hread d hsound x List.mem_cons_self hfirst) (ih ?_ ((hitem d x).sound hsound) hheld)
    intro d hd y hy
    exact hread d hd y (List.mem_cons_of_mem x hy)

end All

/-! ## The items of a class -/

/-- A list of types keeps all that is there. -/
theorem typeList_grows (b : Builder) (d : DataPart) (names : List String) :
    Grows b d (d.typeList b names).data := by
  unfold typeList
  split
  · exact .refl b d
  · exact (align_grows b d).trans (lay_grows b _ _)

/-- An annotation keeps all that is there, and is laid once only. -/
theorem annotationItem_grows (b : Builder) (d : DataPart) (name : String) :
    Grows b d (annotationItem b d name) := by
  unfold annotationItem
  split
  · exact .refl b d
  · have hput := put_grows b d [.byte 1, .number (b.typeIndex name), .number 0]
    refine ⟨hput.start, hput.held, fun h => ⟨h.start, ?_⟩⟩
    intro data hheld other offset hfind
    obtain ⟨hold, hnew⟩ := HeldBy.of_put hheld
    dsimp only at hfind
    rw [OrderedMap.find?_put] at hfind
    split at hfind
    · next heq =>
      obtain rfl := Option.some.inj hfind
      rw [heq]
      exact hnew
    · exact h.items data hold other offset hfind

/-- Annotations keep all that is there. -/
theorem annotationItems_grows (b : Builder) (d : DataPart) (names : List String) :
    Grows b d (names.foldl (annotationItem b) d) := by
  induction names generalizing d with
  | nil => exact .refl b d
  | cons name rest ih => exact (annotationItem_grows b d name).trans (ih (annotationItem b d name))

/-- A set of annotations keeps all that is there. -/
theorem annotationSet_grows (b : Builder) (d : DataPart) (names : List String) :
    Grows b d (d.annotationSet b names).data := by
  unfold annotationSet
  split
  · exact .refl b d
  · exact (annotationItems_grows b d names).trans ((align_grows b _).trans (lay_grows b _ _))

/-- An empty set of annotations is not laid out, any other one is. -/
theorem annotationSet_eq_zero {names : List String} (hsound : d.Sound b) :
    (d.annotationSet b names).value = 0 ↔ names = [] := by
  unfold annotationSet
  by_cases hempty : names = []
  · rw [if_pos hempty]
    exact ⟨fun _ => hempty, fun _ => rfl⟩
  · rw [if_neg hempty]
    have hgrows := (annotationItems_grows b d names).trans
      (align_grows b (names.foldl (annotationItem b) d))
    have hpos := (hgrows.sound hsound).here_pos
    constructor
    · intro hzero
      exact absurd hzero (Nat.ne_of_gt hpos)
    · intro hnames
      exact absurd hnames hempty

/-- The code of a method keeps all that is there. -/
theorem codeItem_grows (b : Builder) (d : DataPart) (m : MethodSpec) :
    Grows b d (d.codeItem m).data := by
  unfold codeItem
  split
  · exact .refl b d
  · exact (align_grows b d).trans (lay_grows b _ _)

/-- The annotations of a method keep all that is there. -/
theorem methodSet_grows (b : Builder) (d : DataPart) (m : MethodSpec × Nat) :
    Grows b d (d.methodSet b m).data :=
  annotationSet_grows b d m.1.annotations

/-- A directory of annotations keeps all that is there. -/
theorem directory_grows (b : Builder) (d : DataPart) (classSet : Nat)
    (methodSets : List (Nat × Nat)) : Grows b d (d.directory classSet methodSets).data := by
  unfold directory
  split
  · exact .refl b d
  · exact (align_grows b d).trans (lay_grows b _ _)

/-- The members of a class keep all that is there. -/
theorem classData_grows (b : Builder) (d : DataPart) (p : PlacedClass) (codeOffsets : List Nat) :
    Grows b d (d.classData p codeOffsets).data := by
  unfold classData
  split
  · exact .refl b d
  · exact lay_grows b d _

/-- An annotation item stays under its name. -/
theorem find?_annotationItem {name other : String}
    (h : (OrderedMap.find? d.items other).isSome ∨ other = name) :
    (OrderedMap.find? (annotationItem b d name).items other).isSome := by
  unfold annotationItem
  split
  · next hthere =>
    rcases h with hother | rfl
    · exact hother
    · exact hthere
  · dsimp only
    rw [OrderedMap.find?_put]
    split
    · rfl
    · next hne =>
      rcases h with hother | heq
      · exact hother
      · exact absurd heq hne

/-- All annotations that are asked for have an item then. -/
theorem find?_annotationItems {names : List String} {other : String}
    (h : (OrderedMap.find? d.items other).isSome ∨ other ∈ names) :
    (OrderedMap.find? (names.foldl (annotationItem b) d).items other).isSome := by
  induction names generalizing d with
  | nil =>
    rcases h with hthere | hmem
    · exact hthere
    · exact nomatch hmem
  | cons name rest ih =>
    apply ih
    rcases h with hthere | hmem
    · exact Or.inl (find?_annotationItem (Or.inl hthere))
    · rcases List.mem_cons.mp hmem with heq | hrest
      · exact Or.inl (find?_annotationItem (Or.inr heq))
      · exact Or.inr hrest

/-- A string keeps all that is there. -/
theorem string_grows (b : Builder) (d : DataPart) (s : String) : Grows b d (d.string s).data :=
  lay_grows b d _

/-- All items of a class keep all that is there. -/
theorem classItems_grows (b : Builder) (d : DataPart) (p : PlacedClass) :
    Grows b d (d.classItems b p).data :=
  (typeList_grows b d _).trans <| (layAll_grows (codeItem_grows b) _ _).trans <|
    (layAll_grows (methodSet_grows b) _ _).trans <| (annotationSet_grows b _ _).trans <|
      (directory_grows b _ _ _).trans (classData_grows b _ p _)

end DataPart

end DexListing.Assembly
