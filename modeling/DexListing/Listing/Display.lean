import DexListing.Text.Case
import DexListing.Text.Quoted
import DexListing.Text.Space
import DexListing.Text.Words

/-!
# What a listing shows

The parts of a class that can be shown, selections of parts, and the names of the usual selections
as they are given in a comma-separated list.
-/

set_option autoImplicit false

namespace DexListing

/-- A part of a class that a listing can show. -/
inductive DisplayOption
  | className
  | classAnnotations
  | classDetails
  | methodAnnotations
  | methods
  | fields
  | opcodes
  deriving DecidableEq, Repr

/-- The name of a part. -/
def DisplayOption.name : DisplayOption → String
  | className => "class_name"
  | classAnnotations => "class_annotations"
  | classDetails => "class_details"
  | methodAnnotations => "method_annotations"
  | methods => "methods"
  | fields => "fields"
  | opcodes => "opcodes"

/-- All parts, in the order of their names. -/
def DisplayOption.all : List DisplayOption :=
  [.classAnnotations, .classDetails, .className, .fields, .methodAnnotations, .methods, .opcodes]

/-- The part of a name. -/
def DisplayOption.ofName? (name : String) : Option DisplayOption :=
  DisplayOption.all.find? fun option => option.name == name

/-- What is said about a name that is not the name of a part. -/
def DisplayOption.unknownMessage (name : String) : String :=
  Text.quoted name ++ " is not a valid DisplayOption"

/-- A set of parts. -/
structure Selection where
  shows : DisplayOption → Bool

namespace Selection

/-- The selection of the parts in a list. -/
def ofList (options : List DisplayOption) : Selection :=
  ⟨fun option => options.contains option⟩

/-- The selected parts, in the order of their names. -/
def toList (s : Selection) : List DisplayOption :=
  DisplayOption.all.filter s.shows

/-- The parts selected by either. -/
def union (s t : Selection) : Selection :=
  ⟨fun option => s.shows option || t.shows option⟩

/-- Nothing is selected. -/
def none : Selection := ofList []

/-- The lines of a part, if the part is selected. -/
def showing (s : Selection) (option : DisplayOption) (lines : List String) : List String :=
  if s.shows option then lines else []

section Showing

variable {s t : Selection} {part : DisplayOption} {lines others : List String}

/-- The lines of a selected part are shown. -/
theorem showing_of_selected (h : s.shows part = true) (lines : List String) :
    s.showing part lines = lines :=
  if_pos h

/-- The lines of other parts are not. -/
theorem showing_of_hidden (h : s.shows part = false) (lines : List String) :
    s.showing part lines = [] :=
  if_neg (Bool.eq_false_iff.mp h)

/-- Lines count only if they are selected. -/
theorem showing_congr (h : s.shows part = true → lines = others) :
    s.showing part lines = s.showing part others := by
  unfold showing
  split
  · next hpart => exact h hpart
  · rfl

/-- Whether lines are shown depends on their part only. -/
theorem showing_eq (h : t.shows part = s.shows part) (lines : List String) :
    t.showing part lines = s.showing part lines := by
  unfold showing
  rw [h]

/-- What holds of all lines holds of those that are shown. -/
theorem forall_mem_showing {P : String → Prop} (h : ∀ l ∈ lines, P l) :
    ∀ l ∈ s.showing part lines, P l := by
  unfold showing
  split
  · exact h
  · exact nofun

end Showing

/-- The names of the selected parts, in order. -/
def names (s : Selection) : List String :=
  s.toList.map DisplayOption.name

/-- Without any wish only the name of each class is shown. -/
def default : Selection := ofList [.className]

/-- The named selections, in the order in which they are offered. -/
def presets : List (String × Selection) :=
  [("classes", ofList [.classAnnotations, .className, .classDetails]),
    ("methods", ofList [.methodAnnotations, .methods]),
    ("fields", ofList [.fields]),
    ("opcodes", ofList [.methods, .opcodes]),
    ("all", ofList DisplayOption.all)]

/-- The selection that one element of a list names; case and white space around it do not
matter. -/
def ofElement? (element : String) : Option Selection :=
  presets.lookup (Text.lower (Text.strip element))

/-- The union of the selections that the elements name, or the first element that names none. -/
def ofElements : List String → Except String Selection
  | [] => .ok none
  | element :: rest =>
    match ofElement? element with
    | .none => .error element
    | some s =>
      match ofElements rest with
      | .error unknown => .error unknown
      | .ok t => .ok (s.union t)

/-- The selection that a comma-separated list names, or its first element that names none. -/
def parse (value : String) : Except String Selection :=
  ofElements (Text.pieces ',' value)

end Selection

end DexListing
