import DexListing.Dalvik.Container
import Std.Data.TreeMap.Lemmas

/-!
# Annotations

Of an annotation only its type is listed. A set of annotations is a list of offsets of items, each
of which names its type. The directory of a class assigns sets to the class itself, to field
indices and to method indices; where an index is assigned twice the later set counts.
-/

set_option autoImplicit false

namespace DexListing

/-- The annotations recorded for member indices. -/
abbrev MemberAnnotations := Std.TreeMap Nat (List String)

namespace MemberAnnotations

/-- The annotations of a member, none if none are recorded. -/
def of (annotations : MemberAnnotations) (index : Nat) : List String :=
  annotations.getD index []

/-- The annotations that the entries of a directory record, one after the other. -/
def ofEntries (entries : List (Nat × List String)) : MemberAnnotations :=
  entries.foldl (fun annotations entry => annotations.insert entry.1 entry.2) ∅

/-- A member has the annotations of its last entry. -/
theorem of_ofEntries (entries : List (Nat × List String)) (index : Nat) :
    (ofEntries entries).of index = (entries.reverse.lookup index).getD [] := by
  unfold of ofEntries
  rw [← List.foldr_reverse]
  induction entries.reverse with
  | nil => simp
  | cons entry rest ih =>
    obtain ⟨i, names⟩ := entry
    simp only [List.foldr_cons, Std.TreeMap.getD_insert, List.lookup_cons, Std.compare_eq_iff_eq]
    by_cases h : i = index
    · simp [h]
    · have hne : (index == i) = false := by simpa using Ne.symm h
      simp [h, hne, ih]

end MemberAnnotations

/-- The annotations of a class, of its fields and of its methods. -/
structure AnnotationsDirectory where
  ofClass : List String
  ofFields : MemberAnnotations
  ofMethods : MemberAnnotations

namespace Container

/-- The type names of `count` annotations whose offsets stand one after the other. -/
def setEntries (c : Container) : (count offset : Nat) → Except ContainerError (List String)
  | 0, _ => .ok []
  | count + 1, offset => do
    let item ← c.u4 offset
    let (typeIndex, _) ← c.leb128 (item + 1)
    let name ← c.typeName typeIndex
    let rest ← setEntries c count (offset + 4)
    return name :: rest

/-- The type names in the annotation set at an offset; offset zero stands for the empty set. -/
def annotationSet (c : Container) (offset : Nat) : Except ContainerError (List String) := do
  if offset = 0 then return []
  let count ← c.u4 offset
  c.setEntries count (offset + 4)

/-- The entries for `count` members: pairs of an index and the offset of a set. -/
def memberAnnotations (c : Container) :
    (count offset : Nat) → Except ContainerError (List (Nat × List String))
  | 0, _ => .ok []
  | count + 1, offset => do
    c.require offset 8
    let names ← c.annotationSet (c.data.u4 (offset + 4))
    let rest ← memberAnnotations c count (offset + 8)
    return (c.data.u4 offset, names) :: rest

/-- The annotations directory at an offset; offset zero stands for an empty directory. -/
def annotationsDirectory (c : Container) (offset : Nat) :
    Except ContainerError AnnotationsDirectory := do
  if offset = 0 then return ⟨[], ∅, ∅⟩
  c.require offset 16
  let fieldCount := c.data.u4 (offset + 4)
  let methodCount := c.data.u4 (offset + 8)
  let ofFields ← c.memberAnnotations fieldCount (offset + 16)
  let ofMethods ← c.memberAnnotations methodCount (offset + 16 + 8 * fieldCount)
  let ofClass ← c.annotationSet (c.data.u4 offset)
  return ⟨ofClass, .ofEntries ofFields, .ofEntries ofMethods⟩

end Container

end DexListing
