import DexListing.Listing.Writer
import DexListing.Proofs.Run.FileNames
import Mathlib.Data.List.TakeWhile

/-!
# File names with any extension

An extension is meant to be the end of one name, but any text can be given for it. What stands
before its first slash ends the name of the file (`Router.namePart`); what stands after it makes
further parts of the path name (`Router.furtherParts`), and these are names unless they go up
(`Router.isName_of_mem_furtherParts`).
-/

set_option autoImplicit false

namespace DexListing

namespace Router

/-- What an extension adds to the last name: everything before its first slash. -/
def namePart (extension : String) : String :=
  String.ofList (extension.toList.takeWhile (· ≠ '/'))

/-- The parts that an extension adds after the last name. -/
def furtherParts (extension : String) : List String :=
  PathName.partsOf (String.ofList (extension.toList.dropWhile (· ≠ '/')))

/-- A part of a class name that is safe in path names. -/
structure IsSafePart (part : String) : Prop where
  ne_empty : part ≠ ""
  no_dot : Text.holds part '.' = false
  no_slash : Text.holds part '/' = false

/-- The segments of a class name without slashes. -/
theorem isSafePart_of_mem_segments {className : String}
    (hslash : ((Text.segments '.' className).any fun part => Text.holds part '/') = false)
    {part : String} (hpart : part ∈ Text.segments '.' className) : IsSafePart part := by
  obtain ⟨hpiece, hne⟩ := Text.mem_segments.mp hpart
  exact ⟨hne, Text.holds_eq_false_of_mem_pieces hpiece,
    by simpa using List.any_eq_false.mp hslash part hpart⟩

variable {extension : String}

/-- An extension that begins with a dot puts it into the last name. -/
theorem holds_namePart (hextension : extension.toList.head? = some '.') :
    Text.holds (namePart extension) '.' = true := by
  obtain ⟨more, hmore⟩ := List.head?_eq_some_iff.mp hextension
  simp [namePart, hmore, Text.holds]

/-- An extension without slashes is all in the last name. -/
theorem namePart_of_slashFree (hslash : Text.holds extension '/' = false) :
    namePart extension = extension ∧ furtherParts extension = [] := by
  have hnot : ∀ x ∈ extension.toList, decide (x ≠ '/') = true := fun x hx =>
    decide_eq_true fun heq => Text.holds_eq_false_iff.mp hslash (heq ▸ hx)
  constructor
  · rw [namePart, List.takeWhile_eq_self_iff.mpr hnot, String.ofList_toList]
  · rw [furtherParts, List.dropWhile_eq_nil_iff.mpr hnot]
    decide

/-- A part with any extension after it. -/
theorem ofText_append {last : String} (hlast : IsSafePart last) (extension : String) :
    PathName.ofText (last ++ extension) =
      ⟨.relative, (last ++ namePart extension) :: furtherParts extension⟩ := by
  have hcut : extension = namePart extension ++
      String.ofList (extension.toList.dropWhile (· ≠ '/')) := by
    apply String.toList_inj.mp
    rw [String.toList_append, namePart, String.toList_ofList, String.toList_ofList,
      List.takeWhile_append_dropWhile]
  have hroot : PathName.rootOf (last ++ extension).toList = .relative := by
    rw [String.toList_append]
    exact PathName.rootOf_append (String.toList_eq_nil_iff.not.mpr hlast.ne_empty)
      (Text.holds_eq_false_iff.mp hlast.no_slash) _
  have hfirst : PathName.partsOf (last ++ namePart extension) = [last ++ namePart extension] := by
    have hslash : Text.holds (last ++ namePart extension) '/' = false := by
      rw [Text.holds_append, hlast.no_slash, Bool.false_or, Text.holds_eq_false_iff, namePart,
        String.toList_ofList]
      exact fun hmem => by simpa using List.mem_takeWhile_imp hmem
    have hname := IsName.append_of_no_dot hlast.ne_empty hlast.no_dot (namePart extension)
    exact (PathName.mk.inj (PathName.ofText_of_isName hname hslash)).2
  have hparts : PathName.partsOf (last ++ extension) =
      (last ++ namePart extension) :: furtherParts extension := by
    unfold furtherParts
    conv_lhs => rw [hcut, ← String.append_assoc]
    cases hrest : extension.toList.dropWhile (· ≠ '/') with
    | nil =>
      rw [String.ofList_nil, String.append_empty, hfirst]
      rfl
    | cons c more =>
      have hc := List.head?_dropWhile_not (· ≠ '/') extension.toList
      rw [hrest] at hc
      obtain rfl : c = '/' := by simpa using hc
      have hmore : String.ofList ('/' :: more) = "/" ++ String.ofList more := by
        apply String.toList_inj.mp
        simp
      rw [hmore, ← String.append_assoc, PathName.partsOf_append_slash, hfirst,
        PathName.partsOf_slash]
      rfl
  rw [PathName.ofText, hroot, hparts]

/-- The path name of the file of a class with any extension. -/
theorem pathIn_eq_append (r : Router) (D : PathName) {parts : List String} (hne : parts ≠ [])
    (hparts : ∀ part ∈ parts, IsSafePart part) :
    r.pathIn D parts = ⟨D.root, D.parts ++
      (fileParts (namePart r.extension) parts ++ furtherParts r.extension)⟩ := by
  have hinit : ∀ part ∈ parts.dropLast, IsSafePart part :=
    fun part hpart => hparts part (List.dropLast_subset _ hpart)
  have hnames : ∀ part ∈ parts.dropLast, IsName part := by
    intro part hpart
    have hname := IsName.append_of_no_dot (hinit part hpart).ne_empty (hinit part hpart).no_dot ""
    rwa [String.append_empty] at hname
  have hjoined := PathName.joinAll_names D hnames fun part hpart => (hinit part hpart).no_slash
  unfold pathIn PathName.joinAll at *
  rw [fileParts_eq hne, fileParts_eq hne, List.foldl_append, hjoined, List.foldl_cons,
    List.foldl_nil, PathName.join, ofText_append (hparts _ (List.getLast_mem hne))]
  simp

variable {r : Router} {h : Host} {D p : PathName} {className : String}

/-- The path name of a class with any extension. -/
theorem eq_append_of_pathFor (hdir : r.directory = some D) (hpath : r.pathFor h className = .ok p) :
    Text.segments '.' className ≠ [] ∧
      (∀ part ∈ Text.segments '.' className, IsSafePart part) ∧
      p = ⟨D.root, D.parts ++ (fileParts (namePart r.extension) (Text.segments '.' className) ++
        furtherParts r.extension)⟩ := by
  obtain ⟨hsegments, hslash, rfl, -⟩ := of_pathFor_eq_ok hdir hpath
  have hparts : ∀ part ∈ Text.segments '.' className, IsSafePart part :=
    fun _ hpart => isSafePart_of_mem_segments hslash hpart
  exact ⟨hsegments, hparts, pathIn_eq_append r D hsegments hparts⟩

/-- An extension without slashes does not go up. -/
theorem not_up_of_slashFree {extension : String} (hslash : Text.holds extension '/' = false) :
    ".." ∉ furtherParts extension := by
  rw [(namePart_of_slashFree hslash).2]
  exact List.not_mem_nil

/-- The parts of the file of a class and the further parts of the extension are names, if none of
these goes up. -/
theorem isName_of_mem_furtherParts {extension className name : String}
    (hup : ".." ∉ furtherParts extension)
    (hname : name ∈ fileParts (namePart extension) (Text.segments '.' className) ++
      furtherParts extension) : IsName name := by
  rcases List.mem_append.mp hname with hname | hname
  · exact isName_of_mem_fileParts hname
  · have hpart := PathName.isPart_of_mem_partsOf hname
    refine ⟨not_or.mpr ⟨hpart.ne_empty, hpart.ne_dot⟩, ?_⟩
    rintro rfl
    exact hup hname

end Router

/-! ## The extensions of the writers -/

/-- The extension of a writer's files is a dot and something after it. -/
theorem Writer.extension_eq (writer : Writer) :
    ∃ extension, writer.extension.toList = '.' :: extension ∧ extension ≠ [] ∧
      '.' ∉ extension := by
  cases writer
  · exact ⟨['d', 'd', 'x'], rfl, by decide, by decide⟩
  · exact ⟨['j', 'a', 'v', 'a'], rfl, by decide, by decide⟩

/-- It is not empty. -/
theorem Writer.extension_ne_empty (writer : Writer) : writer.extension ≠ "" := by
  cases writer <;> decide

/-- It holds no slash. -/
theorem Writer.slashFree_extension (writer : Writer) : Text.holds writer.extension '/' = false := by
  cases writer <;> decide

/-- It holds no zero character. -/
theorem Writer.nulFree_extension (writer : Writer) :
    Text.holds writer.extension '\x00' = false := by
  cases writer <;> decide

/-- It does not go up. -/
theorem Writer.not_up (writer : Writer) : ".." ∉ Router.furtherParts writer.extension :=
  Router.not_up_of_slashFree writer.slashFree_extension

end DexListing
