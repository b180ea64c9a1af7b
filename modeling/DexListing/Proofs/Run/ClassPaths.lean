import DexListing.Proofs.Listing.JavaBodies
import DexListing.Proofs.Run.Extensions
import DexListing.Proofs.Run.SharedFiles

/-!
# Class names and their files

Three ways of cutting a class name have to agree: its segments make the path name of its file, its
package is what stands before the last dot, and its simple name is what stands after it. If no
segment is empty, they do: the file has the simple name and lies in the directories of the package
(`ClassInfo.segments_name`), which are those of the package line of a listing.

Path names tell class names apart as far as their segments do, whatever the extension is
(`Router.pathFor_eq_iff`). An extension that begins with a dot also keeps files out of the way of
other files: the name that ends in it holds a dot, and no name of a package does
(`Router.not_isAbove`).
-/

set_option autoImplicit false

namespace DexListing

/-- The path name is that of a directory on the way to the other one. -/
def PathName.IsAbove (p q : PathName) : Prop :=
  p.root = q.root ∧ p.parts <+: q.parts ∧ p ≠ q

/-! ## Package and simple name -/

/-- There is no dot after the last one. -/
theorem not_mem_afterLastDot (cs : List Char) : '.' ∉ afterLastDot cs := by
  rw [afterLastDot, List.mem_reverse]
  exact fun hdot => absurd (List.mem_takeWhile_imp hdot) (by decide)

/-- Characters with a dot among them are cut at the last one. -/
theorem eq_cut_of_dot {cs : List Char} (hdot : '.' ∈ cs) :
    cs = beforeLastDot cs ++ '.' :: afterLastDot cs := by
  have hcut := List.takeWhile_append_dropWhile (p := fun x => decide (x ≠ '.')) (l := cs.reverse)
  unfold beforeLastDot afterLastDot
  cases hrest : cs.reverse.dropWhile (fun x => decide (x ≠ '.')) with
  | nil =>
    have hnone := List.dropWhile_eq_nil_iff.mp hrest '.' (List.mem_reverse.mpr hdot)
    exact absurd hnone (by decide)
  | cons c more =>
    have hc := List.head?_dropWhile_not (fun x => decide (x ≠ '.')) cs.reverse
    rw [hrest] at hc hcut
    obtain rfl : c = '.' := by simpa using hc
    conv_lhs => rw [← List.reverse_reverse cs, ← hcut]
    simp only [List.reverse_append, List.reverse_cons, List.drop_succ_cons, List.drop_zero,
      List.append_assoc, List.singleton_append]

/-- Without a dot all of them stand after it. -/
theorem cut_of_no_dot {cs : List Char} (hdot : '.' ∉ cs) :
    beforeLastDot cs = [] ∧ afterLastDot cs = cs := by
  have hnot : ∀ x ∈ cs.reverse, decide (x ≠ '.') = true := fun x hx =>
    decide_eq_true fun heq => hdot (heq ▸ List.mem_reverse.mp hx)
  unfold beforeLastDot afterLastDot
  rw [List.dropWhile_eq_nil_iff.mpr hnot, List.takeWhile_eq_self_iff.mpr hnot, List.reverse_reverse]
  exact ⟨rfl, rfl⟩

namespace ClassInfo

variable {c : ClassInfo}

/-- The simple name of a class holds no dot. -/
theorem holds_simpleName (c : ClassInfo) : Text.holds c.simpleName '.' = false := by
  rw [Text.holds_eq_false_iff, simpleName, String.toList_ofList]
  exact not_mem_afterLastDot _

/-- A name with a dot is the package and the simple name with a dot between them. -/
theorem name_eq_of_dot (hdot : Text.holds c.name '.' = true) :
    c.name = c.package ++ "." ++ c.simpleName := by
  apply String.toList_inj.mp
  simp only [package, simpleName, String.toList_append, String.toList_ofList, List.append_assoc]
  exact eq_cut_of_dot (List.contains_iff_mem.mp hdot)

/-- A name without a dot is a simple name. -/
theorem name_eq_of_no_dot (hdot : Text.holds c.name '.' = false) :
    c.package = "" ∧ c.simpleName = c.name := by
  obtain ⟨hbefore, hafter⟩ := cut_of_no_dot (Text.holds_eq_false_iff.mp hdot)
  rw [package, simpleName, hbefore, hafter, String.ofList_toList]
  exact ⟨rfl, rfl⟩

/-- If no piece of a name is empty, its segments are those of the package and the simple name, and
the package is its segments with dots between them. -/
theorem segments_name (hname : "" ∉ Text.pieces '.' c.name) :
    Text.segments '.' c.name = Text.segments '.' c.package ++ [c.simpleName] ∧
      Text.joined "." (Text.segments '.' c.package) = c.package := by
  have hsimple := Text.pieces_of_holds_eq_false (holds_simpleName c)
  unfold Text.segments
  cases hdot : Text.holds c.name '.' with
  | true =>
    have hpieces : Text.pieces '.' c.name = Text.pieces '.' c.package ++ [c.simpleName] := by
      conv_lhs => rw [name_eq_of_dot hdot]
      rw [Text.pieces_append rfl, hsimple]
    have hall : ∀ part ∈ Text.pieces '.' c.name, decide (part ≠ "") = true :=
      fun part hpart => decide_eq_true fun heq => hname (heq ▸ hpart)
    have hpackage : (Text.pieces '.' c.package).filter (· ≠ "") = Text.pieces '.' c.package := by
      refine List.filter_eq_self.mpr fun part hpart => hall part ?_
      rw [hpieces]
      exact List.mem_append_left _ hpart
    rw [List.filter_eq_self.mpr hall, hpackage, hpieces]
    exact ⟨rfl, Text.joined_pieces rfl c.package⟩
  | false =>
    obtain ⟨hpackage, hself⟩ := name_eq_of_no_dot hdot
    rw [← hself, hsimple] at hname ⊢
    rw [hpackage]
    have hne : c.simpleName ≠ "" := fun heq => hname (by simp [heq])
    exact ⟨by simp [hne]; decide, by decide⟩

end ClassInfo

/-! ## The head of a listing -/

namespace JavaSource

/-- The package line of a class has the segments of the package, with dots between them. -/
theorem packageLines_eq {c : ClassInfo} (hname : "" ∉ Text.pieces '.' c.name) :
    packageLines c = if Text.segments '.' c.package = [] then []
      else ["package " ++ Text.joined "." (Text.segments '.' c.package) ++ ";", ""] := by
  obtain ⟨-, hjoined⟩ := c.segments_name hname
  have hnone : c.package = "" ↔ Text.segments '.' c.package = [] := by
    constructor
    · intro hempty
      rw [hempty]
      decide
    · intro hnil
      rw [← hjoined, hnil]
      rfl
  unfold packageLines
  rw [hjoined]
  simp only [hnone]

/-- A listing begins with the package and the annotations, and then the class is declared under its
simple name. -/
theorem exists_lines_eq (s : Selection) (c : ClassInfo) : ∃ supers rest,
    lines s c = s.showing .classDetails (packageLines c) ++
      s.showing .classAnnotations (c.annotations.map ("@" ++ ·)) ++
      s.showing .className [Text.joined " " (modifiers (Kind.ofFlags c.accessFlags) c.accessFlags ++
        [(Kind.ofFlags c.accessFlags).keyword, c.simpleName] ++ supers) ++ " \x7b"] ++ rest := by
  obtain ⟨supers, hdeclaration⟩ : ∃ supers, declaration s c =
      Text.joined " " (modifiers (Kind.ofFlags c.accessFlags) c.accessFlags ++
        [(Kind.ofFlags c.accessFlags).keyword, c.simpleName] ++ supers) := ⟨_, rfl⟩
  refine ⟨supers, memberLines s c ++ s.showing .className ["\x7d"] ++ [""], ?_⟩
  rw [lines_eq, preambleLines, hdeclaration]
  simp only [List.append_assoc]

end JavaSource

/-! ## Class names and path names -/

namespace Router

variable {r : Router} {h h' : Host} {D p p' : PathName} {className className' : String}

/-- Path names of classes are the same exactly for names with the same segments. -/
theorem pathFor_eq_iff (hdir : r.directory = some D) (hpath : r.pathFor h className = .ok p)
    (hpath' : r.pathFor h' className' = .ok p') :
    p = p' ↔ Text.segments '.' className = Text.segments '.' className' := by
  obtain ⟨-, -, rfl⟩ := eq_append_of_pathFor hdir hpath
  obtain ⟨-, -, rfl⟩ := eq_append_of_pathFor hdir hpath'
  rw [PathName.mk.injEq, and_iff_right rfl, List.append_cancel_left_eq,
    List.append_cancel_right_eq]
  exact (fileParts_inj _).eq_iff

/-- With an extension that begins with a dot no file of a class is a directory for another one. -/
theorem not_isAbove (hdir : r.directory = some D) (hextension : r.extension.toList.head? = some '.')
    (hpath : r.pathFor h className = .ok p) (hpath' : r.pathFor h' className' = .ok p') :
    ¬p.IsAbove p' := by
  obtain ⟨hne, hparts, rfl⟩ := eq_append_of_pathFor hdir hpath
  obtain ⟨hne', hparts', rfl⟩ := eq_append_of_pathFor hdir hpath'
  rintro ⟨-, hprefix, hdiffers⟩
  rw [fileParts_eq hne, fileParts_eq hne'] at hprefix hdiffers
  dsimp only at hprefix
  rw [List.prefix_append_right_inj] at hprefix
  obtain ⟨more, hmore⟩ := hprefix
  have hinit : ∀ {parts : List String}, (∀ part ∈ parts, IsSafePart part) →
      ∀ part ∈ parts.dropLast, Text.holds part '.' = false :=
    fun h part hpart => (h part (List.dropLast_subset _ hpart)).no_dot
  have hlast : ∀ last : String, Text.holds (last ++ namePart r.extension) '.' = true := by
    intro last
    rw [Text.holds_append, holds_namePart hextension, Bool.or_true]
  -- The first name with a dot is the last one before the slash, in both.
  simp only [List.append_assoc, List.singleton_append] at hmore
  obtain ⟨hdirectories, hfile⟩ := Text.append_inj_of_cut
    (p := fun part => !Text.holds part '.') (by simpa using hinit hparts)
    (by simpa using hlast _) (by simpa using hinit hparts') (by simpa using hlast _) hmore
  obtain ⟨hname, hrest⟩ := List.cons.inj hfile
  obtain rfl : more = [] := by simpa using hrest
  exact hdiffers (by rw [hdirectories, hname])

/-- The file of a class whose name has no empty segments lies in the directories of its package and
has its simple name. -/
theorem pathFor_eq_package (hdir : r.directory = some D) {c : ClassInfo}
    (hpath : r.pathFor h c.name = .ok p) (hname : "" ∉ Text.pieces '.' c.name) :
    p = D.joinAll (Text.segments '.' c.package ++ [c.simpleName ++ r.extension]) ∧
      (Text.holds r.extension '/' = false → p = ⟨D.root,
        D.parts ++ Text.segments '.' c.package ++ [c.simpleName ++ r.extension]⟩) := by
  obtain ⟨hsegments, -⟩ := c.segments_name hname
  have hfile : ∀ extension, fileParts extension (Text.segments '.' c.name) =
      Text.segments '.' c.package ++ [c.simpleName ++ extension] := by
    intro extension
    rw [hsegments, fileParts_eq (by simp), List.dropLast_concat, List.getLast_concat]
  constructor
  · obtain ⟨-, -, hp, -⟩ := of_pathFor_eq_ok hdir hpath
    rw [hp, pathIn, hfile]
  · intro hslash
    obtain ⟨-, -, hp⟩ := eq_append_of_pathFor hdir hpath
    obtain ⟨hnamePart, hfurther⟩ := namePart_of_slashFree hslash
    rw [hp, hnamePart, hfurther, hfile, List.append_nil, List.append_assoc]

/-- Class names and the path names of their files. Two names have the same path name exactly if
their segments that are not empty are the same, and with an extension that begins with a dot no path
name is above another one. A name without empty segments has its file in the directories of its
package under its simple name, and the package line of the Java listing, if there is one, and the
declaration of the class say the same package and simple name. -/
theorem class_paths (hdir : r.directory = some D) :
    (∀ h h' className className' p p', r.pathFor h className = .ok p →
      r.pathFor h' className' = .ok p' →
        (p = p' ↔ Text.segments '.' className = Text.segments '.' className')) ∧
    (r.extension.toList.head? = some '.' → ∀ h h' className className' p p',
      r.pathFor h className = .ok p → r.pathFor h' className' = .ok p' → ¬p.IsAbove p') ∧
    ∀ h (c : ClassInfo) p, r.pathFor h c.name = .ok p → "" ∉ Text.pieces '.' c.name →
      let packages := Text.segments '.' c.package
      let kind := JavaSource.Kind.ofFlags c.accessFlags
      p = D.joinAll (packages ++ [c.simpleName ++ r.extension]) ∧
        (Text.holds r.extension '/' = false →
          p = ⟨D.root, D.parts ++ packages ++ [c.simpleName ++ r.extension]⟩) ∧
        c.name = Text.joined "." (packages ++ [c.simpleName]) ∧
        ∀ s, ∃ supers rest, Writer.java.lines s c =
          s.showing .classDetails (if packages = [] then []
            else ["package " ++ Text.joined "." packages ++ ";", ""]) ++
          s.showing .classAnnotations (c.annotations.map ("@" ++ ·)) ++
          s.showing .className [Text.joined " " (JavaSource.modifiers kind c.accessFlags ++
            [kind.keyword, c.simpleName] ++ supers) ++ " \x7b"] ++ rest := by
  refine ⟨fun _ _ _ _ _ _ => pathFor_eq_iff hdir,
    fun hextension _ _ _ _ _ _ => not_isAbove hdir hextension, ?_⟩
  intro h c p hpath hname packages kind
  obtain ⟨hjoined, hslashFree⟩ := pathFor_eq_package hdir hpath hname
  obtain ⟨hsegments, -⟩ := c.segments_name hname
  refine ⟨hjoined, hslashFree, ?_, fun s => ?_⟩
  · have hall : Text.segments '.' c.name = Text.pieces '.' c.name :=
      List.filter_eq_self.mpr fun part hpart => decide_eq_true fun heq => hname (heq ▸ hpart)
    rw [← hsegments, hall, Text.joined_pieces rfl]
  · obtain ⟨supers, rest, hlines⟩ := JavaSource.exists_lines_eq s c
    rw [JavaSource.packageLines_eq hname] at hlines
    exact ⟨supers, rest, hlines⟩

/-- A name without empty segments and one with some have one file, and other classes of the package
have other files. -/
theorem class_paths_package :
    let r := start ".java" (some ⟨.relative, ["out"]⟩)
    let c : ClassInfo := ⟨"a.b.C", 1, none, [], none, [], [], []⟩
    let p : PathName := ⟨.relative, ["out", "a", "b", "C.java"]⟩
    r.pathFor .withContainer c.name = .ok p ∧ r.pathFor .withContainer ".a..b.C." = .ok p ∧
      (∀ p', r.pathFor .withContainer "a.b.C.java" = .ok p' → p' ≠ p ∧ ¬p.IsAbove p') ∧
      ∀ s, s.shows .classDetails = true →
        (Writer.java.lines s c).head? = some "package a.b;" := by
  intro r c p
  have haccepted : ∀ className, ¬IsUnsafe className → Text.holds className '\x00' = false →
      r.pathFor .withContainer className = .ok ⟨.relative,
        ["out"] ++ fileParts ".java" (Text.segments '.' className)⟩ := fun className hsafe hzero =>
    pathFor_of_linkFreeBelow rfl (by decide)
      (Host.not_overlooks_of_linkFree Host.linkFree_withContainer _) Host.place_out
      (Host.linkFree_withContainer.below ["out"]) hsafe
      (hasNul_eq_false Host.place_out (by decide) hzero)
  obtain ⟨hsame, habove, hpackage⟩ := class_paths (r := r) (D := ⟨.relative, ["out"]⟩) rfl
  have hname : r.pathFor .withContainer c.name = .ok p :=
    haccepted "a.b.C" (by decide) (by decide)
  have hother := haccepted ".a..b.C." (by decide) (by decide)
  have heq := (hsame _ _ _ _ _ _ hname hother).mpr (by decide)
  refine ⟨hname, heq ▸ hother, fun p' hp' => ⟨?_, ?_⟩, fun s hdetails => ?_⟩
  · exact fun hp => absurd ((hsame _ _ _ _ _ _ hp' hname).mp hp) (by decide)
  · exact habove (by decide) _ _ _ _ _ _ hname hp'
  · obtain ⟨-, -, -, hlines⟩ := hpackage _ c p hname (by decide)
    obtain ⟨supers, rest, heq⟩ := hlines s
    have hpackages : Text.segments '.' c.package = ["a", "b"] := by decide
    rw [heq, Selection.showing, if_pos hdetails, hpackages]
    rfl

end Router

end DexListing
