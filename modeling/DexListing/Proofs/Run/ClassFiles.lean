import DexListing.Proofs.File.LinkFree
import DexListing.Proofs.Run.Console
import DexListing.Proofs.Run.Retaining

/-!
# The file of a class

On a host without links the path name of the file of a class does not depend on what has been
written before (`Router.pathFor_of_linkFree`). Writing a class that has one puts its text there and
makes the directories between the output directory and the file, and this is all that it does
(`Router.write_wrote`). A class either is written so, or is passed over and changes nothing
(`Dump.dumpClass_eq_ok`).
-/

set_option autoImplicit false

namespace DexListing

variable {h h' : Host} {D : PathName} {root : Location}

/-! ## The path name -/

namespace Router

/-- The path name of the file of a class is the same on all hosts without links that have one
working directory. -/
theorem pathFor_of_linkFree {r r' : Router} (hdir : r'.directory = r.directory)
    (hextension : r'.extension = r.extension) (hfree : h.tree.LinkFree)
    (hfree' : h'.tree.LinkFree) (hworking : h'.workingDirectory = h.workingDirectory)
    (className : String) : r'.pathFor h' className = r.pathFor h className := by
  have hreal := Host.realPath_of_linkFree hfree hfree' hworking
  unfold pathFor pathIn
  rw [hdir, hextension]
  simp only [hreal]

/-- The file of a class has the extension of the router. -/
theorem suffix_of_pathFor {r : Router} {className : String} {path : PathName}
    (hdir : r.directory = some D) {extension : List Char}
    (hr : r.extension.toList = '.' :: extension) (hne : extension ≠ [])
    (hdot : '.' ∉ extension) (hslash : Text.holds r.extension '/' = false)
    (hpath : r.pathFor h className = .ok path) : path.suffix = r.extension := by
  obtain ⟨hsegments, hsafe, rfl, -⟩ := of_pathFor_eq_ok hdir hpath
  have hlast := (Text.mem_segments.mp (List.getLast_mem hsegments)).2
  have hbase : ((Text.segments '.' className).getLast hsegments).toList ≠ [] :=
    String.toList_eq_nil_iff.not.mpr hlast
  rw [pathIn_eq hslash D hsafe]
  unfold PathName.suffix PathName.name
  dsimp only
  rw [fileParts_eq hsegments, ← List.append_assoc, List.getLast?_concat, Option.getD_some,
    String.toList_append, hr, PathName.suffixOf_append hbase hne hdot, ← hr, String.ofList_toList]

end Router

/-! ## Writing it -/

/-- A file has been written under names below a root: it has its content, there are directories
from the root down to it, and everything else is as before. -/
structure Host.Wrote (h h' : Host) (root : Location) (names : List String) (content : Bytes) :
    Prop where
  keeps : h.Keeps h'
  get? : ∀ l, h'.tree.get? l =
    if l = root ++ names then some (.file content)
    else if root <+: l ∧ l <+: root ++ names then some .directory
    else h.tree.get? l

namespace Host.Wrote

variable {h h' : Host} {root : Location} {names : List String} {content : Bytes}

/-- A file that stands somewhere else is left alone: it is not on the way either, where directories
are. -/
theorem get?_of_file (hwrote : h.Wrote h' root names content) {others : List String}
    {other : Bytes} (hfile : h.tree.get? (root ++ others) = some (.file other))
    (hne : others ≠ names) : h'.tree.get? (root ++ others) = some (.file other) := by
  obtain ⟨now, hkept⟩ := hwrote.keeps.files _ _ hfile
  have hget := hwrote.get? (root ++ others)
  rw [if_neg fun heq => hne (List.append_cancel_left heq)] at hget
  have hoff : ¬(root <+: root ++ others ∧ root ++ others <+: root ++ names) := by
    intro hway
    rw [if_pos hway, hkept] at hget
    exact nomatch hget
  rw [hget, if_neg hoff, hfile]

/-- A location is as it was, or it is that of the file, or a new directory is there on the way to
the file. That no directory takes the place of a file is because every node keeps its kind. -/
theorem frame (hwrote : h.Wrote h' root names content) (hfree : h.tree.LinkFree) (l : Location) :
    h'.tree.get? l = h.tree.get? l ∨ l = root ++ names ∨
      (h.tree.get? l = none ∧ h'.tree.get? l = some .directory ∧ root <+: l ∧
        l <+: root ++ names) := by
  have hget := hwrote.get? l
  by_cases hat : l = root ++ names
  · exact Or.inr (Or.inl hat)
  rw [if_neg hat] at hget
  by_cases hway : root <+: l ∧ l <+: root ++ names
  · rw [if_pos hway] at hget
    cases hbefore : h.tree.get? l with
    | none => exact Or.inr (Or.inr ⟨rfl, hget, hway⟩)
    | some node =>
      cases node with
      | directory => exact Or.inl hget
      | link target => exact absurd hbefore (hfree l target)
      | file old =>
        obtain ⟨now, hkept⟩ := hwrote.keeps.files l old hbefore
        rw [hget] at hkept
        exact nomatch hkept
  · rw [if_neg hway] at hget
    exact Or.inl hget

end Host.Wrote

namespace Router

/-- A text that has been written to a file was stored after the directories above it had been
made. -/
theorem toFile_eq_ok {r : Router} {s : Session} {className text : String} {path : PathName}
    (hdone : (r.toFile s className path ⟨text, none⟩).outcome = .ok ()) :
    ∃ made, s.host.ensureDirectories path.parent = (made, .ok ()) ∧
      made.storeContent path (Text.utf8OfText text).toArray =
        .ok (r.toFile s className path ⟨text, none⟩).session.host := by
  unfold toFile at hdone ⊢
  cases hensure : s.host.ensureDirectories path.parent with
  | mk made outcome =>
    rw [hensure] at hdone
    cases outcome with
    | error e => exact nomatch hdone
    | ok _ =>
      dsimp only at hdone ⊢
      cases hstore : made.storeContent path (Text.utf8OfText text).toArray with
      | error e =>
        rw [hstore] at hdone
        exact nomatch hdone
      | ok stored => exact ⟨made, rfl, hstore⟩

/-- Writing the text of a class, if it succeeds, writes a file at the path name of the class. -/
theorem write_wrote {r : Router} {s : Session} (hdir : r.directory = some D)
    (hslash : Text.holds r.extension '/' = false) (hfree : s.host.tree.LinkFreeBelow root)
    (hthere : s.host.place .target D = .ok (.existing root .directory)) {className text : String}
    {path : PathName} (hpath : r.pathFor s.host className = .ok path)
    (hdone : (r.write s className ⟨text, none⟩).outcome = .ok ()) :
    ∃ names, path = ⟨D.root, D.parts ++ names⟩ ∧
      s.host.Wrote (r.write s className ⟨text, none⟩).session.host root names
        (Text.utf8OfText text).toArray ∧
      (r.write s className ⟨text, none⟩).session.host.place .target path =
        .ok (.existing (root ++ names) (.file (Text.utf8OfText text).toArray)) := by
  have hkeeps := r.write_keeps s className ⟨text, none⟩
  obtain ⟨names, rfl, hne, hnames⟩ := names_of_pathFor hdir (not_up_of_slashFree hslash) hpath
  refine ⟨names, rfl, ?_⟩
  unfold write at hdone hkeeps ⊢
  rw [hdir] at hdone hkeeps ⊢
  dsimp only at hdone hkeeps ⊢
  rw [hpath] at hdone hkeeps ⊢
  dsimp only at hdone hkeeps ⊢
  obtain ⟨made, hensure, hstore⟩ := toFile_eq_ok hdone
  -- The directories above the file are the output directory and the names above the last one.
  have hparent : (PathName.mk D.root (D.parts ++ names)).parent =
      ⟨D.root, D.parts ++ names.dropLast⟩ :=
    congrArg (PathName.mk D.root) (List.dropLast_append_of_ne_nil hne)
  rw [hparent] at hensure
  unfold Host.ensureDirectories at hensure
  dsimp only at hensure
  rw [List.length_append] at hensure
  have hgrows : s.host.GrowsBelow [] made := by
    have hensured := Host.Keeps.ensureParts s.host D.root (D.parts ++ names.dropLast)
      (D.parts.length + names.dropLast.length)
    rw [hensure] at hensured
    exact hensured.grows
  have hmade : ∀ l, made.tree.get? l =
      if root <+: l ∧ l <+: root ++ names.dropLast then some .directory
      else s.host.tree.get? l := by
    intro l
    have hnames' : ∀ name ∈ names.dropLast, IsName name :=
      fun name hname => hnames name (List.dropLast_subset names hname)
    have hget := Host.ensureParts_get? hfree hthere hnames' (Nat.le_refl _) hensure l
    rwa [List.take_length] at hget
  obtain ⟨hget, hplace⟩ := Host.storeContent_get? (hgrows.linkFreeBelow hfree)
    (hgrows.place_directory hthere) hnames hstore
  refine ⟨⟨hkeeps, ?_⟩, hplace⟩
  intro l
  rw [hget, hmade]
  by_cases hl : l = root ++ names
  · rw [if_pos hl, if_pos hl]
  · have hlast : root ++ names = root ++ names.dropLast ++ [names.getLast hne] := by
      rw [List.append_assoc, List.dropLast_concat_getLast]
    have hbetween : l <+: root ++ names ↔ l <+: root ++ names.dropLast := by
      rw [hlast, List.prefix_concat_iff, ← hlast]
      exact ⟨fun hor => hor.resolve_left hl, Or.inr⟩
    rw [if_neg hl, if_neg hl]
    simp only [hbetween]

end Router

/-! ## One class of a dump -/

/-- A failure to make directories or to write a file is not one of the class. -/
theorem Failure.isA_unsafeOutput_file (e : FileError) :
    (Failure.file e).isA .unsafeOutput = false := rfl

namespace Dump

variable {config : Config} {writer : Writer} {d d' : Dump} {c : ClassInfo}

/-- A class that does not end a dump into a directory has been written to its file, or it has been
passed over: then it does not match or has no file, and the host is as before. -/
theorem dumpClass_eq_ok {written : Bool} (hdir : d.router.directory = some D)
    (hclass : dumpClass config writer d c = (.ok written, d')) :
    (written = true ∧ config.selects c = true ∧
      (∃ path, d.router.pathFor d.session.host c.name = .ok path) ∧
      (d.router.write d.session c.name ⟨writer.render config.selection c, none⟩).outcome = .ok () ∧
      d'.session.host = (d.router.write d.session c.name
        ⟨writer.render config.selection c, none⟩).session.host) ∨
    (written = false ∧
      (config.selects c = true → ∃ f, d.router.pathFor d.session.host c.name = .error f) ∧
      d'.session.host = d.session.host) := by
  unfold dumpClass at hclass
  by_cases hselects : config.selects c = true
  · have haccepts := hselects
    unfold Config.selects at haccepts
    rw [if_pos haccepts] at hclass
    dsimp only at hclass
    split at hclass
    · next hdone =>
      obtain ⟨hwritten, rfl⟩ := Prod.mk.inj hclass
      refine Or.inl ⟨(Except.ok.inj hwritten).symm, hselects, ?_, hdone, rfl⟩
      unfold Router.write at hdone
      rw [hdir] at hdone
      dsimp only at hdone
      split at hdone
      · exact nomatch hdone
      · next path hpath => exact ⟨path, hpath⟩
    · next f hfailed =>
      split at hclass
      · next hunsafe =>
        obtain ⟨hwritten, rfl⟩ := Prod.mk.inj hclass
        -- Only the lack of a path name is a failure of this kind.
        obtain ⟨e, hpath⟩ : ∃ e, d.router.pathFor d.session.host c.name = .error e := by
          unfold Router.write at hfailed
          rw [hdir] at hfailed
          dsimp only at hfailed
          split at hfailed
          · next e hpath => exact ⟨e, hpath⟩
          · unfold Router.toFile at hfailed
            split at hfailed
            · obtain rfl := Except.error.inj hfailed
              rw [Failure.isA_unsafeOutput_file] at hunsafe
              exact nomatch hunsafe
            · split at hfailed
              · obtain rfl := Except.error.inj hfailed
                rw [Failure.isA_unsafeOutput_file] at hunsafe
                exact nomatch hunsafe
              · exact nomatch hfailed
        refine Or.inr ⟨(Except.ok.inj hwritten).symm, fun _ => ⟨e, hpath⟩, ?_⟩
        unfold Router.write
        rw [hdir]
        dsimp only
        rw [hpath]
        rfl
      · exact nomatch (Prod.mk.inj hclass).1
  · have hrejects := hselects
    unfold Config.selects at hrejects
    rw [if_neg hrejects] at hclass
    obtain ⟨hwritten, rfl⟩ := Prod.mk.inj hclass
    exact Or.inr ⟨(Except.ok.inj hwritten).symm, fun h => absurd h hselects, rfl⟩

end Dump

end DexListing
