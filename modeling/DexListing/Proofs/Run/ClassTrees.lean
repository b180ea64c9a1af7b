import DexListing.Proofs.Dalvik.Truncation
import DexListing.Proofs.File.Subdirectories
import DexListing.Proofs.Run.ClassFiles

/-!
# Classes do not block each other

The directories for the packages of classes hold no dot in their names, and the files for classes do
hold one, the first of their extension. So below an output directory that was empty at first no name
is taken by a file where a directory is needed, nor the other way round: every class that has a
path name can be written, whatever has been written before (`Router.write_eq_ok_or_refused`).

What carries this over the classes is that files and directories can be told apart by their names
(`FileTree.Separated`): then nothing stands in the way of directories without dots
(`FileTree.Separated.clear`), and writing one more class keeps it so (`Host.Wrote.separated`).
-/

set_option autoImplicit false

namespace DexListing

/-! ## Files and directories apart -/

/-- Below a root the entries with a dot in their names are files, and the others are
directories. -/
def FileTree.Separated (t : FileTree) (root : Location) : Prop :=
  ∀ here name node, root <+: here → t.get? (here ++ [name]) = some node →
    (Text.holds name '.' = false ∧ node = .directory) ∨
      (Text.holds name '.' = true ∧ ∃ content, node = .file content)

namespace FileTree

variable {t : FileTree} {root : Location}

/-- Below an empty directory there is nothing to mix up. -/
theorem Separated.of_empty (hempty : ∀ name, t.get? (root ++ [name]) = none) :
    t.Separated root := by
  rintro _ name node ⟨more, rfl⟩ hnode
  have hnone : t.get? (root ++ more ++ [name]) = none := by
    cases more with
    | nil => rw [List.append_nil, hempty]
    | cons first more =>
      rw [List.append_assoc, List.cons_append, List.append_cons]
      exact get?_append_of_none (hempty first) (more ++ [name])
  rw [hnone] at hnode
  exact nomatch hnode

/-- Where directories and files of classes are kept apart, there are no links. -/
theorem Separated.linkFreeBelow (h : t.Separated root) (hroot : t.get? root = some .directory) :
    t.LinkFreeBelow root := by
  rintro _ target ⟨more, rfl⟩ hlink
  rcases List.eq_nil_or_concat' more with rfl | ⟨init, name, rfl⟩
  · rw [List.append_nil, hroot] at hlink
    exact nomatch hlink
  · rw [← List.append_assoc] at hlink
    rcases h _ name _ (List.prefix_append root init) hlink with ⟨-, hnode⟩ | ⟨-, content, hnode⟩
    · exact nomatch hnode
    · exact nomatch hnode

/-- Nothing is in the way of names without a dot. -/
theorem Separated.clear (h : t.Separated root) (hroot : t.get? root = some .directory)
    {names : List String} (hnames : ∀ name ∈ names, Text.holds name '.' = false) :
    t.Clear root names := by
  intro above habove
  rcases List.eq_nil_or_concat' above with rfl | ⟨init, name, rfl⟩
  · rw [List.append_nil]
    exact Or.inr hroot
  · cases hnode : t.get? (root ++ (init ++ [name])) with
    | none => exact Or.inl rfl
    | some node =>
      rw [← List.append_assoc] at hnode
      have hname := hnames name (habove.subset (List.mem_append_right init List.mem_cons_self))
      rcases h _ name _ (List.prefix_append root init) hnode with ⟨-, rfl⟩ | ⟨hdot, -⟩
      · exact Or.inr rfl
      · rw [hname] at hdot
        exact nomatch hdot

/-- What is found under a name with a dot is a file. -/
theorem Separated.file (h : t.Separated root) {names : List String} {last : String}
    (hlast : Text.holds last '.' = true) {node : Node}
    (hnode : t.get? (root ++ (names ++ [last])) = some node) : ∃ content, node = .file content := by
  rw [← List.append_assoc] at hnode
  rcases h _ last node (List.prefix_append root names) hnode with ⟨hdot, -⟩ | ⟨-, hfile⟩
  · rw [hlast] at hdot
    exact nomatch hdot
  · exact hfile

end FileTree

/-- One more file with a dot in its name, below directories without, keeps files and directories
apart. -/
theorem Host.Wrote.separated {h h' : Host} {root : Location} {names : List String} {last : String}
    {content : Bytes} (hwrote : h.Wrote h' root (names ++ [last]) content)
    (hseparated : h.tree.Separated root) (hnames : ∀ name ∈ names, Text.holds name '.' = false)
    (hlast : Text.holds last '.' = true) : h'.tree.Separated root := by
  intro here name node hhere hnode
  rw [hwrote.get?, ← List.append_assoc] at hnode
  split at hnode
  · next hat =>
    obtain ⟨-, hname⟩ := List.append_inj' hat rfl
    obtain rfl := List.singleton_inj.mp hname
    exact Or.inr ⟨hlast, content, (Option.some.inj hnode).symm⟩
  · next hoff =>
    split at hnode
    · next hway =>
      -- A location strictly between the root and the file ends in one of the names above it.
      have habove := (List.prefix_concat_iff.mp hway.2).resolve_left hoff
      obtain ⟨more, rfl⟩ := hhere
      rw [List.append_assoc, List.prefix_append_right_inj] at habove
      have hname := hnames name (habove.subset (List.mem_append_right more List.mem_cons_self))
      exact Or.inl ⟨hname, (Option.some.inj hnode).symm⟩
    · exact hseparated here name node hhere hnode

/-! ## Class names and extensions -/

namespace Router

/-- A class name that makes no path below a directory: it has no segments, or it holds a slash. -/
def IsUnsafe (className : String) : Prop :=
  Text.segments '.' className = [] ∨ Text.holds className '/' = true

instance (className : String) : Decidable (IsUnsafe className) :=
  inferInstanceAs (Decidable (_ ∨ _))

/-- An extension of file names: it begins with a dot, and it can be part of a name. -/
structure IsExtension (extension : String) : Prop where
  dot : extension.toList.head? = some '.'
  noSlash : Text.holds extension '/' = false
  noNul : Text.holds extension '\x00' = false

/-- The system takes the path name of the file of a class below a directory: the class name holds no
zero character, and neither the parts of the path name nor the whole of it are too long. -/
structure Fits (extension : String) (directory : PathName) (className : String) : Prop where
  noNul : Text.holds className '\x00' = false
  names : ∀ name ∈ fileParts extension (Text.segments '.' className),
    name.utf8ByteSize ≤ maxNameBytes
  path : (directory.joinAll (fileParts extension (Text.segments '.' className))).text.utf8ByteSize <
    maxPathBytes

/-- An extension has a dot. -/
theorem IsExtension.holds_dot {extension : String} (h : IsExtension extension) :
    Text.holds extension '.' = true := by
  unfold Text.holds
  rw [List.contains_iff_mem]
  exact List.mem_of_mem_head? h.dot

/-- A class name is unsafe if it has no segments or a segment holds a slash. -/
theorem isUnsafe_iff (className : String) : IsUnsafe className ↔
    Text.segments '.' className = [] ∨
      ((Text.segments '.' className).any fun part => Text.holds part '/') = true := by
  have hdot : '/' ≠ '.' := by decide
  unfold IsUnsafe
  rw [Text.holds_iff_segments hdot, List.any_eq_true]

/-- The path of a file consists of names without a dot and of one with a dot. -/
theorem exists_fileParts_eq {extension : String} (hextension : IsExtension extension)
    {className : String} (hsegments : Text.segments '.' className ≠ []) :
    ∃ names last, fileParts extension (Text.segments '.' className) = names ++ [last] ∧
      (∀ name ∈ names, Text.holds name '.' = false) ∧ Text.holds last '.' = true := by
  refine ⟨_, _, fileParts_eq hsegments, ?_, ?_⟩
  · intro name hname
    have hsegment := Text.mem_segments.mp (List.dropLast_subset _ hname)
    exact Text.holds_eq_false_of_mem_pieces hsegment.1
  · rw [Text.holds_append, hextension.holds_dot, Bool.or_true]

/-! ## The path name of a class -/

section PathNames

variable {r : Router} {h : Host} {D : PathName} {root : Location} {className : String}

/-- A class with an unsafe name has no path name. -/
theorem pathFor_refused (hdir : r.directory = some D) (hrefused : IsUnsafe className) :
    r.pathFor h className = .error (.output (.unsafeName className)) := by
  unfold pathFor
  rw [hdir]
  dsimp only
  rw [if_pos ((isUnsafe_iff className).mp hrefused)]

/-- The path name of a class with a safe name is checked for where it leads. -/
theorem pathFor_of_safe (hdir : r.directory = some D)
    (hslash : Text.holds r.extension '/' = false)
    (hD : ¬h.Overlooks D) (hthere : h.place .target D = .ok (.existing root .directory))
    (hsafe : ¬IsUnsafe className) :
    r.pathFor h className =
      let path : PathName :=
        ⟨D.root, D.parts ++ fileParts r.extension (Text.segments '.' className)⟩
      match h.realPath path with
      | .error e => .error (.ofResolveError e)
      | .ok location =>
        if root.isPrefixOf location then .ok path
        else .error (.output (.outside className D)) := by
  have hparts := (isUnsafe_iff className).not.mp hsafe
  unfold pathFor
  rw [hdir]
  dsimp only
  rw [if_neg hparts, Host.realPath_of_place hD hthere fun _ _ => nofun,
    pathIn_eq hslash D (by simpa using (not_or.mp hparts).2)]
  rfl

/-- The path name of a class is that of the directory with the parts of its file after it. -/
theorem eq_of_pathFor (hdir : r.directory = some D) (hslash : Text.holds r.extension '/' = false)
    {path : PathName} (hpath : r.pathFor h className = .ok path) : ¬IsUnsafe className ∧
      path = ⟨D.root, D.parts ++ fileParts r.extension (Text.segments '.' className)⟩ := by
  obtain ⟨hsegments, hsafe, rfl, -⟩ := of_pathFor_eq_ok hdir hpath
  refine ⟨?_, pathIn_eq hslash D hsafe⟩
  rw [isUnsafe_iff, not_or]
  exact ⟨hsegments, Bool.eq_false_iff.mp hsafe⟩

/-- It has no zero character if neither the class name nor the extension has one. -/
theorem hasNul_eq_false (hthere : h.place .target D = .ok (.existing root .directory))
    {extension : String} (hextension : Text.holds extension '\x00' = false)
    (hclass : Text.holds className '\x00' = false) :
    PathName.hasNul ⟨D.root, D.parts ++ fileParts extension (Text.segments '.' className)⟩ =
      false := by
  have hD := (PathName.hasNul_eq_false_iff D).mp (Host.walks_of_place hthere).1
  rw [PathName.hasNul_eq_false_iff]
  exact List.forall_mem_append.mpr ⟨hD,
    fun name hname => holds_of_mem_fileParts (by decide) hextension hclass hname⟩

/-- Below a directory without links it leads to where it is written. -/
theorem pathFor_of_linkFreeBelow (hdir : r.directory = some D)
    (hslash : Text.holds r.extension '/' = false) (hD : ¬h.Overlooks D)
    (hthere : h.place .target D = .ok (.existing root .directory))
    (hfree : h.tree.LinkFreeBelow root) (hsafe : ¬IsUnsafe className)
    (hnul : PathName.hasNul
      ⟨D.root, D.parts ++ fileParts r.extension (Text.segments '.' className)⟩ = false) :
    r.pathFor h className =
      .ok ⟨D.root, D.parts ++ fileParts r.extension (Text.segments '.' className)⟩ := by
  have hnames : ∀ name ∈ fileParts r.extension (Text.segments '.' className), IsName name :=
    fun name hname => isName_of_mem_fileParts hname
  obtain ⟨links, hfollows⟩ := Host.follows_names hfree hthere hnames
  have hwalk := (Host.walks_of_place hthere).2
  obtain ⟨links', hroot⟩ := hwalk.follows (Or.inl (by decide))
  have hsees := Host.not_overlooks_append hD hroot hnames fun above _ =>
    FileTree.linkTarget?_eq_none_iff.mpr fun target =>
      hfree (root ++ above) target (List.prefix_append root above)
  rw [pathFor_of_safe hdir hslash hD hthere hsafe]
  dsimp only
  rw [Host.realPath_of_follows hnul hsees (hwalk.crossesLink_start fun _ _ => nofun) hfollows]
  exact if_pos (List.isPrefixOf_iff_prefix.mpr (List.prefix_append root _))

end PathNames

end Router

/-! ## One class -/

namespace Router

variable {D : PathName} {root : Location} {r : Router} {s : Session} {className : String}

/-- A router writes below a directory whose files and directories are apart. -/
structure Files (D : PathName) (root : Location) (extension : String) (r : Router) (s : Session) :
    Prop where
  directory : r.directory = some D
  extension : r.extension = extension
  there : s.host.place .target D = .ok (.existing root .directory)
  seen : ¬s.host.Overlooks D
  separated : s.host.tree.Separated root

/-- The directory for the output is there. -/
theorem Files.get?_root {extension : String} (h : Files D root extension r s) :
    s.host.tree.get? root = some .directory :=
  (Host.walks_of_place h.there).2.get?_existing

/-- The path name of the file of a class that fits is one that the system takes. -/
theorem Files.usable {extension : String} (h : Files D root extension r s)
    (hextension : IsExtension extension) (hfits : Fits extension D className)
    (hpath : D.joinAll (fileParts extension (Text.segments '.' className)) =
      ⟨D.root, D.parts ++ fileParts extension (Text.segments '.' className)⟩) :
    PathName.Usable ⟨D.root, D.parts ++ fileParts extension (Text.segments '.' className)⟩ :=
  ⟨hasNul_eq_false h.there hextension.noNul hfits.noNul, hpath ▸ hfits.path⟩

/-- A class has a path name exactly if its name is safe. -/
theorem Files.pathFor (h : Files D root r.extension r s) (hextension : IsExtension r.extension)
    (hfits : ¬IsUnsafe className → Fits r.extension D className) :
    r.pathFor s.host className =
      if IsUnsafe className then .error (.output (.unsafeName className))
      else .ok ⟨D.root, D.parts ++ fileParts r.extension (Text.segments '.' className)⟩ := by
  split
  · next hrefused => exact pathFor_refused h.directory hrefused
  · next hsafe =>
    have hslash := (not_or.mp ((isUnsafe_iff className).not.mp hsafe)).2
    have hpath := pathIn_eq hextension.noSlash D (by simpa using hslash)
    have husable := h.usable hextension (hfits hsafe) hpath
    exact pathFor_of_linkFreeBelow h.directory hextension.noSlash h.seen h.there
      (h.separated.linkFreeBelow h.get?_root) hsafe husable.noNul

/-- A class with a safe name can be written. -/
theorem Files.write_of_safe (h : Files D root r.extension r s)
    (hextension : IsExtension r.extension) (hfits : Fits r.extension D className)
    (hsafe : ¬IsUnsafe className) (text : String) :
    (r.write s className ⟨text, none⟩).outcome = .ok () := by
  have hfree := h.separated.linkFreeBelow h.get?_root
  obtain ⟨hsegments, hslash⟩ := not_or.mp ((isUnsafe_iff className).not.mp hsafe)
  have hpath := h.pathFor hextension (fun _ => hfits)
  have husable := h.usable hextension hfits
    (pathIn_eq hextension.noSlash D (by simpa using hslash))
  have hentries : ∀ name ∈ fileParts r.extension (Text.segments '.' className),
      IsEntryName name :=
    fun name hname => ⟨isName_of_mem_fileParts hname, hfits.names name hname⟩
  rw [if_neg hsafe] at hpath
  obtain ⟨names, last, hparts, hnames, hlast⟩ := exists_fileParts_eq hextension hsegments
  rw [hparts] at hpath husable hentries
  have hentries' : ∀ name ∈ names, IsEntryName name :=
    fun name hname => hentries name (List.mem_append_left [last] hname)
  have husable' : PathName.Usable ⟨D.root, D.parts ++ names⟩ := by
    rw [← List.append_assoc] at husable
    exact husable.of_append
  have hclear := h.separated.clear h.get?_root hnames
  have hparent : (PathName.mk D.root (D.parts ++ (names ++ [last]))).parent =
      ⟨D.root, D.parts ++ names⟩ := by
    unfold PathName.parent
    dsimp only
    rw [← List.append_assoc, List.dropLast_concat]
  -- The directories above the file can be made.
  have hdone := Host.ensureParts_of_clear hfree h.there hclear hentries' husable' (Nat.le_refl _)
  obtain ⟨made, hensure⟩ : ∃ made,
      s.host.ensureParts D.root (D.parts ++ names) (D.parts.length + names.length) =
        (made, .ok ()) :=
    ⟨_, Prod.ext rfl hdone⟩
  have hkeeps := Host.Keeps.ensureParts s.host D.root (D.parts ++ names)
    (D.parts.length + names.length)
  rw [hensure] at hkeeps
  have hget := Host.ensureParts_get? hfree h.there (fun name hname => (hentries' name hname).isName)
    (Nat.le_refl _) hensure
  rw [List.take_length] at hget
  -- Then the file can be written.
  have hclear' : made.tree.Clear root names := by
    intro above habove
    refine Or.inr ?_
    rw [hget, if_pos ⟨List.prefix_append _ _, (List.prefix_append_right_inj root).mpr habove⟩]
  have hfile : ∀ node, made.tree.get? (root ++ (names ++ [last])) = some node →
      ∃ content, node = .file content := by
    intro node hnode
    rw [hget, if_neg] at hnode
    · exact h.separated.file hlast hnode
    · rintro ⟨-, habove⟩
      have hlength := habove.length_le
      simp only [List.length_append, List.length_singleton] at hlength
      omega
  obtain ⟨stored, hstore⟩ := Host.storeContent_of_clear (hkeeps.grows.place_directory h.there)
    hclear' (by rw [hget, if_pos ⟨List.prefix_append _ _, List.prefix_rfl⟩]) hfile hentries husable
    (Text.utf8OfText text).toArray
  unfold write
  rw [h.directory]
  dsimp only
  rw [hpath]
  dsimp only
  unfold toFile Host.ensureDirectories
  rw [hparent]
  dsimp only
  rw [List.length_append, hensure]
  dsimp only
  rw [hstore]

/-- A class with an unsafe name is refused, and nothing happens. -/
theorem Files.write_refused (h : Files D root r.extension r s)
    (hextension : IsExtension r.extension) (hrefused : IsUnsafe className) (block : Block) :
    r.write s className block = ⟨.error (.output (.unsafeName className)), "", r, s⟩ := by
  have hpath := h.pathFor hextension (fun hsafe => absurd hrefused hsafe)
  rw [if_pos hrefused] at hpath
  unfold write
  rw [h.directory]
  dsimp only
  rw [hpath]

/-- Writing one class keeps files and directories apart. -/
theorem Files.write (h : Files D root r.extension r s) (hextension : IsExtension r.extension)
    (hfits : ¬IsUnsafe className → Fits r.extension D className) (text : String) :
    Files D root r.extension (r.write s className ⟨text, none⟩).router
      (r.write s className ⟨text, none⟩).session := by
  by_cases hrefused : IsUnsafe className
  · rw [h.write_refused hextension hrefused]
    exact h
  · obtain ⟨hdirectory, hextension'⟩ := r.write_router s className ⟨text, none⟩
    have hpath := h.pathFor hextension hfits
    rw [if_neg hrefused] at hpath
    obtain ⟨written, heq, hwrote, -⟩ := write_wrote h.directory hextension.noSlash
      (h.separated.linkFreeBelow h.get?_root) h.there hpath
      (h.write_of_safe hextension (hfits hrefused) hrefused text)
    have hsegments : Text.segments '.' className ≠ [] := fun hnil => hrefused (Or.inl hnil)
    obtain ⟨names, last, hparts, hnames, hlast⟩ := exists_fileParts_eq hextension hsegments
    obtain rfl : written = names ++ [last] := by
      rw [hparts] at heq
      exact (List.append_cancel_left (PathName.mk.inj heq).2).symm
    have hgrows := hwrote.keeps.grows
    exact ⟨hdirectory.trans h.directory, hextension', hgrows.place_directory h.there,
      (hgrows.overlooks_iff D).not.mpr h.seen,
      hwrote.separated h.separated hnames hlast⟩

end Router

/-! ## Classes one after the other -/

namespace Router

/-- Writes the texts of classes one after the other, whether or not the ones before could be
written. -/
def writeAll (r : Router) (s : Session) : List (String × String) → Router × Session
  | [] => (r, s)
  | (className, text) :: rest =>
    let written := r.write s className ⟨text, none⟩
    written.router.writeAll written.session rest

variable {D : PathName} {root : Location}

/-- Writing classes keeps files and directories apart. -/
theorem Files.writeAll {extension : String} (hextension : IsExtension extension)
    {classes : List (String × String)}
    (hfits : ∀ c ∈ classes, ¬IsUnsafe c.1 → Fits extension D c.1) {r : Router} {s : Session}
    (h : Files D root extension r s) :
    Files D root extension (r.writeAll s classes).1 (r.writeAll s classes).2 := by
  induction classes generalizing r s with
  | nil => exact h
  | cons c rest ih =>
    obtain rfl := h.extension
    have hone := h.write hextension (hfits c List.mem_cons_self) c.2
    exact ih (fun c' hc' => hfits c' (List.mem_cons_of_mem c hc')) hone

/-- Below a directory that is empty at first, and on whose way no link is overlooked, whatever
classes have been written to it, the next one is written exactly if its name is safe; else it is
refused, and nothing happens. -/
theorem write_eq_ok_or_refused {r : Router} {s : Session} (hD : r.directory = some D)
    (hextension : IsExtension r.extension)
    (hthere : s.host.place .target D = .ok (.existing root .directory))
    (hsees : ¬s.host.Overlooks D) (hempty : ∀ name, s.host.tree.get? (root ++ [name]) = none)
    (earlier : List (String × String)) (className text : String)
    (hfits : ∀ c ∈ earlier ++ [(className, text)], ¬IsUnsafe c.1 → Fits r.extension D c.1) :
    let state := r.writeAll s earlier
    let written := state.1.write state.2 className ⟨text, none⟩
    (IsUnsafe className → written.outcome = .error (.output (.unsafeName className)) ∧
        written.session = state.2) ∧
      (¬IsUnsafe className → written.outcome = .ok ()) := by
  have hstart : Files D root r.extension r s := ⟨hD, rfl, hthere, hsees, .of_empty hempty⟩
  have hstate := hstart.writeAll hextension
    fun c hc => hfits c (List.mem_append_left [(className, text)] hc)
  have hlast := hfits (className, text) (List.mem_append_right earlier List.mem_cons_self)
  have hext := hstate.extension
  rw [← hext] at hstate hextension hlast
  refine ⟨?_, ?_⟩
  · intro hrefused
    rw [hstate.write_refused hextension hrefused]
    exact ⟨rfl, rfl⟩
  · intro hsafe
    exact hstate.write_of_safe hextension (hlast hsafe) hsafe text

end Router

/-- A host with a container that has one class, and with an empty directory. -/
def Host.withContainer : Host where
  tree := (FileTree.empty.put ["a.dex"] (.file Container.oneClass)).put ["out"] .directory
  workingDirectory := []
  temporaryDirectory := []
  drawn := 0

namespace Host

/-- There are no links on the host. -/
theorem linkFree_withContainer : withContainer.tree.LinkFree := by
  apply FileTree.LinkFree.put (FileTree.linkFree_empty.put _)
  · exact fun _ => nofun
  · exact fun _ => nofun

/-- The directory for the output is found. -/
theorem place_out : withContainer.place .target ⟨.relative, ["out"]⟩ =
    .ok (.existing ["out"] .directory) :=
  place_of_short (by decide) (by decide)
    (.into rfl ⟨by decide, by decide, by decide⟩ rfl (fun _ => nofun) (.arrived rfl))

/-- Nothing is in the directory of a host that has only a container besides it. -/
theorem get?_out (name : String) : withContainer.tree.get? (["out"] ++ [name]) = none := by
  have hdirectory : (FileTree.empty.put ["a.dex"] (.file Container.oneClass)).Admits ["out"]
      .directory := by decide
  have hfile : FileTree.empty.Admits ["a.dex"] (.file Container.oneClass) := by decide
  unfold withContainer
  dsimp only
  rw [FileTree.get?_put _ hdirectory, if_neg (by simp), FileTree.get?_put _ hfile,
    if_neg (by simp)]
  rfl

end Host

namespace Router

/-- A class and a package of the same name can both be written, and so can a class with the name of
the package that they are in. -/
theorem write_eq_ok_or_refused_package :
    let r := Router.start ".java" (some ⟨.relative, ["out"]⟩)
    let state := r.writeAll (.start .withContainer) [("a.b", "one"), ("a.b.c", "two")]
    (state.1.write state.2 "a" ⟨"three", none⟩).outcome = .ok () := by
  refine (write_eq_ok_or_refused rfl ⟨by decide, by decide, by decide⟩ Host.place_out
    (Host.not_overlooks_of_linkFree Host.linkFree_withContainer _) Host.get?_out
    [("a.b", "one"), ("a.b.c", "two")] "a" "three" ?_).2 (by decide)
  intro c hc
  simp only [List.cons_append, List.nil_append, List.mem_cons, List.not_mem_nil, or_false] at hc
  rcases hc with rfl | rfl | rfl
  · exact fun _ => ⟨by decide, by decide, by decide⟩
  · exact fun _ => ⟨by decide, by decide, by decide⟩
  · exact fun _ => ⟨by decide, by decide, by decide⟩

/-- An extension that begins with a dot but is not part of one name: it leads from the file back to
the output directory, which cannot be written as a file; or the system does not take it at all. -/
theorem write_odd_extension :
    Host.withContainer.place .target ⟨.relative, ["out"]⟩ = .ok (.existing ["out"] .directory) ∧
      (∀ name, Host.withContainer.tree.get? (["out"] ++ [name]) = none) ∧
      (∀ extension ∈ ["./..", ".\x00"], extension.toList.head? = some '.' ∧
        Fits extension ⟨.relative, ["out"]⟩ "C") ∧
      ¬IsUnsafe "C" ∧
      ((Router.start "./.." (some ⟨.relative, ["out"]⟩)).write (.start .withContainer) "C"
          ⟨"one", none⟩).outcome =
        .error (.file (.refused .isDirectory ⟨.relative, ["out", "C.", ".."]⟩)) ∧
      ((Router.start ".\x00" (some ⟨.relative, ["out"]⟩)).write (.start .withContainer) "C"
          ⟨"one", none⟩).outcome = .error (.file .embeddedNul) := by
  have hsegments : Text.segments '.' "C" = ["C"] := by decide
  refine ⟨Host.place_out, Host.get?_out, ?_, by decide, ?_, ?_⟩
  · intro extension hextension
    simp only [List.mem_cons, List.not_mem_nil, or_false] at hextension
    rcases hextension with rfl | rfl
    · exact ⟨by decide, by decide, by decide, by decide⟩
    · exact ⟨by decide, by decide, by decide, by decide⟩
  · have hpath : (PathName.mk .relative ["out"]).joinAll (fileParts "./.." ["C"]) =
        ⟨.relative, ["out", "C.", ".."]⟩ := by decide
    have hreal : Host.withContainer.realPath ⟨.relative, ["out", "C.", ".."]⟩ = .ok ["out"] := by
      rw [Host.realPath_eq_of_linkFree Host.linkFree_withContainer]
      decide
    have hvacant : Host.withContainer.place .entry ⟨.relative, ["out", "C."]⟩ =
        .ok (.vacant ["out", "C."]) :=
      Host.place_of_short (by decide) (by decide)
        (.into rfl ⟨by decide, by decide, by decide⟩ rfl (fun _ => nofun)
          (.vacant rfl ⟨by decide, by decide, by decide⟩ rfl))
    have hback : (Host.withContainer.put ["out", "C."] .directory).place .writing
        ⟨.relative, ["out", "C.", ".."]⟩ = .ok (.existing ["out"] .directory) :=
      Host.place_of_short (by decide) (by decide)
        (.into rfl ⟨by decide, by decide, by decide⟩ rfl (fun _ => nofun)
          (.into rfl ⟨by decide, by decide, by decide⟩ rfl (fun _ => nofun)
            (.up rfl (.arrived rfl))))
    have hensure : Host.withContainer.ensureDirectories ⟨.relative, ["out", "C."]⟩ =
        (Host.withContainer.put ["out", "C."] .directory, .ok ()) := by
      unfold Host.ensureDirectories Host.ensureParts Host.ensureDirectory Host.makeDirectory
        Host.makeNode
      dsimp only [List.length, List.take]
      rw [hvacant]
    unfold write pathFor start pathIn
    dsimp only
    rw [hsegments, if_neg (by decide), hpath, Session.host_start,
      Host.realPath_of_place_linkFree Host.linkFree_withContainer Host.place_out, hreal]
    dsimp only [Place.location]
    rw [if_pos (by decide)]
    dsimp only
    unfold toFile PathName.parent
    dsimp only [List.dropLast]
    rw [Session.host_start, hensure]
    dsimp only
    unfold Host.storeContent
    rw [hback]
  · have hreal : Host.withContainer.realPath ((PathName.mk .relative ["out"]).joinAll
        (fileParts ".\x00" ["C"])) = .error .embeddedNul := by
      unfold Host.realPath
      rw [if_pos (by decide)]
    unfold write pathFor start pathIn
    dsimp only
    rw [hsegments, if_neg (by decide), Session.host_start,
      Host.realPath_of_place_linkFree Host.linkFree_withContainer Host.place_out, hreal]
    rfl

end Router

end DexListing
