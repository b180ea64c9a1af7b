import DexListing.Proofs.Run.ClassNames
import DexListing.Proofs.Run.Inputs

/-!
# The last class written to a file counts

A dump into a directory of a host without links leaves a file for every path name that it has
written a class to, with the text of the last one. Nothing else has changed, but for the directories
that had to be made and the temporary files that are gone (`Dump.last_write_wins`).

What carries this over the classes and the inputs is a relation between the host at first, the files
written so far and the host as it is (`Host.Overlays`): one more file is one more write
(`Host.Overlays.concat`), and since the files of classes have other extensions than inputs have, an
input that is still to be read is as it was at first (`Host.Overlays.get?_of_isInput`).
-/

set_option autoImplicit false

namespace DexListing

/-! ## The files that are to be written -/

/-- The classes of an input, as far as its container can be read. -/
def Host.classesOf (h : Host) (entry : InputEntry) : List ClassInfo :=
  match h.openContainer entry.path with
  | .error _ => []
  | .ok data =>
    match Container.ofBytes data with
    | .error _ => []
    | .ok container => container.classes.classes

namespace Dump

/-- The path name and the content of the file of a class; none if the class does not match, or if
it would not be written where it belongs. -/
def fileOf? (config : Config) (writer : Writer) (h : Host) (c : ClassInfo) :
    Option (PathName × Bytes) :=
  if config.selects c then
    match (Router.start writer.extension config.outputDirectory).pathFor h c.name with
    | .error _ => none
    | .ok path => some (path, (Text.utf8OfText (writer.render config.selection c)).toArray)
  else none

/-- The files of the classes of inputs, in the order of the inputs and then of their classes. -/
def filesOf (config : Config) (writer : Writer) (h : Host) (entries : List InputEntry) :
    List (PathName × Bytes) :=
  (entries.flatMap h.classesOf).filterMap (fileOf? config writer h)

end Dump

/-! ## Files written one after the other -/

namespace Host

/-- Files have been written below the root of a directory, one after the other. Each of them has an
extension. The last one under a path name is there. A location that is not as it was at first is
that of a file, or of a directory made on the way to one. -/
structure Overlays (first : Host) (D : PathName) (root : Location) (extension : String)
    (files : List (PathName × Bytes)) (h : Host) : Prop where
  extension : ∀ file ∈ files, file.1.suffix = extension
  below : ∀ file ∈ files, ∃ names, file.1 = ⟨D.root, D.parts ++ names⟩ ∧
    first.realPath file.1 = .ok (root ++ names)
  last : ∀ before path content after, files = before ++ (path, content) :: after →
    (∀ file ∈ after, file.1 ≠ path) →
    ∃ l, first.realPath path = .ok l ∧ h.place .target path = .ok (.existing l (.file content))
  frame : ∀ l, h.tree.get? l = first.tree.get? l ∨
    (∃ file ∈ files, first.realPath file.1 = .ok l) ∨
    (first.tree.get? l = none ∧ h.tree.get? l = some .directory ∧
      ∃ file ∈ files, ∃ l', first.realPath file.1 = .ok l' ∧ root <+: l ∧ l <+: l')

namespace Overlays

variable {first h h' : Host} {D : PathName} {root : Location} {extension : String}
  {files : List (PathName × Bytes)}

/-- Without files the host stays as it is. -/
theorem nil (first : Host) (D : PathName) (root : Location) (extension : String) :
    first.Overlays D root extension [] first where
  extension _ := nofun
  below _ := nofun
  last before path content after hsplit := absurd hsplit.symm (by simp)
  frame _ := Or.inl rfl

/-- One more file is written. -/
theorem concat (hfiles : first.Overlays D root extension files h) (hfree : first.tree.LinkFree)
    (hkeeps : first.Keeps h) {names : List String} {content : Bytes}
    (hwrote : h.Wrote h' root names content)
    (hplace : h'.place .target ⟨D.root, D.parts ++ names⟩ =
      .ok (.existing (root ++ names) (.file content)))
    (hextension : (PathName.mk D.root (D.parts ++ names)).suffix = extension) :
    first.Overlays D root extension (files ++ [(⟨D.root, D.parts ++ names⟩, content)]) h' := by
  have hgrown := hkeeps.trans hwrote.keeps
  have hreal : first.realPath ⟨D.root, D.parts ++ names⟩ = .ok (root ++ names) := by
    rw [← realPath_of_linkFree hfree (hgrown.grows.linkFree hfree) hgrown.grows.workingDirectory]
    exact realPath_of_place_linkFree (hgrown.grows.linkFree hfree) hplace
  refine ⟨?_, ?_, ?_, ?_⟩
  · intro file hfile
    rcases List.mem_append.mp hfile with hold | hnew
    · exact hfiles.extension file hold
    · rw [List.mem_singleton.mp hnew]
      exact hextension
  · intro file hfile
    rcases List.mem_append.mp hfile with hold | hnew
    · exact hfiles.below file hold
    · rw [List.mem_singleton.mp hnew]
      exact ⟨names, rfl, hreal⟩
  · intro before path other after hsplit hafter
    rcases List.eq_nil_or_concat after with rfl | ⟨after, file, rfl⟩
    · obtain ⟨-, hlast⟩ := List.append_inj' hsplit rfl
      obtain ⟨rfl, rfl⟩ := Prod.mk.inj (List.singleton_inj.mp hlast)
      exact ⟨root ++ names, hreal, hplace⟩
    · -- The file stands somewhere else, so the new one leaves it alone.
      rw [List.concat_eq_append, ← List.cons_append, ← List.append_assoc] at hsplit
      obtain ⟨hbefore, hlast⟩ := List.append_inj' hsplit rfl
      obtain rfl := List.singleton_inj.mp hlast
      have hne := hafter (⟨D.root, D.parts ++ names⟩, content) (by simp)
      obtain ⟨l, hl, hold⟩ := hfiles.last before path other after hbefore
        fun file hfile => hafter file (by simp [hfile])
      obtain ⟨names', rfl, hreal'⟩ := hfiles.below (path, other) (by simp [hbefore])
      obtain rfl : root ++ names' = l := Except.ok.inj (hreal'.symm.trans hl)
      have hother : names' ≠ names := by
        rintro rfl
        exact hne rfl
      have hkept := hwrote.get?_of_file (walks_of_place hold).2.get?_existing hother
      exact ⟨_, hreal', place_of_grows hold hwrote.keeps.grows (fun _ => nofun) hkept⟩
  · intro l
    have hmore : ∀ file ∈ files, file ∈ files ++ [(⟨D.root, D.parts ++ names⟩, content)] :=
      fun file hfile => List.mem_append_left _ hfile
    have hnew : (PathName.mk D.root (D.parts ++ names), content) ∈
        files ++ [(⟨D.root, D.parts ++ names⟩, content)] := List.mem_concat_self
    rcases hfiles.frame l with hsame | ⟨file, hfile, hl⟩ | ⟨hnone, hdir, file, hfile, hl⟩
    · rcases hwrote.frame (hkeeps.grows.linkFree hfree) l with hkept | hat | ⟨hnone, hdir, hway⟩
      · exact Or.inl (hkept.trans hsame)
      · exact Or.inr (Or.inl ⟨_, hnew, by rw [hat, hreal]⟩)
      · exact Or.inr (Or.inr ⟨hsame ▸ hnone, hdir, _, hnew, _, hreal, hway⟩)
    · exact Or.inr (Or.inl ⟨file, hmore file hfile, hl⟩)
    · exact Or.inr (Or.inr ⟨hnone, hwrote.keeps.grows.directories l hdir, file, hmore file hfile,
        hl⟩)

/-- A file with another extension is as it was at first: a file that has been written stands
somewhere else. -/
theorem get?_of_suffix_ne (hfiles : first.Overlays D root extension files h)
    (hfree : first.tree.LinkFree) {p : PathName} {l : Location} {content : Bytes}
    (hreal : first.realPath p = .ok l) (hfile : first.tree.get? l = some (.file content))
    (hsuffix : p.suffix ≠ "") (hextension : extension ≠ "") (hne : p.suffix ≠ extension) :
    h.tree.get? l = some (.file content) := by
  rcases hfiles.frame l with hsame | ⟨file, hwritten, hl⟩ | ⟨hnone, -⟩
  · rw [hsame, hfile]
  · have hother := hfiles.extension file hwritten
    rw [← hother] at hextension hne
    exact absurd (suffix_eq_of_realPath hfree hreal hl hsuffix hextension) hne
  · rw [hnone] at hfile
    exact nomatch hfile

end Overlays

end Host

/-! ## The classes and inputs of a dump -/

/-- The files of inputs have an extension, and it is not that of a writer's files. -/
theorem Writer.suffix_ne_of_hasExtension (writer : Writer) {p : PathName}
    (hp : p.hasExtension (containerExtensions ++ archiveExtensions) = true) :
    p.suffix ≠ "" ∧ p.suffix ≠ writer.extension := by
  have hother : ∀ extension, (containerExtensions ++ archiveExtensions).contains
      (Text.lower extension) = false → p.suffix ≠ extension := by
    intro extension hnot heq
    unfold PathName.hasExtension at hp
    rw [heq, hnot] at hp
    exact nomatch hp
  refine ⟨hother "" (by decide), hother writer.extension ?_⟩
  cases writer <;> decide

/-- A path name that has one of some extensions has one of more. -/
theorem PathName.hasExtension_append {p : PathName} {extensions : List String}
    (hp : p.hasExtension extensions = true) (more : List String) :
    p.hasExtension (extensions ++ more) = true := by
  unfold hasExtension at hp ⊢
  rw [List.contains_append, hp]
  rfl

namespace Dump

/-- A dump into a directory that still has the temporary files of its session. -/
structure IntoDirectory (s : Session) (D : PathName) (extension : String) (d : Dump) : Prop where
  directory : d.router.directory = some D
  extension : d.router.extension = extension
  retains : Retains s d

/-- Nothing that a dump does changes that it writes into the directory. -/
theorem intoDirectory_invariant (s : Session) (D : PathName) (extension : String) :
    Invariant (IntoDirectory s D extension) where
  report d e hd := ⟨hd.directory, hd.extension, (retains_invariant s).report d e hd.retains⟩
  beginInput d displayName hd :=
    ⟨hd.directory, hd.extension, (retains_invariant s).beginInput d displayName hd.retains⟩
  write d className block hd := by
    obtain ⟨hdirectory, hextension⟩ := d.router.write_router d.session className block
    exact ⟨hdirectory.trans hd.directory, hextension.trans hd.extension,
      (retains_invariant s).write d className block hd.retains⟩

variable {config : Config} {writer : Writer} {s : Session} {D : PathName} {root : Location}
  {files : List (PathName × Bytes)} {d d' : Dump}

/-- The file of a class does not depend on what the dump has written before. -/
theorem fileOf?_eq (hD : config.outputDirectory = some D) (hfree : s.host.tree.LinkFree)
    (hd : IntoDirectory s D writer.extension d) (c : ClassInfo) :
    fileOf? config writer s.host c =
      if config.selects c then
        match d.router.pathFor d.session.host c.name with
        | .error _ => none
        | .ok path => some (path, (Text.utf8OfText (writer.render config.selection c)).toArray)
      else none := by
  have hgrows := hd.retains.keeps.grows
  have hsame : d.router.pathFor d.session.host c.name =
      (Router.start writer.extension config.outputDirectory).pathFor s.host c.name :=
    Router.pathFor_of_linkFree (hd.directory.trans hD.symm) hd.extension hfree
      (hgrows.linkFree hfree) hgrows.workingDirectory c.name
  unfold fileOf?
  rw [hsame]

/-- One class, written or passed over. -/
theorem dumpClass_overlays (hD : config.outputDirectory = some D) (hfree : s.host.tree.LinkFree)
    (hthere : s.host.place .target D = .ok (.existing root .directory))
    (hd : IntoDirectory s D writer.extension d)
    (hfiles : s.host.Overlays D root writer.extension files d.session.host) {c : ClassInfo}
    {written : Bool} (hclass : dumpClass config writer d c = (.ok written, d')) :
    s.host.Overlays D root writer.extension (files ++ (fileOf? config writer s.host c).toList)
        d'.session.host ∧
      (if written then 1 else 0) = (fileOf? config writer s.host c).toList.length := by
  have hgrows := hd.retains.keeps.grows
  rw [fileOf?_eq hD hfree hd]
  rcases dumpClass_eq_ok hd.directory hclass with
    ⟨rfl, hselects, ⟨path, hpath⟩, hdone, hhost⟩ | ⟨rfl, hpath, hhost⟩
  · rw [if_pos hselects, hpath]
    obtain ⟨extension, hextension, hne, hdot⟩ := writer.extension_eq
    have hslash : Text.holds d.router.extension '/' = false :=
      hd.extension ▸ writer.slashFree_extension
    obtain ⟨names, rfl, hwrote, hplace⟩ := Router.write_wrote hd.directory hslash
      ((hgrows.linkFree hfree).below root) (hgrows.place_directory hthere) hpath hdone
    have hsuffix := Router.suffix_of_pathFor hd.directory (hd.extension ▸ hextension) hne hdot
      hslash hpath
    rw [hhost]
    exact ⟨hfiles.concat hfree hd.retains.keeps hwrote hplace (hsuffix.trans hd.extension), rfl⟩
  · have hnone : (if config.selects c then
        match d.router.pathFor d.session.host c.name with
        | .error _ => none
        | .ok path => some (path, (Text.utf8OfText (writer.render config.selection c)).toArray)
      else none) = none := by
      split
      · next hselects =>
        obtain ⟨f, hfault⟩ := hpath hselects
        rw [hfault]
      · rfl
    rw [hnone, hhost, Option.toList_none, List.append_nil]
    exact ⟨hfiles, rfl⟩

/-- The classes of an input one after the other. -/
theorem dumpClasses_overlays (hD : config.outputDirectory = some D)
    (hfree : s.host.tree.LinkFree)
    (hthere : s.host.place .target D = .ok (.existing root .directory))
    {classes : List ClassInfo} (hd : IntoDirectory s D writer.extension d)
    (hfiles : s.host.Overlays D root writer.extension files d.session.host) {count : Nat}
    (hclasses : dumpClasses config writer d classes = (.ok count, d')) :
    s.host.Overlays D root writer.extension
        (files ++ classes.filterMap (fileOf? config writer s.host)) d'.session.host ∧
      count = (classes.filterMap (fileOf? config writer s.host)).length := by
  induction classes generalizing d files count with
  | nil =>
    obtain ⟨hcount, rfl⟩ := Prod.mk.inj hclasses
    rw [List.filterMap_nil, List.append_nil]
    exact ⟨hfiles, (Except.ok.inj hcount).symm⟩
  | cons c rest ih =>
    have hfirst := (intoDirectory_invariant s D writer.extension).dumpClass config writer hd c
    unfold dumpClasses at hclasses
    split at hclasses
    · exact nomatch (Prod.mk.inj hclasses).1
    · next written d₁ hclass =>
      rw [hclass] at hfirst
      obtain ⟨hone, hwritten⟩ := dumpClass_overlays hD hfree hthere hd hfiles hclass
      split at hclasses
      · exact nomatch (Prod.mk.inj hclasses).1
      · next counted d₂ hrest =>
        obtain ⟨hcount, rfl⟩ := Prod.mk.inj hclasses
        obtain ⟨hall, hcounted⟩ := ih hfirst hone hrest
        have hcons : (c :: rest).filterMap (fileOf? config writer s.host) =
            (fileOf? config writer s.host c).toList ++
              rest.filterMap (fileOf? config writer s.host) := by
          rw [List.filterMap_cons]
          cases fileOf? config writer s.host c <;> rfl
        rw [hcons, ← List.append_assoc]
        refine ⟨hall, ?_⟩
        rw [← Except.ok.inj hcount, hcounted, hwritten, List.length_append, Nat.add_comm]

/-- A container that breaks off counts the classes written so far and leaves the host as it is. -/
theorem giveUp_eq_ok {displayName : String} {seen written : Nat} {f : Failure}
    {result : InputResult} (h : d.giveUp displayName seen written f = (.ok result, d')) :
    result.classesWritten = written ∧ d'.session.host = d.session.host := by
  unfold giveUp at h
  split at h
  · obtain ⟨hresult, rfl⟩ := Prod.mk.inj h
    exact ⟨by rw [← Except.ok.inj hresult], rfl⟩
  · exact nomatch (Prod.mk.inj h).1

/-- A file with the extension of inputs is as it was at first. -/
theorem get?_of_hasExtension (hfree : s.host.tree.LinkFree) {h : Host}
    (hfiles : s.host.Overlays D root writer.extension files h) {p : PathName}
    (hp : p.hasExtension (containerExtensions ++ archiveExtensions) = true) {l : Location}
    {content : Bytes} (hplace : s.host.place .target p = .ok (.existing l (.file content))) :
    h.tree.get? l = some (.file content) := by
  obtain ⟨hsuffix, hne⟩ := writer.suffix_ne_of_hasExtension hp
  exact hfiles.get?_of_suffix_ne hfree (Host.realPath_of_place_linkFree hfree hplace)
    (Host.walks_of_place hplace).2.get?_existing hsuffix writer.extension_ne_empty hne

/-- An input that is a file at first is opened as at first. -/
theorem openContainer_eq (hfree : s.host.tree.LinkFree)
    (hd : IntoDirectory s D writer.extension d)
    (hfiles : s.host.Overlays D root writer.extension files d.session.host) {p : PathName}
    (hp : s.host.IsInputFile p) :
    d.session.host.openContainer p = s.host.openContainer p := by
  obtain ⟨l, content, hplace⟩ := hp.file
  have hnow : d.session.host.place .target p = .ok (.existing l (.file content)) :=
    Host.place_of_grows hplace hd.retains.keeps.grows (fun _ => nofun)
      (get?_of_hasExtension hfree hfiles (PathName.hasExtension_append hp.extension _) hplace)
  unfold Host.openContainer Host.contentOf
  rw [hplace, hnow]

/-- The classes of one input. -/
theorem dumpInput_overlays (hD : config.outputDirectory = some D) (hfree : s.host.tree.LinkFree)
    (hthere : s.host.place .target D = .ok (.existing root .directory))
    (hd : IntoDirectory s D writer.extension d)
    (hfiles : s.host.Overlays D root writer.extension files d.session.host) {entry : InputEntry}
    (hentry : s.host.IsInputFile entry.path) {result : InputResult}
    (hinput : dumpInput config writer Host.openContainer d entry = (.ok result, d')) :
    s.host.Overlays D root writer.extension (files ++ filesOf config writer s.host [entry])
        d'.session.host ∧
      result.classesWritten = (filesOf config writer s.host [entry]).length := by
  have hfilesOf : filesOf config writer s.host [entry] =
      (s.host.classesOf entry).filterMap (fileOf? config writer s.host) := by
    unfold filesOf
    rw [List.flatMap_singleton]
  have hP := intoDirectory_invariant s D writer.extension
  have hstarted := hP.report d (.inputStarted entry.displayName entry.path) hd
  rw [hfilesOf]
  unfold Host.classesOf
  unfold dumpInput at hinput
  dsimp only at hinput
  rw [openContainer_eq hfree hstarted hfiles hentry] at hinput
  cases hcontent : s.host.openContainer entry.path with
  | error f =>
    rw [hcontent] at hinput
    obtain ⟨hwritten, hhost⟩ := giveUp_eq_ok hinput
    rw [List.filterMap_nil, List.append_nil, hhost]
    exact ⟨hfiles, hwritten⟩
  | ok data =>
    rw [hcontent] at hinput
    dsimp only at hinput ⊢
    cases hbytes : Container.ofBytes data with
    | error e =>
      rw [hbytes] at hinput
      obtain ⟨hwritten, hhost⟩ := giveUp_eq_ok hinput
      rw [List.filterMap_nil, List.append_nil, hhost]
      exact ⟨hfiles, hwritten⟩
    | ok container =>
      rw [hbytes] at hinput
      unfold dumpContainer at hinput
      dsimp only at hinput ⊢
      have hbegun := hP.beginInput _ entry.displayName (hP.report _
        (.containerOpened container.header.version container.header.classes.count
          container.header.strings.count) hstarted)
      split at hinput
      · exact nomatch (Prod.mk.inj hinput).1
      · next count d₁ hclasses =>
        obtain ⟨hall, hcount⟩ := dumpClasses_overlays hD hfree hthere hbegun hfiles hclasses
        split at hinput
        · obtain ⟨hwritten, hhost⟩ := giveUp_eq_ok hinput
          rw [hhost]
          exact ⟨hall, hwritten.trans hcount⟩
        · obtain ⟨hresult, rfl⟩ := Prod.mk.inj hinput
          exact ⟨hall, by rw [← Except.ok.inj hresult, hcount]⟩

/-- The files of the first entry come first. -/
theorem filesOf_cons (config : Config) (writer : Writer) (h : Host) (entry : InputEntry)
    (rest : List InputEntry) :
    filesOf config writer h (entry :: rest) =
      filesOf config writer h [entry] ++ filesOf config writer h rest := by
  unfold filesOf
  rw [← List.filterMap_append, ← List.flatMap_append, List.singleton_append]

/-- All inputs of a dump that comes to its end. -/
theorem dumpInputs_overlays (hD : config.outputDirectory = some D) (hfree : s.host.tree.LinkFree)
    (hthere : s.host.place .target D = .ok (.existing root .directory))
    {entries : List InputEntry} (hentries : ∀ entry ∈ entries, s.host.IsInputFile entry.path)
    (hd : IntoDirectory s D writer.extension d)
    (hfiles : s.host.Overlays D root writer.extension files d.session.host)
    {results : List InputResult}
    (hinputs : dumpInputs config writer Host.openContainer d entries = (.ok (), results, d')) :
    s.host.Overlays D root writer.extension (files ++ filesOf config writer s.host entries)
        d'.session.host ∧
      totalWritten results = (filesOf config writer s.host entries).length := by
  induction entries generalizing d files results with
  | nil =>
    obtain ⟨-, hrest⟩ := Prod.mk.inj hinputs
    obtain ⟨rfl, rfl⟩ := Prod.mk.inj hrest
    rw [show filesOf config writer s.host [] = [] from rfl, List.append_nil]
    exact ⟨hfiles, rfl⟩
  | cons entry rest ih =>
    have hfirst := (intoDirectory_invariant s D writer.extension).dumpInput config writer hd
      Host.openContainer entry
    unfold dumpInputs at hinputs
    split at hinputs
    · exact nomatch (Prod.mk.inj hinputs).1
    · next result d₁ hinput =>
      rw [hinput] at hfirst
      obtain ⟨hone, hwritten⟩ := dumpInput_overlays hD hfree hthere hd hfiles
        (hentries entry List.mem_cons_self) hinput
      rcases hrest : dumpInputs config writer Host.openContainer d₁ rest with ⟨outcome, more, d₂⟩
      rw [hrest] at hinputs
      obtain ⟨houtcome, hinputs⟩ := Prod.mk.inj hinputs
      obtain ⟨rfl, rfl⟩ := Prod.mk.inj hinputs
      rw [houtcome] at hrest
      obtain ⟨hall, htotal⟩ :=
        ih (fun e he => hentries e (List.mem_cons_of_mem entry he)) hfirst hone hrest
      rw [filesOf_cons, ← List.append_assoc]
      refine ⟨hall, ?_⟩
      rw [totalWritten, hwritten, htotal, List.length_append]

end Dump

/-! ## Dumps that come to their end -/

namespace Dump

variable {config : Config} {writer : Writer} {D : PathName} {root : Location} {d : Dump}

/-- The bytes of an input that can be dumped into a directory: they make a container whose classes
can all be read, and every class that matches has an unsafe name or one that fits. -/
def Fitting (config : Config) (writer : Writer) (D : PathName) (data : Bytes) : Prop :=
  ∃ container, Container.ofBytes data = .ok container ∧ container.classes.stopped = none ∧
    ∀ c ∈ container.classes.classes, config.selects c = true → ¬Router.IsUnsafe c.name →
      Router.Fits writer.extension D c.name

/-- Below a directory whose files and directories are apart such a class does not end a dump, and
they stay apart. -/
theorem dumpClass_of_files (hfiles : Router.Files D root writer.extension d.router d.session)
    {c : ClassInfo} (hfits : config.selects c = true → ¬Router.IsUnsafe c.name →
      Router.Fits writer.extension D c.name) :
    ∃ written d', dumpClass config writer d c = (.ok written, d') ∧
      Router.Files D root writer.extension d'.router d'.session := by
  have hsame := hfiles.extension
  have hextension : Router.IsExtension d.router.extension := by
    rw [hsame]
    cases writer <;> exact ⟨by decide, by decide, by decide⟩
  by_cases hselects : config.selects c = true
  · have hfits' := hfits hselects
    rw [← hsame] at hfiles hfits' ⊢
    have hstays := hfiles.write hextension hfits' (writer.render config.selection c)
    unfold Config.selects at hselects
    unfold dumpClass
    rw [if_pos hselects]
    dsimp only
    by_cases hrefused : Router.IsUnsafe c.name
    · rw [hfiles.write_refused hextension hrefused]
      dsimp only
      rw [if_pos (by simp [Failure.isA, Failure.kind?, ErrorKind.lineage, ErrorKind.parent?])]
      exact ⟨false, _, rfl, hfiles.directory, hfiles.extension, hfiles.there, hfiles.seen,
        hfiles.separated⟩
    · rw [hfiles.write_of_safe hextension (hfits' hrefused) hrefused]
      exact ⟨true, _, rfl, hstays⟩
  · unfold Config.selects at hselects
    unfold dumpClass
    rw [if_neg hselects]
    exact ⟨false, d, rfl, hfiles⟩

/-- Such classes one after the other. -/
theorem dumpClasses_of_files {classes : List ClassInfo}
    (hclasses : ∀ c ∈ classes, config.selects c = true → ¬Router.IsUnsafe c.name →
      Router.Fits writer.extension D c.name)
    (hfiles : Router.Files D root writer.extension d.router d.session) :
    ∃ count d', dumpClasses config writer d classes = (.ok count, d') ∧
      Router.Files D root writer.extension d'.router d'.session := by
  induction classes generalizing d with
  | nil => exact ⟨0, d, rfl, hfiles⟩
  | cons c rest ih =>
    obtain ⟨written, d₁, hclass, hfiles₁⟩ :=
      dumpClass_of_files hfiles (hclasses c List.mem_cons_self)
    obtain ⟨count, d₂, hrest, hfiles₂⟩ :=
      ih (fun c' hc' => hclasses c' (List.mem_cons_of_mem c hc')) hfiles₁
    rw [dumpClasses, hclass]
    dsimp only
    rw [hrest]
    exact ⟨_, d₂, rfl, hfiles₂⟩

/-- An input whose classes are all such. -/
theorem dumpInput_of_files {opener : Opener} {entry : InputEntry} {data : Bytes}
    (hopen : opener d.session.host entry.path = .ok data) (hfitting : Fitting config writer D data)
    (hfiles : Router.Files D root writer.extension d.router d.session) :
    ∃ result d', dumpInput config writer opener d entry = (.ok result, d') ∧
      Router.Files D root writer.extension d'.router d'.session := by
  obtain ⟨container, hbytes, hstopped, hclasses⟩ := hfitting
  let opened := (d.report (.inputStarted entry.displayName entry.path)).report
    (.containerOpened container.header.version container.header.classes.count
      container.header.strings.count)
  obtain ⟨count, d', hdumped, hfiles'⟩ := dumpClasses_of_files hclasses
    (d := { opened with router := opened.router.beginInput entry.displayName })
    ⟨hfiles.directory, hfiles.extension, hfiles.there, hfiles.seen, hfiles.separated⟩
  have hopen' : opener (d.report (.inputStarted entry.displayName entry.path)).session.host
      entry.path = .ok data := hopen
  unfold dumpInput
  dsimp only
  rw [hopen']
  dsimp only
  rw [hbytes]
  dsimp only
  unfold dumpContainer
  dsimp only
  rw [hdumped, hstopped]
  exact ⟨_, d', rfl, hfiles'⟩

/-- Inputs one after the other, if the dump of one keeps what the opening of the next one takes. -/
theorem dumpInputs_of_files {opener : Opener} {entries : List InputEntry} {P : Dump → Prop}
    (hP : ∀ d entry result d', entry ∈ entries → P d →
      dumpInput config writer opener d entry = (.ok result, d') → P d')
    (hopen : ∀ d entry, entry ∈ entries → P d →
      ∃ data, opener d.session.host entry.path = .ok data ∧ Fitting config writer D data)
    (hd : P d) (hfiles : Router.Files D root writer.extension d.router d.session) :
    (dumpInputs config writer opener d entries).1 = .ok () := by
  induction entries generalizing d with
  | nil => rfl
  | cons entry rest ih =>
    obtain ⟨data, hdata, hfitting⟩ := hopen d entry List.mem_cons_self hd
    obtain ⟨result, d₁, hinput, hfiles₁⟩ := dumpInput_of_files hdata hfitting hfiles
    have hrest := ih (fun d e result d' he => hP d e result d' (List.mem_cons_of_mem entry he))
      (fun d e he => hopen d e (List.mem_cons_of_mem entry he))
      (hP d entry result d₁ List.mem_cons_self hd hinput) hfiles₁
    unfold dumpInputs
    rw [hinput]
    dsimp only
    exact hrest

/-- A dump ends as its inputs do. -/
theorem run_outcome (config : Config) (writer : Writer) (opener : Opener) (s : Session)
    (entries : List InputEntry) :
    (run config writer opener s entries).1 =
      (dumpInputs config writer opener (start config writer s) entries).1 := by
  unfold run
  rcases dumpInputs config writer opener (start config writer s) entries with
    ⟨outcome, results, d⟩
  cases outcome <;> rfl

/-- Into an empty directory of a host without links a dump of input files comes to its end, if they
all can be dumped. -/
theorem run_ends {s : Session} (hD : config.outputDirectory = some D)
    (hfree : s.host.tree.LinkFree) (hthere : s.host.place .target D = .ok (.existing root .directory))
    (hempty : ∀ name, s.host.tree.get? (root ++ [name]) = none) {entries : List InputEntry}
    (hentries : ∀ entry ∈ entries, s.host.IsInputFile entry.path ∧
      ∃ data, s.host.openContainer entry.path = .ok data ∧ Fitting config writer D data) :
    (run config writer Host.openContainer s entries).1 = .ok () := by
  have hinvariant := intoDirectory_invariant s D writer.extension
  rw [run_outcome]
  have hfiles : Router.Files D root writer.extension (start config writer s).router s :=
    ⟨hD, rfl, hthere, Host.not_overlooks_of_linkFree hfree D, .of_empty hempty⟩
  -- The inputs are still as they were at first, whatever files have been written.
  have hstart : IntoDirectory s D writer.extension (start config writer s) ∧
      ∃ files, s.host.Overlays D root writer.extension files s.host :=
    ⟨⟨hD, rfl, ⟨rfl, .refl s.host⟩⟩, [], .nil s.host D root writer.extension⟩
  refine dumpInputs_of_files (P := fun d => IntoDirectory s D writer.extension d ∧
    ∃ files, s.host.Overlays D root writer.extension files d.session.host) ?_ ?_ hstart hfiles
  · rintro d entry result d' hentry ⟨hd, files, hfiles⟩ hinput
    have hafter := hinvariant.dumpInput config writer hd Host.openContainer entry
    rw [hinput] at hafter
    exact ⟨hafter, _,
      (dumpInput_overlays hD hfree hthere hd hfiles (hentries entry hentry).1 hinput).1⟩
  · rintro d entry hentry ⟨hd, files, hfiles⟩
    obtain ⟨hfile, data, hdata, hfitting⟩ := hentries entry hentry
    exact ⟨data, (openContainer_eq hfree hd hfiles hfile).trans hdata, hfitting⟩

end Dump

/-! ## Whole dumps -/

/-- A host after files have been written below a root and temporary files have been removed, compared
to the host before. -/
structure Host.AfterFiles (before : Host) (root : Location) (temporaries : List Location)
    (files : List (PathName × Bytes)) (after : Host) : Prop where
  /-- The last file under a path name is there. -/
  last : ∀ earlier path content later, files = earlier ++ (path, content) :: later →
    (∀ file ∈ later, file.1 ≠ path) → after.contentOf path = .ok content
  /-- A location is as before, or it is that of a temporary file, of a file that was written, or of
  a new directory between the root and such a file. -/
  frame : ∀ l, after.tree.get? l = before.tree.get? l ∨
    (l ∈ temporaries ∧ after.tree.get? l = none) ∨
    (∃ file ∈ files, before.realPath file.1 = .ok l) ∨
    (before.tree.get? l = none ∧ after.tree.get? l = some .directory ∧
      ∃ file ∈ files, ∃ l', before.realPath file.1 = .ok l' ∧ root <+: l ∧ l <+: l')
  /-- The temporary files are gone. -/
  removed : ∀ l ∈ temporaries, after.tree.get? l = none
  /-- Every other file with the extension of inputs has its content. -/
  inputs : ∀ p l content, p.hasExtension (containerExtensions ++ archiveExtensions) = true →
    before.place .target p = .ok (.existing l (.file content)) → l ∉ temporaries →
    after.contentOf p = .ok content

namespace Dump

variable {config : Config} {writer : Writer} {s : Session} {D : PathName} {root : Location}
  {files : List (PathName × Bytes)} {d : Dump}

/-- After the inputs of a dump its temporary files are still where they were, and none of them has
been written to; so cleaning up removes them and leaves what was written. -/
theorem afterFiles_cleanUp (hfree : s.host.tree.LinkFree)
    (hd : IntoDirectory s D writer.extension d)
    (hfiles : s.host.Overlays D root writer.extension files d.session.host)
    {temporaries : List Location} (howns : s.Owns temporaries)
    (hnames : ∀ path ∈ s.temporaries, path.hasExtension containerExtensions = true) :
    s.host.AfterFiles root temporaries files d.session.cleanUp.host := by
  have howns' : d.session.Owns temporaries :=
    howns.of_keeps hd.retains.temporaries hd.retains.keeps
  have hget := howns'.get?_cleanUp
  have hcontent : ∀ p l content, l ∉ temporaries →
      d.session.host.place .target p = .ok (.existing l (.file content)) →
      d.session.cleanUp.host.contentOf p = .ok content := by
    intro p l content hl hfile
    have hkept : d.session.cleanUp.host.tree.get? l = some (.file content) := by
      rw [hget, if_neg hl]
      exact (Host.walks_of_place hfile).2.get?_existing
    have hlast : d.session.cleanUp.host.place .target p = .ok (.existing l (.file content)) :=
      Host.place_of_grows hfile howns'.grows_cleanUp (fun _ => nofun) hkept
    unfold Host.contentOf
    rw [hlast]
  have hother : ∀ file ∈ files, ∀ l, s.host.realPath file.1 = .ok l → l ∉ temporaries := by
    intro file hfile l hreal hl
    obtain ⟨path, hpath, content, hentry⟩ := Host.IsFileAt.exists_path howns.standing hl
    have htarget := Host.place_of_walks hentry rfl
      ((Host.walks_of_place hentry).2.to_target fun _ _ => nofun)
    obtain ⟨hsuffix, hne⟩ := writer.suffix_ne_of_hasExtension
      (PathName.hasExtension_append (hnames path hpath) archiveExtensions)
    have hextension := hfiles.extension file hfile
    apply hne
    rw [← hextension]
    exact Host.suffix_eq_of_realPath hfree (Host.realPath_of_place_linkFree hfree htarget)
      hreal hsuffix (hextension ▸ writer.extension_ne_empty)
  refine ⟨?_, ?_, ?_, ?_⟩
  · intro earlier path content later hsplit hlater
    obtain ⟨l, hreal, hfile⟩ := hfiles.last earlier path content later hsplit hlater
    exact hcontent path l content (hother (path, content) (by simp [hsplit]) l hreal) hfile
  · intro l
    rw [hget]
    by_cases hl : l ∈ temporaries
    · exact Or.inr (Or.inl ⟨hl, if_pos hl⟩)
    · rw [if_neg hl]
      rcases hfiles.frame l with hsame | hwritten | hmade
      · exact Or.inl hsame
      · exact Or.inr (Or.inr (Or.inl hwritten))
      · exact Or.inr (Or.inr (Or.inr hmade))
  · intro l hl
    rw [hget, if_pos hl]
  · intro p l content hp hfile hl
    apply hcontent p l content hl
    exact Host.place_of_grows hfile hd.retains.keeps.grows (fun _ => nofun)
      (get?_of_hasExtension hfree hfiles hp hfile)

/-- A dump keeps links and directories, and cleaning up does so too. -/
theorem run_grows {temporaries : List Location} (howns : s.Owns temporaries) (config : Config)
    (writer : Writer) (opener : Opener) (entries : List InputEntry) :
    s.host.GrowsBelow [] (run config writer opener s entries).2.2.session.host := by
  have hstart : Retains s (start config writer s) := ⟨rfl, .refl s.host⟩
  have hd := (retains_invariant s).dumpInputs config writer hstart opener entries
  rw [run_host]
  exact hd.keeps.grows.trans (howns.of_keeps hd.temporaries hd.keeps).grows_cleanUp

/-- What a dump that comes to its end leaves of files whose location is known. -/
theorem run_afterFiles (hfree : s.host.tree.LinkFree) {entries : List InputEntry}
    (hentries : ∀ entry ∈ entries, s.host.IsInputFile entry.path)
    (hD : config.outputDirectory = some D)
    (hthere : s.host.place .target D = .ok (.existing root .directory))
    {temporaries : List Location} (howns : s.Owns temporaries)
    (hnames : ∀ path ∈ s.temporaries, path.hasExtension containerExtensions = true)
    (hends : (run config writer Host.openContainer s entries).1 = .ok ()) :
    totalWritten (run config writer Host.openContainer s entries).2.1 =
        (filesOf config writer s.host entries).length ∧
      s.host.AfterFiles root temporaries (filesOf config writer s.host entries)
        (run config writer Host.openContainer s entries).2.2.session.host := by
  have hstart : IntoDirectory s D writer.extension (start config writer s) :=
    ⟨hD, rfl, ⟨rfl, .refl s.host⟩⟩
  have hd := (intoDirectory_invariant s D writer.extension).dumpInputs config writer hstart
    Host.openContainer entries
  have hhost := run_host config writer Host.openContainer s entries
  unfold run at hends
  rcases hinputs : dumpInputs config writer Host.openContainer (start config writer s) entries with
    ⟨outcome, results, d⟩
  rw [hinputs] at hends hd hhost
  cases outcome with
  | error f => exact nomatch hends
  | ok _ =>
    obtain ⟨hfiles, htotal⟩ := dumpInputs_overlays hD hfree hthere hentries hstart
      (.nil s.host D root writer.extension) hinputs
    rw [List.nil_append] at hfiles
    refine ⟨?_, ?_⟩
    · unfold run
      rw [hinputs]
      exact htotal
    · rw [hhost]
      exact afterFiles_cleanUp hfree hd hfiles howns hnames

/-- What a dump into a directory of a host without links leaves behind, if its inputs are what a
resolver has made of arguments and it comes to its end. Each path name that classes were written to
leads to a file with the text of the last one. Besides these files there are new directories, all
of them on the way to such a file, and the temporary files are gone; every other location is as
before. -/
theorem last_write_wins {first : Host} (hfree : first.tree.LinkFree)
    {produced entries : List InputEntry} (hresolving : s.Resolving first produced)
    (hentries : ∀ entry ∈ entries, entry ∈ produced) (hD : config.outputDirectory = some D)
    (hthere : s.host.isDirectory D = .ok true) (writer : Writer)
    (hends : (run config writer Host.openContainer s entries).1 = .ok ()) :
    ∃ root temporaries, s.host.realPath D = .ok root ∧
      List.Forall₂ s.host.IsFileAt s.temporaries temporaries ∧
      totalWritten (run config writer Host.openContainer s entries).2.1 =
        (filesOf config writer s.host entries).length ∧
      s.host.AfterFiles root temporaries (filesOf config writer s.host entries)
        (run config writer Host.openContainer s entries).2.2.session.host := by
  obtain ⟨temporaries, htracks⟩ := hresolving.tracks
  have hfree' : s.host.tree.LinkFree :=
    (Host.growsBelow_of_gainsFiles htracks.workingDirectory htracks.gainsFiles).linkFree hfree
  obtain ⟨root, hplace⟩ := Host.isDirectory_eq_true_iff.mp hthere
  obtain ⟨htotal, hafter⟩ := run_afterFiles hfree'
    (fun entry hentry => hresolving.isInputFile entry (hentries entry hentry)) hD hplace
    htracks.owns hresolving.temporaries hends
  exact ⟨root, temporaries, Host.realPath_of_place_linkFree hfree' hplace,
    htracks.owns.standing, htotal, hafter⟩

end Dump

/-! ## Two inputs that share a file -/

namespace Container

/-- A container with two classes, `p.A` and one whose name has no segments. -/
def withDots : Bytes :=
  (magic ++ [0x30, 0x33, 0x35, 0] ++ List.replicate 48 0
    ++ [2, 112, 2, 120, 0, 0, 0, 0, 0, 0, 2, 128, 0, 0].flatMap (Bytes.littleEndian 4)
    -- two strings, two types, and the class definitions
    ++ [192, 199, 0, 1].flatMap (Bytes.littleEndian 4)
    ++ [0, 1, noIndex, 0, noIndex, 0, 0, 0].flatMap (Bytes.littleEndian 4)
    ++ [1, 1, noIndex, 0, noIndex, 0, 0, 0].flatMap (Bytes.littleEndian 4)
    ++ [5, 0x4C, 0x70, 0x2F, 0x41, 0x3B, 0] ++ [5, 0x4C, 0x2E, 0x2E, 0x2E, 0x3B, 0]).toArray

/-- A container with one class, a final `p.A`. -/
def withFinal : Bytes :=
  (magic ++ [0x30, 0x33, 0x35, 0] ++ List.replicate 48 0
    ++ [1, 112, 1, 116, 0, 0, 0, 0, 0, 0, 1, 120, 0, 0].flatMap (Bytes.littleEndian 4)
    -- one string, one type, and the class definition
    ++ [152, 0].flatMap (Bytes.littleEndian 4)
    ++ [0, 17, noIndex, 0, noIndex, 0, 0, 0].flatMap (Bytes.littleEndian 4)
    ++ [5, 0x4C, 0x70, 0x2F, 0x41, 0x3B, 0]).toArray

/-- The class `p.A` with some flags. -/
def packageClass (flags : Nat) : ClassInfo := ⟨"p.A", flags, none, [], none, [], [], []⟩

/-- A class whose name has no segments. -/
def dots : ClassInfo := ⟨"...", 1, none, [], none, [], [], []⟩

/-- The header of `withDots`. -/
def withDotsHeader : Header :=
  ⟨"035", ⟨2, 112⟩, ⟨2, 120⟩, ⟨0, 0⟩, ⟨0, 0⟩, ⟨0, 0⟩, ⟨2, 128⟩⟩

/-- The first container is read to its end: a class in a package, and one whose name is not safe. -/
theorem classes_withDots :
    ofBytes withDots = .ok (ofLayout ⟨withDots, withDotsHeader⟩) ∧
      (ofLayout ⟨withDots, withDotsHeader⟩).classes.stopped = none ∧
      (ofLayout ⟨withDots, withDotsHeader⟩).classes.classes = [packageClass 1, dots] := by
  have hheader : (Header.ofBytes withDots).toOption = some withDotsHeader := by decide +kernel
  exact ⟨ofBytes_of_header hheader, by decide +kernel, by decide +kernel⟩

/-- The second container has a class of the same name with another flag. -/
theorem classes_withFinal :
    ofBytes withFinal = .ok (ofLayout ⟨withFinal, oneClassHeader⟩) ∧
      (ofLayout ⟨withFinal, oneClassHeader⟩).classes.stopped = none ∧
      (ofLayout ⟨withFinal, oneClassHeader⟩).classes.classes = [packageClass 17] := by
  have hheader : (Header.ofBytes withFinal).toOption = some oneClassHeader := by decide +kernel
  exact ⟨ofBytes_of_header hheader, by decide +kernel, by decide +kernel⟩

end Container

namespace Host

/-- A host with these two containers and with an empty directory. -/
def withInputs : Host :=
  { withContainer with
    tree := ((FileTree.empty.put ["a.dex"] (.file Container.withDots)).put ["b.dex"]
      (.file Container.withFinal)).put ["out"] .directory }

/-- There are no links on the host. -/
theorem linkFree_withInputs : withInputs.tree.LinkFree := by
  apply FileTree.LinkFree.put ((FileTree.linkFree_empty.put _).put _)
  · exact fun _ => nofun
  · exact fun _ => nofun
  · exact fun _ => nofun

/-- The directory for the output is there. -/
theorem place_out_withInputs : withInputs.place .target ⟨.relative, ["out"]⟩ =
    .ok (.existing ["out"] .directory) :=
  place_of_short (by decide) (by decide)
    (.into rfl ⟨by decide, by decide, by decide⟩ rfl (fun _ => nofun) (.arrived rfl))

/-- Nothing is in the directory for the output. -/
theorem get?_out_withInputs (name : String) :
    withInputs.tree.get? (["out"] ++ [name]) = none := by
  have hfirst : FileTree.empty.Admits ["a.dex"] (.file Container.withDots) := by decide
  have hsecond : (FileTree.empty.put ["a.dex"] (.file Container.withDots)).Admits ["b.dex"]
      (.file Container.withFinal) := by decide
  have hdirectory : ((FileTree.empty.put ["a.dex"] (.file Container.withDots)).put ["b.dex"]
      (.file Container.withFinal)).Admits ["out"] .directory := by decide
  unfold withInputs
  dsimp only
  rw [FileTree.get?_put _ hdirectory, if_neg (by simp), FileTree.get?_put _ hsecond,
    if_neg (by simp), FileTree.get?_put _ hfirst, if_neg (by simp)]
  rfl

/-- The place of each of the containers. -/
theorem place_withInputs {name : String} {data : Bytes}
    (hinput : name = "a.dex" ∧ data = Container.withDots ∨
      name = "b.dex" ∧ data = Container.withFinal) :
    withInputs.place .target ⟨.relative, [name]⟩ = .ok (.existing [name] (.file data)) := by
  rcases hinput with ⟨rfl, rfl⟩ | ⟨rfl, rfl⟩
  · exact place_of_short (by decide) (by decide)
      (.into rfl ⟨by decide, by decide, by decide⟩ rfl (fun _ => nofun) (.arrived rfl))
  · exact place_of_short (by decide) (by decide)
      (.into rfl ⟨by decide, by decide, by decide⟩ rfl (fun _ => nofun) (.arrived rfl))

end Host

namespace Dump

/-- The two containers as inputs. -/
def twoInputs : List InputEntry :=
  [⟨⟨.relative, ["a.dex"]⟩, false, "a.dex"⟩, ⟨⟨.relative, ["b.dex"]⟩, false, "b.dex"⟩]

/-- The two inputs are what resolving their names gives. -/
theorem resolving_twoInputs :
    (Session.start .withInputs).Resolving .withInputs twoInputs := by
  have hresolve : ∀ name data, (name = "a.dex" ∧ data = Container.withDots ∨
      name = "b.dex" ∧ data = Container.withFinal) →
      (Session.start .withInputs).resolve name =
        (.ok (some ⟨⟨.relative, [name]⟩, false, name⟩), .start .withInputs) := by
    intro name data hinput
    have hplace := Host.place_withInputs hinput
    have hpath : PathName.ofText name = ⟨.relative, [name]⟩ ∧
        (PathName.mk .relative [name]).hasExtension containerExtensions = true := by
      rcases hinput with ⟨rfl, -⟩ | ⟨rfl, -⟩
      · exact ⟨by decide, by decide⟩
      · exact ⟨by decide, by decide⟩
    unfold Session.resolve Session.resolveContainer Session.existingFile Host.isFile Host.node?
    dsimp only
    rw [hpath.1, if_pos hpath.2, Session.host_start, hplace]
    rfl
  have hnone : (Session.start .withInputs).Resolving .withInputs [] := .start
  have hone := hnone.resolve "a.dex"
  rw [hresolve "a.dex" _ (Or.inl ⟨rfl, rfl⟩)] at hone
  have htwo := hone.resolve "b.dex"
  rwa [hresolve "b.dex" _ (Or.inr ⟨rfl, rfl⟩)] at htwo

/-- The class `p.A` has the path name of a file below the directory of its package. -/
theorem fits_packageClass : Router.Fits Writer.java.extension ⟨.relative, ["out"]⟩ "p.A" :=
  ⟨by decide, by decide, by decide⟩

/-- Each of the containers can be opened and dumped. -/
theorem openContainer_twoInputs {entry : InputEntry} (hentry : entry ∈ twoInputs) :
    ∃ data, Host.withInputs.openContainer entry.path = .ok data ∧
      Fitting intoOut .java ⟨.relative, ["out"]⟩ data := by
  have hopen : ∀ name data, (name = "a.dex" ∧ data = Container.withDots ∨
      name = "b.dex" ∧ data = Container.withFinal) →
      Host.withInputs.openContainer ⟨.relative, [name]⟩ = .ok data := by
    intro name data hinput
    unfold Host.openContainer Host.contentOf
    rw [Host.place_withInputs hinput]
  rcases List.mem_pair.mp hentry with rfl | rfl
  · obtain ⟨hbytes, hstopped, hclasses⟩ := Container.classes_withDots
    refine ⟨_, hopen "a.dex" _ (Or.inl ⟨rfl, rfl⟩), _, hbytes, hstopped, ?_⟩
    rw [hclasses]
    intro c hc _ hsafe
    rcases List.mem_pair.mp hc with rfl | rfl
    · exact fits_packageClass
    · exact absurd (by decide) hsafe
  · obtain ⟨hbytes, hstopped, hclasses⟩ := Container.classes_withFinal
    refine ⟨_, hopen "b.dex" _ (Or.inr ⟨rfl, rfl⟩), _, hbytes, hstopped, ?_⟩
    rw [hclasses]
    intro c hc _ _
    rw [List.mem_singleton.mp hc]
    exact fits_packageClass

/-- The path names of their classes. -/
theorem pathFor_twoInputs (flags : Nat) :
    (Router.start Writer.java.extension intoOut.outputDirectory).pathFor Host.withInputs
        (Container.packageClass flags).name = .ok ⟨.relative, ["out", "p", "A.java"]⟩ ∧
      ∃ f, (Router.start Writer.java.extension intoOut.outputDirectory).pathFor Host.withInputs
        Container.dots.name = .error f := by
  let r := Router.start Writer.java.extension intoOut.outputDirectory
  have hfiles : Router.Files ⟨.relative, ["out"]⟩ ["out"] r.extension r (.start .withInputs) :=
    ⟨rfl, rfl, Host.place_out_withInputs, Host.not_overlooks_of_linkFree Host.linkFree_withInputs _,
      .of_empty Host.get?_out_withInputs⟩
  have hcases := hfiles.pathFor ⟨by decide, by decide, by decide⟩ fun _ => fits_packageClass
  rw [if_neg (show ¬Router.IsUnsafe "p.A" by decide)] at hcases
  refine ⟨hcases.trans (congrArg Except.ok ?_), _, Router.pathFor_refused rfl (by decide)⟩
  decide

/-- The files that they make: two under one path name, and none for the class without segments. -/
theorem filesOf_twoInputs :
    filesOf intoOut .java Host.withInputs twoInputs = [1, 17].map fun flags =>
      (⟨.relative, ["out", "p", "A.java"]⟩, (Text.utf8OfText
        (Writer.java.render Selection.default (Container.packageClass flags))).toArray) := by
  have hselects : Glob.accepts "*" "p.A" = true ∧ Glob.accepts "*" "..." = true := by
    decide +kernel
  have hfileOf : ∀ flags, fileOf? intoOut .java Host.withInputs (Container.packageClass flags) =
      some (⟨.relative, ["out", "p", "A.java"]⟩, (Text.utf8OfText
        (Writer.java.render Selection.default (Container.packageClass flags))).toArray) := by
    intro flags
    unfold fileOf?
    rw [if_pos (show intoOut.selects (Container.packageClass flags) = true from hselects.1),
      (pathFor_twoInputs flags).1]
    rfl
  have hnone : fileOf? intoOut .java Host.withInputs Container.dots = none := by
    obtain ⟨-, f, hrefused⟩ := pathFor_twoInputs 0
    unfold fileOf?
    rw [if_pos (show intoOut.selects Container.dots = true from hselects.2), hrefused]
  have hclassesOf : ∀ name data header classes, (name = "a.dex" ∧ data = Container.withDots ∨
      name = "b.dex" ∧ data = Container.withFinal) →
      Container.ofBytes data = .ok (.ofLayout ⟨data, header⟩) →
      (Container.ofLayout ⟨data, header⟩).classes.classes = classes →
      Host.withInputs.classesOf ⟨⟨.relative, [name]⟩, false, name⟩ = classes := by
    intro name data header classes hinput hbytes hclasses
    unfold Host.classesOf Host.openContainer Host.contentOf
    rw [Host.place_withInputs hinput]
    dsimp only
    rw [hbytes]
    exact hclasses
  obtain ⟨hbytes₁, -, hclasses₁⟩ := Container.classes_withDots
  obtain ⟨hbytes₂, -, hclasses₂⟩ := Container.classes_withFinal
  unfold filesOf twoInputs
  rw [List.flatMap_cons, List.flatMap_singleton,
    hclassesOf "a.dex" _ _ _ (Or.inl ⟨rfl, rfl⟩) hbytes₁ hclasses₁,
    hclassesOf "b.dex" _ _ _ (Or.inr ⟨rfl, rfl⟩) hbytes₂ hclasses₂]
  simp only [List.cons_append, List.nil_append, List.filterMap_cons, hfileOf, hnone,
    List.filterMap_nil, List.map_cons, List.map_nil]

/-- Two inputs with a class `p.A` each, whose texts are different: both are written, the file below
the new directory of the package has the text of the second one, and a class between them that has
no segments in its name is passed over. -/
theorem last_write_wins_twoInputs :
    let dumped := run intoOut .java Host.openContainer (.start .withInputs) twoInputs
    Host.withInputs.tree.LinkFree ∧ dumped.1 = .ok () ∧ totalWritten dumped.2.1 = 2 ∧
      dumped.2.2.session.host.contentOf ⟨.relative, ["out", "p", "A.java"]⟩ =
        .ok (Text.utf8OfText
          (Writer.java.render Selection.default (Container.packageClass 17))).toArray := by
  have hends : (run intoOut .java Host.openContainer (.start .withInputs) twoInputs).1 = .ok () :=
    run_ends rfl Host.linkFree_withInputs Host.place_out_withInputs Host.get?_out_withInputs
      fun entry hentry =>
        ⟨resolving_twoInputs.isInputFile entry hentry, openContainer_twoInputs hentry⟩
  obtain ⟨root, temporaries, -, -, htotal, hafter⟩ :=
    last_write_wins Host.linkFree_withInputs resolving_twoInputs (fun _ h => h) rfl
      (Host.isDirectory_eq_true_iff.mpr ⟨_, Host.place_out_withInputs⟩) .java hends
  rw [Session.host_start, filesOf_twoInputs] at htotal hafter
  exact ⟨Host.linkFree_withInputs, hends, htotal,
    hafter.last [_] _ _ [] rfl fun _ hlater => absurd hlater List.not_mem_nil⟩

end Dump

end DexListing
