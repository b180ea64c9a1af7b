import DexListing.Proofs.Run.Banners
import DexListing.Proofs.Run.LastWrites
import DexListing.Proofs.Run.ScanAgain

/-!
# Dumping the same inputs again

A dump into a directory that comes to its end does so again on a host that has its files already:
each class has the path name that it had, the directories above its file need not be made, and a
file that is there can be written again (`Router.write_again`). So both dumps go side by side, class
by class and input by input (`Dump.dumpInputs_again`), and leave the same files. A location that the
second dump could change is that of such a file, or of a directory above one, and both were there
before it (`Host.AfterFiles.get?_again`).
-/

set_option autoImplicit false

namespace DexListing

/-! ## Files that are there -/

namespace Host

variable {h h' : Host} {p : PathName} {content : Bytes}

/-- A path name that leads to a file leads to one as long as every node keeps its kind. -/
theorem Keeps.exists_contentOf (hkeeps : h.Keeps h') (hcontent : h.contentOf p = .ok content) :
    ∃ now, h'.contentOf p = .ok now := by
  obtain ⟨l, hplace⟩ := place_of_contentOf hcontent
  obtain ⟨now, hnow⟩ := hkeeps.files l content (walks_of_place hplace).2.get?_existing
  exact ⟨now, contentOf_of_place (place_of_grows hplace hkeeps.grows (fun _ => nofun) hnow)⟩

/-- The content under a path name is that of the file at its real path. -/
theorem get?_of_contentOf (hfree : h.tree.LinkFree) (hcontent : h.contentOf p = .ok content)
    {l : Location} (hreal : h.realPath p = .ok l) : h.tree.get? l = some (.file content) := by
  obtain ⟨l', hplace⟩ := place_of_contentOf hcontent
  rw [realPath_of_place_linkFree hfree hplace] at hreal
  rw [← Except.ok.inj hreal]
  exact (walks_of_place hplace).2.get?_existing

end Host

/-- On a host without links a class whose file is there is written again. -/
theorem Router.write_again {r : Router} {s : Session} {D : PathName}
    (hdir : r.directory = some D) (hslash : Text.holds r.extension '/' = false)
    (hfree : s.host.tree.LinkFree) {className : String} {path : PathName}
    (hpath : r.pathFor s.host className = .ok path) {old : Bytes}
    (hcontent : s.host.contentOf path = .ok old) (text : String) :
    (r.write s className ⟨text, none⟩).outcome = .ok () := by
  obtain ⟨names, rfl, hne, hnames⟩ := names_of_pathFor hdir (not_up_of_slashFree hslash) hpath
  obtain ⟨init, last, rfl⟩ := List.eq_nil_or_concat' names |>.resolve_left hne
  have hlast := hnames last List.mem_concat_self
  rw [← List.append_assoc] at hcontent hpath
  obtain ⟨hensure, hstore⟩ := Host.storeContent_again hfree hlast hcontent
  obtain ⟨stored, hstored⟩ := hstore (Text.utf8OfText text).toArray
  have hparent : (PathName.mk D.root (D.parts ++ init ++ [last])).parent =
      ⟨D.root, D.parts ++ init⟩ :=
    congrArg (PathName.mk D.root) List.dropLast_concat
  unfold write
  rw [hdir]
  dsimp only
  rw [hpath]
  dsimp only
  unfold toFile
  rw [hparent, hensure]
  dsimp only
  rw [hstored]

/-! ## The inputs of two dumps -/

namespace Dump

/-- Neither of two hosts has links, and a directory is at the same location on both. -/
structure SameDirectory (D : PathName) (root : Location) (h h' : Host) : Prop where
  linkFree : h.tree.LinkFree
  linkFree' : h'.tree.LinkFree
  workingDirectory : h'.workingDirectory = h.workingDirectory
  place : h.place .target D = .ok (.existing root .directory)
  place' : h'.place .target D = .ok (.existing root .directory)

variable {config : Config} {writer : Writer} {s s' : Session} {D : PathName} {root : Location}
  {files : List (PathName × Bytes)} {d d' d₁ : Dump}

/-- The file of a class is the same on both hosts. -/
theorem SameDirectory.fileOf?_eq (hsame : SameDirectory D root s.host s'.host) (config : Config)
    (writer : Writer) : fileOf? config writer s'.host = fileOf? config writer s.host := by
  funext c
  unfold fileOf?
  rw [Router.pathFor_of_linkFree rfl rfl hsame.linkFree hsame.linkFree' hsame.workingDirectory]

/-- A class whose file is there is written. -/
theorem dumpClass_of_contentOf (hfree : s.host.tree.LinkFree)
    (hd : IntoDirectory s D writer.extension d) {c : ClassInfo}
    (hselects : config.selects c = true) {path : PathName}
    (hpath : d.router.pathFor d.session.host c.name = .ok path) {content : Bytes}
    (hcontent : s.host.contentOf path = .ok content) :
    ∃ d₁, dumpClass config writer d c = (.ok true, d₁) := by
  have hgrows := hd.retains.keeps.grows
  obtain ⟨now, hnow⟩ := hd.retains.keeps.exists_contentOf hcontent
  have hslash : Text.holds d.router.extension '/' = false :=
    hd.extension ▸ writer.slashFree_extension
  have hdone := Router.write_again hd.directory hslash (hgrows.linkFree hfree) hpath hnow
    (writer.render config.selection c)
  unfold Config.selects at hselects
  unfold dumpClass
  rw [if_pos hselects]
  dsimp only
  rw [hdone]
  exact ⟨_, rfl⟩

/-- What becomes of a class that does not end a dump becomes of it in another dump as well, if its
file is there. -/
theorem dumpClass_again (hD : config.outputDirectory = some D)
    (hsame : SameDirectory D root s.host s'.host) (hd : IntoDirectory s D writer.extension d)
    (hd' : IntoDirectory s' D writer.extension d') {c : ClassInfo}
    (hthere : ∀ file, fileOf? config writer s.host c = some file →
      ∃ content, s'.host.contentOf file.1 = .ok content) {written : Bool}
    (hclass : dumpClass config writer d c = (.ok written, d₁)) :
    ∃ d₁', dumpClass config writer d' c = (.ok written, d₁') := by
  have hgrows := hd.retains.keeps.grows
  have hgrows' := hd'.retains.keeps.grows
  have hpath : d'.router.pathFor d'.session.host c.name = d.router.pathFor d.session.host c.name :=
    Router.pathFor_of_linkFree (hd'.directory.trans hd.directory.symm)
      (hd'.extension.trans hd.extension.symm) (hgrows.linkFree hsame.linkFree)
      (hgrows'.linkFree hsame.linkFree')
      (by rw [hgrows'.workingDirectory, hsame.workingDirectory, hgrows.workingDirectory]) c.name
  by_cases hselects : config.selects c = true
  · have hfile := fileOf?_eq hD hsame.linkFree hd c
    rw [if_pos hselects] at hfile
    cases hfound : d.router.pathFor d.session.host c.name with
    | error f =>
      rw [hfound] at hpath
      rw [dumpClass_of_pathFor_error hd.directory hselects hfound] at hclass
      rw [dumpClass_of_pathFor_error hd'.directory hselects hpath]
      split at hclass
      · next hpassed =>
        rw [if_pos hpassed, ← (Prod.mk.inj hclass).1]
        exact ⟨_, rfl⟩
      · exact nomatch (Prod.mk.inj hclass).1
    | ok path =>
      rw [hfound] at hpath hfile
      have hwritten : written = true := by
        rcases dumpClass_eq_ok hd.directory hclass with ⟨hwritten, -⟩ | ⟨-, hnone, -⟩
        · exact hwritten
        · obtain ⟨f, hfault⟩ := hnone hselects
          rw [hfound] at hfault
          exact nomatch hfault
      obtain ⟨content, hcontent⟩ := hthere _ hfile
      rw [hwritten]
      exact dumpClass_of_contentOf hsame.linkFree' hd' hselects hpath hcontent
  · rw [dumpClass_of_not_selects d (by simpa using hselects)] at hclass
    rw [dumpClass_of_not_selects d' (by simpa using hselects), ← (Prod.mk.inj hclass).1]
    exact ⟨_, rfl⟩

/-- The classes of an input one after the other. -/
theorem dumpClasses_again (hD : config.outputDirectory = some D)
    (hsame : SameDirectory D root s.host s'.host) (hd : IntoDirectory s D writer.extension d)
    (hd' : IntoDirectory s' D writer.extension d') {classes : List ClassInfo}
    (hthere : ∀ file ∈ classes.filterMap (fileOf? config writer s.host),
      ∃ content, s'.host.contentOf file.1 = .ok content) {count : Nat}
    (hclasses : dumpClasses config writer d classes = (.ok count, d₁)) :
    ∃ d₁', dumpClasses config writer d' classes = (.ok count, d₁') := by
  induction classes generalizing d d' d₁ count with
  | nil =>
    obtain ⟨hcount, -⟩ := Prod.mk.inj hclasses
    rw [← Except.ok.inj hcount]
    exact ⟨d', rfl⟩
  | cons c rest ih =>
    have hfirst := (intoDirectory_invariant s D writer.extension).dumpClass config writer hd c
    have hfirst' := (intoDirectory_invariant s' D writer.extension).dumpClass config writer hd' c
    rw [List.filterMap_cons] at hthere
    unfold dumpClasses at hclasses ⊢
    split at hclasses
    · exact nomatch (Prod.mk.inj hclasses).1
    · next written d₂ hclass =>
      rw [hclass] at hfirst
      obtain ⟨d₂', hclass'⟩ := dumpClass_again hD hsame hd hd'
        (fun file hfile => hthere file (by rw [hfile]; exact List.mem_cons_self)) hclass
      rw [hclass'] at hfirst'
      split at hclasses
      · exact nomatch (Prod.mk.inj hclasses).1
      · next counted d₃ hrest =>
        obtain ⟨hcount, -⟩ := Prod.mk.inj hclasses
        obtain ⟨d₃', hrest'⟩ := ih hfirst hfirst' (fun file hfile => hthere file (by
          split
          · exact hfile
          · exact List.mem_cons_of_mem _ hfile)) hrest
        rw [hclass']
        dsimp only
        rw [hrest', ← Except.ok.inj hcount]
        exact ⟨_, rfl⟩

/-- An input that is given up without an end of the dump. -/
theorem giveUp_again {displayName : String} {seen written : Nat} {f : Failure}
    {result : InputResult} (h : d.giveUp displayName seen written f = (.ok result, d₁))
    (d' : Dump) : ∃ d₁', d'.giveUp displayName seen written f = (.ok result, d₁') := by
  unfold giveUp at h ⊢
  split at h
  · next hinput =>
    rw [if_pos hinput, ← (Prod.mk.inj h).1]
    exact ⟨_, rfl⟩
  · exact nomatch (Prod.mk.inj h).1

/-- The same input has the same files. -/
theorem SameDirectory.filesOf_eq (hsame : SameDirectory D root s.host s'.host) (config : Config)
    (writer : Writer) {entries entries' : List InputEntry}
    (hentries : List.Forall₂ (s.host.SameInput s'.host) entries entries') :
    filesOf config writer s'.host entries' = filesOf config writer s.host entries := by
  have hclasses : entries'.flatMap s'.host.classesOf = entries.flatMap s.host.classesOf := by
    induction hentries with
    | nil => rfl
    | @cons entry entry' _ _ hentry _ ih =>
      obtain ⟨content, hcontent, hcontent'⟩ := hentry.content
      rw [List.flatMap_cons, List.flatMap_cons, ih]
      unfold Host.classesOf
      rw [Host.openContainer_of_contentOf hcontent, Host.openContainer_of_contentOf hcontent']
  unfold filesOf
  rw [hclasses, hsame.fileOf?_eq]

/-- The classes of a container, if their files are there. -/
theorem dumpContainer_again (hD : config.outputDirectory = some D)
    (hsame : SameDirectory D root s.host s'.host) (hd : IntoDirectory s D writer.extension d)
    (hd' : IntoDirectory s' D writer.extension d') {displayName : String} {container : Container}
    (hthere : ∀ file ∈ container.classes.classes.filterMap (fileOf? config writer s.host),
      ∃ content, s'.host.contentOf file.1 = .ok content) {result : InputResult}
    (hcontainer : dumpContainer config writer d displayName container = (.ok result, d₁)) :
    ∃ d₁', dumpContainer config writer d' displayName container = (.ok result, d₁') := by
  have hbegun {s : Session} {d : Dump} (hd : IntoDirectory s D writer.extension d) :=
    (intoDirectory_invariant s D writer.extension).beginInput _ displayName
      ((intoDirectory_invariant s D writer.extension).report d (.containerOpened
        container.header.version container.header.classes.count container.header.strings.count) hd)
  unfold dumpContainer at hcontainer ⊢
  dsimp only at hcontainer ⊢
  split at hcontainer
  · exact nomatch (Prod.mk.inj hcontainer).1
  · next count d₂ hclasses =>
    obtain ⟨d₂', hclasses'⟩ :=
      dumpClasses_again hD hsame (hbegun hd) (hbegun hd') hthere hclasses
    rw [hclasses']
    dsimp only
    cases hstopped : container.classes.stopped with
    | some e =>
      rw [hstopped] at hcontainer
      exact giveUp_again hcontainer d₂'
    | none =>
      rw [hstopped] at hcontainer
      rw [← Except.ok.inj (Prod.mk.inj hcontainer).1]
      exact ⟨d₂', rfl⟩

/-- What becomes of an input that does not end a dump becomes of it in another dump as well, if the
files of its classes are there. -/
theorem dumpInput_again (hD : config.outputDirectory = some D)
    (hsame : SameDirectory D root s.host s'.host) (hd : IntoDirectory s D writer.extension d)
    (hd' : IntoDirectory s' D writer.extension d')
    (hfiles : s.host.Overlays D root writer.extension files d.session.host)
    (hfiles' : s'.host.Overlays D root writer.extension files d'.session.host)
    {entry entry' : InputEntry} (hentry : s.host.IsInputFile entry.path)
    (hentry' : s'.host.IsInputFile entry'.path) (hinputs : s.host.SameInput s'.host entry entry')
    (hthere : ∀ file ∈ filesOf config writer s.host [entry],
      ∃ content, s'.host.contentOf file.1 = .ok content) {result : InputResult}
    (hinput : dumpInput config writer Host.openContainer d entry = (.ok result, d₁)) :
    ∃ d₁', dumpInput config writer Host.openContainer d' entry' = (.ok result, d₁') := by
  obtain ⟨content, hcontent, hcontent'⟩ := hinputs.content
  have hstarted := (intoDirectory_invariant s D writer.extension).report d
    (.inputStarted entry.displayName entry.path) hd
  have hstarted' := (intoDirectory_invariant s' D writer.extension).report d'
    (.inputStarted entry.displayName entry'.path) hd'
  unfold filesOf Host.classesOf at hthere
  rw [List.flatMap_singleton, Host.openContainer_of_contentOf hcontent] at hthere
  unfold dumpInput at hinput ⊢
  rw [hinputs.displayName]
  dsimp only at hinput hthere ⊢
  rw [openContainer_eq hsame.linkFree hstarted hfiles hentry,
    Host.openContainer_of_contentOf hcontent] at hinput
  rw [openContainer_eq hsame.linkFree' hstarted' hfiles' hentry',
    Host.openContainer_of_contentOf hcontent']
  dsimp only at hinput ⊢
  cases hbytes : Container.ofBytes content with
  | error e =>
    rw [hbytes] at hinput
    exact giveUp_again hinput _
  | ok container =>
    rw [hbytes] at hinput hthere
    exact dumpContainer_again hD hsame hstarted hstarted' hthere hinput

/-- All inputs of a dump that comes to its end, in another dump that has their files already. -/
theorem dumpInputs_again (hD : config.outputDirectory = some D)
    (hsame : SameDirectory D root s.host s'.host) {entries entries' : List InputEntry}
    (hinputs : List.Forall₂ (s.host.SameInput s'.host) entries entries')
    (hentries : ∀ entry ∈ entries, s.host.IsInputFile entry.path)
    (hentries' : ∀ entry ∈ entries', s'.host.IsInputFile entry.path)
    (hthere : ∀ file ∈ filesOf config writer s.host entries,
      ∃ content, s'.host.contentOf file.1 = .ok content)
    (hd : IntoDirectory s D writer.extension d) (hd' : IntoDirectory s' D writer.extension d')
    (hfiles : s.host.Overlays D root writer.extension files d.session.host)
    (hfiles' : s'.host.Overlays D root writer.extension files d'.session.host)
    {results : List InputResult}
    (hdumped : dumpInputs config writer Host.openContainer d entries = (.ok (), results, d₁)) :
    ∃ d₁', dumpInputs config writer Host.openContainer d' entries' = (.ok (), results, d₁') := by
  induction hinputs generalizing d d' d₁ files results with
  | nil =>
    obtain ⟨-, hrest⟩ := Prod.mk.inj hdumped
    rw [← (Prod.mk.inj hrest).1]
    exact ⟨d', rfl⟩
  | @cons entry entry' rest rest' hone hmore ih =>
    have hfirst := (intoDirectory_invariant s D writer.extension).dumpInput config writer hd
      Host.openContainer entry
    have hfirst' := (intoDirectory_invariant s' D writer.extension).dumpInput config writer hd'
      Host.openContainer entry'
    rw [filesOf_cons] at hthere
    have hentry := hentries entry List.mem_cons_self
    have hentry' := hentries' entry' List.mem_cons_self
    unfold dumpInputs at hdumped ⊢
    split at hdumped
    · exact nomatch (Prod.mk.inj hdumped).1
    · next result d₂ hinput =>
      obtain ⟨d₂', hinput'⟩ := dumpInput_again hD hsame hd hd' hfiles hfiles' hentry hentry' hone
        (fun file hfile => hthere file (List.mem_append_left _ hfile)) hinput
      obtain ⟨hnext, -⟩ :=
        dumpInput_overlays hD hsame.linkFree hsame.place hd hfiles hentry hinput
      obtain ⟨hnext', -⟩ :=
        dumpInput_overlays hD hsame.linkFree' hsame.place' hd' hfiles' hentry' hinput'
      rw [hsame.filesOf_eq config writer (.cons hone .nil)] at hnext'
      rw [hinput] at hfirst
      rw [hinput'] at hfirst'
      rcases hrest : dumpInputs config writer Host.openContainer d₂ rest with ⟨outcome, more, d₃⟩
      rw [hrest] at hdumped
      obtain ⟨houtcome, hdumped⟩ := Prod.mk.inj hdumped
      obtain ⟨rfl, rfl⟩ := Prod.mk.inj hdumped
      rw [houtcome] at hrest
      obtain ⟨d₃', hrest'⟩ := ih (fun e he => hentries e (List.mem_cons_of_mem _ he))
        (fun e he => hentries' e (List.mem_cons_of_mem _ he))
        (fun file hfile => hthere file (List.mem_append_right _ hfile)) hfirst hfirst' hnext hnext'
        hrest
      rw [hinput']
      dsimp only
      rw [hrest']
      exact ⟨_, rfl⟩

/-! ## What a dump does besides its files -/

/-- Reporting and cleaning up put nothing on the console. -/
theorem run_console_eq (config : Config) (writer : Writer) (opener : Opener) (s : Session)
    (entries : List InputEntry) :
    (run config writer opener s entries).2.2.console =
      (dumpInputs config writer opener (start config writer s) entries).2.2.console := by
  unfold run
  rcases dumpInputs config writer opener (start config writer s) entries with
    ⟨outcome, results, d⟩
  cases outcome with
  | error f => rfl
  | ok _ => exact (foldl_report _ _).1

/-- A dump into a directory, which has put nothing on the console. -/
structure Silent (D : PathName) (d : Dump) : Prop where
  directory : d.router.directory = some D
  console : d.console = ""

/-- Nothing that a dump into a directory does writes onto the console. -/
theorem silent_invariant (D : PathName) : Invariant (Silent D) where
  report _ _ hd := ⟨hd.directory, hd.console⟩
  beginInput _ _ hd := ⟨hd.directory, hd.console⟩
  write d className block hd := by
    refine ⟨(d.router.write_router d.session className block).1.trans hd.directory, ?_⟩
    change d.console ++ (d.router.write d.session className block).console = ""
    rw [hd.console, Router.write_console_of_directory hd.directory, String.append_empty]

/-- A run into a directory prints nothing. -/
theorem run_console_of_directory (hD : config.outputDirectory = some D) (writer : Writer)
    (opener : Opener) (s : Session) (entries : List InputEntry) :
    (run config writer opener s entries).2.2.console = "" := by
  have hstart : Silent D (start config writer s) := ⟨hD, rfl⟩
  rw [run_console_eq]
  exact ((silent_invariant D).dumpInputs config writer hstart opener entries).console

/-- After a dump to the console each location is as it was before the temporary files were made. -/
theorem run_get?_of_console (hD : config.outputDirectory = none) {first : Host}
    {temporaries : List Location} (htracks : Session.Tracks first s temporaries) (writer : Writer)
    (opener : Opener) (entries : List InputEntry) (l : Location) :
    (run config writer opener s entries).2.2.session.host.tree.get? l = first.tree.get? l := by
  have hstart : OnConsole s.host (start config writer s) := ⟨hD, rfl⟩
  have hretains : Retains s (start config writer s) := ⟨rfl, .refl s.host⟩
  have hd := (onConsole_invariant s.host).dumpInputs config writer hstart opener entries
  have hd' := (retains_invariant s).dumpInputs config writer hretains opener entries
  rw [run_host, (htracks.owns.of_keeps hd'.temporaries hd'.keeps).get?_cleanUp]
  by_cases hl : l ∈ temporaries
  · rw [if_pos hl, htracks.fresh l hl]
  · rw [if_neg hl, hd.host, htracks.otherwise l hl]

/-- A dump of input files to the console comes to its end, with the contributions of the inputs. -/
theorem run_console (hD : config.outputDirectory = none) (writer : Writer)
    {entries : List InputEntry} (hentries : ∀ entry ∈ entries, s.host.IsInputFile entry.path) :
    (run config writer Host.openContainer s entries).1 = .ok () ∧
      (run config writer Host.openContainer s entries).2.2.console =
        String.join (entries.map fun entry => (contribution config writer s.host entry).2) := by
  have hnul : ∀ entry ∈ entries, entry.path.hasNul = false := by
    intro entry hentry
    obtain ⟨l, content, hplace⟩ := (hentries entry hentry).file
    exact (Host.walks_of_place hplace).1
  have hdir : (start config writer s).router.directory = none := hD
  obtain ⟨d, hdumped, hconsole, -⟩ := dumpInputs_console config writer hdir entries hnul
  have hends := run_outcome config writer Host.openContainer s entries
  have htext := run_console_eq config writer Host.openContainer s entries
  rw [hdumped] at hends htext
  exact ⟨hends, htext.trans (hconsole.trans String.empty_append)⟩

/-- Inputs that are the same put the same on the console. -/
theorem contribution_eq (config : Config) (writer : Writer) {h h' : Host}
    {entry entry' : InputEntry} (hentry : h.SameInput h' entry entry') :
    (contribution config writer h' entry').2 = (contribution config writer h entry).2 := by
  obtain ⟨content, hcontent, hcontent'⟩ := hentry.content
  obtain ⟨seen, written, error, text, hsame⟩ := contribution_of_content config writer content
  rw [hsame h entry hcontent, hsame h' entry' hcontent', hentry.displayName]

/-- The files of classes have the extension of the writer. -/
theorem suffix_of_mem_filesOf (hD : config.outputDirectory = some D) {h : Host}
    {entries : List InputEntry} {file : PathName × Bytes}
    (hfile : file ∈ filesOf config writer h entries) : file.1.suffix = writer.extension := by
  obtain ⟨c, -, hc⟩ := List.mem_filterMap.mp hfile
  obtain ⟨extension, hextension, hne, hdot⟩ := writer.extension_eq
  unfold fileOf? at hc
  split at hc
  · split at hc
    · exact nomatch hc
    · next path hpath =>
      rw [← Option.some.inj hc]
      exact Router.suffix_of_pathFor hD hextension hne hdot writer.slashFree_extension hpath
  · exact nomatch hc

end Dump

/-! ## The files after both dumps -/

namespace Host.AfterFiles

variable {before again last : Host} {root : Location} {temporaries locations : List Location}
  {files : List (PathName × Bytes)}

/-- Of the files under a path name one is the last. -/
theorem exists_last {files : List (PathName × Bytes)} {path : PathName}
    (hpath : ∃ file ∈ files, file.1 = path) :
    ∃ earlier content later, files = earlier ++ (path, content) :: later ∧
      ∀ file ∈ later, file.1 ≠ path := by
  induction files with
  | nil =>
    obtain ⟨_, hfile, -⟩ := hpath
    exact nomatch hfile
  | cons head rest ih =>
    by_cases hrest : ∃ file ∈ rest, file.1 = path
    · obtain ⟨earlier, content, later, hsplit, hlater⟩ := ih hrest
      exact ⟨head :: earlier, content, later, by rw [hsplit, List.cons_append], hlater⟩
    · obtain ⟨file, hfile, rfl⟩ := hpath
      rcases List.mem_cons.mp hfile with rfl | hfile
      · exact ⟨[], file.2, rest, rfl, fun other hother heq => hrest ⟨other, hother, heq⟩⟩
      · exact absurd ⟨file, hfile, rfl⟩ hrest

/-- Each file that was written is there. -/
theorem exists_contentOf (hafter : before.AfterFiles root temporaries files again)
    {file : PathName × Bytes} (hfile : file ∈ files) :
    ∃ content, again.contentOf file.1 = .ok content := by
  obtain ⟨earlier, content, later, hsplit, hlater⟩ := exists_last ⟨file, hfile, rfl⟩
  exact ⟨content, hafter.last earlier file.1 content later hsplit hlater⟩

/-- A second dump that leaves the same files leaves everything as it is. -/
theorem get?_again {s : Session} (hafter : before.AfterFiles root temporaries files again)
    (htracks : Session.Tracks again s locations)
    (hlast : s.host.AfterFiles root locations files last) (hfree : again.tree.LinkFree)
    (hgrows : s.host.GrowsBelow [] last) (l : Location) : last.tree.get? l = again.tree.get? l := by
  have hgained := growsBelow_of_gainsFiles htracks.workingDirectory htracks.gainsFiles
  have hreal := realPath_of_linkFree hfree (hgained.linkFree hfree) hgained.workingDirectory
  have hfree' := hgrows.linkFree (hgained.linkFree hfree)
  have hreal' := realPath_of_linkFree (hgained.linkFree hfree) hfree' hgrows.workingDirectory
  -- A file that both dumps wrote has the text of its last class after each of them.
  have hwritten : ∀ file ∈ files, ∀ l, s.host.realPath file.1 = .ok l →
      ∃ content, again.tree.get? l = some (.file content) ∧
        last.tree.get? l = some (.file content) := by
    intro file hfile l hl
    obtain ⟨earlier, content, later, hsplit, hlater⟩ := exists_last ⟨file, hfile, rfl⟩
    exact ⟨content,
      get?_of_contentOf hfree (hafter.last earlier file.1 content later hsplit hlater)
        ((hreal _).symm.trans hl),
      get?_of_contentOf hfree' (hlast.last earlier file.1 content later hsplit hlater)
        ((hreal' _).trans hl)⟩
  rcases hlast.frame l with hsame | ⟨hl, hnone⟩ | ⟨file, hfile, hl⟩ |
    ⟨hnone, -, file, hfile, l', hl', -, habove⟩
  · by_cases hl : l ∈ locations
    · rw [hlast.removed l hl, htracks.fresh l hl]
    · rw [hsame, htracks.otherwise l hl]
  · rw [hnone, htracks.fresh l hl]
  · obtain ⟨content, hnow, hthen⟩ := hwritten file hfile l hl
    rw [hnow, hthen]
  · -- No directory is made, since what is above a file is there.
    obtain ⟨content, hnow, -⟩ := hwritten file hfile l' hl'
    have hthere := htracks.gainsFiles.get?_eq hnow
    obtain ⟨more, rfl⟩ := habove
    by_cases hmore : more = []
    · subst hmore
      rw [List.append_nil, hnone] at hthere
      exact nomatch hthere
    · rw [FileTree.get?_of_append hmore hthere] at hnone
      exact nomatch hnone

end Host.AfterFiles

end DexListing
