import Mathlib.Data.List.Dedup
import DexListing.Proofs.Run.InputResults

/-!
# Classes that share a file

The file of a class is named after the segments of its name that are not empty. Two classes with the
same segments share a file, and the text of the one that is written later replaces that of the
earlier one; every class is counted all the same. So a dump into an empty directory leaves as many
files as there are different sequences of segments among the classes that it writes, and no class is
lost exactly if these are all different (`Dump.run_files`).

What is carried over the classes and inputs of a dump is which files stand below the output
directory: for all names those of the last class with these names (`Dump.Holds`).
-/

set_option autoImplicit false

namespace DexListing

/-! ## The files below a location -/

namespace FileTree

/-- There is a file at a location. -/
def isFileAt (t : FileTree) (l : Location) : Bool :=
  match t.get? l with
  | some (.file _) => true
  | _ => false

/-- The locations of the files below a location. -/
def filesBelow (t : FileTree) (root : Location) : List Location :=
  ((t.nodes.map Prod.fst).filter fun l => root.isPrefixOf l && t.isFileAt l).dedup

variable {t : FileTree} {root l : Location}

/-- A place holds a file if it has some content. -/
theorem isFileAt_iff : t.isFileAt l = true ↔ ∃ content, t.get? l = some (.file content) := by
  unfold isFileAt
  split
  · next content hfile => exact iff_of_true rfl ⟨content, hfile⟩
  · next hother =>
    refine iff_of_false Bool.false_ne_true ?_
    rintro ⟨content, hfile⟩
    exact hother content hfile

/-- The files below a place are those that can be found there. -/
theorem mem_filesBelow :
    l ∈ t.filesBelow root ↔ root <+: l ∧ ∃ content, t.get? l = some (.file content) := by
  unfold filesBelow
  rw [List.mem_dedup, List.mem_filter, Bool.and_eq_true, List.isPrefixOf_iff_prefix, isFileAt_iff]
  refine ⟨And.right, fun h => ⟨?_, h⟩⟩
  obtain ⟨-, content, hfile⟩ := h
  unfold get? at hfile
  split at hfile
  · exact nomatch hfile
  · obtain ⟨entry, hentry, hkey⟩ := List.mem_map.mp (OrderedMap.mem_keys_of_find? hfile)
    refine List.mem_map.mpr ⟨(entry.1.reverse, entry.2), List.mem_map_of_mem hentry, ?_⟩
    rw [hkey, List.reverse_reverse]

/-- Each file is counted once. -/
theorem nodup_filesBelow (t : FileTree) (root : Location) : (t.filesBelow root).Nodup :=
  List.nodup_dedup _

end FileTree

/-! ## The names of the file of a class -/

/-- The names on the way from the output directory to the file of a class. -/
def Writer.fileNames (w : Writer) (c : ClassInfo) : List String :=
  Router.fileParts w.extension (Text.segments '.' c.name)

/-- Files with an extension have the same names only for the same parts. -/
theorem Router.fileParts_inj (extension : String) :
    Function.Injective (fileParts extension) := by
  intro parts others h
  by_cases hparts : parts = []
  · by_cases hothers : others = []
    · rw [hparts, hothers]
    · rw [hparts] at h
      exact absurd h.symm (fileParts_ne_nil hothers)
  · by_cases hothers : others = []
    · rw [hothers] at h
      exact absurd h (fileParts_ne_nil hparts)
    · rw [fileParts_eq hparts, fileParts_eq hothers] at h
      obtain ⟨hinit, hlast⟩ := List.append_inj' h rfl
      have hlast' := (String.append_left_inj extension).mp (List.singleton_inj.mp hlast)
      rw [← List.dropLast_concat_getLast hparts, ← List.dropLast_concat_getLast hothers, hinit,
        hlast']

/-- Classes share a file exactly if their names have the same segments. -/
theorem Writer.fileNames_eq_iff (w : Writer) {c c' : ClassInfo} :
    w.fileNames c = w.fileNames c' ↔ Text.segments '.' c.name = Text.segments '.' c'.name :=
  (Router.fileParts_inj w.extension).eq_iff

namespace Dump

variable {config : Config} {writer : Writer} {s : Session} {D : PathName} {root : Location}
  {classes : List ClassInfo} {d d' : Dump}

/-! ## The last class of some names -/

/-- The content of the file of a class. -/
def contentFor (config : Config) (writer : Writer) (c : ClassInfo) : Bytes :=
  (Text.utf8OfText (writer.render config.selection c)).toArray

/-- The content of the file with some names after classes have been written: that of the last class
with these names. -/
def lastContent (config : Config) (writer : Writer) (classes : List ClassInfo)
    (names : List String) : Option Bytes :=
  (classes.reverse.find? fun c => writer.fileNames c = names).map (contentFor config writer)

/-- The last class with a file gives the content of that file. -/
theorem lastContent_concat (config : Config) (writer : Writer) (classes : List ClassInfo)
    (c : ClassInfo) (names : List String) :
    lastContent config writer (classes ++ [c]) names =
      if writer.fileNames c = names then some (contentFor config writer c)
      else lastContent config writer classes names := by
  unfold lastContent
  rw [List.reverse_concat, List.find?_cons]
  by_cases hnames : writer.fileNames c = names <;> simp [hnames]

/-- There is a last class of some names exactly if there is any. -/
theorem exists_lastContent {names : List String} :
    (∃ content, lastContent config writer classes names = some content) ↔
      ∃ c ∈ classes, writer.fileNames c = names := by
  unfold lastContent
  rw [← Option.isSome_iff_exists, Option.isSome_map, List.find?_isSome]
  simp

/-- A class after which no other one has its names is the last one. -/
theorem lastContent_of_last {earlier later : List ClassInfo} {c : ClassInfo}
    (hlater : ∀ c' ∈ later, writer.fileNames c' ≠ writer.fileNames c) :
    lastContent config writer (earlier ++ c :: later) (writer.fileNames c) =
      some (contentFor config writer c) := by
  have hnone : later.reverse.find? (fun c' => writer.fileNames c' = writer.fileNames c) = none := by
    rw [List.find?_eq_none]
    intro c' hc'
    simpa using hlater c' (List.mem_reverse.mp hc')
  unfold lastContent
  rw [List.reverse_append, List.reverse_cons, List.append_assoc, List.find?_append, hnone]
  simp

/-! ## One class -/

/-- The class matches and has a safe name. -/
def wanted (config : Config) (c : ClassInfo) : Bool :=
  config.selects c && !decide (Router.IsUnsafe c.name)

/-- So many files have been written, and below a root there are the files of the classes, each one
with the text of the last class. -/
structure Holds (config : Config) (writer : Writer) (root : Location) (classes : List ClassInfo)
    (d : Dump) : Prop where
  count : d.router.filesWritten = classes.length
  files : ∀ names content, d.session.host.tree.get? (root ++ names) = some (.file content) ↔
    lastContent config writer classes names = some content

/-- A router that has not been used, and an empty directory. -/
theorem Holds.start (config : Config) (writer : Writer)
    (hthere : s.host.tree.get? root = some .directory)
    (hempty : ∀ name, s.host.tree.get? (root ++ [name]) = none) :
    Holds config writer root [] (start config writer s) := by
  refine ⟨rfl, fun names content => iff_of_false ?_ nofun⟩
  intro hfile
  cases names with
  | nil =>
    rw [List.append_nil] at hfile
    exact nomatch hthere.symm.trans hfile
  | cons name names =>
    have hnone := FileTree.get?_append_of_none (hempty name) names
    rw [List.append_assoc] at hnone
    exact nomatch hnone.symm.trans hfile

/-- One more file below the root is that of one more class. -/
theorem Holds.wrote {written : Dump} (hholds : Holds config writer root classes d) (c : ClassInfo)
    (hwrote : d.session.host.Wrote written.session.host root (writer.fileNames c)
      (contentFor config writer c))
    (hcount : written.router.filesWritten = d.router.filesWritten + 1) :
    Holds config writer root (classes ++ [c]) written := by
  refine ⟨?_, fun names content => ?_⟩
  · rw [hcount, hholds.count, List.length_append]
    rfl
  rw [lastContent_concat]
  by_cases hnames : writer.fileNames c = names
  · subst hnames
    rw [hwrote.get?, if_pos rfl, if_pos rfl, Option.some_inj, Option.some_inj]
    exact ⟨Node.file.inj, congrArg Node.file⟩
  · rw [if_neg hnames, ← hholds.files]
    refine ⟨fun hfile => ?_, fun hfile => hwrote.get?_of_file hfile (Ne.symm hnames)⟩
    rw [hwrote.get?, if_neg fun heq => hnames (List.append_cancel_left heq).symm] at hfile
    split at hfile
    · exact nomatch hfile
    · exact hfile

/-- A class without a path name does not match or has an unsafe name, if it does not end the dump: a
safe name lacks one only because of a zero character, and then the dump would have ended. -/
theorem wanted_eq_false (hthere : s.host.place .target D = .ok (.existing root .directory))
    (hsees : ¬s.host.Overlooks D) (hfree : s.host.tree.LinkFreeBelow root)
    (hd : IntoDirectory s D writer.extension d)
    {c : ClassInfo} {written : Bool}
    (hpath : config.selects c = true → ∃ f, d.router.pathFor d.session.host c.name = .error f)
    (hclass : dumpClass config writer d c = (.ok written, d')) : wanted config c = false := by
  have hthere' := hd.retains.keeps.grows.place_directory hthere
  have hsees' := (hd.retains.keeps.grows.overlooks_iff D).not.mpr hsees
  have hslash : Text.holds d.router.extension '/' = false :=
    hd.extension ▸ writer.slashFree_extension
  by_contra htrue
  obtain ⟨hselects, hsafe⟩ : config.selects c = true ∧ ¬Router.IsUnsafe c.name := by
    simpa [wanted] using htrue
  cases hzero : Text.holds c.name '\x00' with
  | false =>
    have hnul := Router.hasNul_eq_false hthere' (hd.extension ▸ writer.nulFree_extension) hzero
    obtain ⟨f, hfails⟩ := hpath hselects
    rw [Router.pathFor_of_linkFreeBelow hd.directory hslash hsees' hthere'
      (hd.retains.keeps.grows.linkFreeBelow hfree) hsafe hnul] at hfails
    exact nomatch hfails
  | true =>
    have hfails := Router.pathFor_of_nul hd.directory hslash hsees' hthere' hsafe hzero
    rw [dumpClass_of_pathFor_error hd.directory hselects hfails] at hclass
    exact nomatch (Prod.mk.inj hclass).1

/-- One class, if it does not end the dump: it is written if it matches and has a safe name. -/
theorem dumpClass_holds (hthere : s.host.place .target D = .ok (.existing root .directory))
    (hsees : ¬s.host.Overlooks D) (hfree : s.host.tree.LinkFreeBelow root)
    (hd : IntoDirectory s D writer.extension d)
    (hholds : Holds config writer root classes d) {c : ClassInfo} {written : Bool}
    (hclass : dumpClass config writer d c = (.ok written, d')) :
    written = wanted config c ∧
      Holds config writer root (classes ++ [c].filter (wanted config)) d' := by
  have hthere' := hd.retains.keeps.grows.place_directory hthere
  have hfree' := hd.retains.keeps.grows.linkFreeBelow hfree
  have hslash : Text.holds d.router.extension '/' = false :=
    hd.extension ▸ writer.slashFree_extension
  have hcount : d'.router.filesWritten = d.router.filesWritten + if written then 1 else 0 := by
    rcases dumpClass_intoDirectory config writer hd.directory c with
      ⟨f, d₁, hfails, -⟩ | ⟨-, d₁, hgoes, -, hcount⟩
    · rw [hfails] at hclass
      exact nomatch (Prod.mk.inj hclass).1
    · rw [hgoes] at hclass
      obtain ⟨hwritten, rfl⟩ := Prod.mk.inj hclass
      rwa [← Except.ok.inj hwritten]
  rcases dumpClass_eq_ok hd.directory hclass with
    ⟨rfl, hselects, ⟨path, hpath⟩, hdone, hhost⟩ | ⟨rfl, hpath, hhost⟩
  · obtain ⟨hsafe, heq⟩ := Router.eq_of_pathFor hd.directory hslash hpath
    obtain ⟨names, rfl, hwrote, -⟩ :=
      Router.write_wrote hd.directory hslash hfree' hthere' hpath hdone
    obtain rfl : names = writer.fileNames c := by
      rw [hd.extension] at heq
      exact List.append_cancel_left (PathName.mk.inj heq).2
    have hwanted : wanted config c = true := by simp [wanted, hselects, hsafe]
    rw [List.filter_singleton, hwanted]
    exact ⟨rfl, hholds.wrote c (hhost ▸ hwrote) hcount⟩
  · rw [List.filter_singleton, wanted_eq_false hthere hsees hfree hd hpath hclass]
    refine ⟨rfl, ?_⟩
    dsimp only [cond]
    rw [List.append_nil]
    exact ⟨hcount.trans hholds.count, fun names content => hhost ▸ hholds.files names content⟩

/-! ## All classes -/

/-- The classes of an input one after the other. -/
theorem dumpClasses_holds (hthere : s.host.place .target D = .ok (.existing root .directory))
    (hsees : ¬s.host.Overlooks D) (hfree : s.host.tree.LinkFreeBelow root)
    (hd : IntoDirectory s D writer.extension d)
    (hholds : Holds config writer root classes d) {more : List ClassInfo} {count : Nat}
    (hclasses : dumpClasses config writer d more = (.ok count, d')) :
    count = (more.filter (wanted config)).length ∧
      Holds config writer root (classes ++ more.filter (wanted config)) d' := by
  induction more generalizing d classes count with
  | nil =>
    obtain ⟨hcount, rfl⟩ := Prod.mk.inj hclasses
    rw [List.filter_nil, List.append_nil]
    exact ⟨(Except.ok.inj hcount).symm, hholds⟩
  | cons c rest ih =>
    have hfirst := (intoDirectory_invariant s D writer.extension).dumpClass config writer hd c
    unfold dumpClasses at hclasses
    split at hclasses
    · exact nomatch (Prod.mk.inj hclasses).1
    · next written d₁ hclass =>
      rw [hclass] at hfirst
      obtain ⟨rfl, hone⟩ := dumpClass_holds hthere hsees hfree hd hholds hclass
      split at hclasses
      · exact nomatch (Prod.mk.inj hclasses).1
      · next counted d₂ hrest =>
        obtain ⟨hcount, rfl⟩ := Prod.mk.inj hclasses
        obtain ⟨hcounted, hall⟩ := ih hfirst hone hrest
        have hcons : (c :: rest).filter (wanted config) =
            [c].filter (wanted config) ++ rest.filter (wanted config) := by
          rw [← List.filter_append, List.singleton_append]
        rw [hcons, ← List.append_assoc, List.length_append, ← hcounted, ← Except.ok.inj hcount,
          Nat.add_comm]
        refine ⟨?_, hall⟩
        cases hwanted : wanted config c <;> simp [hwanted]

/-- The classes of the container that an input is opened as. -/
def classesAt (opener : Opener) (h : Host) (entry : InputEntry) : List ClassInfo :=
  match opener h entry.path with
  | .error _ => []
  | .ok data =>
    match Container.ofBytes data with
    | .error _ => []
    | .ok container => container.classes.classes

/-- An input that is given up leaves the files as they are. -/
theorem Holds.giveUp (hholds : Holds config writer root classes d) {displayName : String}
    {seen written : Nat} {f : Failure} {result : InputResult}
    (h : d.giveUp displayName seen written f = (.ok result, d')) :
    result.classesWritten = written ∧ Holds config writer root classes d' := by
  unfold Dump.giveUp at h
  split at h
  · obtain ⟨hresult, rfl⟩ := Prod.mk.inj h
    exact ⟨by rw [← Except.ok.inj hresult], hholds.count, hholds.files⟩
  · exact nomatch (Prod.mk.inj h).1

/-- One input. -/
theorem dumpInput_holds (hthere : s.host.place .target D = .ok (.existing root .directory))
    (hsees : ¬s.host.Overlooks D) (hfree : s.host.tree.LinkFreeBelow root)
    (hd : IntoDirectory s D writer.extension d)
    (hholds : Holds config writer root classes d) (opener : Opener) {entry : InputEntry}
    {result : InputResult} (hinput : dumpInput config writer opener d entry = (.ok result, d')) :
    let written := (classesAt opener d.session.host entry).filter (wanted config)
    result.classesWritten = written.length ∧ Holds config writer root (classes ++ written) d' := by
  have hP := intoDirectory_invariant s D writer.extension
  have hstarted := hP.report d (.inputStarted entry.displayName entry.path) hd
  have hsame : Holds config writer root classes
      (d.report (.inputStarted entry.displayName entry.path)) := ⟨hholds.count, hholds.files⟩
  unfold classesAt
  unfold dumpInput at hinput
  change (match opener d.session.host entry.path with
    | .error f => _
    | .ok data => _) = _ at hinput
  dsimp only
  cases hcontent : opener d.session.host entry.path with
  | error f =>
    rw [hcontent] at hinput
    rw [List.filter_nil, List.append_nil]
    exact hsame.giveUp hinput
  | ok data =>
    rw [hcontent] at hinput
    dsimp only at hinput ⊢
    cases hbytes : Container.ofBytes data with
    | error e =>
      rw [hbytes] at hinput
      rw [List.filter_nil, List.append_nil]
      exact hsame.giveUp hinput
    | ok container =>
      rw [hbytes] at hinput
      dsimp only
      unfold dumpContainer at hinput
      dsimp only at hinput
      have hbegun := hP.beginInput _ entry.displayName (hP.report _
        (.containerOpened container.header.version container.header.classes.count
          container.header.strings.count) hstarted)
      split at hinput
      · exact nomatch (Prod.mk.inj hinput).1
      · next count d₁ hclasses =>
        obtain ⟨hcount, hall⟩ := dumpClasses_holds hthere hsees hfree hbegun
          ⟨hholds.count, hholds.files⟩ hclasses
        rw [← hcount]
        split at hinput
        · exact hall.giveUp hinput
        · obtain ⟨hresult, rfl⟩ := Prod.mk.inj hinput
          exact ⟨by rw [← Except.ok.inj hresult], hall⟩

/-- The classes that a dump writes, in order. What an input holds is what it is opened as when its
turn has come. -/
def writtenClasses (config : Config) (writer : Writer) (opener : Opener) (d : Dump) :
    List InputEntry → List ClassInfo
  | [] => []
  | entry :: rest =>
    (classesAt opener d.session.host entry).filter (wanted config) ++
      writtenClasses config writer opener (dumpInput config writer opener d entry).2 rest

/-- All inputs of a dump that comes to its end. -/
theorem dumpInputs_holds (hthere : s.host.place .target D = .ok (.existing root .directory))
    (hsees : ¬s.host.Overlooks D) (hfree : s.host.tree.LinkFreeBelow root)
    (hd : IntoDirectory s D writer.extension d)
    (hholds : Holds config writer root classes d) (opener : Opener) {entries : List InputEntry}
    {results : List InputResult}
    (hinputs : dumpInputs config writer opener d entries = (.ok (), results, d')) :
    let written := writtenClasses config writer opener d entries
    totalWritten results = written.length ∧ Holds config writer root (classes ++ written) d' := by
  dsimp only
  induction entries generalizing d classes results with
  | nil =>
    obtain ⟨-, hrest⟩ := Prod.mk.inj hinputs
    obtain ⟨rfl, rfl⟩ := Prod.mk.inj hrest
    rw [writtenClasses, List.append_nil]
    exact ⟨rfl, hholds⟩
  | cons entry rest ih =>
    have hfirst := (intoDirectory_invariant s D writer.extension).dumpInput config writer hd opener
      entry
    unfold dumpInputs at hinputs
    rw [writtenClasses]
    split at hinputs
    · exact nomatch (Prod.mk.inj hinputs).1
    · next result d₁ hinput =>
      rw [hinput] at hfirst ⊢
      obtain ⟨hwritten, hone⟩ := dumpInput_holds hthere hsees hfree hd hholds opener hinput
      rcases hrest : dumpInputs config writer opener d₁ rest with ⟨outcome, more, d₂⟩
      rw [hrest] at hinputs
      obtain ⟨houtcome, hinputs⟩ := Prod.mk.inj hinputs
      obtain ⟨rfl, rfl⟩ := Prod.mk.inj hinputs
      rw [houtcome] at hrest
      obtain ⟨htotal, hall⟩ := ih hfirst hone hrest
      rw [← List.append_assoc, List.length_append, totalWritten, hwritten, htotal]
      exact ⟨rfl, hall⟩

/-! ## Whole dumps -/

/-- The files below the root are as many as there are sequences of segments among the names of the
classes. -/
theorem length_filesBelow {t : FileTree}
    (hfiles : ∀ names content, t.get? (root ++ names) = some (.file content) ↔
      lastContent config writer classes names = some content) :
    (t.filesBelow root).length =
      (classes.map fun c => Text.segments '.' c.name).dedup.length := by
  have hinj : Function.Injective fun parts =>
      root ++ Router.fileParts writer.extension parts :=
    fun _ _ h => Router.fileParts_inj writer.extension (List.append_cancel_left h)
  have hperm : (t.filesBelow root).Perm
      ((classes.map fun c => Text.segments '.' c.name).dedup.map fun parts =>
        root ++ Router.fileParts writer.extension parts) := by
    rw [List.perm_ext_iff_of_nodup (t.nodup_filesBelow root) ((List.nodup_dedup _).map hinj)]
    intro l
    rw [FileTree.mem_filesBelow, List.mem_map]
    constructor
    · rintro ⟨⟨names, rfl⟩, content, hfile⟩
      obtain ⟨c, hc, rfl⟩ := exists_lastContent.mp ⟨content, (hfiles names content).mp hfile⟩
      exact ⟨_, List.mem_dedup.mpr (List.mem_map_of_mem hc), rfl⟩
    · rintro ⟨parts, hparts, rfl⟩
      obtain ⟨c, hc, rfl⟩ := List.mem_map.mp (List.mem_dedup.mp hparts)
      obtain ⟨content, hlast⟩ := exists_lastContent.mpr ⟨c, hc, rfl⟩
      exact ⟨List.prefix_append _ _, content, (hfiles _ content).mpr hlast⟩
  rw [hperm.length_eq, List.length_map]

/-- Events that are reported come after those reported before. -/
theorem events_foldl_report (d : Dump) (events : List Event) :
    (events.foldl report d).session.events = d.session.events ++ events := by
  induction events generalizing d with
  | nil => exact (List.append_nil _).symm
  | cons e rest ih =>
    rw [List.foldl_cons, ih, report, Session.events_report, List.append_assoc,
      List.singleton_append]

/-- After a dump into an empty directory that comes to its end, the files below it are those of the
classes written. -/
theorem run_holds {temporaries : List Location} (hD : config.outputDirectory = some D)
    (hthere : s.host.place .target D = .ok (.existing root .directory))
    (hsees : ¬s.host.Overlooks D) (hempty : ∀ name, s.host.tree.get? (root ++ [name]) = none)
    (howns : s.Owns temporaries)
    (writer : Writer) (opener : Opener) (entries : List InputEntry)
    (hends : (run config writer opener s entries).1 = .ok ()) :
    let written := writtenClasses config writer opener (start config writer s) entries
    let after := (run config writer opener s entries).2
    totalWritten after.1 = written.length ∧
      .filesWritten written.length D ∈ after.2.session.events ∧
      ∀ names content, after.2.session.host.tree.get? (root ++ names) = some (.file content) ↔
        lastContent config writer written names = some content := by
  have hroot := (Host.walks_of_place hthere).2.get?_existing
  have hstart : IntoDirectory s D writer.extension (start config writer s) :=
    ⟨hD, rfl, ⟨rfl, .refl s.host⟩⟩
  have hnothing := Holds.start (s := s) config writer hroot hempty
  have hd := (intoDirectory_invariant s D writer.extension).dumpInputs config writer hstart opener
    entries
  have hhost := run_host config writer opener s entries
  dsimp only
  rw [hhost]
  unfold run at hends ⊢
  rcases hinputs : dumpInputs config writer opener (start config writer s) entries with
    ⟨outcome, results, d⟩
  rw [hinputs] at hends hd
  cases outcome with
  | error f => exact nomatch hends
  | ok _ =>
    obtain ⟨htotal, hholds⟩ := dumpInputs_holds hthere hsees
      ((FileTree.Separated.of_empty hempty).linkFreeBelow hroot) hstart hnothing opener hinputs
    rw [List.nil_append] at hholds
    refine ⟨htotal, ?_, fun names content => ?_⟩
    · dsimp only
      rw [events_foldl_report]
      refine List.mem_append_right _ ?_
      unfold summary
      dsimp only
      rw [hd.directory, hholds.count]
      simp
    · -- A temporary file is not below the directory, which was empty at first.
      have hother : root ++ names ∉ temporaries := by
        intro hmem
        obtain ⟨path, -, old, hentry⟩ := Host.IsFileAt.exists_path howns.standing hmem
        have hfile := (Host.walks_of_place hentry).2.get?_existing
        exact nomatch (hnothing.files names old).mp hfile
      have howns' := howns.of_keeps hd.retains.temporaries hd.retains.keeps
      rw [howns'.get?_cleanUp, if_neg hother]
      exact hholds.files names content

/-- What a dump leaves below a directory that was empty at first, if it comes to its end. It writes
the classes that match and have a safe name, and their number is what the results and the log say. A
class has its file, with its text, if no later one has the same segments in its name. There are as
many files as there are sequences of segments among the classes written; so these are as many as the
classes exactly if no two classes have the same segments. -/
theorem run_files {temporaries : List Location} (hD : config.outputDirectory = some D)
    (hthere : s.host.place .target D = .ok (.existing root .directory))
    (hsees : ¬s.host.Overlooks D) (hempty : ∀ name, s.host.tree.get? (root ++ [name]) = none)
    (howns : s.Owns temporaries)
    (writer : Writer) (opener : Opener) (entries : List InputEntry)
    (hends : (run config writer opener s entries).1 = .ok ()) :
    let written := writtenClasses config writer opener (start config writer s) entries
    let segments := written.map fun c => Text.segments '.' c.name
    let after := (run config writer opener s entries).2
    let tree := after.2.session.host.tree
    totalWritten after.1 = written.length ∧
      .filesWritten written.length D ∈ after.2.session.events ∧
      (∀ earlier c later, written = earlier ++ c :: later →
        (∀ c' ∈ later, Text.segments '.' c'.name ≠ Text.segments '.' c.name) →
        tree.get? (root ++ writer.fileNames c) = some (.file (contentFor config writer c))) ∧
      (tree.filesBelow root).length = segments.dedup.length ∧
      ((tree.filesBelow root).length = written.length ↔ segments.Nodup) := by
  obtain ⟨htotal, hlog, hfiles⟩ := run_holds hD hthere hsees hempty howns writer opener entries hends
  have hcount := length_filesBelow hfiles
  refine ⟨htotal, hlog, ?_, hcount, ?_⟩
  · intro earlier c later hsplit hlater
    rw [hfiles, hsplit]
    exact lastContent_of_last fun c' hc' hnames => hlater c' hc' (writer.fileNames_eq_iff.mp hnames)
  · rw [hcount, ← List.dedup_eq_self]
    constructor
    · intro hlength
      exact (List.dedup_sublist _).eq_of_length (hlength.trans (List.length_map _).symm)
    · intro hsame
      rw [hsame, List.length_map]

/-! ## The same class twice, and two classes -/

/-- Inputs that can be dumped whatever stands on the host: into an empty directory they are dumped
to the end. -/
theorem run_ends_of_files {opener : Opener} {entries : List InputEntry}
    (hopen : ∀ h, ∀ entry ∈ entries,
      ∃ data, opener h entry.path = .ok data ∧ Fitting config writer D data)
    (hfiles : Router.Files D root writer.extension (start config writer s).router s) :
    (run config writer opener s entries).1 = .ok () := by
  rw [run_outcome]
  exact dumpInputs_of_files (fun _ _ _ _ _ _ _ => trivial)
    (fun d entry hentry _ => hopen d.session.host entry hentry) trivial hfiles

/-- The only class of the container `oneClass`. -/
def classA : ClassInfo := ⟨"A", 1, none, [], none, [], [], []⟩

/-- The container is read to its end and has one class. -/
theorem classes_oneClass :
    Container.ofBytes Container.oneClass =
        .ok (.ofLayout ⟨Container.oneClass, Container.oneClassHeader⟩) ∧
      (Container.ofLayout ⟨Container.oneClass, Container.oneClassHeader⟩).classes.classes =
        [classA] ∧
      (Container.ofLayout ⟨Container.oneClass, Container.oneClassHeader⟩).classes.stopped =
        none :=
  ⟨Container.ofBytes_of_header Container.header_oneClass, by decide +kernel, by decide +kernel⟩

/-- The container `oneClass` can be dumped by every writer. -/
theorem fitting_oneClass (writer : Writer) :
    Fitting intoOut writer ⟨.relative, ["out"]⟩ Container.oneClass := by
  obtain ⟨hbytes, hclasses, hstopped⟩ := classes_oneClass
  refine ⟨_, hbytes, hstopped, ?_⟩
  rw [hclasses]
  intro c hc _ _
  rw [List.mem_singleton.mp hc]
  show Router.Fits writer.extension _ "A"
  cases writer <;> exact ⟨by decide, by decide, by decide⟩

/-- The directory `out` of the host with a container is empty. -/
theorem files_withContainer (writer : Writer) : Router.Files ⟨.relative, ["out"]⟩ ["out"]
    writer.extension (start intoOut writer (.start .withContainer)).router
    (.start .withContainer) :=
  ⟨rfl, rfl, Host.place_out, Host.not_overlooks_of_linkFree Host.linkFree_withContainer _,
    .of_empty Host.get?_out⟩

/-- A dump of inputs that all have the class `A` comes to its end. -/
theorem run_oneClass (writer : Writer) (entries : List InputEntry) :
    (run intoOut writer (fun _ _ => .ok Container.oneClass) (.start .withContainer) entries).1 =
      .ok () :=
  run_ends_of_files (fun _ _ _ => ⟨_, rfl, fitting_oneClass writer⟩) (files_withContainer writer)

/-- Every input has this one class. -/
theorem classesAt_oneClass (h : Host) (entry : InputEntry) :
    classesAt (fun _ _ => .ok Container.oneClass) h entry = [classA] := by
  obtain ⟨hbytes, hclasses, -⟩ := classes_oneClass
  unfold classesAt
  dsimp only
  rw [hbytes]
  exact hclasses

/-- Nothing is temporary at first. -/
theorem owns_start (h : Host) : (Session.start h).Owns [] := ⟨.nil, List.nodup_nil⟩

/-- One path name opens the container of `p.A`, all others that of `A`. -/
def twoContainers : Opener := fun _ path =>
  .ok (if path = ⟨.relative, ["b.dex"]⟩ then Container.withFinal else Container.oneClass)

/-- The second input has the class in a package, and the first one has the other class. -/
theorem classesAt_twoContainers (h : Host) (entry : InputEntry) :
    classesAt twoContainers h entry =
      if entry.path = ⟨.relative, ["b.dex"]⟩ then [Container.packageClass 17] else [classA] := by
  obtain ⟨hbytes, hclasses, -⟩ := classes_oneClass
  obtain ⟨hbytes', -, hclasses'⟩ := Container.classes_withFinal
  unfold classesAt twoContainers
  dsimp only
  by_cases hpath : entry.path = ⟨.relative, ["b.dex"]⟩
  · rw [if_pos hpath, if_pos hpath, hbytes']
    exact hclasses'
  · rw [if_neg hpath, if_neg hpath, hbytes]
    exact hclasses

/-- Both containers can be dumped. -/
theorem fitting_twoContainers (path : PathName) (h : Host) :
    ∃ data, twoContainers h path = .ok data ∧
      Fitting intoOut .java ⟨.relative, ["out"]⟩ data := by
  refine ⟨_, rfl, ?_⟩
  split
  · obtain ⟨hbytes, hstopped, hclasses⟩ := Container.classes_withFinal
    refine ⟨_, hbytes, hstopped, ?_⟩
    rw [hclasses]
    intro c hc _ _
    rw [List.mem_singleton.mp hc]
    exact fits_packageClass
  · exact fitting_oneClass .java

/-- Two classes with different names make two files. A class that comes twice makes one, whatever
the number of classes written is. -/
theorem run_files_twoContainers :
    let apart := run intoOut .java twoContainers (.start .withContainer) twoInputs
    let shared :=
      run intoOut .plain (fun _ _ => .ok Container.oneClass) (.start .withContainer) twoInputs
    (apart.1 = .ok () ∧ totalWritten apart.2.1 = 2 ∧
      (apart.2.2.session.host.tree.filesBelow ["out"]).length = 2) ∧
    (shared.1 = .ok () ∧ totalWritten shared.2.1 = 2 ∧
      (shared.2.2.session.host.tree.filesBelow ["out"]).length = 1) := by
  have hsees := Host.not_overlooks_of_linkFree Host.linkFree_withContainer ⟨.relative, ["out"]⟩
  refine ⟨?_, ?_⟩
  · have hends : (run intoOut .java twoContainers (.start .withContainer) twoInputs).1 = .ok () :=
      run_ends_of_files (fun h entry _ => fitting_twoContainers entry.path h)
        (files_withContainer .java)
    obtain ⟨htotal, -, -, hcount, -⟩ := run_files rfl Host.place_out hsees Host.get?_out
      (owns_start _) .java twoContainers twoInputs hends
    refine ⟨hends, ?_⟩
    rw [htotal, hcount]
    simp only [twoInputs, writtenClasses, classesAt_twoContainers]
    decide +kernel
  · have hends := run_oneClass .plain twoInputs
    obtain ⟨htotal, -, -, hcount, -⟩ := run_files rfl Host.place_out hsees Host.get?_out
      (owns_start _) .plain (fun _ _ => .ok Container.oneClass) twoInputs hends
    refine ⟨hends, ?_⟩
    rw [htotal, hcount]
    simp only [twoInputs, writtenClasses, classesAt_oneClass]
    decide +kernel

/-- The same class from two inputs: two classes are written, and there is one file. -/
theorem run_sameClass :
    let dumped := run intoOut .plain (fun _ _ => .ok Container.oneClass) (.start .withContainer)
      [⟨⟨.relative, ["a.dex"]⟩, false, "a.dex"⟩, ⟨⟨.relative, ["b.dex"]⟩, false, "b.dex"⟩]
    Host.withContainer.place .target ⟨.relative, ["out"]⟩ = .ok (.existing ["out"] .directory) ∧
      (∀ name, Host.withContainer.tree.get? (["out"] ++ [name]) = none) ∧
      dumped.1 = .ok () ∧ totalWritten dumped.2.1 = 2 ∧
      (dumped.2.2.session.host.tree.filesBelow ["out"]).length = 1 := by
  refine ⟨Host.place_out, Host.get?_out, run_oneClass _ _, ?_⟩
  obtain ⟨htotal, -, hfiles⟩ := run_holds rfl Host.place_out
    (Host.not_overlooks_of_linkFree Host.linkFree_withContainer _) Host.get?_out (owns_start _)
    .plain (fun _ _ => .ok Container.oneClass)
    [⟨⟨.relative, ["a.dex"]⟩, false, "a.dex"⟩, ⟨⟨.relative, ["b.dex"]⟩, false, "b.dex"⟩]
    (run_oneClass _ _)
  rw [htotal, length_filesBelow hfiles]
  rw [writtenClasses, classesAt_oneClass, writtenClasses, classesAt_oneClass, writtenClasses]
  decide +kernel

end Dump

end DexListing
