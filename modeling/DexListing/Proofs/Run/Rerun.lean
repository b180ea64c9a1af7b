import DexListing.Proofs.Run.DumpAgain
import DexListing.Proofs.Run.SharedFiles

/-!
# Running the same command again

A run that succeeds leaves a host on which the same arguments mean the same
(`Dump.Leaves.keepsInputs`): the files of classes have other extensions than inputs have, the
directories that were made are in nobody's way, and the temporary files are gone. So the arguments
come to the same configuration and to the same inputs, and these to the same files, which are there
already: another run succeeds as well, puts out the same and changes nothing
(`CommandLine.run_again`).

This is so as long as the arguments are names that the system takes for entries of directories. A
name that is too long is reported as missing only as long as the directory that it is looked up in
is missing as well; a run that makes this directory is the last one to succeed
(`CommandLine.run_again_longName`).
-/

set_option autoImplicit false

namespace DexListing

/-- Hosts with the same files and the same working directory have the same under a path name. -/
theorem Host.contentOf_congr {h h' : Host} (htree : h'.tree = h.tree)
    (hworking : h'.workingDirectory = h.workingDirectory) (p : PathName) :
    h'.contentOf p = h.contentOf p := by
  unfold contentOf place start
  rw [htree, hworking]

/-! ## The host after a dump -/

namespace Dump

/-- A dump of the inputs of a scan on a host without links has come to its end, and has left the
files of another host. -/
structure Leaves (config : Config) (writer : Writer) (first : Host) (s : Session)
    (entries : List InputEntry) (again : Host) : Prop where
  linkFree : first.tree.LinkFree
  resolving : s.Resolving first entries
  there : ∀ D, config.outputDirectory = some D → s.host.isDirectory D = .ok true
  ends : (run config writer Host.openContainer s entries).1 = .ok ()
  tree : again.tree = (run config writer Host.openContainer s entries).2.2.session.host.tree
  workingDirectory : again.workingDirectory =
    (run config writer Host.openContainer s entries).2.2.session.host.workingDirectory

namespace Leaves

variable {config : Config} {writer : Writer} {first again : Host} {s s' : Session}
  {entries entries' : List InputEntry} {D : PathName}

/-- What a run leaves has grown out of what it found. -/
theorem grows (h : Leaves config writer first s entries again) : first.GrowsBelow [] again := by
  obtain ⟨temporaries, htracks⟩ := h.resolving.tracks
  have hgrows := (Host.growsBelow_of_gainsFiles htracks.workingDirectory htracks.gainsFiles).trans
    (run_grows htracks.owns config writer Host.openContainer entries)
  refine ⟨h.workingDirectory.trans hgrows.workingDirectory, ?_, ?_, ?_⟩
  · rw [h.tree]
    exact hgrows.links
  · rw [h.tree]
    exact hgrows.directories
  · rw [h.tree]
    exact hgrows.outside

/-- The files of a dump into a directory are there. -/
theorem afterFiles (h : Leaves config writer first s entries again)
    (hD : config.outputDirectory = some D) : ∃ root temporaries,
      first.place .target D = .ok (.existing root .directory) ∧
      s.host.place .target D = .ok (.existing root .directory) ∧
      Session.Tracks first s temporaries ∧
      s.host.AfterFiles root temporaries (filesOf config writer s.host entries) again := by
  obtain ⟨temporaries, htracks⟩ := h.resolving.tracks
  have hgrows := Host.growsBelow_of_gainsFiles htracks.workingDirectory htracks.gainsFiles
  have hdir := h.there D hD
  rw [Host.isDirectory_of_gainsFiles htracks.workingDirectory htracks.gainsFiles] at hdir
  obtain ⟨root, hplace⟩ := Host.isDirectory_eq_true_iff.mp hdir
  have hplace' := hgrows.place_directory hplace
  obtain ⟨-, hafter⟩ := run_afterFiles (hgrows.linkFree h.linkFree) h.resolving.isInputFile hD
    hplace' htracks.owns h.resolving.temporaries h.ends
  refine ⟨root, temporaries, hplace, hplace', htracks, ?_, ?_, ?_, ?_⟩
  · intro earlier path content later hsplit hlater
    rw [Host.contentOf_congr h.tree h.workingDirectory]
    exact hafter.last earlier path content later hsplit hlater
  · rw [h.tree]
    exact hafter.frame
  · rw [h.tree]
    exact hafter.removed
  · intro p l content hp hfile hl
    rw [Host.contentOf_congr h.tree h.workingDirectory]
    exact hafter.inputs p l content hp hfile hl

/-- A dump to the console changes nothing. -/
theorem get?_of_console (h : Leaves config writer first s entries again)
    (hD : config.outputDirectory = none) (l : Location) :
    again.tree.get? l = first.tree.get? l := by
  obtain ⟨temporaries, htracks⟩ := h.resolving.tracks
  rw [h.tree]
  exact run_get?_of_console hD htracks writer Host.openContainer entries l

/-- A dump into a directory removes and changes no file under the name of an input. -/
theorem contentOf_again (h : Leaves config writer first s entries again)
    (hD : config.outputDirectory = some D) {p : PathName}
    (hp : p.hasExtension (containerExtensions ++ archiveExtensions) = true) {content : Bytes}
    (hcontent : first.contentOf p = .ok content) : again.contentOf p = .ok content := by
  obtain ⟨root, temporaries, -, -, htracks, hafter⟩ := h.afterFiles hD
  have hgrows := Host.growsBelow_of_gainsFiles htracks.workingDirectory htracks.gainsFiles
  obtain ⟨l, hplace⟩ := Host.place_of_contentOf hcontent
  have hfile := (Host.walks_of_place hplace).2.get?_existing
  refine hafter.inputs p l content hp (Host.place_of_grows hplace hgrows (fun _ => nofun)
    (htracks.gainsFiles.get?_eq hfile)) fun hl => ?_
  have hfresh := htracks.fresh l hl
  rw [hfile] at hfresh
  exact nomatch hfresh

/-- A dump into a directory makes no file under the name of an input. -/
theorem get?_first (h : Leaves config writer first s entries again)
    (hD : config.outputDirectory = some D) {p : PathName}
    (hp : p.hasExtension (containerExtensions ++ archiveExtensions) = true) (hplain : p.IsPlain)
    (husable : p.Usable) {content : Bytes}
    (hfile : again.tree.get? (first.start p ++ p.parts) = some (.file content)) :
    first.tree.get? (first.start p ++ p.parts) = some (.file content) := by
  obtain ⟨root, temporaries, -, -, htracks, hafter⟩ := h.afterFiles hD
  have hgrows := Host.growsBelow_of_gainsFiles htracks.workingDirectory htracks.gainsFiles
  rcases hafter.frame (first.start p ++ p.parts) with hsame | ⟨-, hnone⟩ | ⟨file, hmem, hl⟩ |
    ⟨-, hdir, -⟩
  · by_cases hl : first.start p ++ p.parts ∈ temporaries
    · rw [hafter.removed _ hl] at hfile
      exact nomatch hfile
    · rw [← htracks.otherwise _ hl, ← hsame, hfile]
  · rw [hnone] at hfile
    exact nomatch hfile
  · -- The file of a class has another extension.
    obtain ⟨hsuffix, hne⟩ := writer.suffix_ne_of_hasExtension hp
    have hextension := suffix_of_mem_filesOf hD hmem
    have hfree := hgrows.linkFree h.linkFree
    have hreal := Host.realPath_of_linkFree_plain hfree hplain husable.noNul
    rw [hgrows.start_eq] at hreal
    refine absurd ?_ hne
    rw [← hextension]
    exact Host.suffix_eq_of_realPath hfree hreal hl hsuffix
      (hextension ▸ writer.extension_ne_empty)
  · rw [hdir] at hfile
    exact nomatch hfile

/-- A dump makes no file under the name of an input, and removes and changes none. -/
theorem keepsInputs (h : Leaves config writer first s entries again) :
    first.KeepsInputs again := by
  refine ⟨h.grows, fun p hp hplain content => ?_⟩
  have hiff : first.contentOf p = .ok content ↔ _ := Host.contentOf_iff_get? h.linkFree hplain
  have hiff' : again.contentOf p = .ok content ↔ _ :=
    Host.contentOf_iff_get? (h.grows.linkFree h.linkFree) hplain
  rw [h.grows.start_eq] at hiff'
  cases hD : config.outputDirectory with
  | none => rw [hiff, hiff', h.get?_of_console hD]
  | some D =>
    refine ⟨h.contentOf_again hD hp, ?_⟩
    rw [hiff, hiff']
    rintro ⟨husable, hfile⟩
    exact ⟨husable, h.get?_first hD hp hplain husable hfile⟩

/-! ## The dump after it -/

/-- A dump of the same inputs into a directory on the host that is left. -/
theorem dumps_again_directory (h : Leaves config writer first s entries again)
    (hD : config.outputDirectory = some D) (hs' : s'.Resolving again entries')
    (hinputs : List.Forall₂ (s.host.SameInput s'.host) entries entries') :
    (run config writer Host.openContainer s' entries').1 = .ok () ∧
      ∀ l, (run config writer Host.openContainer s' entries').2.2.session.host.tree.get? l =
        again.tree.get? l := by
  obtain ⟨root, temporaries, hplace, hplace', htracks, hafter⟩ := h.afterFiles hD
  obtain ⟨temporaries', htracks'⟩ := hs'.tracks
  have hgrows := Host.growsBelow_of_gainsFiles htracks.workingDirectory htracks.gainsFiles
  have hgrows' := Host.growsBelow_of_gainsFiles htracks'.workingDirectory htracks'.gainsFiles
  have hfree := h.grows.linkFree h.linkFree
  have hsame : SameDirectory D root s.host s'.host :=
    ⟨hgrows.linkFree h.linkFree, hgrows'.linkFree hfree,
      (h.grows.trans hgrows').workingDirectory.trans hgrows.workingDirectory.symm, hplace',
      (h.grows.trans hgrows').place_directory hplace⟩
  have hthere : ∀ file ∈ filesOf config writer s.host entries,
      ∃ content, s'.host.contentOf file.1 = .ok content := by
    intro file hfile
    obtain ⟨content, hcontent⟩ := hafter.exists_contentOf hfile
    exact ⟨content,
      Host.contentOf_of_gainsFiles htracks'.workingDirectory htracks'.gainsFiles hcontent⟩
  have hstart (s : Session) : IntoDirectory s D writer.extension (start config writer s) :=
    ⟨hD, rfl, ⟨rfl, .refl s.host⟩⟩
  have hends := run_outcome config writer Host.openContainer s entries
  rw [h.ends] at hends
  rcases hdumped : dumpInputs config writer Host.openContainer (start config writer s) entries with
    ⟨outcome, results, d⟩
  rw [hdumped] at hends
  obtain rfl : Except.ok () = outcome := hends
  obtain ⟨d', hdumped'⟩ := dumpInputs_again hD hsame hinputs h.resolving.isInputFile
    hs'.isInputFile hthere (hstart s) (hstart s') (.nil s.host D root writer.extension)
    (.nil s'.host D root writer.extension) hdumped
  have hends' := run_outcome config writer Host.openContainer s' entries'
  rw [hdumped'] at hends'
  obtain ⟨-, hlast⟩ := run_afterFiles hsame.linkFree' hs'.isInputFile hD hsame.place'
    htracks'.owns hs'.temporaries hends'
  rw [hsame.filesOf_eq config writer hinputs] at hlast
  exact ⟨hends', hafter.get?_again htracks' hlast hfree
    (run_grows htracks'.owns config writer Host.openContainer entries')⟩

/-- A dump of the same inputs on the host that is left comes to its end as well, puts the same on
the console, and changes nothing. -/
theorem dumps_again (h : Leaves config writer first s entries again)
    (hs' : s'.Resolving again entries')
    (hinputs : List.Forall₂ (s.host.SameInput s'.host) entries entries') :
    (run config writer Host.openContainer s' entries').1 = .ok () ∧
      (run config writer Host.openContainer s' entries').2.2.console =
        (run config writer Host.openContainer s entries).2.2.console ∧
      ∀ l, (run config writer Host.openContainer s' entries').2.2.session.host.tree.get? l =
        again.tree.get? l := by
  cases hD : config.outputDirectory with
  | none =>
    obtain ⟨temporaries', htracks'⟩ := hs'.tracks
    obtain ⟨-, htext⟩ := run_console hD writer h.resolving.isInputFile
    obtain ⟨hends', htext'⟩ := run_console hD writer hs'.isInputFile
    refine ⟨hends', ?_, run_get?_of_console hD htracks' writer Host.openContainer entries'⟩
    have hsame : (entries'.map fun entry => (contribution config writer s'.host entry).2) =
        entries.map fun entry => (contribution config writer s.host entry).2 := by
      clear h htext htext' hends' hs'
      induction hinputs with
      | nil => rfl
      | cons hone _ ih => rw [List.map_cons, List.map_cons, ih, contribution_eq config writer hone]
    rw [htext, htext', hsame]
  | some D =>
    obtain ⟨hends', hget⟩ := h.dumps_again_directory hD hs' hinputs
    rw [run_console_of_directory hD, run_console_of_directory hD]
    exact ⟨hends', rfl, hget⟩

end Leaves

end Dump

/-! ## Whole runs -/

namespace CommandLine

variable {registry : Registry} {host : Host} {tokens : List String} {config : Config}
  {entries : List InputEntry} {s : Session} {writer : Writer}

/-- A run whose arguments are good is a dump of its inputs. -/
theorem run_of_parse_ok
    (hparse : Scan.parse registry (.start host) tokens = (.ok (config, entries), s))
    (hwriter : registry.writer? (writerName registry config) = some writer)
    {dumped : Except Failure Unit × List InputResult × Dump}
    (hdumped : Dump.run config writer Host.openContainer
      (s.forgetEvents.report (.usingWriter writer.title)) entries = dumped) :
    ((run registry host tokens).status = 0 ↔ dumped.1 = .ok ()) ∧
      (dumped.1 = .ok () → (run registry host tokens).output = dumped.2.2.console) ∧
      (run registry host tokens).host = dumped.2.2.session.host := by
  obtain ⟨outcome, results, d⟩ := dumped
  unfold run
  rw [hparse]
  dsimp only
  unfold dump
  dsimp only
  rw [hwriter]
  dsimp only
  rw [hdumped]
  cases outcome with
  | error f => exact ⟨iff_of_false nofun nofun, nofun, rfl⟩
  | ok _ => exact ⟨iff_of_true rfl rfl, fun _ => rfl, rfl⟩

/-- A run that succeeds has good arguments and a writer. -/
theorem exists_of_run_status (hends : (run registry host tokens).status = 0) :
    ∃ config entries s writer,
      Scan.parse registry (.start host) tokens = (.ok (config, entries), s) ∧
        registry.writer? (writerName registry config) = some writer := by
  rcases hparse : Scan.parse registry (.start host) tokens with ⟨outcome, s⟩
  cases outcome with
  | error f =>
    unfold run at hends
    rw [hparse] at hends
    exact nomatch hends
  | ok parsed =>
    obtain ⟨config, entries⟩ := parsed
    cases hwriter : registry.writer? (writerName registry config) with
    | none =>
      unfold run at hends
      rw [hparse] at hends
      dsimp only at hends
      unfold dump at hends
      dsimp only at hends
      rw [hwriter] at hends
      exact nomatch hends
    | some writer => exact ⟨config, entries, s, writer, rfl, hwriter⟩

/-- Such a run is a dump that comes to its end. -/
theorem leaves_of_status {again : Host} (hfree : host.tree.LinkFree)
    (hends : (run registry host tokens).status = 0)
    (htree : again.tree = (run registry host tokens).host.tree)
    (hworking : again.workingDirectory = (run registry host tokens).host.workingDirectory)
    (hparse : Scan.parse registry (.start host) tokens = (.ok (config, entries), s))
    (hwriter : registry.writer? (writerName registry config) = some writer) :
    Dump.Leaves config writer host (s.forgetEvents.report (.usingWriter writer.title)) entries
      again := by
  obtain ⟨hstatus, -, hhost⟩ := run_of_parse_ok hparse hwriter rfl
  have hthere : ∀ D, config.outputDirectory = some D → s.host.isDirectory D = .ok true := by
    intro D hD
    have hparsed : (Scan.parse registry (.start host) tokens).1 = .ok (config, entries) := by
      rw [hparse]
    have hdir := Scan.isDirectory_of_parse hparsed hD
    rwa [hparse] at hdir
  exact ⟨hfree, (Scan.resolving_of_parse hparse).events _, hthere, hstatus.mp hends,
    by rw [htree, hhost], by rw [hworking, hhost]⟩

/-- A run that succeeds is as good when it is made again on the host that it has left: it succeeds,
puts out the same and leaves every file and every directory as it is, be it with the console or with
an output directory. The hosts have no links, and an argument that is an input is made of names that
are entries of directories; it is not the name of a temporary file, and temporary files can be made
for the archives. -/
theorem run_again {again : Host} (hfree : host.tree.LinkFree)
    (hends : (run registry host tokens).status = 0)
    (htree : again.tree = (run registry host tokens).host.tree)
    (hworking : again.workingDirectory = (run registry host tokens).host.workingDirectory)
    (hnames : (Arguments.ofTokens tokens).InputNames host again)
    (htemporaries : (Arguments.ofTokens tokens).GetTemporaries again) :
    (run registry again tokens).status = 0 ∧
      (run registry again tokens).output = (run registry host tokens).output ∧
      ∀ l, (run registry again tokens).host.tree.get? l = again.tree.get? l := by
  obtain ⟨config, entries, s, writer, hparse, hwriter⟩ := exists_of_run_status hends
  have hleaves := leaves_of_status hfree hends htree hworking hparse hwriter
  obtain ⟨entries', s', hparse', -, hs', hinputs⟩ :=
    Scan.parse_again hfree hleaves.keepsInputs hnames htemporaries hparse
  have hresolving' : (s'.forgetEvents.report (.usingWriter writer.title)).Resolving again
      entries' := hs'.events _
  obtain ⟨-, houtput, -⟩ := run_of_parse_ok hparse hwriter rfl
  obtain ⟨hstatus', houtput', hhost'⟩ := run_of_parse_ok hparse' hwriter rfl
  obtain ⟨hdumped', htext, hget⟩ := hleaves.dumps_again hresolving' hinputs
  refine ⟨hstatus'.mpr hdumped', ?_, ?_⟩
  · rw [houtput' hdumped', houtput hleaves.ends, htext]
  · rw [hhost']
    exact hget

end CommandLine

/-! ## Names of inputs -/

/-- A plain path name is that of no temporary file if its last name is none of theirs. -/
theorem Host.InputName.of_name {h : Host} (hfree : h.tree.LinkFree) {p : PathName}
    (hplain : p.IsPlain) (hsuffix : p.suffix ≠ "") (hname : ∀ n, p.name ≠ temporaryName n) :
    h.InputName p := by
  refine ⟨hplain, fun n l hl hreal => hname n ?_⟩
  obtain ⟨htemporary, -⟩ := Writer.plain.suffix_ne_of_hasExtension
    (PathName.hasExtension_append (h.hasExtension_temporaryPath n) archiveExtensions)
  have hlast := getLast?_of_realPath hfree hl htemporary
  rw [getLast?_of_realPath hfree hreal hsuffix] at hlast
  rw [Option.some.inj hlast]
  unfold temporaryPath PathName.name
  rw [List.getLast?_concat, Option.getD_some]

/-- A container whose last name is too long is missing as long as there is no directory for the
name, and is a failure of the system from then on. -/
theorem Session.resolve_longName {s : Session} (hfree : s.host.tree.LinkFree) {token : String}
    {parts : List String} {long : String}
    (hpath : PathName.ofText token = ⟨.relative, parts ++ [long]⟩)
    (hcontainer : (PathName.ofText token).hasExtension containerExtensions = true)
    (hplain : PathName.IsPlain ⟨.relative, parts⟩) (hname : IsName long)
    (hlong : maxNameBytes < long.utf8ByteSize)
    (husable : PathName.Usable ⟨.relative, parts ++ [long]⟩) :
    s.resolve token =
      (.error (if s.host.tree.get? (s.host.workingDirectory ++ parts) = some .directory then
          .file (.refused .nameTooLong (PathName.ofText token))
        else .inputMissing token), s) := by
  have hnode := Host.node?_of_longName hfree hplain hname hlong husable
  rw [show s.host.start ⟨.relative, parts⟩ = s.host.workingDirectory from rfl, ← hpath] at hnode
  unfold resolve resolveContainer existingFile Host.isFile
  dsimp only
  rw [if_pos hcontainer, hnode]
  by_cases hdir : s.host.tree.get? (s.host.workingDirectory ++ parts) = some .directory
  · rw [if_pos hdir, if_pos hdir]
    rfl
  · rw [if_neg hdir, if_neg hdir]
    rfl

/-! ## A package that is made -/

namespace Container

/-- A container with one class, `p.C`. -/
def inPackage : Bytes :=
  (magic ++ [0x30, 0x33, 0x35, 0] ++ List.replicate 48 0
    ++ [1, 112, 1, 116, 0, 0, 0, 0, 0, 0, 1, 120, 0, 0].flatMap (Bytes.littleEndian 4)
    -- one string, one type, and the class definition
    ++ [152, 0].flatMap (Bytes.littleEndian 4)
    ++ [0, 1, noIndex, 0, noIndex, 0, 0, 0].flatMap (Bytes.littleEndian 4)
    ++ [5, 0x4C, 0x70, 0x2F, 0x43, 0x3B, 0]).toArray

/-- Its only class. -/
def classInPackage : ClassInfo := ⟨"p.C", 1, none, [], none, [], [], []⟩

/-- The container is read to the end and has its one class. -/
theorem classes_inPackage :
    ofBytes inPackage = .ok (ofLayout ⟨inPackage, oneClassHeader⟩) ∧
      (ofLayout ⟨inPackage, oneClassHeader⟩).classes.classes = [classInPackage] ∧
      (ofLayout ⟨inPackage, oneClassHeader⟩).classes.stopped = none := by
  have hheader : (Header.ofBytes inPackage).toOption = some oneClassHeader := by decide +kernel
  exact ⟨ofBytes_of_header hheader, by decide +kernel, by decide +kernel⟩

end Container

namespace Host

/-- A host with this container and with an empty directory. -/
def withPackage : Host :=
  { withContainer with
    tree := (FileTree.empty.put ["a.dex"] (.file Container.inPackage)).put ["out"] .directory }

/-- This host with any directory for temporary files. -/
def withPackageIn (temporary : Location) : Host :=
  { withPackage with temporaryDirectory := temporary }

variable {temporary : Location}

/-- There are no links on the host. -/
theorem linkFree_withPackage : withPackage.tree.LinkFree := by
  apply FileTree.LinkFree.put (FileTree.linkFree_empty.put _)
  · exact fun _ => nofun
  · exact fun _ => nofun

/-- The directory for the output is there. -/
theorem place_directory_withPackage : (withPackageIn temporary).place .target ⟨.relative, ["out"]⟩ =
    .ok (.existing ["out"] .directory) :=
  place_of_short (by decide) (by decide)
    (.into rfl ⟨by decide, by decide, by decide⟩ rfl (fun _ => nofun) (.arrived rfl))

/-- The container is there as a file. -/
theorem place_container_withPackage : (withPackageIn temporary).place .target ⟨.relative, ["a.dex"]⟩ =
    .ok (.existing ["a.dex"] (.file Container.inPackage)) :=
  place_of_short (by decide) (by decide)
    (.into rfl ⟨by decide, by decide, by decide⟩ rfl (fun _ => nofun) (.arrived rfl))

/-- The container can be read. -/
theorem contentOf_withPackage :
    (withPackageIn temporary).contentOf ⟨.relative, ["a.dex"]⟩ = .ok Container.inPackage :=
  contentOf_of_place place_container_withPackage

/-- Nothing is in the directory for the output. -/
theorem get?_withPackage (name : String) : withPackage.tree.get? (["out"] ++ [name]) = none := by
  have hdirectory : (FileTree.empty.put ["a.dex"] (.file Container.inPackage)).Admits ["out"]
      .directory := by decide
  have hfile : FileTree.empty.Admits ["a.dex"] (.file Container.inPackage) := by decide
  unfold withPackage
  dsimp only
  rw [FileTree.get?_put _ hdirectory, if_neg (by simp), FileTree.get?_put _ hfile,
    if_neg (by simp)]
  rfl

end Host

/-- The container as an input. -/
def packageEntry : InputEntry := ⟨⟨.relative, ["a.dex"]⟩, false, "a.dex"⟩

/-- The container is an input of its own and no temporary file is made for it. -/
theorem Session.resolve_withPackage {s : Session} {temporary : Location}
    (hhost : s.host = .withPackageIn temporary) :
    s.resolve "a.dex" = (.ok (some packageEntry), s) := by
  have hpath : PathName.ofText "a.dex" = ⟨.relative, ["a.dex"]⟩ := by decide
  have hfile : s.host.isFile ⟨.relative, ["a.dex"]⟩ = .ok true := by
    rw [hhost]
    exact Host.isFile_eq_true_iff.mpr ⟨_, Host.contentOf_withPackage⟩
  unfold Session.resolve Session.resolveContainer Session.existingFile
  dsimp only
  rw [hpath, if_pos (by decide), hfile]
  rfl

namespace Scan

/-- What is gathered from arguments that ask for a dump of it into the directory. -/
def ofPackage : Scan :=
  { start with outputDirectory := some ⟨.relative, ["out"]⟩, entries := [packageEntry] }

/-- The arguments are accepted: a directory for the output and the container. -/
theorem feedAll_withPackage {s : Session} {temporary : Location}
    (hhost : s.host = .withPackageIn temporary) :
    feedAll .standard start s ["-o", "out", "a.dex"] = (.ok (), ofPackage, s) := by
  have hout : PathName.ofText (Text.strip "out") = ⟨.relative, ["out"]⟩ := by decide
  have hdir : s.host.isDirectory ⟨.relative, ["out"]⟩ = .ok true := by
    rw [hhost]
    exact Host.isDirectory_eq_true_iff.mpr ⟨_, Host.place_directory_withPackage⟩
  have hresolve := Session.resolve_withPackage hhost
  have happlied : applyOption .standard s.host start .directory "out" =
      .ok { start with outputDirectory := some ⟨.relative, ["out"]⟩ } := by
    unfold applyOption
    dsimp only
    rw [hout, hdir]
  rw [feedAll, feed_dashed rfl s (by decide),
    show OptionName.ofText? "-o" = some .directory by decide]
  dsimp only
  rw [feedAll, feed_value rfl, happlied]
  dsimp only
  rw [feedAll, feed_input rfl s (by decide), addInput_of_some _ (by rw [hresolve]), hresolve]
  rfl

/-- They give a configuration with the directory, for all classes and the default writer. -/
theorem finish_ofPackage {h : Host} (hdir : h.isDirectory ⟨.relative, ["out"]⟩ = .ok true) :
    ∃ config, ofPackage.finish h = .ok (config, [packageEntry]) ∧ config.classPattern = "*" ∧
      config.outputDirectory = some ⟨.relative, ["out"]⟩ ∧ config.writerId = none := by
  have hcheck : Config.checkDirectory h ofPackage.settings.outputDirectory =
      .ok (.ok (some ⟨.relative, ["out"]⟩)) := by
    have hout : PathName.ofText (PathName.mk .relative ["out"]).text = ⟨.relative, ["out"]⟩ := by
      decide
    unfold settings ofPackage Config.checkDirectory
    dsimp only [Option.map]
    rw [hout, hdir]
    rfl
  unfold finish Config.build
  rw [hcheck]
  exact ⟨_, rfl, rfl, rfl, rfl⟩

end Scan

namespace Dump

variable {config : Config} {writer : Writer} {s : Session} {temporary : Location}

/-- Before the run there are no files of classes in the directory. -/
theorem files_withPackage {r : Router} {extension : String}
    (hdir : r.directory = some ⟨.relative, ["out"]⟩) (hextension : r.extension = extension)
    (hhost : s.host = .withPackageIn temporary) :
    Router.Files ⟨.relative, ["out"]⟩ ["out"] extension r s := by
  refine ⟨hdir, hextension, ?_, ?_, ?_⟩
  · rw [hhost]
    exact Host.place_directory_withPackage
  · rw [hhost]
    exact Host.not_overlooks_of_linkFree Host.linkFree_withPackage _
  · rw [hhost]
    exact .of_empty Host.get?_withPackage

/-- The class is selected by the pattern for all classes. -/
theorem selects_classInPackage (hpattern : config.classPattern = "*") :
    config.selects Container.classInPackage = true := by
  unfold Config.selects
  rw [hpattern]
  decide +kernel

/-- The file of the class has a name that the system can take. -/
theorem fits_classInPackage (writer : Writer) :
    Router.Fits writer.extension ⟨.relative, ["out"]⟩ Container.classInPackage.name := by
  cases writer <;> exact ⟨by decide, by decide, by decide⟩

/-- The dump of this input comes to its end. -/
theorem run_withPackage (hD : config.outputDirectory = some ⟨.relative, ["out"]⟩) (writer : Writer)
    (hhost : s.host = .withPackageIn temporary) :
    (run config writer Host.openContainer s [packageEntry]).1 = .ok () := by
  obtain ⟨hbytes, hclasses, hstopped⟩ := Container.classes_inPackage
  have hfitting : Fitting config writer ⟨.relative, ["out"]⟩ Container.inPackage := by
    refine ⟨_, hbytes, hstopped, ?_⟩
    rw [hclasses]
    intro c hc _ _
    rw [List.mem_singleton.mp hc]
    exact fits_classInPackage writer
  refine run_ends hD (hhost ▸ Host.linkFree_withPackage)
    (hhost ▸ Host.place_directory_withPackage) (hhost ▸ Host.get?_withPackage) ?_
  intro entry hentry
  rw [List.mem_singleton.mp hentry, hhost]
  exact ⟨⟨by decide, _, _, Host.place_container_withPackage⟩, _,
    Host.openContainer_of_contentOf Host.contentOf_withPackage, hfitting⟩

/-- The file of its class. -/
theorem exists_file_withPackage (hpattern : config.classPattern = "*")
    (hD : config.outputDirectory = some ⟨.relative, ["out"]⟩)
    (hhost : s.host = .withPackageIn temporary) :
    ∃ content, (⟨.relative, ["out", "p", "C.ddx"]⟩, content) ∈
      filesOf config .plain s.host [packageEntry] := by
  obtain ⟨hbytes, hclasses, -⟩ := Container.classes_inPackage
  let r := Router.start Writer.plain.extension (some ⟨.relative, ["out"]⟩)
  have hextension : Router.IsExtension r.extension := ⟨by decide, by decide, by decide⟩
  have hpath : r.pathFor s.host Container.classInPackage.name =
      .ok ⟨.relative, ["out", "p", "C.ddx"]⟩ := by
    rw [(files_withPackage rfl rfl hhost).pathFor hextension fun _ => fits_classInPackage .plain,
      if_neg (by decide)]
    decide
  have hfile : fileOf? config .plain s.host Container.classInPackage = some
      (⟨.relative, ["out", "p", "C.ddx"]⟩, contentFor config .plain Container.classInPackage) := by
    unfold fileOf?
    rw [if_pos (selects_classInPackage hpattern), hD, hpath]
    rfl
  refine ⟨_, List.mem_filterMap.mpr ⟨Container.classInPackage, ?_, hfile⟩⟩
  rw [List.flatMap_singleton, hhost]
  unfold Host.classesOf
  rw [show packageEntry.path = ⟨.relative, ["a.dex"]⟩ from rfl,
    Host.openContainer_of_contentOf Host.contentOf_withPackage]
  dsimp only
  rw [hbytes]
  dsimp only
  rw [hclasses]
  exact List.mem_singleton_self _

end Dump

namespace CommandLine

variable {tokens : List String} {s : Session} {temporary : Location}

/-- A run whose arguments come to this input succeeds, and makes the directory of the package with the
file of the class in it. -/
theorem run_withPackage
    (hfed : Scan.feedAll .standard .start (.start (.withPackageIn temporary)) tokens =
      (.ok (), .ofPackage, s))
    (hhost : s.host = .withPackageIn temporary) :
    (run .standard (.withPackageIn temporary) tokens).status = 0 ∧
      (run .standard (.withPackageIn temporary) tokens).host.tree.LinkFree ∧
      (run .standard (.withPackageIn temporary) tokens).host.workingDirectory = [] ∧
      (run .standard (.withPackageIn temporary) tokens).host.tree.get? ["out", "p"] =
        some .directory ∧
      ∃ content, (run .standard (.withPackageIn temporary) tokens).host.tree.get?
        ["out", "p", "C.ddx"] = some (.file content) := by
  have hfirst : (Host.withPackageIn temporary).tree.LinkFree := Host.linkFree_withPackage
  have hdir : s.host.isDirectory ⟨.relative, ["out"]⟩ = .ok true := by
    rw [hhost]
    exact Host.isDirectory_eq_true_iff.mpr ⟨_, Host.place_directory_withPackage⟩
  obtain ⟨config, hfinish, hpattern, hD, hnone⟩ := Scan.finish_ofPackage hdir
  have hparse : Scan.parse .standard (.start (.withPackageIn temporary)) tokens =
      (.ok (config, [packageEntry]), s) := by
    unfold Scan.parse
    rw [hfed]
    dsimp only
    rw [hfinish]
  have hwriter : Registry.standard.writer? (writerName .standard config) = some .plain := by
    unfold writerName
    rw [hnone]
    decide
  have hends := (run_of_parse_ok hparse hwriter rfl).1.mpr
    (Dump.run_withPackage hD .plain hhost)
  have hleaves := leaves_of_status hfirst hends rfl rfl hparse hwriter
  have hfree := hleaves.grows.linkFree hfirst
  have hworking := hleaves.grows.workingDirectory
  obtain ⟨root, temporaries, -, -, -, hafter⟩ := hleaves.afterFiles hD
  obtain ⟨content, hfile⟩ := Dump.exists_file_withPackage
    (s := s.forgetEvents.report (.usingWriter Writer.plain.title)) hpattern hD hhost
  obtain ⟨now, hnow⟩ := hafter.exists_contentOf hfile
  have hplain : PathName.IsPlain ⟨.relative, ["out", "p", "C.ddx"]⟩ := by decide
  obtain ⟨-, hget⟩ := (Host.contentOf_iff_get? hfree hplain).mp hnow
  rw [hleaves.grows.start_eq] at hget
  exact ⟨hends, hfree, hworking,
    FileTree.get?_of_append (show ["C.ddx"] ≠ [] by decide) hget, now, hget⟩

/-- A dump that is made again. -/
theorem run_again_withPackage :
    let tokens := ["-o", "out", "a.dex"]
    let again := (run .standard .withPackage tokens).host
    Host.withPackage.tree.LinkFree ∧ (run .standard .withPackage tokens).status = 0 ∧
      (run .standard again tokens).status = 0 ∧
      ∀ l, (run .standard again tokens).host.tree.get? l = again.tree.get? l := by
  intro tokens again
  obtain ⟨hends, hfree, -⟩ :=
    run_withPackage (Scan.feedAll_withPackage (s := .start .withPackage) rfl) rfl
  have hitems : Arguments.ofTokens tokens = ⟨[.option "-o" "out", .input "a.dex"], none⟩ := by
    decide
  have hpath : PathName.ofText "a.dex" = ⟨.relative, ["a.dex"]⟩ := by decide
  have hother : ∀ n, (PathName.mk .relative ["a.dex"]).name ≠ Host.temporaryName n := by
    intro n heq
    have hchars := congrArg String.toList heq
    unfold Host.temporaryName at hchars
    simp only [PathName.name, toString, String.toList_append] at hchars
    exact absurd (List.cons.inj hchars).1 (by decide)
  have hnames : (Arguments.ofTokens tokens).InputNames .withPackage again := by
    intro token htoken
    obtain rfl : token = "a.dex" := by simpa [hitems] using htoken
    rw [Arguments.InputName, hpath]
    exact fun _ => ⟨.of_name Host.linkFree_withPackage (by decide) (by decide) hother,
      .of_name hfree (by decide) (by decide) hother⟩
  have htemporaries : (Arguments.ofTokens tokens).GetTemporaries again := by
    rw [hitems, Arguments.getTemporaries_cons, Arguments.getTemporaries_cons]
    refine ⟨?_, ?_, ?_⟩
    · intro token heq
      cases heq
    · intro token heq harchive
      obtain rfl := Argument.input.inj heq
      exact absurd harchive (by decide)
    · intro token htoken
      cases htoken
  obtain ⟨hends', -, hget⟩ := run_again Host.linkFree_withPackage hends rfl rfl hnames htemporaries
  exact ⟨Host.linkFree_withPackage, hends, hends', hget⟩

end CommandLine

/-! ## A name that is too long -/

/-- A name of 256 bytes, which is one more than a name may have. -/
def longName : String := String.ofList (List.replicate 252 'x') ++ ".dex"

/-- The path name with this name below the directory of a package. -/
def longPath : PathName := ⟨.relative, ["out", "p"] ++ [longName]⟩

/-- The name is one byte too long for the system. -/
theorem size_longName : longName.utf8ByteSize = 256 := by decide +kernel

/-- The name is made of letters and the extension of containers. -/
theorem toList_longName : longName.toList = List.replicate 252 'x' ++ ['.', 'd', 'e', 'x'] := by
  unfold longName
  rw [String.toList_append, String.toList_ofList]
  rfl

/-- The name holds no other characters. -/
theorem holds_longName {c : Char} (hc : c ∉ ['x', '.', 'd', 'e']) :
    Text.holds longName c = false := by
  rw [Text.holds, Bool.eq_false_iff]
  intro hmem
  rw [List.contains_iff_mem, toList_longName] at hmem
  rcases List.mem_append.mp hmem with hx | hextension
  · exact hc (by rw [(List.mem_replicate.mp hx).2]; exact List.mem_cons_self)
  · exact hc ((show ['.', 'd', 'e', 'x'] ⊆ ['x', '.', 'd', 'e'] by decide) hextension)

/-- The name is the name of an entry: it has no slash and is no dot segment. -/
theorem isName_longName : IsName longName := by
  have hne : ∀ name : String, name.utf8ByteSize ≠ 256 → longName ≠ name := by
    rintro name hsize rfl
    exact hsize size_longName
  exact ⟨not_or.mpr ⟨hne _ (by decide), hne _ (by decide)⟩, hne _ (by decide)⟩

/-- The path name is read back from its text. -/
theorem ofText_longPath : PathName.ofText longPath.text = longPath := by
  have htext : longPath.text = Text.joined "/" (["out", "p"] ++ [longName]) := rfl
  rw [htext, PathName.ofText_joined]
  · rfl
  · refine List.forall_mem_append.mpr ⟨?_, ?_⟩
    · intro part hpart
      rcases List.mem_pair.mp hpart with rfl | rfl <;> exact ⟨by decide, by decide, by decide⟩
    · intro part hpart
      rw [List.mem_singleton.mp hpart]
      exact ⟨fun h => isName_longName.1 (Or.inl h), fun h => isName_longName.1 (Or.inr h),
        holds_longName (by decide)⟩

/-- The path name itself is not too long for the system, and holds no zero character. -/
theorem usable_longPath : longPath.Usable := by
  refine ⟨longPath.hasNul_eq_false_iff.mpr ?_, by decide +kernel⟩
  refine List.forall_mem_append.mpr ⟨by decide, fun part hpart => ?_⟩
  rw [List.mem_singleton.mp hpart]
  exact holds_longName (by decide)

/-- The path name has the extension of containers. -/
theorem hasExtension_longPath : longPath.hasExtension containerExtensions = true := by
  have hsuffix : longPath.suffix = ".dex" := by
    have hname : longPath.name = longName := rfl
    have hextension : PathName.suffixOf (List.replicate 252 'x' ++ '.' :: ['d', 'e', 'x']) = _ :=
      PathName.suffixOf_append (List.cons_ne_nil _ _) (by decide) (by decide)
    unfold PathName.suffix
    rw [hname, toList_longName, hextension]
  unfold PathName.hasExtension
  rw [hsuffix]
  decide

namespace CommandLine

/-- What becomes of it on a host where the directory of the package is missing, or is there. -/
theorem resolve_longPath {h : Host} (hfree : h.tree.LinkFree) (hworking : h.workingDirectory = []) :
    (Session.start h).resolve longPath.text =
      (.error (if h.tree.get? ["out", "p"] = some .directory then
          .file (.refused .nameTooLong longPath)
        else .inputMissing longPath.text), .start h) := by
  have hcontainer : (PathName.ofText longPath.text).hasExtension containerExtensions = true := by
    rw [ofText_longPath]
    exact hasExtension_longPath
  have hlong : maxNameBytes < longName.utf8ByteSize := by
    rw [size_longName]
    decide
  have hplain : PathName.IsPlain ⟨.relative, ["out", "p"]⟩ := by decide
  have hresolve := Session.resolve_longName (s := .start h) hfree ofText_longPath hcontainer hplain
    isName_longName hlong usable_longPath
  rw [ofText_longPath, show (Session.start h).host = h from rfl, hworking] at hresolve
  exact hresolve

/-- An argument that is missing only as long as the directory of the package is: the run before it
succeeds, and makes that directory. -/
theorem status_of_refused {token : String} {e : FileError} (hdashed : ¬isDashed token = true)
    (hresolve : ∀ {h : Host}, h.tree.LinkFree → h.workingDirectory = [] →
      (Session.start h).resolve token =
        (.error (if h.tree.get? ["out", "p"] = some .directory then .file e
          else .inputMissing token), .start h)) :
    let tokens := [token, "-o", "out", "a.dex"]
    (run .standard .withPackage tokens).status = 0 ∧
      (run .standard (run .standard .withPackage tokens).host tokens).status = 1 := by
  intro tokens
  have hnone : Host.withPackage.tree.get? ["out", "p"] = none := Host.get?_withPackage "p"
  have hmissing := hresolve Host.linkFree_withPackage rfl
  rw [hnone, if_neg nofun] at hmissing
  have hinput : (Failure.inputMissing token).isA .input = true := by
    simp [Failure.isA, Failure.kind?, ErrorKind.lineage, ErrorKind.parent?]
  have hfed : Scan.feedAll .standard .start (.start .withPackage) tokens =
      (.ok (), .ofPackage, (Session.start .withPackage).report
        (.argumentSkipped (.inputMissing token))) := by
    rw [Scan.feedAll, Scan.feed_input rfl _ hdashed,
      Scan.addInput_of_error _ (by rw [hmissing]), if_pos hinput, hmissing]
    exact Scan.feedAll_withPackage rfl
  have hpackage : Host.withPackage = .withPackageIn [] := rfl
  rw [hpackage] at hfed ⊢
  obtain ⟨hends, hfree, hworking, hmade, -⟩ := run_withPackage hfed rfl
  have hrefused := hresolve hfree hworking
  rw [if_pos hmade] at hrefused
  have hfailure : (Failure.file e).isA .input = false := rfl
  have hparse : (Scan.parse .standard
      (.start (run .standard (.withPackageIn []) tokens).host) tokens).1 = .error (.file e) := by
    unfold Scan.parse
    rw [Scan.feedAll, Scan.feed_input rfl _ hdashed,
      Scan.addInput_of_error _ (by rw [hrefused]), hfailure, if_neg Bool.false_ne_true]
  exact ⟨hends, (run_of_parse_error hparse).1⟩

/-- A run that is the last one to succeed: it makes the directory in which the name is too long. -/
theorem run_again_longName :
    let tokens := [longPath.text, "-o", "out", "a.dex"]
    Host.withPackage.tree.LinkFree ∧ (run .standard .withPackage tokens).status = 0 ∧
      (run .standard (run .standard .withPackage tokens).host tokens).status = 1 := by
  have htext : longPath.text = Text.joined "/" ("out" :: "p" :: [longName]) := rfl
  have hdashed : ¬isDashed longPath.text = true := by
    rw [htext, Text.joined, String.intercalate_cons_cons, String.append_assoc, isDashed,
      String.toList_append, show "out".toList = ['o', 'u', 't'] from rfl]
    simp
  exact ⟨Host.linkFree_withPackage, status_of_refused hdashed resolve_longPath⟩

end CommandLine

end DexListing
