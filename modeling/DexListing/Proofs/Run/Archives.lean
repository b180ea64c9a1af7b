import DexListing.Proofs.File.Lookups
import DexListing.Proofs.Run.Console
import DexListing.Proofs.Run.Inputs
import DexListing.Proofs.Zip.Extraction
import DexListing.Proofs.Zip.StoredBlocks

/-!
# Containers in archives

A container in an archive is treated like the container itself: the temporary file that the archive
resolves to has its content, and a dump of that file comes to what a dump of the container comes to,
apart from the name in the banner (`Dump.archive_eq_container`).
-/

set_option autoImplicit false

namespace DexListing

namespace Host

variable {h : Host} {p : PathName} {content : Bytes}

/-- A file that can be read can be opened as a container. -/
theorem openContainer_of_contentOf (hcontent : h.contentOf p = .ok content) :
    h.openContainer p = .ok content := by
  unfold openContainer
  rw [hcontent]

/-- A temporary file can be made if nothing is at its path name. -/
theorem exists_makeTemporary {l : Location}
    (hplace : h.place .entry (h.temporaryPath h.freshNumber) = .ok (.vacant l)) :
    ∃ made, h.makeTemporary = .ok made := by
  unfold makeTemporary makeNode
  dsimp only
  rw [hplace]
  exact ⟨_, rfl⟩

end Host

/-! ## Resolving an archive -/

namespace Session

variable {s : Session} {argument : String} {data content : Bytes}

/-- A file that can be read is there. -/
theorem existingFile_of_contentOf
    (hdata : s.host.contentOf (PathName.ofText argument) = .ok data) :
    s.existingFile argument = .ok (PathName.ofText argument) := by
  obtain ⟨l, hplace⟩ := Host.place_of_contentOf hdata
  unfold existingFile Host.isFile Host.node?
  dsimp only
  rw [hplace]
  rfl

/-- The container that an archive packs is found in it. -/
theorem findContainer_of_packs {path : PathName} (hdata : s.host.contentOf path = .ok data)
    (hpacks : Zip.Packs data archiveMember content) :
    ∃ archive earlier m, s.findContainer argument path = .ok (archive, earlier, m) ∧
      archive.extract earlier m = .ok content := by
  obtain ⟨archive, earlier, m, hopen, hfound, hextract⟩ := hpacks.find_extract (by decide)
  refine ⟨archive, earlier, m, ?_, hextract⟩
  unfold findContainer
  rw [hdata]
  dsimp only
  rw [hopen]
  dsimp only
  rw [hfound]

/-- An archive that packs a container is extracted into a temporary file with the content of the
container. -/
theorem extractArchive_of_packs (hdata : s.host.contentOf (PathName.ofText argument) = .ok data)
    (hpacks : Zip.Packs data archiveMember content)
    (htemporary : ∃ made, s.host.makeTemporary = .ok made) :
    ∃ entry s', s.extractArchive argument = (.ok entry, s') ∧
      entry.isTemporary = true ∧ entry.displayName = (PathName.ofText argument).name ∧
      s'.host.contentOf entry.path = .ok content := by
  obtain ⟨⟨path, made⟩, hmake⟩ := htemporary
  obtain ⟨archive, earlier, m, hfound, hextract⟩ := findContainer_of_packs hdata hpacks
  obtain ⟨stored, hstore⟩ := Host.storeContent_of_makeTemporary hmake content
  unfold extractArchive createTemporary
  rw [existingFile_of_contentOf hdata]
  dsimp only
  rw [hfound, hmake]
  dsimp only
  rw [hextract]
  dsimp only
  rw [hstore]
  exact ⟨_, _, rfl, rfl, rfl, Host.contentOf_of_storeContent hstore⟩

/-- An argument with the extension of archives is resolved by extracting its container. -/
theorem resolve_of_archive
    (hextension : (PathName.ofText argument).hasExtension archiveExtensions = true) :
    s.resolve argument =
      ((s.extractArchive argument).1.map some, (s.extractArchive argument).2) := by
  have hsuffix : Text.lower (PathName.ofText argument).suffix = ".apk" := by
    unfold PathName.hasExtension archiveExtensions at hextension
    simpa using hextension
  have hcontainer : ¬(PathName.ofText argument).hasExtension containerExtensions = true := by
    unfold PathName.hasExtension
    rw [hsuffix]
    decide
  unfold resolve
  dsimp only
  rw [if_neg hcontainer, if_pos hextension]

end Session

/-! ## Dumping it -/

namespace Dump

/-- What an input puts on the console: nothing, or its banner and a text after it. -/
def underBanner (displayName : String) : Option String → String
  | none => ""
  | some text => banner displayName ++ text

/-- What an input with some content comes to does not depend on where the content is, and the name
it is shown under is only in its banner. -/
theorem contribution_of_content (config : Config) (writer : Writer) (content : Bytes) :
    ∃ seen written error text, ∀ (host : Host) (entry : InputEntry),
      host.contentOf entry.path = .ok content →
      contribution config writer host entry =
        (⟨entry.displayName, seen, written, error⟩, underBanner entry.displayName text) := by
  cases hbytes : Container.ofBytes content with
  | error e =>
    refine ⟨0, 0, some (.container e), none, fun host entry hcontent => ?_⟩
    unfold contribution
    rw [Host.openContainer_of_contentOf hcontent]
    dsimp only
    rw [hbytes]
    rfl
  | ok c =>
    refine ⟨c.classes.classes.length, c.classes.classes.countP config.selects,
      c.classes.stopped.map Failure.container,
      if c.classes.classes.any config.selects then
        some (rendered config writer (c.classes.classes.filter config.selects)) else none,
      fun host entry hcontent => ?_⟩
    unfold contribution
    rw [Host.openContainer_of_contentOf hcontent]
    dsimp only
    rw [hbytes]
    dsimp only
    unfold consoleText
    split <;> rfl

/-- A container in an archive is treated like the container itself. A well-formed archive with the
container as its only member of that name, among others, resolves to a temporary file that has just
the content of the container and is shown under the name of the archive. A dump of it to the console
and a dump of a file with the content, each on its own host, see and write as many classes, meet the
same error, and put the same text on the console under their banners, or both nothing. -/
theorem archive_eq_container (config : Config) (writer : Writer) {s : Session}
    {argument : String} {data content : Bytes}
    (hextension : (PathName.ofText argument).hasExtension archiveExtensions = true)
    (hdata : s.host.contentOf (PathName.ofText argument) = .ok data)
    (hpacks : Zip.Packs data archiveMember content)
    (htemporary : ∃ made, s.host.makeTemporary = .ok made) :
    ∃ entry s', s.resolve argument = (.ok (some entry), s') ∧
      entry.isTemporary = true ∧ entry.displayName = (PathName.ofText argument).name ∧
      s'.host.contentOf entry.path = .ok content ∧
      ∀ (d bare : Dump) (container : InputEntry), d.session.host = s'.host →
        bare.session.host.contentOf container.path = .ok content →
        d.router.directory = none → bare.router.directory = none →
        ∃ seen written error text d' bare',
          dumpInput config writer Host.openContainer d entry =
            (.ok ⟨entry.displayName, seen, written, error⟩, d') ∧
          dumpInput config writer Host.openContainer bare container =
            (.ok ⟨container.displayName, seen, written, error⟩, bare') ∧
          d'.console = d.console ++ underBanner entry.displayName text ∧
          bare'.console = bare.console ++ underBanner container.displayName text := by
  obtain ⟨entry, s', hextract, htemp, hname, hcontent⟩ :=
    Session.extractArchive_of_packs hdata hpacks htemporary
  refine ⟨entry, s', ?_, htemp, hname, hcontent, ?_⟩
  · rw [Session.resolve_of_archive hextension, hextract]
    rfl
  · intro d bare container hhost hbare hdir hbareDir
    obtain ⟨seen, written, error, text, hsame⟩ := contribution_of_content config writer content
    rw [← hhost] at hcontent
    obtain ⟨d', hdump, hconsole, -⟩ :=
      dumpInput_console config writer hdir (Host.hasNul_of_contentOf hcontent)
    obtain ⟨bare', hdumpBare, hconsoleBare, -⟩ :=
      dumpInput_console config writer hbareDir (Host.hasNul_of_contentOf hbare)
    rw [hsame _ _ hcontent] at hdump hconsole
    rw [hsame _ _ hbare] at hdumpBare hconsoleBare
    exact ⟨seen, written, error, text, d', bare', hdump, hdumpBare, hconsole, hconsoleBare⟩

end Dump

/-! ## An archive with two members -/

namespace Zip

/-- An archive after one other byte: an empty member `b`, and two bytes in stored blocks. -/
def twoMembers : Bytes :=
  #[35, 80, 75, 3, 4, 20, 0, 0, 0, 0, 0, 0, 0, 33, 0, 0, 0, 0, 0, 0, 0, 0, 0, 0, 0, 0, 0, 1, 0, 0,
    0, 98, 80, 75, 3, 4, 20, 0, 0, 0, 8, 0, 0, 0, 33, 0, 139, 41, 144, 125, 12, 0, 0, 0, 2, 0, 0,
    0, 11, 0, 0, 0, 99, 108, 97, 115, 115, 101, 115, 46, 100, 101, 120, 0, 2, 0, 253, 255, 100,
    101, 1, 0, 0, 255, 255, 80, 75, 1, 2, 20, 0, 20, 0, 0, 0, 0, 0, 0, 0, 33, 0, 0, 0, 0, 0, 0, 0,
    0, 0, 0, 0, 0, 0, 1, 0, 0, 0, 0, 0, 0, 0, 0, 0, 0, 0, 0, 0, 0, 0, 0, 0, 98, 80, 75, 1, 2, 20,
    0, 20, 0, 0, 0, 8, 0, 0, 0, 33, 0, 139, 41, 144, 125, 12, 0, 0, 0, 2, 0, 0, 0, 11, 0, 0, 0, 0,
    0, 0, 0, 0, 0, 0, 0, 0, 0, 31, 0, 0, 0, 99, 108, 97, 115, 115, 101, 115, 46, 100, 101, 120,
    80, 75, 5, 6, 0, 0, 0, 0, 2, 0, 2, 0, 104, 0, 0, 0, 84, 0, 0, 0, 0, 0]

def emptyMember : Item := ⟨"b", 0, 0, 0, 0, 0, #[], 1⟩

def containerMember : Item :=
  ⟨archiveMember, 0, 8, 2106599819, 2, 0, (storedBlocks [[100, 101]]).toArray, 32⟩

/-- The archive is well-formed: an empty member and the container. -/
theorem wellFormed_twoMembers : WellFormed twoMembers [emptyMember, containerMember] := by
  have hfirst : EntryAt twoMembers 1 85 emptyMember := by
    refine ⟨?_, ?_, ?_, ?_, ?_, ?_, ?_, 0, ?_, rfl⟩ <;> decide +kernel
  have hsecond : EntryAt twoMembers 1 132 containerMember := by
    refine ⟨?_, ?_, ?_, ?_, ?_, ?_, ?_, 31, ?_, rfl⟩ <;> decide +kernel
  have hnext : nextEntry twoMembers 85 = 132 := by decide +kernel
  have hstop : nextEntry twoMembers 132 = 189 := by decide +kernel
  have hend : EndRecordAt twoMembers 189 := by
    refine ⟨?_, ?_, Or.inl ?_⟩ <;> decide +kernel
  have hplace : EndsWith twoMembers ⟨189, 104, 84⟩ := by
    have hshort := EndsWith.short hend (by decide +kernel)
    rwa [show twoMembers.u4 (189 + 12) = 104 by decide +kernel,
      show twoMembers.u4 (189 + 16) = 84 by decide +kernel] at hshort
  refine ⟨⟨_, 1, hplace, rfl, .cons hfirst (hnext ▸ .cons hsecond (hstop ▸ .nil)), ?_⟩, ?_, ?_, ?_⟩
  · decide +kernel
  · have hheaders : LocalAt twoMembers emptyMember ∧ LocalAt twoMembers containerMember := by
      refine ⟨⟨?_, ?_, ?_⟩, ?_, ?_, ?_⟩ <;> decide +kernel
    simpa using hheaders
  · exact List.pairwise_pair.mpr (Or.inl (by decide +kernel))
  · decide +kernel

/-- The archive packs the container under its name. -/
theorem packs_twoMembers : Packs twoMembers archiveMember #[100, 101] := by
  have hformed : WellFormed twoMembers ([emptyMember] ++ containerMember :: []) :=
    wellFormed_twoMembers
  have hdeflates : Deflates containerMember.data #[100, 101] := deflates_storedBlocks (by decide)
  refine .intro hformed rfl ⟨by decide, Or.inr ⟨rfl, hdeflates⟩, rfl, ?_⟩ ?_
  · decide +kernel
  · decide +kernel

end Zip

/-- A host with the archive and with a file that has the content of its container. -/
def Host.withArchive : Host where
  tree := (FileTree.empty.put ["a.apk"] (.file Zip.twoMembers)).put ["b.dex"] (.file #[100, 101])
  workingDirectory := []
  temporaryDirectory := []
  drawn := 0

namespace Host

/-- The archive can be read. -/
theorem contentOf_archive : withArchive.contentOf ⟨.relative, ["a.apk"]⟩ = .ok Zip.twoMembers := by
  have hplace : withArchive.place .target ⟨.relative, ["a.apk"]⟩ =
      .ok (.existing ["a.apk"] (.file Zip.twoMembers)) :=
    place_of_short (by decide) (by decide)
      (.into rfl ⟨by decide, by decide, by decide⟩ rfl (fun _ => nofun) (.arrived rfl))
  exact contentOf_of_place hplace

/-- The container that stands by itself can be read. -/
theorem contentOf_bare : withArchive.contentOf ⟨.relative, ["b.dex"]⟩ = .ok #[100, 101] := by
  have hplace : withArchive.place .target ⟨.relative, ["b.dex"]⟩ =
      .ok (.existing ["b.dex"] (.file #[100, 101])) :=
    place_of_short (by decide) (by decide)
      (.into rfl ⟨by decide, by decide, by decide⟩ rfl (fun _ => nofun) (.arrived rfl))
  exact contentOf_of_place hplace

/-- A temporary file can be made on the host. -/
theorem makeTemporary_withArchive : ∃ made, withArchive.makeTemporary = .ok made := by
  have hnumber : withArchive.freshNumber = 0 := by decide +kernel
  have hplace : withArchive.place .entry (withArchive.temporaryPath 0) =
      .ok (.vacant ["dedex-0.dex"]) :=
    place_of_short (by decide +kernel) (by decide +kernel)
      (.vacant rfl ⟨by decide +kernel, by decide, by decide +kernel⟩ rfl)
  exact exists_makeTemporary (hnumber ▸ hplace)

end Host

/-- All classes, to the console. -/
def Config.plain : Config := ⟨"*", Selection.default, none, none, .warning⟩

/-- The container in the archive and the file with its content come to the same, under their
names. -/
theorem Dump.archive_eq_container_twoMembers :
    ∃ entry s', (Session.start .withArchive).resolve "a.apk" = (.ok (some entry), s') ∧
      entry.displayName = "a.apk" ∧ s'.host.contentOf entry.path = .ok #[100, 101] ∧
      ∃ seen written error text d' bare',
        dumpInput .plain .java Host.openContainer (start .plain .java s') entry =
          (.ok ⟨"a.apk", seen, written, error⟩, d') ∧
        dumpInput .plain .java Host.openContainer (start .plain .java (.start .withArchive))
            ⟨⟨.relative, ["b.dex"]⟩, false, "b.dex"⟩ =
          (.ok ⟨"b.dex", seen, written, error⟩, bare') ∧
        d'.console = "" ++ underBanner "a.apk" text ∧
        bare'.console = "" ++ underBanner "b.dex" text := by
  have hpath : PathName.ofText "a.apk" = ⟨.relative, ["a.apk"]⟩ := by decide
  have hname : (PathName.ofText "a.apk").name = "a.apk" := by decide
  have hdata : (Session.start .withArchive).host.contentOf (PathName.ofText "a.apk") =
      .ok Zip.twoMembers := by
    rw [hpath]
    exact Host.contentOf_archive
  obtain ⟨entry, s', hresolve, -, hentry, hcontent, hdumps⟩ :=
    archive_eq_container .plain .java (by decide +kernel) hdata Zip.packs_twoMembers
      Host.makeTemporary_withArchive
  rw [hname] at hentry
  have hsame := hdumps (start .plain .java s') (start .plain .java (.start .withArchive))
    ⟨⟨.relative, ["b.dex"]⟩, false, "b.dex"⟩ rfl Host.contentOf_bare rfl rfl
  rw [hentry] at hsame
  exact ⟨entry, s', hresolve, hentry, hcontent, hsame⟩

end DexListing
