import DexListing.Proofs.Run.Archives

/-!
# Failures to resolve an argument

An argument that cannot be resolved is meant to fail in one of three kinds: its file is not there or
is no archive, the archive has no container, or the container cannot be extracted. Not every failure
is of one of these kinds. Those that are not come from the system, when it looks up the path name or
makes the temporary file; from an archive whose directory needs a newer version of the format or has
a name that is no text; and from a member whose offset is too great, whose name is no text, or whose
data are missing or, as deflated or lzma data, corrupt. These are all of them
(`Session.resolve_unforeseen_iff`): a member in another compression method and corrupt bzip2 data are
failed extractions.
-/

set_option autoImplicit false

namespace DexListing

/-- The kinds of failures that resolving an argument is meant to have. -/
def resolutionKinds : List ErrorKind := [.inputNotFound, .missingMember, .extraction]

/-- The failure is of none of the kinds that resolving an argument is meant to have. -/
def Failure.IsUnforeseen (f : Failure) : Prop :=
  ∀ kind ∈ resolutionKinds, f.isA kind = false

/-- A failure without a kind is unforeseen. -/
theorem Failure.isUnforeseen_of_kind? {f : Failure} (h : f.kind? = none) : f.IsUnforeseen := by
  intro kind _
  unfold isA
  rw [h]

/-- A failure of one of the kinds is not. -/
theorem Failure.not_isUnforeseen {f : Failure} {kind : ErrorKind} (hkind : kind ∈ resolutionKinds)
    (h : f.kind? = some kind) : ¬f.IsUnforeseen := by
  intro hunforeseen
  have hnot := hunforeseen kind hkind
  have hself : kind ∈ kind.lineage := by
    unfold ErrorKind.lineage
    split <;> exact List.mem_cons_self
  unfold isA at hnot
  rw [h] at hnot
  exact Bool.false_ne_true (hnot.symm.trans (List.contains_iff_mem.mpr hself))

/-- A fault of a member that is not counted as a failed extraction. -/
inductive Zip.MemberFault.IsPassedOn : Zip.MemberFault → Prop
  | hugeOffset : IsPassedOn .hugeOffset
  | invalidName (part : Text.InvalidPart) : IsPassedOn (.invalidName part)
  | missingData : IsPassedOn (.content .missingData)
  | deflate (fault : Zip.DeflateFault) : IsPassedOn (.content (.deflate fault))
  | lzma (fault : Zip.LzmaFault) : IsPassedOn (.content (.lzma fault))

namespace Session

variable {s : Session} {argument : String} {f : Failure}

/-- The argument names a file with some data and the extension of archives. -/
structure IsArchive (s : Session) (argument : String) (data : Bytes) : Prop where
  extension : (PathName.ofText argument).hasExtension archiveExtensions = true
  content : s.host.contentOf (PathName.ofText argument) = .ok data

/-- The argument names an archive with a container: the last member with its name. -/
structure HasContainer (s : Session) (argument : String) (archive : Zip.Archive)
    (earlier : List Zip.Member) (member : Zip.Member) : Prop where
  opens : ∃ data, s.IsArchive argument data ∧ Zip.Archive.ofBytes data = .ok archive
  found : Zip.findMember? archiveMember [] archive.members = some (earlier, member)

/-- The causes of the failures that are of none of the kinds. -/
inductive Unforeseen (s : Session) (argument : String) : Failure → Prop
  /-- The system cannot look up the path name. -/
  | lookup {e : FileError}
      (hextension : (PathName.ofText argument).hasExtension containerExtensions = true ∨
        (PathName.ofText argument).hasExtension archiveExtensions = true)
      (hfile : s.host.isFile (PathName.ofText argument) = .error e) :
      Unforeseen s argument (.file e)
  /-- An entry of the archive needs a newer version of the format. -/
  | version {data : Bytes} {version : Nat} (harchive : s.IsArchive argument data)
      (hopen : Zip.Archive.ofBytes data = .error (.unsupportedVersion version)) :
      Unforeseen s argument (.archiveVersion version)
  /-- A name in the directory of the archive is no text. -/
  | name {data : Bytes} {part : Text.InvalidPart} (harchive : s.IsArchive argument data)
      (hopen : Zip.Archive.ofBytes data = .error (.invalidName part)) :
      Unforeseen s argument (.memberName part)
  /-- No temporary file can be made. -/
  | temporary {archive : Zip.Archive} {earlier : List Zip.Member} {member : Zip.Member}
      {e : FileError} (hcontainer : s.HasContainer argument archive earlier member)
      (hmake : s.host.makeTemporary = .error e) : Unforeseen s argument (.file e)
  /-- The container is faulty in a way that is not counted as a failed extraction. -/
  | member {archive : Zip.Archive} {earlier : List Zip.Member} {member : Zip.Member}
      {fault : Zip.MemberFault} (hcontainer : s.HasContainer argument archive earlier member)
      (hmake : ∃ made, s.host.makeTemporary = .ok made)
      (hextract : archive.extract earlier member = .error fault) (hpassed : fault.IsPassedOn) :
      Unforeseen s argument (extractionFailure argument fault)

/-! ## The file of the argument -/

/-- The only unforeseen failure to find a file is that of the system. -/
theorem existingFile_unforeseen_iff : s.existingFile argument = .error f ∧ f.IsUnforeseen ↔
    ∃ e, s.host.isFile (PathName.ofText argument) = .error e ∧ f = .file e := by
  unfold existingFile
  dsimp only
  split
  · next e hfile =>
    rw [hfile]
    constructor
    · rintro ⟨heq, -⟩
      exact ⟨e, rfl, (Except.error.inj heq).symm⟩
    · rintro ⟨e', heq, rfl⟩
      rw [Except.error.inj heq]
      exact ⟨rfl, Failure.isUnforeseen_of_kind? rfl⟩
  · next hfile =>
    rw [hfile]
    constructor
    · rintro ⟨heq, hunforeseen⟩
      obtain rfl := Except.error.inj heq
      exact absurd hunforeseen (Failure.not_isUnforeseen (by decide) rfl)
    · rintro ⟨e, heq, -⟩
      exact nomatch heq
  · next hfile =>
    rw [hfile]
    constructor
    · rintro ⟨heq, -⟩
      exact nomatch heq
    · rintro ⟨e, heq, -⟩
      exact nomatch heq

/-- A file that is there has some data. -/
theorem exists_contentOf_of_existingFile {path : PathName}
    (hexisting : s.existingFile argument = .ok path) :
    path = PathName.ofText argument ∧ ∃ data, s.host.contentOf path = .ok data := by
  obtain ⟨hpath, l, data, hplace⟩ := existingFile_eq_ok hexisting
  exact ⟨hpath, data, Host.contentOf_of_place hplace⟩

/-! ## The archive -/

/-- The container that is looked for is the one in the archive. -/
theorem findContainer_eq_ok_iff {path : PathName} {data : Bytes} {archive : Zip.Archive}
    {earlier : List Zip.Member} {member : Zip.Member} (hdata : s.host.contentOf path = .ok data) :
    s.findContainer argument path = .ok (archive, earlier, member) ↔
      Zip.Archive.ofBytes data = .ok archive ∧
        Zip.findMember? archiveMember [] archive.members = some (earlier, member) := by
  unfold findContainer
  rw [hdata]
  dsimp only
  split
  · next hopen => simp [hopen]
  · next hopen => simp [hopen]
  · next hopen => simp [hopen]
  · next opened hopen =>
    split
    · next hnone =>
      constructor
      · exact fun heq => nomatch heq
      · rintro ⟨heq, hfound⟩
        rw [← Except.ok.inj (hopen.symm.trans heq), hnone] at hfound
        exact nomatch hfound
    · next found hfound =>
      constructor
      · intro heq
        obtain ⟨rfl, rfl⟩ := Prod.mk.inj (Except.ok.inj heq)
        exact ⟨hopen, hfound⟩
      · rintro ⟨heq, hmember⟩
        obtain rfl := Except.ok.inj (hopen.symm.trans heq)
        rw [Option.some.inj (hfound.symm.trans hmember)]

/-- The unforeseen failures to find a container are those to open the archive for its version or for
a name in it. -/
theorem findContainer_unforeseen_iff {path : PathName} {data : Bytes}
    (hdata : s.host.contentOf path = .ok data) :
    s.findContainer argument path = .error f ∧ f.IsUnforeseen ↔
      (∃ version, Zip.Archive.ofBytes data = .error (.unsupportedVersion version) ∧
        f = .archiveVersion version) ∨
      ∃ part, Zip.Archive.ofBytes data = .error (.invalidName part) ∧ f = .memberName part := by
  unfold findContainer
  rw [hdata]
  dsimp only
  constructor
  · rintro ⟨hfails, hunforeseen⟩
    split at hfails
    · next version hopen => exact Or.inl ⟨version, hopen, (Except.error.inj hfails).symm⟩
    · next part hopen => exact Or.inr ⟨part, hopen, (Except.error.inj hfails).symm⟩
    · obtain rfl := Except.error.inj hfails
      exact absurd hunforeseen (Failure.not_isUnforeseen (by decide) rfl)
    · split at hfails
      · obtain rfl := Except.error.inj hfails
        exact absurd hunforeseen (Failure.not_isUnforeseen (by decide) rfl)
      · exact nomatch hfails
  · rintro (⟨version, hopen, rfl⟩ | ⟨part, hopen, rfl⟩)
    · rw [hopen]
      exact ⟨rfl, Failure.isUnforeseen_of_kind? rfl⟩
    · rw [hopen]
      exact ⟨rfl, Failure.isUnforeseen_of_kind? rfl⟩

/-! ## The container -/

/-- The failures for faults of a member are unforeseen exactly if the faults are passed on. -/
theorem extractionFailure_isUnforeseen_iff (argument : String) (fault : Zip.MemberFault) :
    (extractionFailure argument fault).IsUnforeseen ↔ fault.IsPassedOn := by
  constructor
  · intro hunforeseen
    unfold extractionFailure at hunforeseen
    split at hunforeseen
    · exact .hugeOffset
    · exact .invalidName _
    · exact .missingData
    · exact .deflate _
    · exact .lzma _
    · exact absurd hunforeseen (Failure.not_isUnforeseen (by decide) rfl)
  · intro hpassed
    cases hpassed <;> exact Failure.isUnforeseen_of_kind? rfl

/-- Whether a container in an archive can be extracted is a matter of the temporary file and of the
container. -/
theorem extractArchive_unforeseen_iff {archive : Zip.Archive} {earlier : List Zip.Member}
    {member : Zip.Member} (hcontainer : s.HasContainer argument archive earlier member) :
    (s.extractArchive argument).1 = .error f ∧ f.IsUnforeseen ↔
      (∃ e, s.host.makeTemporary = .error e ∧ f = .file e) ∨
        (∃ made, s.host.makeTemporary = .ok made) ∧ ∃ fault,
          archive.extract earlier member = .error fault ∧ fault.IsPassedOn ∧
            f = extractionFailure argument fault := by
  obtain ⟨⟨data, harchive, hopen⟩, hfound⟩ := hcontainer
  have hfind : s.findContainer argument (PathName.ofText argument) =
      .ok (archive, earlier, member) :=
    (findContainer_eq_ok_iff harchive.content).mpr ⟨hopen, hfound⟩
  unfold extractArchive createTemporary
  rw [existingFile_of_contentOf harchive.content]
  dsimp only
  rw [hfind]
  dsimp only
  cases s.host.makeTemporary with
  | error e =>
    dsimp only
    constructor
    · rintro ⟨heq, -⟩
      exact Or.inl ⟨e, rfl, (Except.error.inj heq).symm⟩
    · rintro (⟨e', heq, rfl⟩ | ⟨⟨made, heq⟩, -⟩)
      · rw [Except.error.inj heq]
        exact ⟨rfl, Failure.isUnforeseen_of_kind? rfl⟩
      · exact nomatch heq
  | ok made =>
    dsimp only
    cases archive.extract earlier member with
    | error fault =>
      dsimp only
      constructor
      · rintro ⟨heq, hunforeseen⟩
        obtain rfl := Except.error.inj heq
        have hpassed := (extractionFailure_isUnforeseen_iff argument fault).mp hunforeseen
        exact Or.inr ⟨⟨made, rfl⟩, fault, rfl, hpassed, rfl⟩
      · rintro (⟨e, heq, -⟩ | ⟨-, fault', heq, hpassed, rfl⟩)
        · exact nomatch heq
        · rw [Except.error.inj heq]
          exact ⟨rfl, (extractionFailure_isUnforeseen_iff argument fault').mpr hpassed⟩
    | ok content =>
      dsimp only
      constructor
      · rintro ⟨heq, hunforeseen⟩
        split at heq
        · obtain rfl := Except.error.inj heq
          exact absurd hunforeseen (Failure.not_isUnforeseen (by decide) rfl)
        · exact nomatch heq
      · rintro (⟨e, heq, -⟩ | ⟨-, fault, heq, -⟩)
        · exact nomatch heq
        · exact nomatch heq

/-! ## Resolving -/

/-- An argument with the extension of containers or archives fails if its file cannot be looked
up. -/
theorem resolve_of_existingFile_error
    (hextension : (PathName.ofText argument).hasExtension containerExtensions = true ∨
      (PathName.ofText argument).hasExtension archiveExtensions = true)
    (hexisting : s.existingFile argument = .error f) : (s.resolve argument).1 = .error f := by
  by_cases hcontainer : (PathName.ofText argument).hasExtension containerExtensions = true
  · unfold resolve resolveContainer
    dsimp only
    rw [if_pos hcontainer, hexisting]
    rfl
  · rw [resolve_of_archive (hextension.resolve_left hcontainer)]
    unfold extractArchive
    rw [hexisting]
    rfl

/-- An archive whose container is not found fails. -/
theorem resolve_of_findContainer_error {data : Bytes} (harchive : s.IsArchive argument data)
    (hfind : s.findContainer argument (PathName.ofText argument) = .error f) :
    (s.resolve argument).1 = .error f := by
  rw [resolve_of_archive harchive.extension]
  unfold extractArchive
  rw [existingFile_of_contentOf harchive.content]
  dsimp only
  rw [hfind]
  rfl

/-- The unforeseen failures of archives. -/
theorem extractArchive_unforeseen
    (hextension : (PathName.ofText argument).hasExtension archiveExtensions = true)
    (hfails : (s.extractArchive argument).1 = .error f) (hunforeseen : f.IsUnforeseen) :
    s.Unforeseen argument f := by
  cases hexisting : s.existingFile argument with
  | error f' =>
    have heq := resolve_of_existingFile_error (Or.inr hextension) hexisting
    rw [resolve_of_archive hextension, hfails] at heq
    obtain rfl := Except.error.inj heq
    obtain ⟨e, hfile, rfl⟩ := existingFile_unforeseen_iff.mp ⟨hexisting, hunforeseen⟩
    exact .lookup (Or.inr hextension) hfile
  | ok path =>
    obtain ⟨rfl, data, hdata⟩ := exists_contentOf_of_existingFile hexisting
    have harchive : s.IsArchive argument data := ⟨hextension, hdata⟩
    cases hfind : s.findContainer argument (PathName.ofText argument) with
    | error f' =>
      have heq := resolve_of_findContainer_error harchive hfind
      rw [resolve_of_archive hextension, hfails] at heq
      obtain rfl := Except.error.inj heq
      rcases (findContainer_unforeseen_iff hdata).mp ⟨hfind, hunforeseen⟩ with
        ⟨version, hopen, rfl⟩ | ⟨part, hopen, rfl⟩
      · exact .version harchive hopen
      · exact .name harchive hopen
    | ok found =>
      obtain ⟨archive, earlier, member⟩ := found
      obtain ⟨hopen, hfound⟩ := (findContainer_eq_ok_iff hdata).mp hfind
      have hcontainer : s.HasContainer argument archive earlier member :=
        ⟨⟨data, harchive, hopen⟩, hfound⟩
      rcases (extractArchive_unforeseen_iff hcontainer).mp ⟨hfails, hunforeseen⟩ with
        ⟨e, hmake, rfl⟩ | ⟨hmake, fault, hextract, hpassed, rfl⟩
      · exact .temporary hcontainer hmake
      · exact .member hcontainer hmake hextract hpassed

/-- Resolving an argument gives an input or none, or fails in one of the kinds that are meant for
it, or fails from one of the causes listed; and each of these causes makes it fail in none of the
kinds. -/
theorem resolve_unforeseen_iff (s : Session) (argument : String) (f : Failure) :
    (s.resolve argument).1 = .error f ∧ f.IsUnforeseen ↔ s.Unforeseen argument f := by
  constructor
  · rintro ⟨hfails, hunforeseen⟩
    by_cases hcontainer : (PathName.ofText argument).hasExtension containerExtensions = true
    · unfold resolve resolveContainer at hfails
      dsimp only at hfails
      rw [if_pos hcontainer] at hfails
      split at hfails
      · next f' hexisting =>
        obtain rfl := Except.error.inj hfails
        obtain ⟨e, hfile, rfl⟩ := existingFile_unforeseen_iff.mp ⟨hexisting, hunforeseen⟩
        exact .lookup (Or.inl hcontainer) hfile
      · exact nomatch hfails
    · by_cases harchive : (PathName.ofText argument).hasExtension archiveExtensions = true
      · rw [resolve_of_archive harchive] at hfails
        cases hextract : (s.extractArchive argument).1 with
        | ok entry =>
          rw [hextract] at hfails
          exact nomatch hfails
        | error f' =>
          rw [hextract] at hfails
          obtain rfl := Except.error.inj hfails
          exact extractArchive_unforeseen harchive hextract hunforeseen
      · unfold resolve at hfails
        dsimp only at hfails
        rw [if_neg hcontainer, if_neg harchive] at hfails
        exact nomatch hfails
  · intro hcause
    cases hcause with
    | lookup hextension hfile =>
      obtain ⟨hexisting, hunforeseen⟩ := existingFile_unforeseen_iff.mpr ⟨_, hfile, rfl⟩
      exact ⟨resolve_of_existingFile_error hextension hexisting, hunforeseen⟩
    | version harchive hopen =>
      obtain ⟨hfind, hunforeseen⟩ := (findContainer_unforeseen_iff harchive.content).mpr
        (Or.inl ⟨_, hopen, rfl⟩)
      exact ⟨resolve_of_findContainer_error harchive hfind, hunforeseen⟩
    | name harchive hopen =>
      obtain ⟨hfind, hunforeseen⟩ := (findContainer_unforeseen_iff harchive.content).mpr
        (Or.inr ⟨_, hopen, rfl⟩)
      exact ⟨resolve_of_findContainer_error harchive hfind, hunforeseen⟩
    | temporary hcontainer hmake =>
      obtain ⟨hfails, hunforeseen⟩ :=
        (extractArchive_unforeseen_iff hcontainer).mpr (Or.inl ⟨_, hmake, rfl⟩)
      obtain ⟨data, harchive, -⟩ := hcontainer.opens
      rw [resolve_of_archive harchive.extension, hfails]
      exact ⟨rfl, hunforeseen⟩
    | member hcontainer hmake hextract hpassed =>
      obtain ⟨hfails, hunforeseen⟩ := (extractArchive_unforeseen_iff hcontainer).mpr
        (Or.inr ⟨hmake, _, hextract, hpassed, rfl⟩)
      obtain ⟨data, harchive, -⟩ := hcontainer.opens
      rw [resolve_of_archive harchive.extension, hfails]
      exact ⟨rfl, hunforeseen⟩

end Session

/-! ## A corrupt container -/

namespace Zip

/-- An archive with a container that is a deflated byte, which says that a block of no type
follows. -/
def corruptContainer : Bytes :=
  #[80, 75, 3, 4, 20, 0, 0, 0, 8, 0, 0, 0, 33, 0, 0, 0, 0, 0, 1, 0, 0, 0, 1, 0, 0, 0, 11, 0, 0, 0,
    99, 108, 97, 115, 115, 101, 115, 46, 100, 101, 120, 7, 80, 75, 1, 2, 20, 0, 20, 0, 0, 0, 8, 0,
    0, 0, 33, 0, 0, 0, 0, 0, 1, 0, 0, 0, 1, 0, 0, 0, 11, 0, 0, 0, 0, 0, 0, 0, 0, 0, 0, 0, 0, 0, 0,
    0, 0, 0, 99, 108, 97, 115, 115, 101, 115, 46, 100, 101, 120, 80, 75, 5, 6, 0, 0, 0, 0, 1, 0, 1,
    0, 57, 0, 0, 0, 42, 0, 0, 0, 0, 0]

def corruptMember : Member := ⟨archiveMember, 0, 8, 0, 1, 1, 0, 0⟩

/-- The archive can be opened and has one member. -/
theorem ofBytes_corruptContainer :
    Archive.ofBytes corruptContainer = .ok ⟨corruptContainer, [corruptMember], 42⟩ := by
  have hplace : directoryPlace corruptContainer = .ok ⟨99, 57, 42⟩ := by decide +kernel
  have hmembers : readMembers (corruptContainer.extract (99 - 57) 99)
      (((99 - 57 : Nat) : Int) - (42 : Nat)) 57 0 = .ok [corruptMember] := by decide +kernel
  unfold Archive.ofBytes
  rw [hplace]
  dsimp only
  rw [if_neg (by decide)]
  rw [hmembers]

end Zip

/-- A host with the archive. -/
def Host.withCorruptArchive : Host where
  tree := FileTree.empty.put ["a.apk"] (.file Zip.corruptContainer)
  workingDirectory := []
  temporaryDirectory := []
  drawn := 0

/-- A corrupt container fails for its data, which is none of the kinds that are meant for an
argument. -/
theorem Session.resolve_corruptContainer :
    ((Session.start .withCorruptArchive).resolve "a.apk").1 = .error (.deflate .blockType) ∧
      (Failure.deflate .blockType).IsUnforeseen := by
  have hplace : Host.withCorruptArchive.place .target (PathName.ofText "a.apk") =
      .ok (.existing ["a.apk"] (.file Zip.corruptContainer)) := by
    rw [show PathName.ofText "a.apk" = ⟨.relative, ["a.apk"]⟩ by decide]
    exact Host.place_of_short (by decide) (by decide)
      (.into rfl ⟨by decide, by decide, by decide⟩ rfl (fun _ => nofun) (.arrived rfl))
  have harchive : (Session.start .withCorruptArchive).IsArchive "a.apk" Zip.corruptContainer :=
    ⟨by decide +kernel, Host.contentOf_of_place hplace⟩
  have hcontainer : (Session.start .withCorruptArchive).HasContainer "a.apk"
      ⟨Zip.corruptContainer, [Zip.corruptMember], 42⟩ [] Zip.corruptMember :=
    ⟨⟨_, harchive, Zip.ofBytes_corruptContainer⟩, by decide +kernel⟩
  have hmake : ∃ made, Host.withCorruptArchive.makeTemporary = .ok made := by
    have hnumber : Host.withCorruptArchive.freshNumber = 0 := by decide +kernel
    have hvacant : Host.withCorruptArchive.place .entry
        (Host.withCorruptArchive.temporaryPath 0) = .ok (.vacant ["dedex-0.dex"]) :=
      Host.place_of_short (by decide +kernel) (by decide +kernel)
        (.vacant rfl ⟨by decide +kernel, by decide, by decide +kernel⟩ rfl)
    exact Host.exists_makeTemporary (hnumber ▸ hvacant)
  have hextract : (Zip.Archive.mk Zip.corruptContainer [Zip.corruptMember] 42).extract []
      Zip.corruptMember = .error (.content (.deflate .blockType)) := by
    decide +kernel
  obtain ⟨hfails, hunforeseen⟩ :
      ((Session.start .withCorruptArchive).extractArchive "a.apk").1 =
          .error (.deflate .blockType) ∧
        (Failure.deflate .blockType).IsUnforeseen :=
    (Session.extractArchive_unforeseen_iff hcontainer).mpr
      (Or.inr ⟨hmake, _, hextract, .deflate .blockType, rfl⟩)
  rw [Session.resolve_of_archive harchive.extension, hfails]
  exact ⟨rfl, hunforeseen⟩

end DexListing
