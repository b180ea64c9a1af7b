import DexListing.Proofs.Run.ResolveFailures
import DexListing.Proofs.Run.Retaining

/-!
# Scanning the same arguments again

What an argument stands for, apart from the temporary file that is made for it, is a function of the
contents under its path name (`Session.inputOf`, `Session.resolve_yields`). So two scans of the same
arguments, on two hosts that agree on these contents, go side by side: what each has gathered is the
same, up to where the containers from archives are kept (`Scan.Abreast`). One argument keeps them
side by side (`Scan.Abreast.addInput`, `Scan.Abreast.applyOption`), so all arguments do
(`Scan.goesAlong`), and both scans come to the same configuration and to the same inputs
(`Scan.parse_again`).
-/

set_option autoImplicit false

namespace DexListing

/-! ## What an argument stands for -/

namespace Session

variable {s s' : Session} {argument : String}

/-- Reporting an event does not change the host. -/
@[simp] theorem host_report (s : Session) (e : Event) : (s.report e).host = s.host := rfl

/-- The name and the content of the container that an argument stands for; none if it is of neither
kind. -/
def inputOf (s : Session) (argument : String) : Except Failure (Option (String × Bytes)) :=
  if (PathName.ofText argument).hasExtension containerExtensions then
    match s.existingFile argument with
    | .error f => .error f
    | .ok path =>
      match s.host.contentOf path with
      | .error e => .error (.file e)
      | .ok content => .ok (some (path.name, content))
  else if (PathName.ofText argument).hasExtension archiveExtensions then
    match s.existingFile argument with
    | .error f => .error f
    | .ok path =>
      match s.findContainer argument path with
      | .error f => .error f
      | .ok (archive, earlier, member) =>
        match archive.extract earlier member with
        | .error fault => .error (extractionFailure argument fault)
        | .ok content => .ok (some (path.name, content))
  else .ok none

/-- What resolving an argument gives: an entry has the name and leads to the content. -/
inductive Yields (s : Session) (argument : String) : Except Failure (Option (String × Bytes)) → Prop
  | failed {f : Failure} (hfails : (s.resolve argument).1 = .error f) : Yields s argument (.error f)
  | passed (hpassed : (s.resolve argument).1 = .ok none) : Yields s argument (.ok none)
  | found {entry : InputEntry} {content : Bytes}
      (hresolve : (s.resolve argument).1 = .ok (some entry))
      (hcontent : (s.resolve argument).2.host.contentOf entry.path = .ok content) :
      Yields s argument (.ok (some (entry.displayName, content)))

/-- A container is an input by itself. -/
theorem resolve_yields_of_container
    (hcontainer : (PathName.ofText argument).hasExtension containerExtensions = true) :
    s.Yields argument (s.inputOf argument) := by
  unfold inputOf
  rw [if_pos hcontainer]
  cases hexisting : s.existingFile argument with
  | error f => exact .failed (resolve_of_existingFile_error (Or.inl hcontainer) hexisting)
  | ok path =>
    obtain ⟨-, content, hcontent⟩ := exists_contentOf_of_existingFile hexisting
    dsimp only
    rw [hcontent]
    have hresolve : s.resolve argument = (.ok (some ⟨path, false, path.name⟩), s) := by
      unfold resolve resolveContainer
      simp only [if_pos hcontainer, hexisting]
      rfl
    refine @Yields.found s argument ⟨path, false, path.name⟩ _ ?_ ?_ <;> rw [hresolve]
    exact hcontent

/-- The container that is found in an archive is extracted, unless no temporary file can be made for
it. -/
theorem resolve_yields_of_found {data : Bytes} {archive : Zip.Archive} {earlier : List Zip.Member}
    {member : Zip.Member} (harchive : s.IsArchive argument data)
    (hfound :
      s.findContainer argument (PathName.ofText argument) = .ok (archive, earlier, member)) :
    s.Yields argument
        (match archive.extract earlier member with
        | .error fault => .error (extractionFailure argument fault)
        | .ok content => .ok (some ((PathName.ofText argument).name, content))) ∨
      ∃ e, s.host.makeTemporary = .error e ∧ (s.resolve argument).1 = .error (.file e) := by
  have hresolve := resolve_of_archive (s := s) harchive.extension
  unfold extractArchive createTemporary at hresolve
  rw [existingFile_of_contentOf harchive.content] at hresolve
  dsimp only at hresolve
  rw [hfound] at hresolve
  dsimp only at hresolve
  cases hmake : s.host.makeTemporary with
  | error e =>
    rw [hmake] at hresolve
    exact Or.inr ⟨e, rfl, by rw [hresolve]; rfl⟩
  | ok made =>
    left
    rw [hmake] at hresolve
    dsimp only at hresolve
    cases hextract : archive.extract earlier member with
    | error fault =>
      rw [hextract] at hresolve
      exact .failed (by rw [hresolve]; rfl)
    | ok content =>
      obtain ⟨stored, hstore⟩ := Host.storeContent_of_makeTemporary hmake content
      rw [hextract] at hresolve
      dsimp only at hresolve
      rw [hstore] at hresolve
      refine @Yields.found s argument ⟨made.1, true, (PathName.ofText argument).name⟩ _ ?_ ?_
      · rw [hresolve]
        rfl
      · rw [hresolve]
        exact Host.contentOf_of_storeContent hstore

/-- Resolving an argument gives what it stands for, unless it is an archive for which no temporary
file can be made. -/
theorem resolve_yields (s : Session) (argument : String) :
    s.Yields argument (s.inputOf argument) ∨
      (PathName.ofText argument).hasExtension archiveExtensions = true ∧
        (∃ content, s.host.contentOf (PathName.ofText argument) = .ok content) ∧
        ∃ e, s.host.makeTemporary = .error e ∧ (s.resolve argument).1 = .error (.file e) := by
  by_cases hcontainer : (PathName.ofText argument).hasExtension containerExtensions = true
  · exact Or.inl (resolve_yields_of_container hcontainer)
  unfold inputOf
  rw [if_neg hcontainer]
  by_cases hextension : (PathName.ofText argument).hasExtension archiveExtensions = true
  · rw [if_pos hextension]
    cases hexisting : s.existingFile argument with
    | error f =>
      exact Or.inl (.failed (resolve_of_existingFile_error (Or.inr hextension) hexisting))
    | ok path =>
      obtain ⟨rfl, data, hdata⟩ := exists_contentOf_of_existingFile hexisting
      have harchive : s.IsArchive argument data := ⟨hextension, hdata⟩
      dsimp only
      cases hfound : s.findContainer argument (PathName.ofText argument) with
      | error f => exact Or.inl (.failed (resolve_of_findContainer_error harchive hfound))
      | ok found =>
        exact (resolve_yields_of_found harchive hfound).imp_right fun hmake =>
          ⟨hextension, ⟨data, hdata⟩, hmake⟩
  · rw [if_neg hextension]
    have hresolve : s.resolve argument = (.ok none, s.report (.argumentIgnored argument)) := by
      unfold resolve
      simp only [if_neg hcontainer, if_neg hextension]
    exact Or.inl (.passed (by rw [hresolve]))

/-- Hosts that agree on the contents under the path name of an argument agree on its file. -/
theorem existingFile_eq (hfree : s.host.tree.LinkFree) (hfree' : s'.host.tree.LinkFree)
    (hplain : (PathName.ofText argument).IsPlain)
    (hsame : ∀ content, s.host.contentOf (PathName.ofText argument) = .ok content ↔
      s'.host.contentOf (PathName.ofText argument) = .ok content) :
    s'.existingFile argument = s.existingFile argument := by
  unfold existingFile
  dsimp only
  rw [Host.isFile_eq_of_contentOf hfree hfree' hplain hsame]

/-- What an argument stands for depends on the contents under its path name only. -/
theorem inputOf_eq (hfree : s.host.tree.LinkFree) (hfree' : s'.host.tree.LinkFree)
    (hplain : (PathName.ofText argument).IsPlain)
    (hsame : ∀ content, s.host.contentOf (PathName.ofText argument) = .ok content ↔
      s'.host.contentOf (PathName.ofText argument) = .ok content) :
    s'.inputOf argument = s.inputOf argument := by
  unfold inputOf
  rw [existingFile_eq hfree hfree' hplain hsame]
  cases hexisting : s.existingFile argument with
  | error f => rfl
  | ok path =>
    obtain ⟨rfl, data, hdata⟩ := exists_contentOf_of_existingFile hexisting
    dsimp only
    unfold findContainer
    rw [hdata, (hsame data).mp hdata]

end Session

/-! ## The path names of inputs -/

/-- A path name that an input can have in a run that is made again: a plain one, and not that of a
temporary file. -/
structure Host.InputName (h : Host) (p : PathName) : Prop where
  plain : p.IsPlain
  notTemporary : ∀ n l, h.realPath (h.temporaryPath n) = .ok l → h.realPath p ≠ .ok l

/-- An argument, if it has the extension of inputs, is such a path name on both hosts. -/
def Arguments.InputName (first again : Host) (token : String) : Prop :=
  (PathName.ofText token).hasExtension (containerExtensions ++ archiveExtensions) = true →
    first.InputName (PathName.ofText token) ∧ again.InputName (PathName.ofText token)

/-- A temporary file can be made for an argument, if it is an archive that is there. -/
def Host.GetsTemporary (h : Host) (token : String) : Prop :=
  (PathName.ofText token).hasExtension archiveExtensions = true →
    ∀ content, h.contentOf (PathName.ofText token) = .ok content →
      ∃ made, h.makeTemporary = .ok made

/-- An argument is what it stands for, if a temporary file can be made for it. -/
theorem Session.yields_of_getsTemporary {s : Session} {token : String}
    (hmade : s.host.GetsTemporary token) : s.Yields token (s.inputOf token) := by
  refine (s.resolve_yields token).resolve_right ?_
  rintro ⟨harchive, ⟨content, hcontent⟩, e, hfails, -⟩
  obtain ⟨made, hmake⟩ := hmade harchive content hcontent
  rw [hmake] at hfails
  cases hfails

/-- Temporary files do not matter for the contents under the path names of inputs. -/
theorem Session.Resolving.contentOf_iff {first : Host} {s : Session} {entries : List InputEntry}
    (hs : s.Resolving first entries) (hfree : first.tree.LinkFree) {p : PathName}
    (hp : first.InputName p) (content : Bytes) :
    s.host.contentOf p = .ok content ↔ first.contentOf p = .ok content := by
  obtain ⟨locations, htracks⟩ := hs.tracks
  have hgrows := Host.growsBelow_of_gainsFiles htracks.workingDirectory htracks.gainsFiles
  have hfree' := hgrows.linkFree hfree
  have hreal := Host.realPath_of_linkFree hfree hfree' htracks.workingDirectory
  refine ⟨fun hcontent => ?_,
    Host.contentOf_of_gainsFiles htracks.workingDirectory htracks.gainsFiles⟩
  rw [Host.contentOf_iff_get? hfree' hp.plain] at hcontent
  obtain ⟨husable, hfile⟩ := hcontent
  rw [hgrows.start_eq] at hfile
  refine (Host.contentOf_iff_get? hfree hp.plain).mpr ⟨husable, ?_⟩
  by_cases hmem : first.start p ++ p.parts ∈ locations
  · -- Then the path name would be that of a temporary file.
    obtain ⟨path, hpath, old, hentry⟩ := Host.IsFileAt.exists_path htracks.owns.standing hmem
    obtain ⟨n, rfl⟩ := hs.exists_temporaryPath.2 path hpath
    have htarget := Host.place_of_walks hentry rfl
      ((Host.walks_of_place hentry).2.to_target fun _ _ => nofun)
    have htemporary := (hreal _).symm.trans (Host.realPath_of_place_linkFree hfree' htarget)
    exact absurd (Host.realPath_of_linkFree_plain hfree hp.plain husable.noNul)
      (hp.notTemporary n _ htemporary)
  · rw [← htracks.otherwise _ hmem, hfile]

/-- A later host: the directories are still there, and the files with the extensions of inputs are
the same. -/
structure Host.KeepsInputs (first again : Host) : Prop where
  grows : first.GrowsBelow [] again
  inputs : ∀ p, p.hasExtension (containerExtensions ++ archiveExtensions) = true → p.IsPlain →
    ∀ content, first.contentOf p = .ok content ↔ again.contentOf p = .ok content

/-- Entries on two hosts that are the same input: they are shown under one name, and both lead to a
file with the same content. -/
structure Host.SameInput (h h' : Host) (entry entry' : InputEntry) : Prop where
  displayName : entry'.displayName = entry.displayName
  content : ∃ content, h.contentOf entry.path = .ok content ∧
    h'.contentOf entry'.path = .ok content

/-- What is resolved later on leaves the inputs the same. -/
theorem Host.SameInput.of_resolve {s s' : Session} {entry entry' : InputEntry}
    (h : s.host.SameInput s'.host entry entry') (token : String) :
    (s.resolve token).2.host.SameInput (s'.resolve token).2.host entry entry' := by
  obtain ⟨hworking, hgains⟩ := s.resolve_gainsFiles token
  obtain ⟨hworking', hgains'⟩ := s'.resolve_gainsFiles token
  obtain ⟨content, hcontent, hcontent'⟩ := h.content
  exact ⟨h.displayName, content, Host.contentOf_of_gainsFiles hworking hgains hcontent,
    Host.contentOf_of_gainsFiles hworking' hgains' hcontent'⟩

/-! ## One argument -/

namespace Scan

section OneInput

variable {s : Session} {token : String} (scan : Scan)

/-- An input that does not end the scan is what it stands for. -/
theorem yields_of_addInput {scan scan₁ : Scan} {s₁ : Session}
    (hadded : scan.addInput s token = (.ok (), scan₁, s₁)) : s.Yields token (s.inputOf token) := by
  refine (s.resolve_yields token).resolve_right ?_
  rintro ⟨-, -, e, -, hfails⟩
  have hends : (Failure.file e).isA .input = false := rfl
  rw [addInput_of_error scan hfails, hends, if_neg Bool.false_ne_true] at hadded
  cases (Prod.mk.inj hadded).1

end OneInput

/-- Two scans of the same arguments on two hosts that have got equally far: they have gathered the
same, and their inputs are the same. -/
structure Abreast (first again : Host) (scan scan' : Scan) (s s' : Session) : Prop where
  same : scan' = { scan with entries := scan'.entries }
  resolving : s.Resolving first scan.entries
  resolving' : s'.Resolving again scan'.entries
  entries : List.Forall₂ (s.host.SameInput s'.host) scan.entries scan'.entries

/-- Both scans start alike, with nothing gathered. -/
theorem abreast_start (first again : Host) :
    Abreast first again start start (.start first) (.start again) :=
  ⟨rfl, .start, .start, .nil⟩

namespace Abreast

variable {first again : Host} {scan scan' scan₁ : Scan} {s s' s₁ : Session} {token : String}
  {registry : Registry}

/-- The directories of the first host are those of the other one. -/
theorem isDirectory (h : Abreast first again scan scan' s s') (hkeeps : first.KeepsInputs again)
    {p : PathName} (hdir : s.host.isDirectory p = .ok true) : s'.host.isDirectory p = .ok true := by
  obtain ⟨_, htracks⟩ := h.resolving.tracks
  obtain ⟨_, htracks'⟩ := h.resolving'.tracks
  rw [Host.isDirectory_of_gainsFiles htracks.workingDirectory htracks.gainsFiles] at hdir
  rw [Host.isDirectory_of_gainsFiles htracks'.workingDirectory htracks'.gainsFiles]
  obtain ⟨l, hplace⟩ := Host.isDirectory_eq_true_iff.mp hdir
  exact Host.isDirectory_eq_true_iff.mpr ⟨l, hkeeps.grows.place_directory hplace⟩

/-- An input stands for the same on both hosts. -/
theorem inputOf_eq (h : Abreast first again scan scan' s s') (hfree : first.tree.LinkFree)
    (hkeeps : first.KeepsInputs again) (hnames : Arguments.InputName first again token) :
    s'.inputOf token = s.inputOf token := by
  obtain ⟨_, htracks⟩ := h.resolving.tracks
  obtain ⟨_, htracks'⟩ := h.resolving'.tracks
  have hgrows := Host.growsBelow_of_gainsFiles htracks.workingDirectory htracks.gainsFiles
  have hgrows' := Host.growsBelow_of_gainsFiles htracks'.workingDirectory htracks'.gainsFiles
  by_cases hextension :
      (PathName.ofText token).hasExtension (containerExtensions ++ archiveExtensions) = true
  · obtain ⟨hname, hname'⟩ := hnames hextension
    apply Session.inputOf_eq (hgrows.linkFree hfree)
      (hgrows'.linkFree (hkeeps.grows.linkFree hfree)) hname.plain
    intro content
    rw [h.resolving.contentOf_iff hfree hname,
      h.resolving'.contentOf_iff (hkeeps.grows.linkFree hfree) hname',
      hkeeps.inputs _ hextension hname.plain]
  · have hneither : (PathName.ofText token).hasExtension containerExtensions = false ∧
        (PathName.ofText token).hasExtension archiveExtensions = false := by
      simpa [PathName.hasExtension] using hextension
    unfold Session.inputOf
    simp only [hneither, Bool.false_eq_true, if_false]

/-- An input that does not end the one scan does not end the other one either, if a temporary file
can be made for it. -/
theorem addInput (h : Abreast first again scan scan' s s') (hfree : first.tree.LinkFree)
    (hkeeps : first.KeepsInputs again) (hnames : Arguments.InputName first again token)
    (hmade : s'.host.GetsTemporary token)
    (hadded : scan.addInput s token = (.ok (), scan₁, s₁)) :
    ∃ scan₁' s₁', scan'.addInput s' token = (.ok (), scan₁', s₁') ∧
      s₁'.host = (s'.resolve token).2.host ∧ scan₁.pending = scan.pending ∧
      Abreast first again scan₁ scan₁' s₁ s₁' := by
  have hyields := yields_of_addInput hadded
  have hyields' : s'.Yields token (s.inputOf token) :=
    h.inputOf_eq hfree hkeeps hnames ▸ Session.yields_of_getsTemporary hmade
  have hresolving := h.resolving.addInput token
  have hresolving' := h.resolving'.addInput token
  have hentries := h.entries.imp fun _ _ hsame => hsame.of_resolve token
  generalize s.inputOf token = input at hyields hyields'
  cases hyields with
  | @failed f hfails =>
    cases hyields' with
    | failed hfails' =>
    rw [addInput_of_error scan hfails] at hadded hresolving
    rw [addInput_of_error scan' hfails'] at hresolving' ⊢
    by_cases hpassed : f.isA .input = true
    · rw [if_pos hpassed] at hadded hresolving hresolving' ⊢
      dsimp only at hresolving hresolving'
      obtain ⟨-, hrest⟩ := Prod.mk.inj hadded
      obtain ⟨rfl, rfl⟩ := Prod.mk.inj hrest
      refine ⟨_, _, rfl, Session.host_report _ _, rfl, h.same, hresolving, hresolving', ?_⟩
      rwa [Session.host_report, Session.host_report]
    · rw [if_neg hpassed] at hadded
      exact nomatch (Prod.mk.inj hadded).1
  | passed hpassed =>
    cases hyields' with
    | passed hpassed' =>
    rw [addInput_of_none scan hpassed] at hadded hresolving
    rw [addInput_of_none scan' hpassed'] at hresolving' ⊢
    dsimp only at hresolving hresolving'
    obtain ⟨-, hrest⟩ := Prod.mk.inj hadded
    obtain ⟨rfl, rfl⟩ := Prod.mk.inj hrest
    exact ⟨_, _, rfl, rfl, rfl, h.same, hresolving, hresolving', hentries⟩
  | @found entry content hresolve hcontent =>
    generalize hnamed : entry.displayName = name at hyields'
    cases hyields' with
    | @found entry' _ hresolve' hcontent' =>
    rw [addInput_of_some scan hresolve] at hadded hresolving
    rw [addInput_of_some scan' hresolve'] at hresolving' ⊢
    dsimp only at hresolving hresolving'
    obtain ⟨-, hrest⟩ := Prod.mk.inj hadded
    obtain ⟨rfl, rfl⟩ := Prod.mk.inj hrest
    refine ⟨_, _, rfl, rfl, rfl, ?_, hresolving, hresolving',
      List.rel_append hentries (.cons ⟨hnamed.symm, content, hcontent, hcontent'⟩ .nil)⟩
    rw [h.same]

/-- What one scan has gathered before an option it has gathered after it as well. -/
theorem of_pending (h : Abreast first again scan scan' s s') (pending : Option OptionName) :
    Abreast first again { scan with pending } { scan' with pending } s s' := by
  refine ⟨?_, h.resolving, h.resolving', h.entries⟩
  rw [h.same]

/-- The value of an option that is good for the one scan is good for the other one. -/
theorem applyOption (h : Abreast first again scan scan' s s') (hkeeps : first.KeepsInputs again)
    (option : OptionName) (value : String)
    (happlied : Scan.applyOption registry s.host scan option value = .ok scan₁) :
    ∃ scan₁', Scan.applyOption registry s'.host scan' option value = .ok scan₁' ∧
      scan₁.pending = scan.pending ∧ Abreast first again scan₁ scan₁' s s' := by
  have hsame := h.same
  unfold Scan.applyOption at happlied ⊢
  cases option with
  | pattern =>
    obtain rfl := Except.ok.inj happlied
    exact ⟨_, rfl, rfl, by rw [hsame], h.resolving, h.resolving', h.entries⟩
  | display =>
    dsimp only at happlied ⊢
    cases hselection : Selection.parse value with
    | error element =>
      rw [hselection] at happlied
      exact nomatch happlied
    | ok selection =>
      rw [hselection] at happlied
      obtain rfl := Except.ok.inj happlied
      exact ⟨_, rfl, rfl, by rw [hsame], h.resolving, h.resolving', h.entries⟩
  | directory =>
    dsimp only at happlied ⊢
    split at happlied
    · exact nomatch happlied
    · exact nomatch happlied
    · next hdir =>
      obtain rfl := Except.ok.inj happlied
      rw [h.isDirectory hkeeps hdir]
      exact ⟨_, rfl, rfl, by rw [hsame], h.resolving, h.resolving', h.entries⟩
  | writer =>
    dsimp only at happlied ⊢
    cases hname : registry.canonicalName? value with
    | none =>
      rw [hname] at happlied
      exact nomatch happlied
    | some name =>
      rw [hname] at happlied
      obtain rfl := Except.ok.inj happlied
      exact ⟨_, rfl, rfl, by rw [hsame], h.resolving, h.resolving', h.entries⟩
  | level =>
    obtain rfl := Except.ok.inj happlied
    exact ⟨_, rfl, rfl, by rw [hsame], h.resolving, h.resolving', h.entries⟩

end Abreast

end Scan

/-! ## All arguments -/

/-- Each archive that is there gets a temporary file when its turn comes. -/
def Arguments.GetTemporaries (host : Host) (a : Arguments) : Prop :=
  ∀ stage ∈ Argument.stages host a.items, ∀ token, stage.2 = .input token →
    stage.1.GetsTemporary token

/-- The first argument gets its file, if it needs one, before the others get theirs. -/
theorem Arguments.getTemporaries_cons (host : Host) (argument : Argument) (items : List Argument)
    (unfinished : Option String) :
    (Arguments.mk (argument :: items) unfinished).GetTemporaries host ↔
      (∀ token, argument = .input token → host.GetsTemporary token) ∧
      (Arguments.mk items unfinished).GetTemporaries (argument.resolve host).2 := by
  unfold GetTemporaries
  rw [Argument.stages, List.forall_mem_cons]

/-- The inputs have path names that they can have in a run that is made again. -/
def Arguments.InputNames (first again : Host) (a : Arguments) : Prop :=
  ∀ token, .input token ∈ a.items → InputName first again token

namespace Scan

variable {first again : Host} {scan scan' scan₁ : Scan} {s s' s₁ : Session} {tokens : List String}
  {registry : Registry}

/-- A scan of tokens that does not fail goes side by side with another one, whatever has been
gathered before them. -/
def GoesAlong (registry : Registry) (first again : Host) (tokens : List String) : Prop :=
  ∀ {scan scan' scan₁ : Scan} {s s' s₁ : Session}, scan.pending = none →
    Abreast first again scan scan' s s' → (Arguments.ofTokens tokens).InputNames first again →
    (Arguments.ofTokens tokens).GetTemporaries s'.host →
    feedAll registry scan s tokens = (.ok (), scan₁, s₁) →
    ∃ scan₁' s₁', feedAll registry scan' s' tokens = (.ok (), scan₁', s₁') ∧
      Abreast first again scan₁ scan₁' s₁ s₁'

/-- Both scans await the same value. -/
theorem Abreast.pending (h : Abreast first again scan scan' s s') :
    scan'.pending = scan.pending := by
  rw [h.same]

/-- Without tokens the scans stay abreast. -/
theorem goesAlong_nil (registry : Registry) (first again : Host) :
    GoesAlong registry first again [] := by
  intro scan scan' scan₁ s s' s₁ _ h _ _ hfed
  obtain ⟨-, hrest⟩ := Prod.mk.inj hfed
  obtain ⟨rfl, rfl⟩ := Prod.mk.inj hrest
  exact ⟨scan', s', rfl, h⟩

/-- The option at the end that lacks a value. -/
theorem goesAlong_unfinished {name : String} (hdashed : isDashed name = true) :
    GoesAlong registry first again [name] := by
  intro scan scan' scan₁ s s' s₁ hpending h _ _ hfed
  rw [feedAll, feed_dashed hpending s hdashed] at hfed
  rw [feedAll, feed_dashed (h.pending.trans hpending) s' hdashed]
  cases hname : OptionName.ofText? name with
  | none =>
    rw [hname] at hfed
    cases (Prod.mk.inj hfed).1
  | some option =>
    rw [hname] at hfed
    obtain ⟨-, hrest⟩ := Prod.mk.inj hfed
    obtain ⟨rfl, rfl⟩ := Prod.mk.inj hrest
    exact ⟨_, _, rfl, h.of_pending _⟩

/-- An option and its value keep the scans abreast. -/
theorem goesAlong_option (hkeeps : first.KeepsInputs again) {name value : String}
    {rest : List String} (hdashed : isDashed name = true)
    (hrest : GoesAlong registry first again rest) :
    GoesAlong registry first again (name :: value :: rest) := by
  intro scan scan' scan₁ s s' s₁ hpending h hnames htemporaries hfed
  have hpending' := h.pending.trans hpending
  rw [Arguments.ofTokens_option hdashed] at hnames htemporaries
  obtain ⟨-, htemporaries⟩ := (Arguments.getTemporaries_cons _ _ _ _).mp htemporaries
  rw [feedAll, feed_dashed hpending s hdashed] at hfed
  rw [feedAll, feed_dashed hpending' s' hdashed]
  cases hname : OptionName.ofText? name with
  | none =>
    rw [hname] at hfed
    cases (Prod.mk.inj hfed).1
  | some option =>
    rw [hname] at hfed
    dsimp only at hfed ⊢
    rw [feedAll, feed_value hpending] at hfed
    rw [feedAll, feed_value hpending']
    cases happlied : applyOption registry s.host scan option value with
    | error f =>
      rw [happlied] at hfed
      cases (Prod.mk.inj hfed).1
    | ok scan₂ =>
      rw [happlied] at hfed
      obtain ⟨scan₂', happlied', hkept, hnext⟩ := h.applyOption hkeeps option value happlied
      rw [happlied']
      exact hrest (hkept.trans hpending) hnext
        (fun token hinput => hnames token (List.mem_cons_of_mem _ hinput)) htemporaries hfed

/-- An input keeps the scans abreast: both find the same file, or both find none. -/
theorem goesAlong_input (hfree : first.tree.LinkFree) (hkeeps : first.KeepsInputs again)
    {token : String} {rest : List String} (hdashed : ¬isDashed token = true)
    (hrest : GoesAlong registry first again rest) :
    GoesAlong registry first again (token :: rest) := by
  intro scan scan' scan₁ s s' s₁ hpending h hnames htemporaries hfed
  have hpending' := h.pending.trans hpending
  rw [Arguments.ofTokens_input hdashed] at hnames htemporaries
  obtain ⟨hmade, htemporaries⟩ := (Arguments.getTemporaries_cons _ _ _ _).mp htemporaries
  rw [feedAll, feed_input hpending s hdashed] at hfed
  rw [feedAll, feed_input hpending' s' hdashed]
  rcases hadded : scan.addInput s token with ⟨outcome, scan₂, s₂⟩
  rw [hadded] at hfed
  cases outcome with
  | error f => cases (Prod.mk.inj hfed).1
  | ok _ =>
    obtain ⟨scan₂', s₂', hadded', hhost, hkept, hnext⟩ :=
      h.addInput hfree hkeeps (hnames token List.mem_cons_self) (hmade token rfl) hadded
    rw [hadded']
    rw [Argument.resolve, ← (s'.resolve_eq_start token).2, ← hhost] at htemporaries
    exact hrest (hkept.trans hpending) hnext
      (fun next hinput => hnames next (List.mem_cons_of_mem _ hinput)) htemporaries hfed

/-- All tokens, by induction along the grammar. -/
theorem goesAlong (hfree : first.tree.LinkFree) (hkeeps : first.KeepsInputs again)
    (registry : Registry) (tokens : List String) : GoesAlong registry first again tokens := by
  induction tokens using Arguments.ofTokens.induct with
  | case1 => exact goesAlong_nil registry first again
  | case2 name hdashed => exact goesAlong_unfinished hdashed
  | case3 token hdashed =>
    exact goesAlong_input hfree hkeeps hdashed (goesAlong_nil registry first again)
  | case4 name value rest hdashed ih => exact goesAlong_option hkeeps hdashed ih
  | case5 token next rest hdashed ih => exact goesAlong_input hfree hkeeps hdashed ih

/-! ## The end of the scan -/

/-- The end of a scan that succeeds. -/
theorem Abreast.finish (h : Abreast first again scan scan' s s') (hkeeps : first.KeepsInputs again)
    {config : Config} {entries : List InputEntry}
    (hfinished : scan.finish s.host = .ok (config, entries)) :
    entries = scan.entries ∧ scan'.finish s'.host = .ok (config, scan'.entries) := by
  have hsettings : scan'.settings = scan.settings := by
    rw [h.same]
    rfl
  have hnone : scan.entries = [] ↔ scan'.entries = [] := by
    rw [← List.length_eq_zero_iff, ← List.length_eq_zero_iff, h.entries.length_eq]
  unfold Scan.finish at hfinished ⊢
  rw [h.pending, hsettings]
  split at hfinished
  · exact nomatch hfinished
  · split at hfinished
    · exact nomatch hfinished
    · next built hbuilt =>
      rw [Config.build_of_isDirectory (fun p => h.isDirectory hkeeps) hbuilt]
      dsimp only
      split at hfinished
      · exact nomatch hfinished
      · next hentries =>
        obtain ⟨rfl, rfl⟩ := Prod.mk.inj (Except.ok.inj hfinished)
        rw [if_neg (mt hnone.mpr hentries)]
        exact ⟨rfl, rfl⟩

/-- A scan that succeeds does so again on a later host: it comes to the same configuration and to
the same inputs. -/
theorem parse_again (hfree : first.tree.LinkFree) (hkeeps : first.KeepsInputs again)
    (hnames : (Arguments.ofTokens tokens).InputNames first again)
    (htemporaries : (Arguments.ofTokens tokens).GetTemporaries again) {config : Config}
    {entries : List InputEntry} {s : Session}
    (hparse : parse registry (Session.start first) tokens = (.ok (config, entries), s)) :
    ∃ entries' s', parse registry (Session.start again) tokens = (.ok (config, entries'), s') ∧
      s.Resolving first entries ∧ s'.Resolving again entries' ∧
      List.Forall₂ (s.host.SameInput s'.host) entries entries' := by
  unfold parse at hparse ⊢
  split at hparse
  · exact nomatch (Prod.mk.inj hparse).1
  · next scan session hfed =>
    obtain ⟨scan', session', hfed', habreast⟩ :=
      goesAlong hfree hkeeps registry tokens rfl (abreast_start first again) hnames htemporaries
        hfed
    obtain ⟨hfinished, rfl⟩ := Prod.mk.inj hparse
    obtain ⟨rfl, hfinished'⟩ := habreast.finish hkeeps hfinished
    rw [hfed']
    dsimp only
    rw [hfinished']
    exact ⟨_, _, rfl, habreast.resolving, habreast.resolving', habreast.entries⟩

end Scan

end DexListing
