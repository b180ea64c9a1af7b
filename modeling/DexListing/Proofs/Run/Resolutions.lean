import DexListing.Proofs.Run.Containment
import DexListing.Proofs.Run.Inputs

/-!
# What resolving an argument leaves behind

Resolving an argument is all or nothing. Either the files and the list of temporary files are what
they were (`Session.SameFiles`), or one file has been made and stands last on the list
(`Session.GainsTemporary`). That holds of the extraction of an archive, stage by stage
(`Session.extractArchive_cases`), and which of the two it is can be told from what the argument
resolves to (`Session.resolve_allOrNothing`). A file that is left by a failure is on the list of
temporary files, so cleaning up removes it, also when other arguments are resolved first; that is
part of a more general fact: what is made by resolving arguments is gone after cleaning up
(`Session.cleanUp_resolveAll`).
-/

set_option autoImplicit false

namespace DexListing.Session

variable {s s' : Session} {argument : String} {path : PathName} {l : Location}

/-- Files and temporary files are as in the first session; only events may have come. -/
structure SameFiles (s s' : Session) : Prop where
  host : s'.host = s.host
  temporaries : s'.temporaries = s.temporaries

/-- One file has been made, at a location where nothing was. The path name that leads to it has been
put last on the list of temporary files. -/
structure GainsTemporary (s s' : Session) (path : PathName) (l : Location) : Prop where
  vacant : s.host.tree.get? l = none
  tree : ∃ content, ∀ q,
    s'.host.tree.get? q = if q = l then some (.file content) else s.host.tree.get? q
  isFileAt : s'.host.IsFileAt path l
  temporaries : s'.temporaries = s.temporaries ++ [path]

/-- Arguments are resolved one after the other, whatever comes of each. -/
def resolveAll : List String → Session → Session
  | [], s => s
  | argument :: rest, s => (s.resolve argument).2.resolveAll rest

/-! ## Extracting -/

/-- A session gains the file that is made and put on record. -/
theorem GainsTemporary.of_made (hmade : s.host.Made s'.host path l)
    (htemporaries : s'.temporaries = s.temporaries ++ [path]) : s.GainsTemporary s' path l :=
  ⟨hmade.vacant, ⟨#[], hmade.get?⟩, hmade.isFileAt, htemporaries⟩

/-- Content that is stored in a file that has just been made changes nothing else. -/
theorem GainsTemporary.of_storeContent (hmade : s.host.Made s'.host path l)
    (htemporaries : s'.temporaries = s.temporaries ++ [path]) {content : Bytes} {host : Host}
    (hstore : s'.host.storeContent path content = .ok host) :
    s.GainsTemporary { s' with host } path l := by
  have hkeeps := Host.Keeps.storeContent hstore
  obtain rfl := hmade.storeContent_eq hstore
  obtain ⟨old, hplace⟩ := hmade.isFileAt
  have hold := (Host.walks_of_place hplace).2.get?_existing
  have hget : ∀ q, (s'.host.tree.put l (.file content)).get? q =
      if q = l then some (.file content) else s'.host.tree.get? q :=
    s'.host.tree.get?_put (FileTree.admits_file hold content)
  refine ⟨hmade.vacant, ⟨content, fun q => ?_⟩, ⟨content, ?_⟩, htemporaries⟩
  · refine (hget q).trans ?_
    by_cases hq : q = l
    · rw [if_pos hq, if_pos hq]
    · rw [if_neg hq, if_neg hq, hmade.get?, if_neg hq]
  · exact Host.place_of_grows hplace hkeeps.grows (fun _ => nofun) ((hget l).trans (if_pos rfl))

/-- A fault of a member does not count as a problem of the input. -/
theorem extractionFailure_not_input (argument : String) (fault : Zip.MemberFault) :
    (extractionFailure argument fault).isA .input = false := by
  unfold extractionFailure
  split <;> simp [Failure.isA, Failure.kind?, ErrorKind.lineage, ErrorKind.parent?]

/-- An archive fails before anything is made, or a file is made for its container. If it fails after
that, the failure does not count as a problem of the input. -/
theorem extractArchive_cases (s : Session) (argument : String) :
    (∃ f, s.extractArchive argument = (.error f, s)) ∨
      (∃ f s' path l, s.extractArchive argument = (.error f, s') ∧ f.isA .input = false ∧
        s.GainsTemporary s' path l) ∨
      ∃ entry s' l, s.extractArchive argument = (.ok entry, s') ∧ entry.isTemporary = true ∧
        s.GainsTemporary s' entry.path l := by
  unfold extractArchive
  cases s.existingFile argument with
  | error f => exact Or.inl ⟨f, rfl⟩
  | ok path =>
    dsimp only
    cases s.findContainer argument path with
    | error f => exact Or.inl ⟨f, rfl⟩
    | ok found =>
      obtain ⟨archive, earlier, member⟩ := found
      dsimp only
      rcases s.createTemporary_cases with
        ⟨e, hcreate⟩ | ⟨temporary, made, l, hcreate, hmade, htemporaries⟩
      · rw [hcreate]
        exact Or.inl ⟨_, rfl⟩
      · rw [hcreate]
        dsimp only
        -- From here on there is a file.
        cases archive.extract earlier member with
        | error fault =>
          exact Or.inr (Or.inl ⟨_, made, temporary, l, rfl,
            extractionFailure_not_input argument fault, .of_made hmade htemporaries⟩)
        | ok content =>
          dsimp only
          cases hstore : made.host.storeContent temporary content with
          | error e =>
            refine Or.inr (Or.inl ⟨_, made, temporary, l, rfl, ?_, .of_made hmade htemporaries⟩)
            simp [Failure.isA, Failure.kind?, ErrorKind.lineage, ErrorKind.parent?]
          | ok host =>
            obtain ⟨hvacant, htree, hfile, hlist⟩ :=
              GainsTemporary.of_storeContent hmade htemporaries hstore
            exact Or.inr (Or.inr ⟨_, _, l, rfl, rfl, hvacant, htree, hfile, hlist⟩)

/-! ## Resolving -/

/-- What an argument resolves to, and what is left behind then. -/
inductive Outcome (s : Session) : Except Failure (Option InputEntry) → Session → Prop
  | same {outcome : Except Failure (Option InputEntry)} {s' : Session} (hsame : s.SameFiles s')
      (hentry : ∀ entry, outcome = .ok (some entry) → entry.isTemporary = false) :
      Outcome s outcome s'
  | failed {f : Failure} {s' : Session} {path : PathName} {l : Location}
      (hkind : f.isA .input = false) (hgains : s.GainsTemporary s' path l) :
      Outcome s (.error f) s'
  | extracted {entry : InputEntry} {s' : Session} {l : Location}
      (htemporary : entry.isTemporary = true) (hgains : s.GainsTemporary s' entry.path l) :
      Outcome s (.ok (some entry)) s'

/-- Resolving an argument comes to one of the outcomes. -/
theorem resolve_outcome (s : Session) (argument : String) :
    s.Outcome (s.resolve argument).1 (s.resolve argument).2 := by
  unfold resolve
  dsimp only
  split
  · refine .same ⟨rfl, rfl⟩ ?_
    intro entry hentry
    unfold resolveContainer at hentry
    cases hexisting : s.existingFile argument with
    | error f =>
      rw [hexisting] at hentry
      exact nomatch hentry
    | ok path =>
      rw [hexisting] at hentry
      rw [← Option.some.inj (Except.ok.inj hentry)]
  · split
    · rcases s.extractArchive_cases argument with
        ⟨f, hfails⟩ | ⟨f, s', path, l, hfails, hkind, hgains⟩ |
          ⟨entry, s', l, hextracted, htemporary, hgains⟩
      · rw [hfails]
        exact .same ⟨rfl, rfl⟩ (fun _ => nofun)
      · rw [hfails]
        exact .failed hkind hgains
      · rw [hextracted]
        exact .extracted htemporary hgains
    · exact .same ⟨rfl, rfl⟩ (fun _ => nofun)

/-! ## Cleaning up later on -/

/-- A session with temporary files that come before its own. -/
def after (base : List PathName) (s : Session) : Session :=
  { s with temporaries := base ++ s.temporaries }

section

variable (base : List PathName) (s : Session) (argument : String)

/-- Earlier files on record do not change the host. -/
@[simp] theorem host_after : (s.after base).host = s.host := rfl

/-- Nor do they change whether a file is found. -/
theorem existingFile_after :
    (s.after base).existingFile argument = s.existingFile argument := by
  unfold existingFile
  rw [host_after]

/-- Nor what is found in an archive. -/
theorem findContainer_after (path : PathName) :
    (s.after base).findContainer argument path = s.findContainer argument path := by
  unfold findContainer
  rw [host_after]

/-- Nor what a container resolves to. -/
theorem resolveContainer_after :
    (s.after base).resolveContainer argument = s.resolveContainer argument := by
  unfold resolveContainer
  rw [existingFile_after]

/-- Nor what an archive resolves to. -/
theorem extractArchive_after :
    (s.after base).extractArchive argument =
      ((s.extractArchive argument).1, (s.extractArchive argument).2.after base) := by
  unfold extractArchive
  rw [existingFile_after]
  cases s.existingFile argument with
  | error f => rfl
  | ok path =>
    dsimp only
    rw [findContainer_after]
    cases s.findContainer argument path with
    | error f => rfl
    | ok found =>
      obtain ⟨archive, earlier, member⟩ := found
      dsimp only
      unfold createTemporary
      rw [host_after]
      cases s.host.makeTemporary with
      | error e => rfl
      | ok made =>
        obtain ⟨temporary, host⟩ := made
        dsimp only [after]
        rw [List.append_assoc]
        cases archive.extract earlier member with
        | error fault => rfl
        | ok content =>
          dsimp only
          cases host.storeContent temporary content with
          | error e => rfl
          | ok host => rfl

/-- What an argument resolves to does not depend on the temporary files there are. -/
theorem resolve_after :
    (s.after base).resolve argument =
      ((s.resolve argument).1, (s.resolve argument).2.after base) := by
  unfold resolve
  rw [resolveContainer_after, extractArchive_after]
  dsimp only
  by_cases hcontainer : (PathName.ofText argument).hasExtension containerExtensions
  · rw [if_pos hcontainer, if_pos hcontainer]
  · rw [if_neg hcontainer, if_neg hcontainer]
    by_cases harchive : (PathName.ofText argument).hasExtension archiveExtensions
    · rw [if_pos harchive, if_pos harchive]
    · rw [if_neg harchive, if_neg harchive]
      rfl

end

/-- Nor what any number of arguments resolve to. -/
theorem resolveAll_after (base : List PathName) (s : Session) (arguments : List String) :
    (s.after base).resolveAll arguments = (s.resolveAll arguments).after base := by
  induction arguments generalizing s with
  | nil => rfl
  | cons argument rest ih => rw [resolveAll, resolveAll, resolve_after, ih]

/-- The temporary files that come first are removed last. -/
theorem cleanUp_after (base : List PathName) (s : Session) :
    (s.after base).cleanUp = base.reverse.foldl removeTemporary s.cleanUp := by
  change (base ++ s.temporaries).reverse.foldl removeTemporary { s with temporaries := [] } = _
  rw [List.reverse_append, List.foldl_append]
  rfl

/-- But for temporary files, resolving arguments leaves the host as it is. -/
theorem Tracks.resolveAll {first : Host} {locations : List Location}
    (hs : Tracks first s locations) (arguments : List String) :
    ∃ locations', Tracks first (s.resolveAll arguments) locations' := by
  induction arguments generalizing s locations with
  | nil => exact ⟨locations, hs⟩
  | cons argument rest ih =>
    obtain ⟨locations', hresolved⟩ := hs.resolve argument
    rw [Session.resolveAll]
    exact ih hresolved

/-- Where nothing was before arguments are resolved, nothing is after cleaning up. -/
theorem cleanUp_resolveAll (s : Session) (arguments : List String)
    (hvacant : s.host.tree.get? l = none) :
    (s.resolveAll arguments).cleanUp.host.tree.get? l = none := by
  -- The files made now are known by their locations; those of before need not be there any more.
  let fresh : Session := { s with temporaries := [] }
  have hstart : Tracks s.host fresh [] :=
    ⟨⟨.nil, .nil⟩, fun _ => nofun, fun _ _ => rfl, rfl⟩
  obtain ⟨locations, htracks⟩ := hstart.resolveAll arguments
  have hclean : (fresh.resolveAll arguments).cleanUp.host.tree.get? l = none := by
    rw [htracks.owns.get?_cleanUp]
    by_cases hl : l ∈ locations
    · rw [if_pos hl]
    · rw [if_neg hl, htracks.otherwise l hl, hvacant]
  have hsession : s = fresh.after s.temporaries := by
    change s = { s with temporaries := s.temporaries ++ [] }
    rw [List.append_nil]
  rw [hsession, resolveAll_after, cleanUp_after]
  rcases foldl_removeTemporary_get? s.temporaries.reverse (fresh.resolveAll arguments).cleanUp l
    with hsame | hnone
  · rw [hsame, hclean]
  · exact hnone

/-! ## All or nothing -/

/-- An argument that is passed over, that is a container itself, or that fails with a problem of the
input leaves files and temporary files as they were. An archive that resolves to a temporary file
has made just that file, and it is the last of the temporary files. After any other failure there is
at most one new file, and then it is the last of the temporary files, so it is gone after cleaning
up, even if other arguments are resolved in between. -/
theorem resolve_allOrNothing (s : Session) (argument : String) :
    ((s.resolve argument).1 = .ok none → s.SameFiles (s.resolve argument).2) ∧
    (∀ entry, (s.resolve argument).1 = .ok (some entry) → entry.isTemporary = false →
      s.SameFiles (s.resolve argument).2) ∧
    (∀ f, (s.resolve argument).1 = .error f → f.isA .input = true →
      s.SameFiles (s.resolve argument).2) ∧
    (∀ entry, (s.resolve argument).1 = .ok (some entry) → entry.isTemporary = true →
      ∃ l, s.GainsTemporary (s.resolve argument).2 entry.path l) ∧
    ∀ f, (s.resolve argument).1 = .error f → f.isA .input = false →
      s.SameFiles (s.resolve argument).2 ∨
        ∃ path l, s.GainsTemporary (s.resolve argument).2 path l ∧
          ∀ later, ((s.resolve argument).2.resolveAll later).cleanUp.host.tree.get? l = none := by
  have houtcome := s.resolve_outcome argument
  have hlater : ∀ l, s.host.tree.get? l = none → ∀ later,
      ((s.resolve argument).2.resolveAll later).cleanUp.host.tree.get? l = none := by
    intro l hvacant later
    have hgone := s.cleanUp_resolveAll (argument :: later) hvacant
    rwa [resolveAll] at hgone
  generalize (s.resolve argument).1 = outcome at houtcome ⊢
  generalize (s.resolve argument).2 = s' at houtcome hlater ⊢
  cases houtcome with
  | same hsame hentry =>
    refine ⟨fun _ => hsame, fun _ _ _ => hsame, fun _ _ _ => hsame, ?_, fun _ _ _ => .inl hsame⟩
    intro entry heq htemporary
    rw [hentry entry heq] at htemporary
    exact nomatch htemporary
  | @failed f _ path l hkind hgains =>
    refine ⟨nofun, fun _ => nofun, ?_, fun _ => nofun, ?_⟩
    · intro f' heq hinput
      rw [← Except.error.inj heq, hkind] at hinput
      exact nomatch hinput
    · exact fun _ _ _ => .inr ⟨path, l, hgains, hlater l hgains.vacant⟩
  | @extracted entry _ l htemporary hgains =>
    refine ⟨nofun, ?_, fun _ => nofun, ?_, fun _ => nofun⟩
    · intro entry' heq hcontainer
      rw [← Option.some.inj (Except.ok.inj heq), htemporary] at hcontainer
      exact nomatch hcontainer
    · intro entry' heq _
      rw [← Option.some.inj (Except.ok.inj heq)]
      exact ⟨l, hgains⟩

end DexListing.Session
