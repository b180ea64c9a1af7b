import DexListing.Proofs.Run.Scanning

/-!
# Resolved inputs

What a resolver has made of arguments, one after the other, is a session and a list of entries
(`Session.Resolving`). The path name of each entry has the extension of containers and leads to a
file (`Session.Resolving.isInputFile`): a container was there when its argument was resolved, a
temporary file was made then, and what is resolved later on only adds files.
-/

set_option autoImplicit false

namespace DexListing

/-- The path name has the extension of containers and leads to a file. -/
structure Host.IsInputFile (h : Host) (p : PathName) : Prop where
  extension : p.hasExtension containerExtensions = true
  file : ∃ l content, h.place .target p = .ok (.existing l (.file content))

/-- New files are not in the way of those that are there. -/
theorem Host.IsInputFile.of_gainsFiles {h h' : Host} {p : PathName} (hp : h.IsInputFile p)
    (hworking : h'.workingDirectory = h.workingDirectory) (hgains : h.tree.GainsFiles h'.tree) :
    h'.IsInputFile p := by
  obtain ⟨l, content, hplace⟩ := hp.file
  have hfile := (walks_of_place hplace).2.get?_existing
  exact ⟨hp.extension, l, content, place_of_grows hplace (growsBelow_of_gainsFiles hworking hgains)
    (fun _ => nofun) (hgains.get?_eq hfile)⟩

/-- The names of temporary files have the extension of containers. -/
theorem Host.hasExtension_temporaryPath (h : Host) (n : Nat) :
    (h.temporaryPath n).hasExtension containerExtensions = true := by
  have hname : (temporaryName n).toList = ("dedex-" ++ toString n).toList ++ ".dex".toList := by
    rw [← String.toList_append]
    rfl
  have hsuffix : (h.temporaryPath n).suffix = ".dex" := by
    unfold PathName.suffix PathName.name temporaryPath
    rw [List.getLast?_concat, Option.getD_some, hname]
    have hsuffix : PathName.suffixOf (("dedex-" ++ toString n).toList ++ '.' :: ['d', 'e', 'x']) =
        '.' :: ['d', 'e', 'x'] :=
      PathName.suffixOf_append (by simp) (by decide) (by decide)
    exact congrArg String.ofList hsuffix
  unfold PathName.hasExtension
  rw [hsuffix]
  decide

namespace Session

/-- Resolving an argument only adds files. -/
theorem resolve_gainsFiles (s : Session) (argument : String) :
    (s.resolve argument).2.host.workingDirectory = s.host.workingDirectory ∧
      s.host.tree.GainsFiles (s.resolve argument).2.host.tree := by
  obtain ⟨locations, htracks⟩ := (tracks_start s.host).resolve argument
  rw [(s.resolve_eq_start argument).2]
  exact ⟨htracks.workingDirectory, htracks.gainsFiles⟩

/-- An argument that is an existing file is its path name, and leads to a file. -/
theorem existingFile_eq_ok {s : Session} {argument : String} {path : PathName}
    (h : s.existingFile argument = .ok path) :
    path = PathName.ofText argument ∧
      ∃ l content, s.host.place .target path = .ok (.existing l (.file content)) := by
  unfold existingFile at h
  dsimp only at h
  split at h
  · exact nomatch h
  · exact nomatch h
  · next hfile =>
    obtain rfl := Except.ok.inj h
    refine ⟨rfl, ?_⟩
    unfold Host.isFile Host.node? at hfile
    cases hplace : s.host.place .target (PathName.ofText argument) with
    | error e =>
      rw [hplace] at hfile
      dsimp only at hfile
      split at hfile <;> exact nomatch hfile
    | ok place =>
      rw [hplace] at hfile
      cases place with
      | vacant l => exact nomatch hfile
      | existing l node =>
        cases node with
        | file content => exact ⟨l, content, rfl⟩
        | directory => exact nomatch hfile
        | link target => exact nomatch hfile

/-- What an archive is extracted to is a temporary file. -/
theorem extractArchive_isInputFile {s : Session} {argument : String} {entry : InputEntry}
    (h : (s.extractArchive argument).1 = .ok entry) :
    (s.extractArchive argument).2.host.IsInputFile entry.path := by
  unfold extractArchive createTemporary Host.makeTemporary at h ⊢
  dsimp only at h ⊢
  cases hexisting : s.existingFile argument with
  | error f =>
    rw [hexisting] at h
    exact nomatch h
  | ok path =>
    rw [hexisting] at h
    dsimp only at h ⊢
    cases hfound : s.findContainer argument path with
    | error f =>
      rw [hfound] at h
      exact nomatch h
    | ok found =>
      obtain ⟨archive, earlier, member⟩ := found
      rw [hfound] at h
      dsimp only at h ⊢
      cases hmake : s.host.makeNode (s.host.temporaryPath s.host.freshNumber) (.file #[]) with
      | error e =>
        rw [hmake] at h
        exact nomatch h
      | ok made =>
        rw [hmake] at h
        dsimp only at h ⊢
        cases hextract : archive.extract earlier member with
        | error fault =>
          rw [hextract] at h
          exact nomatch h
        | ok content =>
          rw [hextract] at h
          dsimp only at h ⊢
          split at h
          · exact nomatch h
          · next host hstore =>
            obtain rfl := Except.ok.inj h
            obtain ⟨place, -, -, -, hplace⟩ := Host.exists_put_of_storeContent hstore
            exact ⟨s.host.hasExtension_temporaryPath _, place.location, content, hplace⟩

/-- What an argument resolves to is the path name of a file. -/
theorem resolve_isInputFile {s : Session} {argument : String} {entry : InputEntry}
    (h : (s.resolve argument).1 = .ok (some entry)) :
    (s.resolve argument).2.host.IsInputFile entry.path := by
  unfold resolve at h ⊢
  dsimp only at h ⊢
  by_cases hcontainer : (PathName.ofText argument).hasExtension containerExtensions = true
  · rw [if_pos hcontainer] at h ⊢
    dsimp only at h ⊢
    unfold resolveContainer at h
    cases hexisting : s.existingFile argument with
    | error f =>
      rw [hexisting] at h
      exact nomatch h
    | ok path =>
      rw [hexisting] at h
      obtain rfl := Option.some.inj (Except.ok.inj h)
      obtain ⟨rfl, hfile⟩ := existingFile_eq_ok hexisting
      exact ⟨hcontainer, hfile⟩
  · rw [if_neg hcontainer] at h ⊢
    by_cases harchive : (PathName.ofText argument).hasExtension archiveExtensions = true
    · rw [if_pos harchive] at h ⊢
      dsimp only at h ⊢
      cases hextract : (s.extractArchive argument).1 with
      | error f =>
        rw [hextract] at h
        exact nomatch h
      | ok found =>
        rw [hextract] at h
        obtain rfl := Option.some.inj (Except.ok.inj h)
        exact extractArchive_isInputFile hextract
    · rw [if_neg harchive] at h
      exact nomatch h

/-- An argument adds at most one temporary file to those of a session. -/
theorem resolve_temporaries (s : Session) (argument : String) :
    (s.resolve argument).2.temporaries = s.temporaries ∨
      ∃ n, (s.resolve argument).2.temporaries = s.temporaries ++ [s.host.temporaryPath n] := by
  unfold resolve extractArchive createTemporary Host.makeTemporary
  dsimp only
  split
  · exact Or.inl rfl
  · split
    · split
      · exact Or.inl rfl
      · split
        · exact Or.inl rfl
        · cases s.host.makeNode (s.host.temporaryPath s.host.freshNumber) (.file #[]) with
          | error e => exact Or.inl rfl
          | ok made =>
            refine Or.inr ⟨s.host.freshNumber, ?_⟩
            dsimp only
            split
            · rfl
            · split <;> rfl
    · exact Or.inl rfl

/-- Resolving an argument does not move the directory for temporary files. -/
theorem resolve_temporaryDirectory (s : Session) (argument : String) :
    (s.resolve argument).2.host.temporaryDirectory = s.host.temporaryDirectory := by
  unfold resolve extractArchive createTemporary Host.makeTemporary
  dsimp only
  split
  · rfl
  · split
    · split
      · rfl
      · split
        · rfl
        · cases hmake : s.host.makeNode (s.host.temporaryPath s.host.freshNumber) (.file #[]) with
          | error e => rfl
          | ok made =>
            have hmade : made.temporaryDirectory = s.host.temporaryDirectory := by
              unfold Host.makeNode at hmake
              split at hmake
              · exact nomatch hmake
              · rw [← Except.ok.inj hmake]
                rfl
              · exact nomatch hmake
            dsimp only
            split
            · exact hmade
            · split
              · exact hmade
              · next hstore =>
                obtain ⟨place, -, -, rfl, -⟩ := Host.exists_put_of_storeContent hstore
                exact hmade
    · rfl

/-! ## Arguments one after the other -/

/-- Arguments have been resolved on a host one after the other; these are the session that this
leaves and the entries that have come of it. What is reported meanwhile plays no part. -/
inductive Resolving (first : Host) : Session → List InputEntry → Prop
  | start : Resolving first (.start first) []
  | resolve {s : Session} {entries : List InputEntry} (argument : String) :
      Resolving first s entries →
      Resolving first (s.resolve argument).2
        (entries ++ (s.resolve argument).1.toOption.join.toList)
  | events {s : Session} {entries : List InputEntry} (newest : List Event) :
      Resolving first s entries → Resolving first { s with newest } entries

namespace Resolving

variable {first : Host} {s : Session} {entries : List InputEntry}

/-- But for the temporary files the host is as it was at first. -/
theorem tracks (hs : s.Resolving first entries) : ∃ locations, Tracks first s locations := by
  induction hs with
  | start => exact ⟨[], tracks_start first⟩
  | resolve argument _ ih =>
    obtain ⟨locations, htracks⟩ := ih
    exact htracks.resolve argument
  | events newest _ ih =>
    obtain ⟨locations, htracks⟩ := ih
    exact ⟨locations, ⟨htracks.owns.standing, htracks.owns.nodup⟩, htracks.fresh,
      htracks.otherwise, htracks.workingDirectory⟩

/-- Every entry is a file that is still there. -/
theorem isInputFile (hs : s.Resolving first entries) :
    ∀ entry ∈ entries, s.host.IsInputFile entry.path := by
  induction hs with
  | start => exact fun _ => nofun
  | @resolve s entries argument _ ih =>
    intro entry hentry
    rcases List.mem_append.mp hentry with hold | hnew
    · obtain ⟨hworking, hgains⟩ := s.resolve_gainsFiles argument
      exact (ih entry hold).of_gainsFiles hworking hgains
    · apply resolve_isInputFile
      cases hresult : (s.resolve argument).1 with
      | error f =>
        rw [hresult] at hnew
        exact nomatch hnew
      | ok found =>
        rw [hresult] at hnew
        cases found with
        | none => exact nomatch hnew
        | some e => rw [List.mem_singleton.mp hnew]
  | events newest _ ih => exact ih

/-- The temporary files of a session have the names that such files are given. -/
theorem exists_temporaryPath (hs : s.Resolving first entries) :
    s.host.temporaryDirectory = first.temporaryDirectory ∧
      ∀ path ∈ s.temporaries, ∃ n, path = first.temporaryPath n := by
  induction hs with
  | start => exact ⟨rfl, fun _ => nofun⟩
  | @resolve s _ argument _ ih =>
    obtain ⟨hdirectory, hnames⟩ := ih
    refine ⟨(s.resolve_temporaryDirectory argument).trans hdirectory, fun path hpath => ?_⟩
    rcases s.resolve_temporaries argument with hsame | ⟨n, hmore⟩
    · exact hnames path (hsame ▸ hpath)
    · rw [hmore] at hpath
      rcases List.mem_append.mp hpath with hold | hnew
      · exact hnames path hold
      · refine ⟨n, ?_⟩
        rw [List.mem_singleton.mp hnew]
        unfold Host.temporaryPath
        rw [hdirectory]
  | events newest _ ih => exact ih

/-- Temporary files have the extension of containers. -/
theorem temporaries (hs : s.Resolving first entries) :
    ∀ path ∈ s.temporaries, path.hasExtension containerExtensions = true := by
  intro path hpath
  obtain ⟨n, rfl⟩ := hs.exists_temporaryPath.2 path hpath
  exact first.hasExtension_temporaryPath n

end Resolving

end Session

/-! ## The inputs of a scan -/

namespace Scan

section OneInput

variable {s : Session} {token : String} (scan : Scan)

/-- An input that cannot be resolved is skipped if that is a matter of the input, and else fails. -/
theorem addInput_of_error {f : Failure} (h : (s.resolve token).1 = .error f) :
    scan.addInput s token =
      if f.isA .input then (.ok (), scan, (s.resolve token).2.report (.argumentSkipped f))
      else (.error f, scan, (s.resolve token).2) := by
  unfold addInput
  rcases hresolve : s.resolve token with ⟨result, after⟩
  rw [hresolve] at h
  dsimp only at h
  rw [h]

/-- An argument that is neither a container nor an archive is passed over. -/
theorem addInput_of_none (h : (s.resolve token).1 = .ok none) :
    scan.addInput s token = (.ok (), scan, (s.resolve token).2) := by
  unfold addInput
  rcases hresolve : s.resolve token with ⟨result, after⟩
  rw [hresolve] at h
  dsimp only at h
  rw [h]

/-- An input that is resolved is added to the entries. -/
theorem addInput_of_some {entry : InputEntry} (h : (s.resolve token).1 = .ok (some entry)) :
    scan.addInput s token =
      (.ok (), { scan with entries := scan.entries ++ [entry] }, (s.resolve token).2) := by
  unfold addInput
  rcases hresolve : s.resolve token with ⟨result, after⟩
  rw [hresolve] at h
  dsimp only at h
  rw [h]

end OneInput

end Scan

/-- The value of an option is no input, and no option comes from it. -/
theorem Scan.applyOption_keeps {registry : Registry} {host : Host} {scan scan' : Scan}
    {option : OptionName} {value : String}
    (h : applyOption registry host scan option value = .ok scan') :
    scan'.entries = scan.entries ∧ scan'.pending = scan.pending := by
  unfold applyOption at h
  cases option with
  | pattern => exact Except.ok.inj h ▸ ⟨rfl, rfl⟩
  | level => exact Except.ok.inj h ▸ ⟨rfl, rfl⟩
  | display =>
    dsimp only at h
    split at h
    · cases h
    · exact Except.ok.inj h ▸ ⟨rfl, rfl⟩
  | directory =>
    dsimp only at h
    split at h
    · cases h
    · cases h
    · exact Except.ok.inj h ▸ ⟨rfl, rfl⟩
  | writer =>
    dsimp only at h
    split at h
    · cases h
    · exact Except.ok.inj h ▸ ⟨rfl, rfl⟩

namespace Session.Resolving

variable {first : Host} {s : Session} {scan : Scan}

/-- An argument that is taken as an input is resolved. -/
theorem addInput (hs : s.Resolving first scan.entries) (token : String) :
    (scan.addInput s token).2.2.Resolving first (scan.addInput s token).2.1.entries := by
  have hnext := hs.resolve token
  unfold Scan.addInput
  rcases hresolve : s.resolve token with ⟨result, after⟩
  rw [hresolve] at hnext
  rcases result with f | _ | entry
  · rw [show (Except.toOption (.error f)).join.toList = ([] : List InputEntry) from rfl,
      List.append_nil] at hnext
    dsimp only
    split
    · exact hnext.events _
    · exact hnext
  · rwa [show (Except.toOption (.ok none : Except Failure (Option InputEntry))).join.toList = []
      from rfl, List.append_nil] at hnext
  · exact hnext

/-- Any other argument leaves the session and the inputs alone. -/
theorem feed (hs : s.Resolving first scan.entries) (registry : Registry) (token : String) :
    (scan.feed registry s token).2.2.Resolving first
      (scan.feed registry s token).2.1.entries := by
  unfold Scan.feed
  split
  · dsimp only
    split
    · exact hs
    · next happlied =>
      rw [(Scan.applyOption_keeps happlied).1]
      exact hs
  · split
    · split <;> exact hs
    · exact hs.addInput token

/-- All entries of a scan come from resolving its tokens. -/
theorem feedAll (hs : s.Resolving first scan.entries) (registry : Registry)
    (tokens : List String) :
    (scan.feedAll registry s tokens).2.2.Resolving first
      (scan.feedAll registry s tokens).2.1.entries := by
  induction tokens generalizing scan s with
  | nil => exact hs
  | cons token rest ih =>
    have hfed := hs.feed registry token
    unfold Scan.feedAll
    split
    · next hfeed =>
      rw [hfeed] at hfed
      exact hfed
    · next hfeed =>
      rw [hfeed] at hfed
      exact ih hfed

end Session.Resolving

/-- The inputs of a scan that succeeds are what resolving arguments has made of them. -/
theorem Scan.resolving_of_parse {registry : Registry} {first : Host} {tokens : List String}
    {config : Config} {entries : List InputEntry} {s : Session}
    (h : parse registry (.start first) tokens = (.ok (config, entries), s)) :
    s.Resolving first entries := by
  have hstart : (Session.start first).Resolving first start.entries := .start
  have hfed := hstart.feedAll registry tokens
  unfold parse at h
  split at h
  · exact nomatch (Prod.mk.inj h).1
  · next scan session hfeed =>
    rw [hfeed] at hfed
    obtain ⟨hfinished, rfl⟩ := Prod.mk.inj h
    unfold finish at hfinished
    split at hfinished
    · exact nomatch hfinished
    · split at hfinished
      · exact nomatch hfinished
      · split at hfinished
        · exact nomatch hfinished
        · rw [← (Prod.mk.inj (Except.ok.inj hfinished)).2]
          exact hfed

end DexListing
