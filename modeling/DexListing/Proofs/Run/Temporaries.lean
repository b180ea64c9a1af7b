import DexListing.Proofs.File.Keeping
import DexListing.Proofs.File.Losses
import DexListing.Run.Scan
import Mathlib.Data.List.Forall2
import Mathlib.Data.List.Nodup

/-!
# Temporary files

A session knows its temporary files by their path names. Each of them is a file at a location of its
own (`Session.Owns`), and as long as that stays so, cleaning up takes away the nodes at these
locations and no other one (`Session.Owns.get?_cleanUp`). Scanning arguments makes files only at
locations where nothing was, and remembers all of them (`Session.Tracks`); that is shown for one
argument first (`Session.Tracks.feed`) and then for all (`Session.Tracks.feedAll`).
-/

set_option autoImplicit false

namespace DexListing

/-- The entry of a path name is a file at a location. -/
def Host.IsFileAt (h : Host) (p : PathName) (l : Location) : Prop :=
  ∃ content, h.place .entry p = .ok (.existing l (.file content))

namespace Host.IsFileAt

variable {h h' : Host} {p : PathName} {l : Location}

/-- Where a file is, there is a file. -/
theorem get? (hfile : h.IsFileAt p l) : ∃ content, h.tree.get? l = some (.file content) := by
  obtain ⟨content, hplace⟩ := hfile
  exact ⟨content, (Host.walks_of_place hplace).2.get?_existing⟩

/-- The files of path names stay where they are on a host that keeps links and directories, if these
files are kept as well. -/
theorem forall₂_of_grows {paths : List PathName} {locations : List Location}
    (hgrows : h.GrowsBelow [] h')
    (hkept : ∀ l ∈ locations, ∀ content, h.tree.get? l = some (.file content) →
      ∃ content', h'.tree.get? l = some (.file content'))
    (hfiles : List.Forall₂ h.IsFileAt paths locations) :
    List.Forall₂ h'.IsFileAt paths locations := by
  induction hfiles with
  | nil => exact .nil
  | @cons path l paths locations hfile _ ih =>
    apply List.Forall₂.cons
    · obtain ⟨content, hplace⟩ := hfile
      have hold := (Host.walks_of_place hplace).2.get?_existing
      obtain ⟨content', hnow⟩ := hkept l List.mem_cons_self content hold
      exact ⟨content', Host.place_of_grows hplace hgrows (fun _ => nofun) hnow⟩
    · apply ih
      intro l' hl'
      exact hkept l' (List.mem_cons_of_mem l hl')

/-- Each of the places is that of one of the path names. -/
theorem exists_path {paths : List PathName} {locations : List Location}
    (hfiles : List.Forall₂ h.IsFileAt paths locations) (hl : l ∈ locations) :
    ∃ path ∈ paths, h.IsFileAt path l := by
  induction hfiles with
  | nil => exact nomatch hl
  | cons hfile _ ih =>
    cases hl with
    | head => exact ⟨_, List.mem_cons_self, hfile⟩
    | tail _ hl =>
      obtain ⟨path, hpath, hfile⟩ := ih hl
      exact ⟨path, List.mem_cons_of_mem _ hpath, hfile⟩

/-- Removing a file takes its node away. -/
theorem unlink_eq (hfile : h.IsFileAt p l) :
    h.unlink p = .ok { h with tree := h.tree.erase l } := by
  obtain ⟨content, hplace⟩ := hfile
  unfold Host.unlink
  rw [hplace]

/-- Taking a file away changes nothing else. -/
theorem get?_erase (hfile : h.IsFileAt p l) (q : Location) :
    (h.tree.erase l).get? q = if q = l then none else h.tree.get? q := by
  apply h.tree.get?_erase
  obtain ⟨content, hget⟩ := hfile.get?
  rw [hget]
  exact nofun

/-- Taking a file away keeps links and directories. -/
theorem grows_erase (hfile : h.IsFileAt p l) :
    h.GrowsBelow [] { h with tree := h.tree.erase l } := by
  obtain ⟨content, hget⟩ := hfile.get?
  refine Host.growsBelow_of_get?_iff (by rfl) ?_
  intro q node hnode
  dsimp only
  rw [hfile.get?_erase]
  by_cases hq : q = l
  · subst hq
    rw [if_pos rfl, hget]
    constructor
    · intro heq
      exact absurd (Option.some.inj heq).symm (hnode content)
    · exact nofun
  · rw [if_neg hq]

end Host.IsFileAt

namespace Host

variable {h h' : Host} {p : PathName} {l : Location}

/-- An empty file has been made at a location where nothing was. It is also where the path name
leads when it is written to later on. -/
structure Made (h h' : Host) (p : PathName) (l : Location) : Prop where
  vacant : h.tree.get? l = none
  get? : ∀ q, h'.tree.get? q = if q = l then some (.file #[]) else h.tree.get? q
  keeps : h.Keeps h'
  isFileAt : h'.IsFileAt p l
  writing : ∀ place, h'.place .writing p = .ok place → place.location = l

/-- A vacant place is where a new file goes; how many files have been made before plays no part. -/
theorem made_of_vacant (hplace : h.place .entry p = .ok (.vacant l)) (drawn : Nat) :
    h.Made { h.put l (.file #[]) with drawn } p l := by
  have hwalk := (walks_of_place hplace).2
  have hnone : h.tree.get? l = none := hwalk.get?_vacant
  have hget : ∀ q, (h.tree.put l (.file #[])).get? q =
      if q = l then some (.file #[]) else h.tree.get? q :=
    h.tree.get?_put (hwalk.admits_vacant _)
  have hkeeps : h.Keeps { h.put l (.file #[]) with drawn } := by
    obtain ⟨hgrows, hfiles⟩ := Keeps.put_vacant (n := .file #[]) (fun _ => nofun) hnone
    exact ⟨⟨rfl, hgrows.links, hgrows.directories, hgrows.outside⟩, hfiles⟩
  refine ⟨hnone, hget, hkeeps, ⟨#[], ?_⟩, ?_⟩
  · refine place_of_grows hplace hkeeps.grows (fun _ => nofun) ?_
    exact (hget l).trans (if_pos rfl)
  · -- Both ways of looking the path name up follow the same links.
    intro place hwriting
    obtain ⟨links, hentry⟩ := hwalk.follows (Or.inr fun _ _ => nofun)
    obtain ⟨links', hwritten⟩ := (walks_of_place hwriting).2.follows (Or.inl (by decide))
    have hentry' := hentry.of_links_eq hkeeps.grows.links
    exact (hwritten.unique hentry').2

/-- A temporary file is made at a place where nothing was. -/
theorem made_of_makeTemporary (hmake : h.makeTemporary = .ok (p, h')) : ∃ l, h.Made h' p l := by
  unfold makeTemporary makeNode at hmake
  dsimp only at hmake
  split at hmake
  · exact nomatch hmake
  · next made hnode =>
    obtain ⟨rfl, rfl⟩ := Prod.mk.inj (Except.ok.inj hmake)
    split at hnode
    · exact nomatch hnode
    · next l hplace =>
      obtain rfl := Except.ok.inj hnode
      exact ⟨l, made_of_vacant hplace _⟩
    · exact nomatch hnode

/-- A temporary file that has been made can be written. -/
theorem storeContent_of_makeTemporary (hmake : h.makeTemporary = .ok (p, h')) (content : Bytes) :
    ∃ h'', h'.storeContent p content = .ok h'' := by
  unfold makeTemporary makeNode at hmake
  dsimp only at hmake
  split at hmake
  · exact nomatch hmake
  · next made hnode =>
    obtain ⟨rfl, rfl⟩ := Prod.mk.inj (Except.ok.inj hmake)
    split at hnode
    · exact nomatch hnode
    · next l hplace =>
      obtain rfl := Except.ok.inj hnode
      have hlast : (h.temporaryPath h.freshNumber).parts.getLast? ≠ some "" := by
        unfold temporaryPath
        rw [List.getLast?_concat]
        intro hempty
        have hname := congrArg String.length (Option.some.inj hempty)
        unfold temporaryName at hname
        simp at hname
      have hmade := made_of_vacant hplace (h.freshNumber + 1)
      have hwalk := (walks_of_place hplace).2.to_writing ⟨l, rfl⟩ hlast
      have hfile := hmade.get? l
      rw [if_pos rfl] at hfile
      have hnode : ∀ target, Node.file #[] ≠ .link target := fun _ => nofun
      have hwriting := place_of_grows (place_of_walks hplace rfl hwalk) hmade.keeps.grows hnode
        hfile
      unfold storeContent
      rw [hwriting]
      exact ⟨_, rfl⟩
    · exact nomatch hnode

/-- Content that is stored under the path name goes to the file that has been made. -/
theorem Made.storeContent_eq {before : Host} (hmade : before.Made h p l) {content : Bytes}
    (hstore : h.storeContent p content = .ok h') : h' = h.put l (.file content) := by
  unfold Host.storeContent at hstore
  split at hstore
  · exact nomatch hstore
  · next l' hplace =>
    obtain rfl : l' = l := hmade.writing _ hplace
    exact (Except.ok.inj hstore).symm
  · next l' _ hplace =>
    obtain rfl : l' = l := hmade.writing _ hplace
    exact (Except.ok.inj hstore).symm
  · exact nomatch hstore

end Host

namespace Session

variable {s : Session} {locations : List Location}

/-! ## Cleaning up -/

/-- The temporary files of a session are files at locations, each at its own. -/
structure Owns (s : Session) (locations : List Location) : Prop where
  standing : List.Forall₂ s.host.IsFileAt s.temporaries locations
  nodup : locations.Nodup

namespace Owns

/-- Temporary files are kept by whatever keeps files. -/
theorem of_keeps {s' : Session} (hs : s.Owns locations)
    (htemporaries : s'.temporaries = s.temporaries) (hkeeps : s.host.Keeps s'.host) :
    s'.Owns locations := by
  refine ⟨?_, hs.nodup⟩
  rw [htemporaries]
  exact Host.IsFileAt.forall₂_of_grows hkeeps.grows (fun l _ => hkeeps.files l) hs.standing

/-- A place that a session owns has a file. -/
theorem get?_of_mem (hs : s.Owns locations) {l : Location} (hl : l ∈ locations) :
    ∃ content, s.host.tree.get? l = some (.file content) := by
  obtain ⟨path, -, hfile⟩ := Host.IsFileAt.exists_path hs.standing hl
  exact hfile.get?

/-- Removing a temporary file takes its entry away and changes nothing else. -/
theorem removeTemporary_host {path : PathName} {l : Location} (hfile : s.host.IsFileAt path l) :
    (s.removeTemporary path).host = { s.host with tree := s.host.tree.erase l } := by
  unfold removeTemporary
  rw [hfile.unlink_eq]
  rfl

/-- Removing files takes away the nodes at their locations. The induction is on the files; the later
ones are still there when the first one is gone, because no two share a location. -/
theorem get?_foldl_removeTemporary {files : List PathName}
    (hfiles : List.Forall₂ s.host.IsFileAt files locations) (hnodup : locations.Nodup)
    (q : Location) :
    (files.foldl removeTemporary s).host.tree.get? q =
      if q ∈ locations then none else s.host.tree.get? q := by
  induction files generalizing s locations with
  | nil =>
    cases hfiles
    simp
  | cons path files ih =>
    cases hfiles with
    | @cons _ l _ locations hfile hrest =>
      obtain ⟨hl, hnodup⟩ := List.nodup_cons.mp hnodup
      have hhost := removeTemporary_host hfile
      have hget : ∀ q, (s.removeTemporary path).host.tree.get? q =
          if q = l then none else s.host.tree.get? q := by
        rw [hhost]
        exact hfile.get?_erase
      have hstanding : List.Forall₂ (s.removeTemporary path).host.IsFileAt files locations := by
        apply Host.IsFileAt.forall₂_of_grows (hhost ▸ hfile.grows_erase) _ hrest
        intro l' hl' content hfile'
        refine ⟨content, ?_⟩
        rw [hget, if_neg, hfile']
        rintro rfl
        exact hl hl'
      rw [List.foldl_cons, ih hstanding hnodup, hget]
      by_cases hq : q ∈ locations
      · simp [hq]
      · simp [hq, List.mem_cons]

/-- Cleaning up takes away the nodes at the locations of the temporary files, and nothing else. -/
theorem get?_cleanUp (hs : s.Owns locations) (q : Location) :
    s.cleanUp.host.tree.get? q = if q ∈ locations then none else s.host.tree.get? q := by
  unfold cleanUp
  have hstanding : List.Forall₂ s.host.IsFileAt s.temporaries.reverse locations.reverse :=
    List.rel_reverse hs.standing
  rw [get?_foldl_removeTemporary (s := { s with temporaries := [] }) hstanding
    (List.nodup_reverse.mpr hs.nodup)]
  simp only [List.mem_reverse]

end Owns

/-- Removing a temporary file does not move the working directory. -/
theorem removeTemporary_workingDirectory (s : Session) (path : PathName) :
    (s.removeTemporary path).host.workingDirectory = s.host.workingDirectory := by
  unfold removeTemporary
  split
  · rfl
  · next host hunlink =>
    obtain ⟨hloses, -⟩ := Host.loses_of_unlink hunlink
    rw [hloses.otherwise]
    rfl

/-- A clean-up does not change the working directory. -/
theorem cleanUp_workingDirectory (s : Session) :
    s.cleanUp.host.workingDirectory = s.host.workingDirectory := by
  have hloop : ∀ (files : List PathName) (s : Session),
      (files.foldl removeTemporary s).host.workingDirectory = s.host.workingDirectory := by
    intro files
    induction files with
    | nil => exact fun s => rfl
    | cons path rest ih =>
      intro s
      rw [List.foldl_cons, ih, removeTemporary_workingDirectory]
  exact hloop s.temporaries.reverse { s with temporaries := [] }

/-- Cleaning up keeps links and directories. -/
theorem Owns.grows_cleanUp (hs : s.Owns locations) : s.host.GrowsBelow [] s.cleanUp.host := by
  apply Host.growsBelow_of_get?_iff s.cleanUp_workingDirectory
  intro l node hnode
  rw [hs.get?_cleanUp]
  by_cases hl : l ∈ locations
  · obtain ⟨content, hfile⟩ := hs.get?_of_mem hl
    rw [if_pos hl, hfile]
    constructor
    · intro heq
      exact absurd (Option.some.inj heq).symm (hnode content)
    · exact nofun
  · rw [if_neg hl]

/-! ## Making temporary files -/

/-- A temporary file is made and put last on the list, or nothing happens. -/
theorem createTemporary_cases (s : Session) :
    (∃ e, s.createTemporary = (.error e, s)) ∨
      ∃ path s' l, s.createTemporary = (.ok path, s') ∧ s.host.Made s'.host path l ∧
        s'.temporaries = s.temporaries ++ [path] := by
  unfold createTemporary
  cases hmake : s.host.makeTemporary with
  | error e => exact Or.inl ⟨e, rfl⟩
  | ok made =>
    obtain ⟨path, host⟩ := made
    obtain ⟨l, hmade⟩ := Host.made_of_makeTemporary hmake
    exact Or.inr ⟨path, _, l, rfl, hmade, rfl⟩

/-- A session whose temporary files stand where nothing was at first; but for them its host is as it
was at first. -/
structure Tracks (first : Host) (s : Session) (locations : List Location) : Prop where
  owns : s.Owns locations
  fresh : ∀ l ∈ locations, first.tree.get? l = none
  otherwise : ∀ l ∉ locations, s.host.tree.get? l = first.tree.get? l
  workingDirectory : s.host.workingDirectory = first.workingDirectory

/-- At the start no file is tracked. -/
theorem tracks_start (h : Host) : Tracks h (start h) [] :=
  ⟨⟨.nil, .nil⟩, fun _ => nofun, fun _ _ => rfl, rfl⟩

namespace Tracks

variable {first : Host}

/-- A place that is tracked has a file. -/
theorem get?_of_mem (hs : Tracks first s locations) {l : Location} (hl : l ∈ locations) :
    ∃ content, s.host.tree.get? l = some (.file content) := by
  exact hs.owns.get?_of_mem hl

/-- Compared to the first host there are new files, and that is all. -/
theorem gainsFiles (hs : Tracks first s locations) : first.tree.GainsFiles s.host.tree := by
  intro l
  by_cases hl : l ∈ locations
  · exact Or.inr ⟨hs.fresh l hl, hs.get?_of_mem hl⟩
  · exact Or.inl (hs.otherwise l hl)

/-- Events leave the files alone. -/
theorem report (hs : Tracks first s locations) (e : Event) :
    Tracks first (s.report e) locations :=
  ⟨⟨hs.owns.standing, hs.owns.nodup⟩, hs.fresh, hs.otherwise, hs.workingDirectory⟩

/-- A new file is another temporary file. -/
theorem concat (hs : Tracks first s locations) {path : PathName} {l : Location} {s' : Session}
    (hmade : s.host.Made s'.host path l) (htemporaries : s'.temporaries = s.temporaries ++ [path]) :
    Tracks first s' (locations ++ [l]) := by
  have hl : l ∉ locations := by
    intro hmem
    obtain ⟨content, hfile⟩ := hs.get?_of_mem hmem
    rw [hmade.vacant] at hfile
    exact nomatch hfile
  refine ⟨⟨?_, ?_⟩, ?_, ?_, hmade.keeps.grows.workingDirectory.trans hs.workingDirectory⟩
  · rw [htemporaries]
    apply List.rel_append
    · exact Host.IsFileAt.forall₂_of_grows hmade.keeps.grows (fun l _ => hmade.keeps.files l)
        hs.owns.standing
    · exact .cons hmade.isFileAt .nil
  · rw [← List.concat_eq_append]
    exact (List.nodup_concat locations l).mpr ⟨hl, hs.owns.nodup⟩
  · intro q hq
    rcases List.mem_append.mp hq with hq | hq
    · exact hs.fresh q hq
    · rw [List.mem_singleton.mp hq, ← hs.otherwise l hl, hmade.vacant]
  · intro q hq
    obtain ⟨hq, hne⟩ := not_or.mp (mt List.mem_append.mpr hq)
    rw [hmade.get?, if_neg (mt List.mem_singleton.mpr hne), hs.otherwise q hq]

/-- Making a temporary file adds it, and fails without a change. -/
theorem createTemporary (hs : Tracks first s locations) :
    (∃ e, s.createTemporary = (.error e, s)) ∨
      ∃ path s' l, s.createTemporary = (.ok path, s') ∧ s.host.Made s'.host path l ∧
        Tracks first s' (locations ++ [l]) := by
  rcases s.createTemporary_cases with hfails | ⟨path, s', l, hcreate, hmade, htemporaries⟩
  · exact Or.inl hfails
  · exact Or.inr ⟨path, s', l, hcreate, hmade, hs.concat hmade htemporaries⟩

/-- Writing to a temporary file that has just been made changes its content only. -/
theorem storeContent (hs : Tracks first s locations) {path : PathName} {l : Location}
    (hl : l ∈ locations) {before : Host} (hmade : before.Made s.host path l) {content : Bytes}
    {host : Host} (hstore : s.host.storeContent path content = .ok host) :
    Tracks first { s with host } locations := by
  have hkeeps := Host.Keeps.storeContent hstore
  refine ⟨hs.owns.of_keeps rfl hkeeps, hs.fresh, ?_,
    hkeeps.grows.workingDirectory.trans hs.workingDirectory⟩
  intro q hq
  obtain ⟨old, hold⟩ := hs.get?_of_mem hl
  obtain rfl := hmade.storeContent_eq hstore
  rw [← hs.otherwise q hq]
  change (s.host.tree.put l (.file content)).get? q = _
  rw [s.host.tree.get?_put (FileTree.admits_file hold content), if_neg]
  rintro rfl
  exact hq hl

/-! ## Scanning -/

/-- An archive leaves a temporary file, if it gets that far. -/
theorem extractArchive (hs : Tracks first s locations) (argument : String) :
    ∃ locations', Tracks first (s.extractArchive argument).2 locations' := by
  unfold Session.extractArchive
  split
  · exact ⟨locations, hs⟩
  · split
    · exact ⟨locations, hs⟩
    · rcases hs.createTemporary with ⟨e, hcreate⟩ | ⟨temporary, s', l, hcreate, hmade, hs'⟩
      · rw [hcreate]
        exact ⟨locations, hs⟩
      · rw [hcreate]
        refine ⟨locations ++ [l], ?_⟩
        dsimp only
        split
        · exact hs'
        · split
          · exact hs'
          · next host hstore =>
            exact (hs'.storeContent (by simp) hmade hstore).report _

/-- Resolving an argument tracks the file that it makes, if any. -/
theorem resolve (hs : Tracks first s locations) (argument : String) :
    ∃ locations', Tracks first (s.resolve argument).2 locations' := by
  unfold Session.resolve
  dsimp only
  split
  · exact ⟨locations, hs⟩
  · split
    · exact hs.extractArchive argument
    · exact ⟨locations, hs.report _⟩

/-- So does adding an input. -/
theorem addInput (hs : Tracks first s locations) (scan : Scan) (token : String) :
    ∃ locations', Tracks first (scan.addInput s token).2.2 locations' := by
  obtain ⟨locations', hresolved⟩ := hs.resolve token
  refine ⟨locations', ?_⟩
  unfold Scan.addInput
  split
  · next hresolve =>
    rw [hresolve] at hresolved
    split
    · exact hresolved.report _
    · exact hresolved
  · next hresolve =>
    rw [hresolve] at hresolved
    exact hresolved
  · next hresolve =>
    rw [hresolve] at hresolved
    exact hresolved

/-- One argument, whether or not it fails: options make no files. -/
theorem feed (hs : Tracks first s locations) (registry : Registry) (scan : Scan)
    (token : String) : ∃ locations', Tracks first (scan.feed registry s token).2.2 locations' := by
  unfold Scan.feed
  split
  · dsimp only
    split
    · exact ⟨locations, hs⟩
    · exact ⟨locations, hs⟩
  · split
    · split
      · exact ⟨locations, hs⟩
      · exact ⟨locations, hs⟩
    · exact hs.addInput scan token

/-- All arguments, up to the first one that fails. -/
theorem feedAll (hs : Tracks first s locations) (registry : Registry) (scan : Scan)
    (tokens : List String) :
    ∃ locations', Tracks first (scan.feedAll registry s tokens).2.2 locations' := by
  induction tokens generalizing scan s locations with
  | nil => exact ⟨locations, hs⟩
  | cons token rest ih =>
    obtain ⟨locations', hfed⟩ := hs.feed registry scan token
    unfold Scan.feedAll
    split
    · next hfeed =>
      rw [hfeed] at hfed
      exact ⟨locations', hfed⟩
    · next hfeed =>
      rw [hfeed] at hfed
      exact ih hfed _

end Tracks

/-- What a scan leaves behind, whether or not it fails, are temporary files that it knows of. -/
theorem tracks_parse (registry : Registry) (h : Host) (tokens : List String) :
    ∃ locations, Tracks h (Scan.parse registry (start h) tokens).2 locations := by
  obtain ⟨locations, hfed⟩ := (tracks_start h).feedAll registry Scan.start tokens
  refine ⟨locations, ?_⟩
  unfold Scan.parse
  split
  · next hfeed =>
    rw [hfeed] at hfed
    exact hfed
  · next hfeed =>
    rw [hfeed] at hfed
    exact hfed

end Session

end DexListing
