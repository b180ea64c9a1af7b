import DexListing.Proofs.File.Lookups
import DexListing.Proofs.File.Losses
import DexListing.Proofs.File.Resolving
import DexListing.Proofs.Run.DumpSteps
import DexListing.Proofs.Run.Extensions

/-!
# Output stays below its directory

A class is written only if the real path of its file lies below that of the output directory. The
check looks at where the path name leads before anything is made, the writing follows the path name
as it is written, and what is made on the way could lead it elsewhere; that it does not is the
content of `Router.write_grows`. A dump writes nothing but classes, so all of a dump changes the
host below the output directory only (`Dump.contained_invariant`), and the removal of the temporary
files at the end removes and makes nothing else (`Session.cleanUp_get?`).

The check can be wrong in two ways. The system may overlook a link on the way to a real path that it
follows when the file is written (`Host.Overlooks`). And an extension with parts that go up makes
the directories on its way be made where it leads, not only where it ends. Both are cases in which
a class is written elsewhere (`Dump.write_through_overlooked_link`, `Dump.write_beside_directory`).
-/

set_option autoImplicit false

namespace DexListing

variable {root : Location} {D : PathName} {h h' : Host}

/-! ## Links that are seen -/

/-- The system overlooks no link on the way of a directory and of the path names below it. -/
def Host.SeesLinks (h : Host) (D : PathName) : Prop :=
  ∀ names, (∀ name ∈ names, IsName name) → ¬h.Overlooks ⟨D.root, D.parts ++ names⟩

/-- Then it overlooks none on the way of the directory itself. -/
theorem Host.SeesLinks.not_overlooks (hsees : h.SeesLinks D) : ¬h.Overlooks D := by
  have hnone := hsees [] fun _ => nofun
  rwa [List.append_nil] at hnone

/-- Growth does not change that. -/
theorem Host.GrowsBelow.seesLinks (hgrows : h.GrowsBelow root h') (hsees : h.SeesLinks D) :
    h'.SeesLinks D :=
  fun names hnames hoverlooks => hsees names hnames ((hgrows.overlooks_iff _).mp hoverlooks)

/-! ## One class -/

/-- A path name whose real path is below a root leads below it, if every link on the way is seen
and no link is on the way to where it starts. -/
theorem Host.LeadsBelow.of_realPath {p : PathName} {l : Location} (hsees : ¬h.Overlooks p)
    (hstart : h.tree.crossesLink (h.start p) = false) (hreal : h.realPath p = .ok l)
    (hbelow : root <+: l) : h.LeadsBelow root p := by
  have hnul : p.hasNul = false := by
    unfold realPath at hreal
    split at hreal
    · exact nomatch hreal
    · next hnul => simpa using hnul
  intro links l' hfollows
  have hsame := Host.realPath_of_follows hnul hsees hstart hfollows
  rw [hreal] at hsame
  rwa [← Except.ok.inj hsame]

namespace Router

variable {r : Router} {className : String} {path : PathName}

/-- The path name of a class is that of the output directory with names after it. -/
theorem names_of_pathFor (hdir : r.directory = some D) (hup : ".." ∉ furtherParts r.extension)
    (hpath : r.pathFor h className = .ok path) :
    ∃ names, path = ⟨D.root, D.parts ++ names⟩ ∧ names ≠ [] ∧ ∀ name ∈ names, IsName name := by
  obtain ⟨hne, -, rfl⟩ := eq_append_of_pathFor hdir hpath
  refine ⟨_, rfl, List.append_ne_nil_of_left_ne_nil (fileParts_ne_nil hne) _, ?_⟩
  exact fun name hname => isName_of_mem_furtherParts hup hname

/-- The path name that a class gets leads below the output directory, unless a link is overlooked on
the way of one of the two. -/
theorem leadsBelow_of_pathFor (hdir : r.directory = some D)
    (hplace : h.place .target D = .ok (.existing root .directory)) (hD : ¬h.Overlooks D)
    (hpath : r.pathFor h className = .ok path) (hsees : ¬h.Overlooks path) :
    h.LeadsBelow root path := by
  obtain ⟨-, -, hwritten, root', location, hroot', hreal, hprefix⟩ := of_pathFor_eq_ok hdir hpath
  obtain ⟨-, -, hparts⟩ := eq_append_of_pathFor hdir hpath
  have hroot := Host.realPath_of_place hD hplace fun _ _ => nofun
  obtain rfl : root' = root := Except.ok.inj (hroot'.symm.trans hroot)
  have hstart : h.start path = h.start D := by rw [hparts]; rfl
  refine .of_realPath hsees ?_ hreal hprefix
  rw [hstart]
  exact (Host.walks_of_place hplace).2.crossesLink_start fun _ _ => nofun

/-- Writing a class removes nothing and changes nothing but the content of a file. -/
theorem write_keeps (r : Router) (s : Session) (className : String) (block : Block) :
    s.host.Keeps (r.write s className block).session.host := by
  unfold write
  split
  · unfold toConsole
    split <;> exact .refl s.host
  · split
    · exact .refl s.host
    · next path _ =>
      have hmade := Host.Keeps.ensureParts s.host path.parent.root path.parent.parts
        path.parent.parts.length
      change s.host.Keeps (s.host.ensureDirectories path.parent).1 at hmade
      unfold toFile
      split
      · next hensure =>
        rw [hensure] at hmade
        exact hmade
      · next hensure =>
        rw [hensure] at hmade
        split
        · exact hmade
        · next hstore =>
          have hwritten := hmade.trans (.storeContent hstore)
          split
          · exact hwritten
          · exact hwritten

/-- Writing a class, whether or not it succeeds, changes the host below the output directory
only; unless a link is overlooked, or the extension goes up. -/
theorem write_grows {s : Session} (hdir : r.directory = some D)
    (hplace : s.host.place .target D = .ok (.existing root .directory)) (hD : ¬s.host.Overlooks D)
    (hup : ".." ∉ furtherParts r.extension) (className : String)
    (hsees : ∀ path, r.pathFor s.host className = .ok path → ¬s.host.Overlooks path)
    (block : Block) : s.host.GrowsBelow root (r.write s className block).session.host := by
  unfold write
  rw [hdir]
  dsimp only
  cases hpath : r.pathFor s.host className with
  | error f => exact .refl root s.host
  | ok path =>
    have hsafe := leadsBelow_of_pathFor hdir hplace hD hpath (hsees path hpath)
    obtain ⟨names, rfl, hne, hnames⟩ := names_of_pathFor hdir hup hpath
    have hrootDir := (Host.walks_of_place hplace).2.get?_existing
    -- The directories above the file are the output directory and names below it.
    have hsplit : names = names.dropLast ++ [names.getLast hne] :=
      (List.dropLast_concat_getLast hne).symm
    have hmade : s.host.GrowsBelow root
        (s.host.ensureDirectories (PathName.mk D.root (D.parts ++ names)).parent).1 := by
      unfold Host.ensureDirectories PathName.parent
      dsimp only
      rw [List.dropLast_append_of_ne_nil hne, List.length_append]
      have hsafe' : s.host.LeadsBelow root
          ⟨D.root, D.parts ++ (names.dropLast ++ [names.getLast hne])⟩ := by
        rwa [← hsplit]
      apply Host.ensureParts_grows (Host.isDirectory_eq_true_iff.mpr ⟨root, hplace⟩) hrootDir hsafe'
      rwa [← hsplit]
    dsimp only
    unfold toFile
    split
    · next host e hensure =>
      rw [hensure] at hmade
      exact hmade
    · next host hensure =>
      rw [hensure] at hmade
      split
      · exact hmade
      · next written hstore =>
        have hwritten := Host.storeContent_grows (hmade.leadsBelow hsafe) hstore
        split
        · exact hmade.trans hwritten
        · exact hmade.trans hwritten

end Router

/-- Writing does not change where a router writes to. -/
theorem Router.write_router (r : Router) (s : Session) (className : String) (block : Block) :
    (r.write s className block).router.directory = r.directory ∧
      (r.write s className block).router.extension = r.extension := by
  unfold write
  split
  · unfold toConsole
    split <;> exact ⟨rfl, rfl⟩
  · split
    · exact ⟨rfl, rfl⟩
    · unfold toFile
      split
      · exact ⟨rfl, rfl⟩
      · split
        · exact ⟨rfl, rfl⟩
        · split <;> exact ⟨rfl, rfl⟩

/-! ## All classes of a dump -/

namespace Dump

/-- A dump into a directory that has changed the host below the root of that directory only. -/
structure Contained (h : Host) (D : PathName) (root : Location) (d : Dump) : Prop where
  directory : d.router.directory = some D
  extension : ".." ∉ Router.furtherParts d.router.extension
  grows : h.GrowsBelow root d.session.host

/-- Every step keeps a dump contained if all links are seen: on the host as it has become, the
output directory still is one, and at the same location. -/
theorem contained_invariant (hplace : h.place .target D = .ok (.existing root .directory))
    (hsees : h.SeesLinks D) : Invariant (Contained h D root) where
  report _ _ hd := ⟨hd.directory, hd.extension, hd.grows⟩
  beginInput _ _ hd := ⟨hd.directory, hd.extension, hd.grows⟩
  write d className block hd := by
    have hsees' := hd.grows.seesLinks hsees
    have hwritten := Router.write_grows hd.directory (hd.grows.place_directory hplace)
      hsees'.not_overlooks hd.extension className (fun path hpath => by
        obtain ⟨names, rfl, -, hnames⟩ := Router.names_of_pathFor hd.directory hd.extension hpath
        exact hsees' names hnames) block
    obtain ⟨hdirectory, hextension⟩ := d.router.write_router d.session className block
    exact ⟨hdirectory.trans hd.directory, hextension ▸ hd.extension, hd.grows.trans hwritten⟩

end Dump

/-! ## Cleaning up -/

/-- Removing a temporary file makes nothing. -/
theorem Session.removeTemporary_get? (s : Session) (path : PathName) (l : Location) :
    (s.removeTemporary path).host.tree.get? l = s.host.tree.get? l ∨
      (s.removeTemporary path).host.tree.get? l = none := by
  unfold removeTemporary
  split
  · exact Or.inl rfl
  · next host hunlink =>
    obtain ⟨hloses, -⟩ := Host.loses_of_unlink hunlink
    exact (hloses.nodes l).imp_right And.left

/-- Removing some temporary files makes nothing. -/
theorem Session.foldl_removeTemporary_get? (files : List PathName) (s : Session) (l : Location) :
    (files.foldl removeTemporary s).host.tree.get? l = s.host.tree.get? l ∨
      (files.foldl removeTemporary s).host.tree.get? l = none := by
  induction files generalizing s with
  | nil => exact Or.inl rfl
  | cons path rest ih =>
    rw [List.foldl_cons]
    rcases ih (s.removeTemporary path) with hrest | hnone
    · rw [hrest]
      exact s.removeTemporary_get? path l
    · exact Or.inr hnone

/-- Removing all temporary files makes nothing. -/
theorem Session.cleanUp_get? (s : Session) (l : Location) :
    s.cleanUp.host.tree.get? l = s.host.tree.get? l ∨ s.cleanUp.host.tree.get? l = none :=
  foldl_removeTemporary_get? s.temporaries.reverse { s with temporaries := [] } l

/-! ## Whole dumps -/

/-- After its inputs a dump only cleans up. -/
theorem Dump.run_host (config : Config) (writer : Writer) (opener : Opener) (s : Session)
    (entries : List InputEntry) :
    (run config writer opener s entries).2.2.session.host =
      (dumpInputs config writer opener (start config writer s)
        entries).2.2.session.cleanUp.host := by
  unfold run
  rcases dumpInputs config writer opener (start config writer s) entries with
    ⟨outcome, results, d⟩
  cases outcome with
  | error f => rfl
  | ok _ => exact (foldl_report _ _).2

/-- Output does not leave its directory as long as every link on the way is seen. Whatever links
there are on a host, every output directory that exists has a location, which is its real path
unless a link is overlooked on its way. Writing a class, whether or not it succeeds, neither makes
nor removes a link and removes no directory; and it makes and changes nothing outside of that
location, unless a link is overlooked on the way of the directory or of the class's path name, or
the extension goes up. So a whole dump into a directory below which every link is seen makes and
changes nothing outside of its location; after it only temporary files are gone. -/
theorem Dump.writes_below_directory (h : Host) (D : PathName)
    (hthere : h.isDirectory D = .ok true) :
    ∃ root, h.place .target D = .ok (.existing root .directory) ∧
      (¬h.Overlooks D → h.realPath D = .ok root) ∧
      (∀ (r : Router) (s : Session) (className : String) (block : Block),
        s.host = h → r.directory = some D →
          h.GrowsBelow [] (r.write s className block).session.host ∧
          (h.GrowsBelow root (r.write s className block).session.host ∨ h.Overlooks D ∨
            (∃ path, r.pathFor h className = .ok path ∧ h.Overlooks path) ∨
            ".." ∈ Router.furtherParts r.extension)) ∧
      ∀ (config : Config) (writer : Writer) (opener : Opener) (s : Session)
        (entries : List InputEntry), s.host = h → config.outputDirectory = some D →
          h.SeesLinks D →
          h.GrowsBelow root
            (dumpInputs config writer opener (start config writer s) entries).2.2.session.host ∧
          ∀ l, ¬root <+: l →
            (run config writer opener s entries).2.2.session.host.tree.get? l = h.tree.get? l ∨
              (run config writer opener s entries).2.2.session.host.tree.get? l = none := by
  obtain ⟨root, hplace⟩ := Host.isDirectory_eq_true_iff.mp hthere
  refine ⟨root, hplace, fun hD => Host.realPath_of_place hD hplace fun _ _ => nofun, ?_, ?_⟩
  · rintro r s className block rfl hdir
    refine ⟨(r.write_keeps s className block).grows, ?_⟩
    by_cases hD : s.host.Overlooks D
    · exact Or.inr (Or.inl hD)
    by_cases hup : ".." ∈ Router.furtherParts r.extension
    · exact Or.inr (Or.inr (Or.inr hup))
    by_cases hsees : ∃ path, r.pathFor s.host className = .ok path ∧ s.host.Overlooks path
    · exact Or.inr (Or.inr (Or.inl hsees))
    · refine Or.inl (Router.write_grows hdir hplace hD hup className ?_ block)
      exact fun path hpath hoverlooks => hsees ⟨path, hpath, hoverlooks⟩
  · rintro config writer opener s entries rfl hdir hsees
    have hstart : Contained s.host D root (start config writer s) :=
      ⟨hdir, writer.not_up, .refl root s.host⟩
    have hdumped := (contained_invariant hplace hsees).dumpInputs config writer hstart opener entries
    refine ⟨hdumped.grows, ?_⟩
    intro l hl
    rw [run_host, ← hdumped.grows.outside l hl]
    exact Session.cleanUp_get? _ l

/-- A host on which a link in the output directory leads out of it. -/
def Host.withLinkedPackage : Host where
  tree := ((FileTree.empty.put ["out"] .directory).put ["elsewhere"] .directory).put ["out", "a"]
    (.link "../elsewhere")
  workingDirectory := []
  temporaryDirectory := []
  drawn := 0

/-- No link is overlooked on it. -/
theorem Host.not_overlooks_withLinkedPackage (parts : List String) :
    ¬Host.withLinkedPackage.Overlooks ⟨.slash, parts⟩ :=
  not_overlooks_of_short (by simp) (by decide)

/-- A class whose package is a link out of the output directory is not written where that leads
to. -/
theorem Dump.writes_below_directory_linked_package :
    Host.withLinkedPackage.isDirectory ⟨.slash, ["out"]⟩ = .ok true ∧
      ((Router.start ".ddx" (some ⟨.slash, ["out"]⟩)).write (Session.start .withLinkedPackage)
        "a.B" ⟨"text", none⟩).session.host.tree.get? ["elsewhere", "B.ddx"] = none := by
  have hplace : Host.withLinkedPackage.place .target ⟨.slash, ["out"]⟩ =
      .ok (.existing ["out"] .directory) :=
    Host.place_of_short (by decide) (by decide)
      (.into rfl ⟨by decide, by decide, by decide⟩ rfl (fun _ => nofun) (.arrived rfl))
  have hthere := Host.isDirectory_eq_true_iff.mpr ⟨_, hplace⟩
  obtain ⟨root, hroot, -, hwrite, -⟩ := writes_below_directory _ _ hthere
  obtain ⟨rfl, -⟩ := Place.existing.inj (Except.ok.inj (hplace.symm.trans hroot))
  refine ⟨hthere, ?_⟩
  obtain ⟨-, hgrows⟩ := hwrite (Router.start ".ddx" (some ⟨.slash, ["out"]⟩))
    (Session.start Host.withLinkedPackage) "a.B" ⟨"text", none⟩ rfl rfl
  rcases hgrows with hgrows | hD | ⟨path, hpath, hoverlooks⟩ | hup
  · rw [hgrows.outside ["elsewhere", "B.ddx"] (by decide)]
    rfl
  · exact absurd hD (Host.not_overlooks_withLinkedPackage ["out"])
  · obtain ⟨names, rfl, -, -⟩ := Router.names_of_pathFor rfl (by decide) hpath
    exact absurd hoverlooks (Host.not_overlooks_withLinkedPackage _)
  · exact absurd hup (by decide)

/-! ## A link that is overlooked -/

/-- A class whose path name is accepted is written where that leads to, whatever the real path is
that was checked. -/
theorem Router.write_follows {r : Router} {s : Session} {className : String} {parts : List String}
    {last : String} {l : Location} (hhost : s.host = h) (hdir : r.directory = some D)
    (hpath : r.pathFor h className = .ok ⟨D.root, parts ++ [last]⟩)
    (hparent : h.place .target ⟨D.root, parts⟩ = .ok (.existing l .directory))
    (hlast : IsEntryName last) (husable : PathName.Usable ⟨D.root, parts ++ [last]⟩)
    (hvacant : h.tree.get? (l ++ [last]) = none) (text : String) :
    (r.write s className ⟨text, none⟩).outcome = .ok () ∧
      (r.write s className ⟨text, none⟩).session.host.tree.get? (l ++ [last]) =
        some (.file (Text.utf8OfText text).toArray) := by
  subst hhost
  have hwalk := (Host.walks_of_place hparent).2
  have hplace : s.host.place .writing ⟨D.root, parts ++ [last]⟩ = .ok (.vacant (l ++ [last])) := by
    obtain ⟨left, hleft⟩ := hwalk.walk_append (List.cons_ne_nil last [])
      (List.forall_mem_singleton.mpr hlast.isName) .writing
    have htakes : Purpose.writing.Takes last [] :=
      FileTree.takes_of_names hlast.isName hlast.short fun _ => nofun
    refine Host.place_of_short husable.noNul husable.short (FileTree.walks_of_walk ?_)
    refine hleft.trans ?_
    rw [FileTree.walk_of_takes hwalk.get?_existing htakes, hvacant]
    rfl
  have hmade := Host.ensureDirectories_of_isDirectory
    (Host.isDirectory_eq_true_iff.mpr ⟨l, hparent⟩)
  have hstore : s.host.storeContent ⟨D.root, parts ++ [last]⟩ (Text.utf8OfText text).toArray =
      .ok (s.host.put (l ++ [last]) (.file (Text.utf8OfText text).toArray)) := by
    unfold Host.storeContent
    rw [hplace]
  have hadmits := (Host.walks_of_place hplace).2.admits_vacant
    (.file (Text.utf8OfText text).toArray)
  unfold write
  rw [hdir]
  dsimp only
  rw [hpath]
  dsimp only
  unfold toFile PathName.parent
  dsimp only
  rw [List.dropLast_concat, hmade]
  dsimp only
  rw [hstore]
  exact ⟨rfl, (s.host.tree.get?_put hadmits _).trans (if_pos rfl)⟩

/-- A name of so many bytes. -/
def nameOfSize : (size : Nat) → String
  | 0 => ""
  | size + 1 => nameOfSize size ++ "e"

/-- The name has the size that it is made for. -/
theorem utf8ByteSize_nameOfSize (size : Nat) : (nameOfSize size).utf8ByteSize = size := by
  induction size with
  | zero => rfl
  | succ size ih =>
    rw [nameOfSize, String.utf8ByteSize_append, ih]
    rfl

/-- The name holds no other character than the letter it is made of. -/
theorem holds_nameOfSize {c : Char} (hc : c ≠ 'e') (size : Nat) :
    Text.holds (nameOfSize size) c = false := by
  induction size with
  | zero => rfl
  | succ size ih =>
    rw [nameOfSize, Text.holds_append, ih]
    simpa [Text.holds] using hc

/-- The longest name that the system takes. -/
def maxName : String := nameOfSize maxNameBytes

/-- The name is as long as the system allows. -/
theorem utf8ByteSize_maxName : maxName.utf8ByteSize = 255 := utf8ByteSize_nameOfSize 255

/-- Nor does this one hold any other character. -/
theorem holds_maxName {c : Char} (hc : c ≠ 'e') : Text.holds maxName c = false :=
  holds_nameOfSize hc 255

/-- Shorter names are other names. -/
theorem ne_maxName {name : String} (hshort : name.utf8ByteSize < 255) : name ≠ maxName := by
  rintro rfl
  rw [utf8ByteSize_maxName] at hshort
  exact Nat.lt_irrefl 255 hshort

/-- An entry of a directory may have this name. -/
theorem isEntryName_maxName : IsEntryName maxName := by
  refine ⟨⟨?_, (ne_maxName (by decide)).symm⟩, Nat.le_of_eq utf8ByteSize_maxName⟩
  rintro (hempty | hdot)
  · exact ne_maxName (by decide) hempty.symm
  · exact ne_maxName (by decide) hdot.symm

namespace FileTree

/-- Directories of one name within each other, in a directory `out`. -/
def nested (name : String) : (depth : Nat) → FileTree
  | 0 => empty.put ["out"] .directory
  | depth + 1 => (nested name depth).put ("out" :: List.replicate (depth + 1) name) .directory

/-- In nested directories of one name there are only these directories. -/
theorem get?_nested (name : String) (depth : Nat) (l : Location) :
    (nested name depth).get? l =
      if l = [] ∨ ∃ n ≤ depth, l = "out" :: List.replicate n name then some .directory else none := by
  induction depth generalizing l with
  | zero =>
    rw [nested, get?_put _ (by decide)]
    by_cases hnil : l = []
    · subst hnil
      rw [if_pos (Or.inl rfl)]
      rfl
    · by_cases hout : l = ["out"]
      · rw [if_pos hout, if_pos (Or.inr ⟨0, Nat.le_refl 0, hout⟩)]
      · rw [if_neg hout, if_neg, get?, if_neg hnil]
        · rfl
        · rintro (hl | ⟨n, hn, rfl⟩)
          · exact hnil hl
          · rw [Nat.le_zero.mp hn] at hout
            exact hout rfl
  | succ depth ih =>
    have hadmits : (nested name depth).Admits ("out" :: List.replicate (depth + 1) name)
        .directory := by
      refine ⟨List.cons_ne_nil _ _, ?_, fun _ => rfl⟩
      rw [List.replicate_succ', ← List.cons_append, List.dropLast_concat, ih]
      exact if_pos (Or.inr ⟨depth, Nat.le_refl depth, rfl⟩)
    rw [nested, get?_put _ hadmits, ih]
    by_cases hlast : l = "out" :: List.replicate (depth + 1) name
    · rw [if_pos hlast, if_pos (Or.inr ⟨depth + 1, Nat.le_refl _, hlast⟩)]
    · rw [if_neg hlast]
      refine if_congr (or_congr_right ⟨?_, ?_⟩) rfl rfl
      · rintro ⟨n, hn, rfl⟩
        exact ⟨n, Nat.le_succ_of_le hn, rfl⟩
      · rintro ⟨n, hn, rfl⟩
        refine ⟨n, Nat.le_of_lt_succ (Nat.lt_of_le_of_ne hn ?_), rfl⟩
        rintro rfl
        exact hlast rfl

/-- Nothing with another name on its way stands in such a tree. -/
theorem get?_nested_of_mem {name other : String} (depth : Nat) {l : Location}
    (hmem : other ∈ l) (hother : other ≠ "out" ∧ other ≠ name) :
    (nested name depth).get? l = none := by
  rw [get?_nested, if_neg]
  rintro (rfl | ⟨n, -, rfl⟩)
  · exact List.not_mem_nil hmem
  · rcases List.mem_cons.mp hmem with hout | hname
    · exact hother.1 hout
    · exact hother.2 (List.eq_of_mem_replicate hname)

end FileTree

namespace Host

/-- A host with a link in the output directory that leads far down in it, and with a link down there
that leads out of it. -/
def withFarLink : Host :=
  { withLinkedPackage with
    tree := (((FileTree.nested maxName 16).put ["elsewhere"] .directory).put ["out", "s"]
      (.link (Text.joined "/" (List.replicate 15 maxName)))).put
      ("out" :: List.replicate 16 maxName ++ ["y"])
      (.link (Text.joined "/" (List.replicate 17 ".." ++ ["elsewhere"]))) }

/-- What is on the host: the far link, the near link, a directory elsewhere, and nested
directories. -/
theorem get?_withFarLink (l : Location) :
    withFarLink.tree.get? l =
      if l = "out" :: List.replicate 16 maxName ++ ["y"] then
        some (.link (Text.joined "/" (List.replicate 17 ".." ++ ["elsewhere"])))
      else if l = ["out", "s"] then
        some (.link (Text.joined "/" (List.replicate 15 maxName)))
      else if l = ["elsewhere"] then some .directory
      else (FileTree.nested maxName 16).get? l := by
  have helsewhere : (FileTree.nested maxName 16).Admits ["elsewhere"] .directory :=
    ⟨List.cons_ne_nil _ _, rfl, fun _ => rfl⟩
  have hnear : ((FileTree.nested maxName 16).put ["elsewhere"] .directory).Admits ["out", "s"]
      (.link (Text.joined "/" (List.replicate 15 maxName))) := by
    have hnone : (FileTree.nested maxName 16).get? ["out", "s"] = none :=
      FileTree.get?_nested_of_mem 16 (List.mem_of_getLast? rfl) ⟨by decide, ne_maxName (by decide)⟩
    refine ⟨List.cons_ne_nil _ _, ?_, ?_⟩
    · rw [FileTree.get?_put _ helsewhere, if_neg (by simp), FileTree.get?_nested]
      exact if_pos (Or.inr ⟨0, by decide, rfl⟩)
    · rw [FileTree.get?_put _ helsewhere, if_neg (by simp), hnone]
      exact nofun
  have hfar : (((FileTree.nested maxName 16).put ["elsewhere"] .directory).put ["out", "s"]
      (.link (Text.joined "/" (List.replicate 15 maxName)))).Admits
      ("out" :: List.replicate 16 maxName ++ ["y"])
      (.link (Text.joined "/" (List.replicate 17 ".." ++ ["elsewhere"]))) := by
    have hnone : (FileTree.nested maxName 16).get?
        ("out" :: List.replicate 16 maxName ++ ["y"]) = none :=
      FileTree.get?_nested_of_mem 16 List.mem_concat_self ⟨by decide, ne_maxName (by decide)⟩
    refine ⟨List.cons_ne_nil _ _, ?_, ?_⟩
    · rw [List.dropLast_concat, FileTree.get?_put _ hnear, if_neg (by simp [List.replicate]),
        FileTree.get?_put _ helsewhere, if_neg (by simp), FileTree.get?_nested]
      exact if_pos (Or.inr ⟨16, Nat.le_refl _, rfl⟩)
    · rw [FileTree.get?_put _ hnear, if_neg (by simp [List.replicate]),
        FileTree.get?_put _ helsewhere, if_neg (by simp), hnone]
      exact nofun
  unfold withFarLink
  dsimp only
  rw [FileTree.get?_put _ hfar, FileTree.get?_put _ hnear, FileTree.get?_put _ helsewhere]

/-- The directories within each other. -/
theorem get?_withFarLink_nested {l : Location} (h : l <+: "out" :: List.replicate 16 maxName) :
    withFarLink.tree.get? l = some .directory := by
  have hnot {l' : Location} {other : String} (hmem : other ∈ l')
      (hother : other ≠ "out" ∧ other ≠ maxName) : "out" :: List.replicate 16 maxName ≠ l' := by
    rintro rfl
    rcases List.mem_cons.mp hmem with hout | hname
    · exact hother.1 hout
    · exact hother.2 (List.eq_of_mem_replicate hname)
  have hdeep : withFarLink.tree.get? ("out" :: List.replicate 16 maxName) = some .directory := by
    rw [get?_withFarLink, if_neg (hnot List.mem_concat_self ⟨by decide, ne_maxName (by decide)⟩),
      if_neg (hnot (List.mem_of_getLast? rfl) ⟨by decide, ne_maxName (by decide)⟩),
      if_neg (hnot List.mem_cons_self ⟨by decide, ne_maxName (by decide)⟩), FileTree.get?_nested]
    exact if_pos (Or.inr ⟨16, Nat.le_refl _, rfl⟩)
  obtain ⟨more, hmore⟩ := h
  rw [← hmore] at hdeep
  by_cases hnil : more = []
  · rwa [hnil, List.append_nil] at hdeep
  · exact FileTree.get?_of_append hnil hdeep

/-- The near link leads to the last but one of the nested directories. -/
theorem get?_withFarLink_near : withFarLink.tree.get? ["out", "s"] =
    some (.link (Text.joined "/" (List.replicate 15 maxName))) := by
  rw [get?_withFarLink, if_neg (by simp [List.replicate]), if_pos rfl]

/-- The far link, in the last of them, leads up and elsewhere. -/
theorem get?_withFarLink_far :
    withFarLink.tree.get? ("out" :: List.replicate 16 maxName ++ ["y"]) =
      some (.link (Text.joined "/" (List.replicate 17 ".." ++ ["elsewhere"]))) := by
  rw [get?_withFarLink, if_pos rfl]

/-- The directory elsewhere is empty. -/
theorem get?_withFarLink_elsewhere :
    withFarLink.tree.get? ["elsewhere"] = some .directory ∧
      withFarLink.tree.get? ["elsewhere", "C.ddx"] = none := by
  refine ⟨?_, ?_⟩
  · rw [get?_withFarLink, if_neg (by simp [List.replicate]), if_neg (by simp), if_pos rfl]
  · rw [get?_withFarLink, if_neg (by simp [List.replicate]), if_neg (by simp), if_neg (by simp)]
    exact FileTree.get?_nested_of_mem 16 List.mem_cons_self ⟨by decide, ne_maxName (by decide)⟩

/-- Each of the two links starts where it stands, and this is where its steps go. -/
theorem linkSteps_withFarLink :
    ((Text.joined "/" (List.replicate 15 maxName)).toList.head? ≠ some '/' ∧
        linkSteps (Text.joined "/" (List.replicate 15 maxName)) = List.replicate 15 maxName) ∧
      (Text.joined "/" (List.replicate 17 ".." ++ ["elsewhere"])).toList.head? ≠ some '/' ∧
        linkSteps (Text.joined "/" (List.replicate 17 ".." ++ ["elsewhere"])) =
          List.replicate 17 ".." ++ ["elsewhere"] := by
  refine ⟨?_, ?_⟩
  · refine link_joined (ne_maxName (by decide)).symm fun text htext => ?_
    rw [List.eq_of_mem_replicate (n := 15) htext]
    exact holds_maxName (by decide)
  · exact link_joined (by decide) (by decide)

/-- The system takes the path name of the class. -/
theorem usable_farPath : PathName.Usable ⟨.relative, ["out", "s", maxName, "y", "C.ddx"]⟩ := by
  have htext := PathName.text_relative (List.cons_ne_nil "out" ["s", maxName, "y", "C.ddx"])
  refine ⟨?_, ?_⟩
  · unfold PathName.hasNul
    rw [htext]
    refine Text.holds_joined_eq_false (by decide) ?_
    intro text htext
    simp only [List.mem_cons, List.not_mem_nil, or_false] at htext
    rcases htext with rfl | rfl | rfl | rfl | rfl
    · decide
    · decide
    · exact holds_maxName (by decide)
    · decide
    · decide
  · have hbytes := Text.utf8ByteSize_joined
      (List.cons_ne_nil "out" ["s", maxName, "y", "C.ddx"])
    simp only [List.map_cons, List.map_nil, List.sum_cons, List.sum_nil,
      utf8ByteSize_maxName] at hbytes
    have hsizes : "out".utf8ByteSize = 3 ∧ "s".utf8ByteSize = 1 ∧ "y".utf8ByteSize = 1 ∧
        "C.ddx".utf8ByteSize = 5 := by decide
    rw [htext]
    unfold maxPathBytes
    omega

/-- The path name leads out of the directory. -/
theorem place_withFarLink :
    withFarLink.place .target ⟨.relative, ["out", "s", maxName, "y"]⟩ =
      .ok (.existing ["elsewhere"] .directory) := by
  obtain ⟨⟨hnear, hnearSteps⟩, hfar, hfarSteps⟩ := linkSteps_withFarLink
  have hout := get?_withFarLink_nested (List.prefix_append ["out"] _)
  have hdeep := get?_withFarLink_nested List.prefix_rfl
  have hnames : ∀ name ∈ List.replicate 16 maxName,
      IsName name ∧ name.utf8ByteSize ≤ maxNameBytes := by
    intro name hname
    rw [List.eq_of_mem_replicate hname]
    exact ⟨isEntryName_maxName.isName, isEntryName_maxName.short⟩
  have htakes (name : String) (rest : List String) (hname : IsEntryName name) :
      Purpose.target.Takes name rest :=
    hname.takes (by decide) rest
  have husable : PathName.Usable ⟨.relative, ["out", "s", maxName, "y"]⟩ :=
    PathName.Usable.of_append
      (show PathName.Usable ⟨.relative, ["out", "s", maxName, "y"] ++ ["C.ddx"]⟩ from usable_farPath)
  refine place_of_short husable.noNul husable.short ?_
  refine .into rfl (htakes "out" _ (by decide)) hout (fun _ => nofun) ?_
  refine .through hout (htakes "s" _ (by decide)) get?_withFarLink_near (by simp) ?_
  have hsteps : List.replicate 15 maxName ++ [maxName, "y"] =
      List.replicate 16 maxName ++ ["y"] := rfl
  rw [linkStart, if_neg hnear, hnearSteps, hsteps]
  refine .names hnames hdeep ?_
  refine .through hdeep (htakes "y" _ (by decide)) get?_withFarLink_far (by simp) ?_
  rw [linkStart, if_neg hfar, hfarSteps]
  -- The directory above is as far down as there are steps up.
  have hback : withFarLink.tree.Walks .target 38 ([] ++ "out" :: List.replicate 16 maxName)
      (List.replicate ("out" :: List.replicate 16 maxName).length ".." ++ ["elsewhere"])
      (.existing ["elsewhere"] .directory) :=
    .ups hdeep (.into rfl (htakes "elsewhere" _ (by decide)) get?_withFarLink_elsewhere.1
      (fun _ => nofun) (.arrived get?_withFarLink_elsewhere.1))
  exact hback

/-- The way down is where it is written. -/
theorem locate_withFarLink {parts : List String}
    (h : parts <+: "out" :: List.replicate 16 maxName) :
    withFarLink.locate ⟨.relative, parts⟩ = parts := by
  refine foldl_writtenStep_names (fun name hname => ?_) []
  rcases List.mem_cons.mp (h.subset hname) with rfl | hname
  · decide
  · rw [List.eq_of_mem_replicate hname]
    exact isEntryName_maxName.isName

/-- On the way down no link is seen, if the first link is not on it. -/
theorem seenLink?_withFarLink {parts : List String}
    (h : parts <+: "out" :: List.replicate 16 maxName) :
    withFarLink.seenLink? ⟨.relative, parts⟩ = none := by
  have hnone : withFarLink.linkAt? ⟨.relative, parts⟩ = none := by
    rw [linkAt?, locate_withFarLink h, FileTree.linkTarget?, get?_withFarLink_nested h]
  rw [seenLink?, hnone, ite_self]

/-- The directory has no link on its way. -/
theorem resolution_out_withFarLink (depth : Nat) (rest : List String) :
    Resolution.ofSteps withFarLink.seenLink? depth [] ⟨.relative, []⟩ (["out"] ++ rest) =
      Resolution.ofSteps withFarLink.seenLink? depth [] ⟨.relative, ["out"]⟩ rest :=
  Resolution.ofSteps_names (by decide)
    (fun _ _ habove => seenLink?_withFarLink (habove.trans (List.prefix_append ["out"] _))) rest

/-- Through the first link the path is resolved to the directories that it leads through. -/
theorem resolution_withFarLink :
    withFarLink.resolution withFarLink.seenLink? ⟨.relative, ["out", "s", maxName]⟩ =
      .resolved ⟨.relative, "out" :: List.replicate 16 maxName⟩ := by
  obtain ⟨⟨hnear, hnearSteps⟩, -⟩ := linkSteps_withFarLink
  obtain ⟨less, hdepth⟩ : ∃ less, withFarLink.maxDepth = less + 1 := by
    have hlink : 1 ≤ withFarLink.tree.links.length := by
      refine FileTree.length_le_links (List.nodup_singleton ["out", "s"]) fun l hl => ?_
      rw [List.mem_singleton.mp hl, FileTree.linkTarget?, get?_withFarLink_near]
      rfl
    exact Nat.exists_eq_succ_of_ne_zero (Nat.mul_ne_zero (by decide) (Nat.ne_of_gt hlink))
  have hseen : withFarLink.seenLink? ⟨.relative, ["out", "s"]⟩ =
      some (Text.joined "/" (List.replicate 15 maxName)) := by
    rw [seenLink?, if_pos (by decide)]
    exact FileTree.linkTarget?_eq_some_iff.mpr get?_withFarLink_near
  -- Names taken as they are written, in two places: those of the link, and the one after it.
  have hdown {here rest : List String} {n : Nat} (depth : Nat) (active : List PathName)
      (hahead : here ++ List.replicate n maxName <+: "out" :: List.replicate 16 maxName) :
      Resolution.ofSteps withFarLink.seenLink? depth active ⟨.relative, here⟩
          (List.replicate n maxName ++ rest) =
        Resolution.ofSteps withFarLink.seenLink? depth active
          ⟨.relative, here ++ List.replicate n maxName⟩ rest := by
    refine Resolution.ofSteps_names ?_ ?_ rest
    · intro name hname
      rw [List.eq_of_mem_replicate hname]
      exact isEntryName_maxName.isName
    · intro above _ habove
      exact seenLink?_withFarLink (((List.prefix_append_right_inj here).mpr habove).trans hahead)
  have htarget : Resolution.ofSteps withFarLink.seenLink? less [⟨.relative, ["out", "s"]⟩]
      (PathName.targetBase ⟨.relative, ["out"]⟩ (Text.joined "/" (List.replicate 15 maxName)))
      (linkSteps (Text.joined "/" (List.replicate 15 maxName))) =
        .resolved ⟨.relative, "out" :: List.replicate 15 maxName⟩ := by
    rw [PathName.targetBase, if_neg hnear, hnearSteps, ← List.append_nil (List.replicate 15 maxName),
      hdown less _ (List.prefix_append ("out" :: List.replicate 15 maxName) [maxName]),
      Resolution.ofSteps]
    rfl
  have hthrough : Resolution.ofSteps withFarLink.seenLink? (less + 1) [] ⟨.relative, ["out"]⟩
      ["s", maxName] = Resolution.ofSteps withFarLink.seenLink? (less + 1) []
        ⟨.relative, "out" :: List.replicate 15 maxName⟩ [maxName] := by
    apply Resolution.ofSteps_link (by decide) _ List.not_mem_nil htarget
    exact hseen
  unfold resolution
  rw [hdepth]
  refine (resolution_out_withFarLink (less + 1) ["s", maxName]).trans (hthrough.trans ?_)
  refine (hdown (n := 1) (less + 1) [] List.prefix_rfl).trans ?_
  rw [Resolution.ofSteps]
  rfl

/-- So the link down there is not seen: the real path stays below the directory. -/
theorem realPath_withFarLink :
    withFarLink.realPath ⟨.relative, ["out", "s", maxName, "y", "C.ddx"]⟩ =
      .ok ("out" :: List.replicate 16 maxName ++ ["y", "C.ddx"]) := by
  have hlocate := locate_withFarLink (List.prefix_refl ("out" :: List.replicate 16 maxName))
  have hsize (above : List String) : maxPathBytes ≤
      (Text.joined "/" ("out" :: List.replicate 16 maxName ++ above)).utf8ByteSize := by
    have hbytes := Text.utf8ByteSize_joined
      (List.cons_ne_nil "out" (List.replicate 16 maxName ++ above))
    have hout : "out".utf8ByteSize = 3 := rfl
    rw [List.map_cons, List.map_append, List.map_replicate, utf8ByteSize_maxName, List.sum_cons,
      List.sum_append, List.sum_replicate_nat, hout] at hbytes
    rw [List.cons_append]
    unfold maxPathBytes
    omega
  have hnul : PathName.hasNul ⟨.relative, ["out", "s", maxName] ++ ["y", "C.ddx"]⟩ = false :=
    usable_farPath.noNul
  have hreal : withFarLink.realPath ⟨.relative, ["out", "s", maxName] ++ ["y", "C.ddx"]⟩ =
      .ok (withFarLink.locate ⟨.relative, "out" :: List.replicate 16 maxName⟩ ++ ["y", "C.ddx"]) := by
    refine realPath_of_long resolution_withFarLink (by decide) ?_ hnul ?_
    · intro above _ _
      rw [PathName.text_relative (List.append_ne_nil_of_left_ne_nil (List.cons_ne_nil _ _) above)]
      exact hsize above
    · rw [hlocate]
      unfold Location.pathName PathName.text
      dsimp only
      rw [String.utf8ByteSize_append]
      have hbytes := hsize ["y", "C.ddx"]
      omega
  rw [hlocate] at hreal
  exact hreal

/-- The real path of the directory is its location. -/
theorem realPath_out_withFarLink : withFarLink.realPath ⟨.relative, ["out"]⟩ = .ok ["out"] := by
  have hresolved : withFarLink.resolution withFarLink.seenLink? ⟨.relative, ["out"]⟩ =
      .resolved ⟨.relative, ["out"]⟩ := by
    refine (resolution_out_withFarLink withFarLink.maxDepth []).trans ?_
    rw [Resolution.ofSteps]
  have hbelow := List.prefix_append ["out"] (List.replicate 16 maxName)
  unfold realPath
  rw [hresolved]
  dsimp only [Resolution.path]
  rw [locate_withFarLink hbelow,
    FileTree.crossesLink_of_directory (get?_withFarLink_nested hbelow)]
  rfl

end Host

/-- The name of a class whose path name leads through both links. -/
def farClassName : String := Text.joined "." ["s", maxName, "y", "C"]

/-- The path name of this class is accepted. -/
theorem Router.pathFor_farClassName {r : Router} (hdir : r.directory = some ⟨.relative, ["out"]⟩)
    (hextension : r.extension = ".ddx") :
    r.pathFor Host.withFarLink farClassName =
      .ok ⟨.relative, ["out", "s", maxName, "y"] ++ ["C.ddx"]⟩ := by
  have hpieces : Text.pieces '.' farClassName = ["s", maxName, "y", "C"] := by
    refine Text.pieces_joined rfl (List.cons_ne_nil _ _) ?_
    intro text htext
    simp only [List.mem_cons, List.not_mem_nil, or_false] at htext
    rcases htext with rfl | rfl | rfl | rfl
    · decide
    · exact holds_maxName (by decide)
    · decide
    · decide
  have hsegments : Text.segments '.' farClassName = ["s", maxName, "y", "C"] := by
    have hne : maxName ≠ "" := (ne_maxName (by decide)).symm
    unfold Text.segments
    rw [hpieces]
    simp [hne]
  have hslash : ((Text.segments '.' farClassName).any fun part => Text.holds part '/') = false := by
    have hlong : Text.holds maxName '/' = false := holds_maxName (by decide)
    rw [hsegments]
    simp only [List.any_cons, List.any_nil, hlong]
    decide
  have hpathIn : r.pathIn ⟨.relative, ["out"]⟩ (Text.segments '.' farClassName) =
      ⟨.relative, ["out", "s", maxName, "y"] ++ ["C.ddx"]⟩ := by
    rw [pathIn_eq (hextension ▸ by decide) _ hslash, hsegments, hextension]
    rfl
  have hbelow : ["out"] <+: "out" :: List.replicate 16 maxName ++ ["y", "C.ddx"] := ⟨_, rfl⟩
  rw [← hpathIn]
  refine pathFor_of_realPath hdir (by simp [hsegments]) hslash
    Host.realPath_out_withFarLink ?_ hbelow
  rw [hpathIn]
  exact Host.realPath_withFarLink

/-- A class that is written out of the directory: the path so far is too long for the system to see
the link that leads there. -/
theorem Dump.write_through_overlooked_link :
    Host.withFarLink.realPath ⟨.relative, ["out"]⟩ = .ok ["out"] ∧
      Host.withFarLink.tree.get? ["elsewhere", "C.ddx"] = none ∧
      ((Router.start ".ddx" (some ⟨.relative, ["out"]⟩)).write (.start .withFarLink) farClassName
        ⟨"text", none⟩).outcome = .ok () ∧
      ((Router.start ".ddx" (some ⟨.relative, ["out"]⟩)).write (.start .withFarLink) farClassName
        ⟨"text", none⟩).session.host.tree.get? ["elsewhere", "C.ddx"] =
          some (.file (Text.utf8OfText "text").toArray) := by
  have hvacant := Host.get?_withFarLink_elsewhere.2
  have hdir : (Router.start ".ddx" (some ⟨.relative, ["out"]⟩)).directory =
      some ⟨.relative, ["out"]⟩ := rfl
  refine ⟨Host.realPath_out_withFarLink, hvacant, ?_⟩
  exact Router.write_follows (Session.host_start _) hdir (Router.pathFor_farClassName hdir rfl)
    Host.place_withFarLink (by decide) Host.usable_farPath hvacant "text"

/-! ## An extension that goes up -/

/-- A host with two directories, one within the other. -/
def Host.withSubdirectory : Host :=
  { withLinkedPackage with
    tree := (FileTree.empty.put ["out"] .directory).put ["out", "C."] .directory }

namespace Host

/-- There are no links on the host. -/
theorem linkFree_withSubdirectory : withSubdirectory.tree.LinkFree := by
  apply FileTree.LinkFree.put (FileTree.linkFree_empty.put _)
  · exact fun _ => nofun
  · exact fun _ => nofun

/-- Behind a directory that is not there nothing is found. -/
theorem walk_beside {more : List String} (hmore : more ≠ []) (links : Nat) :
    withSubdirectory.tree.walk .entry links [] (["out", "C.", "..", "..", "beside"] ++ more) =
      .error .noEntry := by
  have htakes (name : String) (rest : List String) (hname : IsEntryName name) :
      Purpose.entry.Takes name rest :=
    hname.takes (by decide) rest
  have hout : withSubdirectory.tree.get? ["out"] = some .directory := rfl
  have hsub : withSubdirectory.tree.get? ["out", "C."] = some .directory := rfl
  have hbeside : withSubdirectory.tree.get? ["beside"] = none := rfl
  simp only [List.cons_append, List.nil_append]
  rw [FileTree.walk_of_takes rfl (htakes "out" _ (by decide)), List.nil_append, hout]
  dsimp only
  rw [FileTree.walk_of_takes hout (htakes "C." _ (by decide)), List.singleton_append, hsub]
  dsimp only
  rw [FileTree.walk_of_up hsub, List.dropLast_cons_of_ne_nil (List.cons_ne_nil _ _),
    List.dropLast_singleton, FileTree.walk_of_up hout, List.dropLast_singleton,
    FileTree.walk_of_takes rfl (htakes "beside" _ (by decide)), List.nil_append, hbeside]
  exact if_neg hmore

/-- Once there is a directory beside it, a way that leads there and back goes on from where it
began. -/
theorem walks_beside {purpose : Purpose} {links : Nat} {rest : List String} {place : Place}
    (h : (withSubdirectory.put ["beside"] .directory).tree.Walks purpose links [] rest place) :
    (withSubdirectory.put ["beside"] .directory).tree.Walks purpose links []
      (["out", "C.", "..", "..", "beside", ".."] ++ rest) place := by
  have htakes (name next : String) (more : List String) (hname : IsEntryName name)
      (hnext : next ≠ "") : purpose.Takes name (next :: more) :=
    ⟨hname.isName, by simp [hnext], hname.short⟩
  refine .into rfl (htakes "out" _ _ (by decide) (by decide)) rfl (fun _ => nofun) ?_
  refine .into rfl (htakes "C." _ _ (by decide) (by decide)) rfl (fun _ => nofun) ?_
  refine .up rfl (.up rfl ?_)
  refine .into rfl (htakes "beside" _ _ (by decide) (by decide)) rfl (fun _ => nofun) ?_
  exact .up rfl h

/-- The directory beside it is made on the way. -/
theorem ensureDirectories_beside :
    withSubdirectory.ensureDirectories
        ⟨.relative, ["out", "C.", "..", "..", "beside", "..", "out"]⟩ =
      (withSubdirectory.put ["beside"] .directory, .ok ()) := by
  have habsent {more : List String} (hmore : more ≠ [])
      (husable : PathName.Usable ⟨.relative, ["out", "C.", "..", "..", "beside"] ++ more⟩) :
      withSubdirectory.ensureDirectory ⟨.relative, ["out", "C.", "..", "..", "beside"] ++ more⟩ =
        (withSubdirectory, .error (.refused .noEntry
          ⟨.relative, ["out", "C.", "..", "..", "beside"] ++ more⟩)) := by
    have hplace : withSubdirectory.place .entry
        ⟨.relative, ["out", "C.", "..", "..", "beside"] ++ more⟩ = .error (.refused .noEntry
          ⟨.relative, ["out", "C.", "..", "..", "beside"] ++ more⟩) := by
      have hwalk := walk_beside hmore maxLinks
      unfold place
      rw [husable.noNul, if_neg Bool.false_ne_true, if_neg (Nat.not_le.mpr husable.short),
        show withSubdirectory.start _ = [] from rfl, hwalk]
    unfold ensureDirectory makeDirectory makeNode
    rw [hplace]
  have hvacant : withSubdirectory.place .entry ⟨.relative, ["out", "C.", "..", "..", "beside"]⟩ =
      .ok (.vacant ["beside"]) :=
    place_of_short (by decide) (by decide)
      (.into rfl ⟨by decide, by decide, by decide⟩ rfl (fun _ => nofun)
        (.into rfl ⟨by decide, by decide, by decide⟩ rfl (fun _ => nofun)
          (.up rfl (.up rfl (.vacant rfl ⟨by decide, by decide, by decide⟩ rfl)))))
  have hmade : withSubdirectory.ensureDirectory ⟨.relative, ["out", "C.", "..", "..", "beside"]⟩ =
      (withSubdirectory.put ["beside"] .directory, .ok ()) := by
    unfold ensureDirectory makeDirectory makeNode
    rw [hvacant]
  have hup : (withSubdirectory.put ["beside"] .directory).ensureDirectory
      ⟨.relative, ["out", "C.", "..", "..", "beside", ".."]⟩ =
        (withSubdirectory.put ["beside"] .directory, .ok ()) :=
    ensureDirectory_of_isDirectory (isDirectory_eq_true_iff.mpr
      ⟨[], place_of_short (by decide) (by decide) (walks_beside (.arrived rfl))⟩)
  have hback : (withSubdirectory.put ["beside"] .directory).ensureDirectory
      ⟨.relative, ["out", "C.", "..", "..", "beside", "..", "out"]⟩ =
        (withSubdirectory.put ["beside"] .directory, .ok ()) :=
    ensureDirectory_of_isDirectory (isDirectory_eq_true_iff.mpr
      ⟨["out"], place_of_short (by decide) (by decide) (walks_beside
        (.into rfl ⟨by decide, by decide, by decide⟩ rfl (fun _ => nofun) (.arrived rfl)))⟩)
  have hfirst := habsent (List.cons_ne_nil ".." ["out"]) ⟨by decide, by decide⟩
  have hsecond := habsent (List.cons_ne_nil ".." []) ⟨by decide, by decide⟩
  simp only [List.cons_append, List.nil_append] at hfirst hsecond
  unfold ensureDirectories
  simp only [List.length_cons, List.length_nil, Nat.zero_add, Nat.reduceAdd, ensureParts,
    List.take_succ_cons, List.take_zero, hfirst, hsecond, hmade, hup, hback]

end Host

/-- A class that makes a directory outside of the output directory: its extension leads out and back,
so that the real path of its file lies below the output directory all the same. -/
theorem Dump.write_beside_directory :
    Host.withSubdirectory.tree.LinkFree ∧
      Host.withSubdirectory.realPath ⟨.relative, ["out"]⟩ = .ok ["out"] ∧
      Host.withSubdirectory.tree.get? ["beside"] = none ∧
      ((Router.start "./../../beside/../out/x" (some ⟨.relative, ["out"]⟩)).write
        (.start .withSubdirectory) "C" ⟨"text", none⟩).outcome = .ok () ∧
      ((Router.start "./../../beside/../out/x" (some ⟨.relative, ["out"]⟩)).write
        (.start .withSubdirectory) "C" ⟨"text", none⟩).session.host.tree.get? ["beside"] =
          some .directory := by
  have hroot : Host.withSubdirectory.realPath ⟨.relative, ["out"]⟩ = .ok ["out"] := by
    rw [Host.realPath_eq_of_linkFree Host.linkFree_withSubdirectory]
    decide
  have hpathIn : (Router.start "./../../beside/../out/x" (some ⟨.relative, ["out"]⟩)).pathIn
      ⟨.relative, ["out"]⟩ (Text.segments '.' "C") =
        ⟨.relative, ["out", "C.", "..", "..", "beside", "..", "out", "x"]⟩ := by decide
  have hreal : Host.withSubdirectory.realPath
      ⟨.relative, ["out", "C.", "..", "..", "beside", "..", "out", "x"]⟩ = .ok ["out", "x"] := by
    rw [Host.realPath_eq_of_linkFree Host.linkFree_withSubdirectory]
    decide
  have hpath : (Router.start "./../../beside/../out/x" (some ⟨.relative, ["out"]⟩)).pathFor
      Host.withSubdirectory "C" =
        .ok ⟨.relative, ["out", "C.", "..", "..", "beside", "..", "out", "x"]⟩ := by
    rw [← hpathIn] at hreal ⊢
    exact Router.pathFor_of_realPath rfl (by decide) (by decide) hroot hreal ⟨_, rfl⟩
  have hvacant : (Host.withSubdirectory.put ["beside"] .directory).place .writing
      ⟨.relative, ["out", "C.", "..", "..", "beside", "..", "out", "x"]⟩ =
        .ok (.vacant ["out", "x"]) :=
    Host.place_of_short (by decide) (by decide) (Host.walks_beside
      (.into rfl ⟨by decide, by decide, by decide⟩ rfl (fun _ => nofun)
        (.vacant rfl ⟨by decide, by decide, by decide⟩ rfl)))
  have hstore : (Host.withSubdirectory.put ["beside"] .directory).storeContent
      ⟨.relative, ["out", "C.", "..", "..", "beside", "..", "out", "x"]⟩
      (Text.utf8OfText "text").toArray = .ok ((Host.withSubdirectory.put ["beside"] .directory).put
        ["out", "x"] (.file (Text.utf8OfText "text").toArray)) := by
    unfold Host.storeContent
    rw [hvacant]
  refine ⟨Host.linkFree_withSubdirectory, hroot, rfl, ?_⟩
  unfold Router.write
  dsimp only [Router.start] at hpath ⊢
  rw [Session.host_start, hpath]
  dsimp only
  unfold Router.toFile PathName.parent
  dsimp only [List.dropLast]
  rw [Session.host_start, Host.ensureDirectories_beside]
  dsimp only
  rw [hstore]
  exact ⟨rfl, rfl⟩

end DexListing
