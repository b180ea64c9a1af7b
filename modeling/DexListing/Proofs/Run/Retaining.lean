import DexListing.Proofs.Bytes.Extension
import DexListing.Proofs.Run.Containment
import DexListing.Proofs.Run.Temporaries
import DexListing.Run.CommandLine

/-!
# What a dump keeps

A dump makes no temporary files and keeps the kind of every node (`Dump.Retains`), so the path names
of the temporary files of its session still lead to them. To the console it changes nothing, and
into a directory nothing but what lies below that, as long as no link is overlooked on the way there
(`Dump.dumpInputs_get?`). The directory is there when a dump begins, since a scan only succeeds if
it is (`Scan.isDirectory_of_parse`).
-/

set_option autoImplicit false

namespace DexListing

/-! ## Dumps keep temporary files -/

namespace Router

/-- Writing a class leaves the record of temporary files. -/
theorem write_temporaries (r : Router) (s : Session) (className : String) (block : Block) :
    (r.write s className block).session.temporaries = s.temporaries := by
  unfold write
  split
  · unfold toConsole
    split <;> rfl
  · split
    · rfl
    · unfold toFile
      split
      · rfl
      · split
        · rfl
        · split <;> rfl

/-- Without a directory only the console is written to. -/
theorem write_host {r : Router} (hdir : r.directory = none) (s : Session) (className : String)
    (block : Block) : (r.write s className block).session.host = s.host := by
  unfold write
  rw [hdir]
  dsimp only
  unfold toConsole
  split <;> rfl

end Router

namespace Dump

/-- A dump that still has the temporary files of a session, on a host that keeps what there was. -/
structure Retains (s : Session) (d : Dump) : Prop where
  temporaries : d.session.temporaries = s.temporaries
  keeps : s.host.Keeps d.session.host

/-- Nothing that a dump does takes anything from the host or from the record. -/
theorem retains_invariant (s : Session) : Invariant (Retains s) where
  report _ _ hd := ⟨hd.temporaries, hd.keeps⟩
  beginInput _ _ hd := ⟨hd.temporaries, hd.keeps⟩
  write d className block hd :=
    ⟨(d.router.write_temporaries d.session className block).trans hd.temporaries,
      hd.keeps.trans (d.router.write_keeps d.session className block)⟩

/-- A dump to the console, which leaves a host as it is. -/
structure OnConsole (h : Host) (d : Dump) : Prop where
  directory : d.router.directory = none
  host : d.session.host = h

/-- Nothing that a dump onto the console does changes the host. -/
theorem onConsole_invariant (h : Host) : Invariant (OnConsole h) where
  report _ _ hd := ⟨hd.directory, hd.host⟩
  beginInput _ _ hd := ⟨hd.directory, hd.host⟩
  write d className block hd :=
    ⟨(d.router.write_router d.session className block).1.trans hd.directory,
      (Router.write_host hd.directory d.session className block).trans hd.host⟩

/-- The inputs of a dump change nothing but below the output directory, if there is one and no link
is overlooked on the way of its path names. -/
theorem dumpInputs_get? {config : Config} (writer : Writer) (opener : Opener) {s : Session}
    (hthere : ∀ D, config.outputDirectory = some D → s.host.isDirectory D = .ok true)
    (entries : List InputEntry) {l : Location}
    (hl : ∀ D root, config.outputDirectory = some D →
      s.host.place .target D = .ok (.existing root .directory) →
        s.host.SeesLinks D ∧ ¬root <+: l) :
    (dumpInputs config writer opener (start config writer s) entries).2.2.session.host.tree.get? l =
      s.host.tree.get? l := by
  cases hdir : config.outputDirectory with
  | none =>
    have hstart : OnConsole s.host (start config writer s) := ⟨hdir, rfl⟩
    have hdumped := (onConsole_invariant s.host).dumpInputs config writer hstart opener entries
    rw [hdumped.host]
  | some D =>
    obtain ⟨root, hplace⟩ := Host.isDirectory_eq_true_iff.mp (hthere D hdir)
    obtain ⟨hsees, houtside⟩ := hl D root hdir hplace
    have hstart : Contained s.host D root (start config writer s) :=
      ⟨hdir, writer.not_up, .refl root s.host⟩
    have hdumped := (contained_invariant hplace hsees).dumpInputs config writer hstart opener entries
    exact hdumped.grows.outside l houtside

end Dump

/-! ## The output directory of a scan -/

namespace Config

/-- The output directory of a configuration is the one that has been looked at. -/
theorem directory_of_assemble {settings : Settings}
    {directory : Except ConfigurationFault (Option PathName)} {config : Config}
    (h : assemble settings directory = .ok config) : directory = .ok config.outputDirectory := by
  unfold assemble at h
  obtain ⟨pattern, -, h⟩ := exists_of_bind_eq_ok h
  obtain ⟨selection, -, h⟩ := exists_of_bind_eq_ok h
  obtain ⟨outputDirectory, hdirectory, h⟩ := exists_of_bind_eq_ok h
  obtain ⟨writerId, -, h⟩ := exists_of_bind_eq_ok h
  obtain ⟨level, -, h⟩ := exists_of_bind_eq_ok h
  obtain rfl := Except.ok.inj h
  exact hdirectory

/-- A configuration is built with the output directory that has been looked at. -/
theorem checkDirectory_of_build {host : Host} {settings : Settings} {config : Config}
    (h : build host settings = .ok config) :
    checkDirectory host settings.outputDirectory = .ok (.ok config.outputDirectory) := by
  unfold build at h
  split at h
  · exact nomatch h
  · next directory hcheck =>
    cases hresult : assemble settings directory with
    | error fault =>
      rw [hresult] at h
      exact nomatch h
    | ok built =>
      rw [hresult] at h
      obtain rfl := Except.ok.inj h
      rw [hcheck, directory_of_assemble hresult]

/-- A directory that passes is there. -/
theorem isDirectory_of_checkDirectory {host : Host} {value : String} {directory : Option PathName}
    (h : checkDirectory host (some (.text value)) = .ok (.ok directory)) :
    directory = some (PathName.ofText value) ∧
      host.isDirectory (PathName.ofText value) = .ok true := by
  unfold checkDirectory at h
  dsimp only at h
  cases hthere : host.isDirectory (PathName.ofText value) with
  | error e =>
    rw [hthere] at h
    exact nomatch h
  | ok there =>
    cases there with
    | false =>
      rw [hthere] at h
      exact nomatch h
    | true =>
      rw [hthere] at h
      exact ⟨(Except.ok.inj (Except.ok.inj h)).symm, rfl⟩

/-- A configuration is only built with an output directory that is there. -/
theorem isDirectory_of_build {host : Host} {settings : Settings} {config : Config} {D : PathName}
    (h : build host settings = .ok config) (hD : config.outputDirectory = some D) :
    host.isDirectory D = .ok true := by
  have hcheck := checkDirectory_of_build h
  rw [hD] at hcheck
  rcases hsetting : settings.outputDirectory with _ | _ | value | _ | _
  · rw [hsetting] at hcheck
    exact nomatch hcheck
  · rw [hsetting] at hcheck
    exact nomatch hcheck
  · rw [hsetting] at hcheck
    obtain ⟨heq, hthere⟩ := isDirectory_of_checkDirectory hcheck
    rw [Option.some.inj heq]
    exact hthere
  · rw [hsetting] at hcheck
    exact nomatch hcheck
  · rw [hsetting] at hcheck
    exact nomatch hcheck

/-- A configuration that is built on one host is built on every host with its directories. -/
theorem build_of_isDirectory {host host' : Host} {settings : Settings} {config : Config}
    (hdirs : ∀ p, host.isDirectory p = .ok true → host'.isDirectory p = .ok true)
    (h : build host settings = .ok config) : build host' settings = .ok config := by
  have hcheck := checkDirectory_of_build h
  have hsame : checkDirectory host' settings.outputDirectory =
      checkDirectory host settings.outputDirectory := by
    rcases hsetting : settings.outputDirectory with _ | _ | value | _ | _
    · rfl
    · rfl
    · rw [hsetting] at hcheck
      obtain ⟨-, hthere⟩ := isDirectory_of_checkDirectory hcheck
      unfold checkDirectory
      dsimp only
      rw [hthere, hdirs _ hthere]
    · rfl
    · rfl
  unfold build at h ⊢
  rw [hsame]
  exact h

end Config

/-- A scan only succeeds with an output directory that is there. -/
theorem Scan.isDirectory_of_parse {registry : Registry} {s : Session} {tokens : List String}
    {config : Config} {entries : List InputEntry} {D : PathName}
    (h : (parse registry s tokens).1 = .ok (config, entries))
    (hD : config.outputDirectory = some D) :
    (parse registry s tokens).2.host.isDirectory D = .ok true := by
  unfold parse at h ⊢
  split at h
  · exact nomatch h
  · next scan session hfed =>
    dsimp only at h ⊢
    unfold finish at h
    split at h
    · exact nomatch h
    · split at h
      · exact nomatch h
      · next built hbuild =>
        split at h
        · exact nomatch h
        · obtain ⟨rfl, -⟩ := Prod.mk.inj (Except.ok.inj h)
          exact Config.isDirectory_of_build hbuild hD

/-- New files do not move the directory of a path name, and hide no link on the way. -/
theorem Host.place_of_gainsFiles {h h' : Host} {D : PathName} {root : Location}
    (hworking : h'.workingDirectory = h.workingDirectory) (hgains : h.tree.GainsFiles h'.tree)
    (hplace : h'.place .target D = .ok (.existing root .directory)) :
    h.place .target D = .ok (.existing root .directory) ∧ (h.SeesLinks D → h'.SeesLinks D) := by
  have hgrows := growsBelow_of_gainsFiles hworking hgains
  have hthere := isDirectory_eq_true_iff.mpr ⟨root, hplace⟩
  rw [isDirectory_of_gainsFiles hworking hgains] at hthere
  obtain ⟨l, hbefore⟩ := isDirectory_eq_true_iff.mp hthere
  have hafter := hgrows.place_directory hbefore
  obtain ⟨rfl, -⟩ := Place.existing.inj (Except.ok.inj (hplace.symm.trans hafter))
  exact ⟨hbefore, hgrows.seesLinks⟩

/-! ## Scans that fail -/

/-- Only the lack of inputs is of its kind. -/
theorem Failure.isA_noInputs_iff (f : Failure) : f.isA .noInputs = true ↔ f = .noInputs := by
  constructor
  · intro h
    cases f with
    | noInputs => rfl
    | configuration fault =>
      cases fault <;> simp [isA, kind?, ErrorKind.lineage, ErrorKind.parent?] at h
    | container e => cases e <;> simp [isA, kind?, ErrorKind.lineage, ErrorKind.parent?] at h
    | _ => simp [isA, kind?, ErrorKind.lineage, ErrorKind.parent?] at h
  · rintro rfl
    simp [isA, kind?, ErrorKind.lineage, ErrorKind.parent?]

/-- A run that fails while its arguments are scanned. -/
theorem CommandLine.run_of_parse_error {registry : Registry} {host : Host} {tokens : List String}
    {f : Failure} (h : (Scan.parse registry (Session.start host) tokens).1 = .error f) :
    (run registry host tokens).status = 1 ∧
      (run registry host tokens).output = (if f = .noInputs then usage else "") ∧
      (run registry host tokens).host =
        (Scan.parse registry (Session.start host) tokens).2.cleanUp.host := by
  unfold run
  rcases hparse : Scan.parse registry (Session.start host) tokens with ⟨outcome, session⟩
  rw [hparse] at h
  dsimp only at h
  subst h
  refine ⟨rfl, ?_, rfl⟩
  change "" ++ failureOutput f = _
  rw [String.empty_append]
  unfold failureOutput
  by_cases hf : f = .noInputs
  · rw [if_pos hf, if_pos ((Failure.isA_noInputs_iff f).mpr hf)]
  · rw [if_neg hf, if_neg (mt (Failure.isA_noInputs_iff f).mp hf)]

end DexListing
