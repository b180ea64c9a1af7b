import DexListing.Proofs.Run.Rerun
import DexListing.Proofs.Run.Retaining

/-!
# What a run leaves behind

Temporary files are made while the arguments are scanned, before it is known whether the run can go
on, and they are removed in two places: after a scan that fails, and at the end of a dump. Either
way they are gone when the run is over (`CommandLine.run_leaves`). What carries this over the dump
is that the path names of the temporary files still lead to them (`Dump.Retains`); what else is
changed lies below the output directory (`Dump.dumpInputs_get?`).

The output directory may be the directory for temporary files. Then what is left there are the files
of classes (`CommandLine.run_into_temporaryDirectory`).
-/

set_option autoImplicit false

namespace DexListing

namespace CommandLine

/-- A location is below the output directory that the arguments of a run ask for, or may be that of
a class for which a link is overlooked on the way. -/
def IsOutput (registry : Registry) (host : Host) (tokens : List String) (l : Location) : Prop :=
  ∃ config entries D root,
    (Scan.parse registry (Session.start host) tokens).1 = .ok (config, entries) ∧
      config.outputDirectory = some D ∧ host.place .target D = .ok (.existing root .directory) ∧
      (root <+: l ∨ ¬host.SeesLinks D)

/-- A dump ends by cleaning up a session which has the temporary files of the one before, on a host
that is changed below the output directory only. -/
theorem dump_host (registry : Registry) {config : Config} (entries : List InputEntry)
    (session : Session) (shown : List ErrorLine)
    (hthere : ∀ D, config.outputDirectory = some D → session.host.isDirectory D = .ok true) :
    ∃ last : Session, (dump registry config entries session shown).host = last.cleanUp.host ∧
      last.temporaries = session.temporaries ∧ session.host.Keeps last.host ∧
      ∀ l, (∀ D root, config.outputDirectory = some D →
        session.host.place .target D = .ok (.existing root .directory) →
          session.host.SeesLinks D ∧ ¬root <+: l) →
        last.host.tree.get? l = session.host.tree.get? l := by
  unfold dump
  dsimp only
  cases registry.writer? (writerName registry config) with
  | none => exact ⟨session, rfl, rfl, .refl _, fun _ _ => rfl⟩
  | some writer =>
    let begun := session.report (.usingWriter writer.title)
    have hstart : Dump.Retains session (Dump.start config writer begun) := ⟨rfl, .refl _⟩
    have hdumped := (Dump.retains_invariant session).dumpInputs config writer hstart
      Host.openContainer entries
    refine ⟨_, ?_, hdumped.temporaries, hdumped.keeps, ?_⟩
    · rw [← Dump.run_host]
      dsimp only
      cases (Dump.run config writer Host.openContainer begun entries).1 with
      | error f => rfl
      | ok _ => rfl
    · intro l hl
      exact Dump.dumpInputs_get? writer Host.openContainer (s := begun) hthere entries hl

/-- A run removes the temporary files that it made, however it ends, and changes nothing but below
its output directory; so in the directory for temporary files there is afterwards what there was
before, and the classes written there if that is where they were asked for. A run whose arguments
are refused changes nothing at all, and puts out the usage if there were no inputs, else nothing. -/
theorem run_leaves (registry : Registry) (host : Host) (tokens : List String) :
    (∃ locations,
      List.Forall₂ (Scan.parse registry (Session.start host) tokens).2.host.IsFileAt
        (Scan.parse registry (Session.start host) tokens).2.temporaries locations ∧
      ∀ l ∈ locations, host.tree.get? l = none ∧
        (run registry host tokens).host.tree.get? l = none) ∧
    (∀ l, ¬IsOutput registry host tokens l →
      (run registry host tokens).host.tree.get? l = host.tree.get? l) ∧
    ∀ f, (Scan.parse registry (Session.start host) tokens).1 = .error f →
      (run registry host tokens).status = 1 ∧
      (run registry host tokens).output = (if f = .noInputs then usage else "") ∧
      ∀ l, (run registry host tokens).host.tree.get? l = host.tree.get? l := by
  obtain ⟨locations, htracks⟩ := Session.tracks_parse registry host tokens
  -- In each case the run ends by cleaning up some session that still owns the temporary files.
  obtain ⟨last, hlast, howns, hsame⟩ : ∃ last : Session,
      (run registry host tokens).host = last.cleanUp.host ∧ last.Owns locations ∧
      ∀ l, ¬IsOutput registry host tokens l → last.host.tree.get? l =
        (Scan.parse registry (Session.start host) tokens).2.host.tree.get? l := by
    cases hparse : (Scan.parse registry (Session.start host) tokens).1 with
    | error f =>
      obtain ⟨-, -, hhost⟩ := run_of_parse_error hparse
      exact ⟨_, hhost, htracks.owns, fun _ _ => rfl⟩
    | ok result =>
      obtain ⟨config, entries⟩ := result
      have hthere := fun D => Scan.isDirectory_of_parse (D := D) hparse
      obtain ⟨last, hhost, htemporaries, hkeeps, houtside⟩ :=
        dump_host registry entries
          (Scan.parse registry (Session.start host) tokens).2.forgetEvents
          (logged .warning (Scan.parse registry (Session.start host) tokens).2.events) hthere
      refine ⟨last, ?_, htracks.owns.of_keeps htemporaries hkeeps, ?_⟩
      · rw [← hhost]
        unfold run
        rcases hboth : Scan.parse registry (Session.start host) tokens with ⟨outcome, session⟩
        rw [hboth] at hparse
        dsimp only at hparse
        subst hparse
        rfl
      · intro l hl
        apply houtside l
        intro D root hD hplace
        obtain ⟨hbefore, hsees⟩ :=
          Host.place_of_gainsFiles htracks.workingDirectory htracks.gainsFiles hplace
        have hnot : ∀ hout : root <+: l ∨ ¬host.SeesLinks D, False :=
          fun hout => hl ⟨config, entries, D, root, hparse, hD, hbefore, hout⟩
        exact ⟨hsees (not_not.mp fun hoverlooks => hnot (Or.inr hoverlooks)),
          fun hprefix => hnot (Or.inl hprefix)⟩
  have hget : ∀ l, (run registry host tokens).host.tree.get? l =
      if l ∈ locations then none else last.host.tree.get? l := by
    intro l
    rw [hlast, howns.get?_cleanUp]
  have hunchanged : ∀ l, ¬IsOutput registry host tokens l →
      (run registry host tokens).host.tree.get? l = host.tree.get? l := by
    intro l hl
    rw [hget]
    by_cases hmem : l ∈ locations
    · rw [if_pos hmem, htracks.fresh l hmem]
    · rw [if_neg hmem, hsame l hl, htracks.otherwise l hmem]
  refine ⟨⟨locations, htracks.owns.standing, ?_⟩, hunchanged, ?_⟩
  · intro l hl
    exact ⟨htracks.fresh l hl, by rw [hget, if_pos hl]⟩
  · intro f hparse
    obtain ⟨hstatus, houtput, -⟩ := run_of_parse_error hparse
    refine ⟨hstatus, houtput, ?_⟩
    intro l
    apply hunchanged l
    rintro ⟨config, entries, D, root, hok, -⟩
    rw [hparse] at hok
    exact nomatch hok

/-- With the directory for temporary files as the output directory there is more in it after a run
than before. -/
theorem run_into_temporaryDirectory :
    (Host.withPackageIn ["out"]).temporaryDirectory = ["out"] ∧
      (∀ name, (Host.withPackageIn ["out"]).tree.get? (["out"] ++ [name]) = none) ∧
      (run .standard (.withPackageIn ["out"]) ["-o", "out", "a.dex"]).status = 0 ∧
      ∃ content, (run .standard (.withPackageIn ["out"]) ["-o", "out", "a.dex"]).host.tree.get?
        ["out", "p", "C.ddx"] = some (.file content) := by
  obtain ⟨hends, -, -, -, hfile⟩ :=
    run_withPackage (Scan.feedAll_withPackage (s := .start (.withPackageIn ["out"])) rfl) rfl
  exact ⟨rfl, Host.get?_withPackage, hends, hfile⟩

end CommandLine

end DexListing
