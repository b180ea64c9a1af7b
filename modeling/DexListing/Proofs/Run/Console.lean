import DexListing.Proofs.Dalvik.ReadingFaults
import DexListing.Run.Dump

/-!
# Dumps to the console

Without an output directory the state that inputs share is the router: the name of the input under
way and whether its banner is written. An input begins by overwriting both, or it fails before it
writes anything. So what an input contributes is a function of the host and of its entry alone
(`contribution`), and a dump is the contributions of its entries one after the other
(`dumpInputs_console`). From this follows that the inputs of a dump do not influence each other
(`dumpFresh_append`).
-/

set_option autoImplicit false

namespace DexListing

/-- The name of the class matches the pattern of the configuration. -/
def Config.selects (config : Config) (c : ClassInfo) : Bool :=
  Glob.accepts config.classPattern c.name

namespace Router

/-- The banner that comes before the next text: that of the input, until it is written. -/
def pendingBanner (r : Router) : String :=
  match r.displayName, r.bannerWritten with
  | some name, false => banner name
  | _, _ => ""

/-- On the console a text comes after the banner that is pending, and none is pending then. -/
theorem toConsole_eq {r : Router} {name : String} (hname : r.displayName = some name)
    (session : Session) (block : Block) :
    r.toConsole session block =
      ⟨Block.outcome block, r.pendingBanner ++ block.text, { r with bannerWritten := true },
        session⟩ := by
  obtain ⟨extension, directory, displayName, bannerWritten, filesWritten⟩ := r
  dsimp only at hname
  subst hname
  cases bannerWritten with
  | true => simp [toConsole, pendingBanner]
  | false => simp [toConsole, pendingBanner]

end Router

/-! ## Failures that only concern an input -/

/-- An input that cannot be opened is given up, unless its path name holds a zero character. -/
theorem Host.openContainer_isA_input {h : Host} {path : PathName} {f : Failure}
    (hnul : path.hasNul = false) (hopen : h.openContainer path = .error f) :
    f.isA .input = true := by
  have hplace : ∀ purpose, h.place purpose path ≠ .error .embeddedNul := by
    intro purpose hp
    unfold place at hp
    rw [hnul] at hp
    simp only [Bool.false_eq_true, if_false] at hp
    split at hp
    · simp at hp
    · split at hp <;> simp at hp
  have hcontent : h.contentOf path ≠ .error .embeddedNul := by
    intro hc
    unfold contentOf at hc
    split at hc
    · next e he =>
      simp only [Except.error.injEq] at hc
      subst hc
      exact hplace .target he
    all_goals simp at hc
  unfold openContainer at hopen
  split at hopen
  · exact nomatch hopen
  · next he => exact absurd he hcontent
  · simp only [Except.error.injEq] at hopen
    subst hopen
    simp [Failure.isA, Failure.kind?, ErrorKind.lineage, ErrorKind.parent?]
  · simp only [Except.error.injEq] at hopen
    subst hopen
    simp [Failure.isA, Failure.kind?, ErrorKind.lineage, ErrorKind.parent?]

/-- A container whose format is at fault is given up. -/
theorem ContainerError.IsFormat.isA_input {e : ContainerError} (h : e.IsFormat) :
    (Failure.container e).isA .input = true := by
  unfold IsFormat at h
  simp [Failure.isA, h, ErrorKind.lineage, ErrorKind.parent?]

/-- Reading the classes of an accepted container stops only for its format. -/
theorem Container.classes_stopped_isFormat {data : Bytes} {c : Container}
    (h : Container.ofBytes data = .ok c) {e : ContainerError}
    (hstopped : c.classes.stopped = some e) : e.IsFormat := by
  obtain ⟨hlt, herror⟩ := (c.readClasses_readsUpTo c.header.classes.count 0).broken e hstopped
  rw [Nat.zero_add] at herror
  obtain ⟨d, hd⟩ := classDef_eq_ok h hlt
  exact readClass_error hd herror

namespace Dump

variable {config : Config} {writer : Writer}

/-! ## The contribution of one input -/

/-- The texts of classes one after the other. -/
def rendered (config : Config) (writer : Writer) (classes : List ClassInfo) : String :=
  String.join (classes.map (writer.render config.selection))

/-- What the classes of an input put on the console: nothing if none matches, else the banner and
the texts of those that match. -/
def consoleText (config : Config) (writer : Writer) (heading : String)
    (classes : List ClassInfo) : String :=
  if classes.any config.selects then
    heading ++ rendered config writer (classes.filter config.selects)
  else ""

/-- What an input comes to on the console of a host: its result and its text. -/
def contribution (config : Config) (writer : Writer) (host : Host) (entry : InputEntry) :
    InputResult × String :=
  match host.openContainer entry.path with
  | .error f => (⟨entry.displayName, 0, 0, some f⟩, "")
  | .ok data =>
    match Container.ofBytes data with
    | .error e => (⟨entry.displayName, 0, 0, some (.container e)⟩, "")
    | .ok c =>
      (⟨entry.displayName, c.classes.classes.length, c.classes.classes.countP config.selects,
          c.classes.stopped.map Failure.container⟩,
        consoleText config writer (banner entry.displayName) c.classes.classes)

/-- The result of an input is shown under the name of its entry. -/
theorem contribution_displayName (host : Host) (entry : InputEntry) :
    (contribution config writer host entry).1.displayName = entry.displayName := by
  unfold contribution
  split
  · rfl
  · split <;> rfl

/-! ## Classes -/

/-- A class that does not match leaves the dump as it is. -/
theorem dumpClass_of_not_selects (d : Dump) {c : ClassInfo} (h : config.selects c = false) :
    dumpClass config writer d c = (.ok false, d) := by
  unfold Config.selects at h
  simp [dumpClass, h]

/-- A class that matches is put on the console, after the banner if that is pending. -/
theorem dumpClass_console {d : Dump} {c : ClassInfo} {name : String}
    (hdir : d.router.directory = none) (hname : d.router.displayName = some name)
    (h : config.selects c = true) :
    dumpClass config writer d c =
      (.ok true,
        { d with
          router := { d.router with bannerWritten := true }
          console := d.console ++ (d.router.pendingBanner ++ writer.render config.selection c) }) := by
  unfold Config.selects at h
  simp [dumpClass, h, Router.write, hdir, Router.toConsole_eq hname, Router.Block.outcome]

/-- The loop over the classes of an input puts the banner that is pending and the texts of those
that match on the console, and counts them. -/
theorem dumpClasses_console {d : Dump} {name : String} (hdir : d.router.directory = none)
    (hname : d.router.displayName = some name) (classes : List ClassInfo) :
    dumpClasses config writer d classes =
      (.ok (classes.countP config.selects),
        { d with
          router := { d.router with
            bannerWritten := d.router.bannerWritten || classes.any config.selects }
          console := d.console ++
            consoleText config writer d.router.pendingBanner classes }) := by
  induction classes generalizing d with
  | nil => simp [dumpClasses, consoleText]
  | cons c rest ih =>
    cases hc : config.selects c with
    | false =>
      simp only [dumpClasses, dumpClass_of_not_selects d hc, ih hdir hname]
      simp [consoleText, hc]
    | true =>
      let d₁ : Dump :=
        { d with
          router := { d.router with bannerWritten := true }
          console := d.console ++ (d.router.pendingBanner ++ writer.render config.selection c) }
      have hrest := @ih d₁ hdir hname
      simp only [dumpClasses, dumpClass_console hdir hname hc, d₁] at hrest ⊢
      rw [hrest]
      have hpending : ({ d.router with bannerWritten := true } : Router).pendingBanner = "" := by
        simp [Router.pendingBanner]
      -- Only the first text that is written has the banner before it.
      have htext : writer.render config.selection c ++ consoleText config writer "" rest =
          rendered config writer (c :: rest.filter config.selects) := by
        cases hrest : rest.any config.selects with
        | true => simp [consoleText, hrest, rendered]
        | false =>
          have hnone : rest.filter config.selects = [] := by
            rw [List.filter_eq_nil_iff]
            intro x hx hsel
            rw [List.any_eq_false] at hrest
            exact hrest x hx hsel
          simp [consoleText, hrest, rendered, hnone]
      simp only [hpending, String.append_assoc, htext]
      simp [consoleText, hc]

/-! ## Inputs -/

/-- A failure of an input becomes its result. -/
theorem giveUp_of_isA_input (d : Dump) (displayName : String) (seen written : Nat) {f : Failure}
    (h : f.isA .input = true) :
    d.giveUp displayName seen written f =
      (.ok ⟨displayName, seen, written, some f⟩, d.report (.inputSkipped displayName f)) := by
  simp only [giveUp, h, if_true]

/-- An input on the console comes to its contribution, whatever was dumped before; the host and
the temporary files stay as they are. -/
theorem dumpInput_console (config : Config) (writer : Writer) {d : Dump} {entry : InputEntry}
    (hdir : d.router.directory = none) (hnul : entry.path.hasNul = false) :
    ∃ d', dumpInput config writer Host.openContainer d entry =
        (.ok (contribution config writer d.session.host entry).1, d') ∧
      d'.console = d.console ++ (contribution config writer d.session.host entry).2 ∧
      d'.router.directory = none ∧ d'.session.host = d.session.host ∧
      d'.session.temporaries = d.session.temporaries := by
  unfold dumpInput contribution
  dsimp only [Dump.report, Session.report]
  cases hopen : d.session.host.openContainer entry.path with
  | error f =>
    dsimp only
    rw [giveUp_of_isA_input _ _ _ _ (Host.openContainer_isA_input hnul hopen)]
    exact ⟨_, rfl, String.append_empty.symm, hdir, rfl, rfl⟩
  | ok data =>
    dsimp only
    cases hbytes : Container.ofBytes data with
    | error e =>
      dsimp only
      rw [giveUp_of_isA_input _ _ _ _ (Container.ofBytes_error hbytes).isA_input]
      exact ⟨_, rfl, String.append_empty.symm, hdir, rfl, rfl⟩
    | ok c =>
      dsimp only [dumpContainer, Dump.report, Session.report]
      rw [dumpClasses_console (by exact hdir) (by rfl)]
      dsimp only
      cases hstopped : c.classes.stopped with
      | none => exact ⟨_, rfl, rfl, hdir, rfl, rfl⟩
      | some e =>
        dsimp only
        have hformat := Container.classes_stopped_isFormat hbytes hstopped
        rw [giveUp_of_isA_input _ _ _ _ hformat.isA_input]
        exact ⟨_, rfl, rfl, hdir, rfl, rfl⟩

/-- The loop over the inputs comes to the end, and to the contributions of the inputs one after
the other. -/
theorem dumpInputs_console (config : Config) (writer : Writer) {d : Dump}
    (hdir : d.router.directory = none) (entries : List InputEntry)
    (hnul : ∀ entry ∈ entries, entry.path.hasNul = false) :
    ∃ d', dumpInputs config writer Host.openContainer d entries =
        (.ok (), entries.map fun entry => (contribution config writer d.session.host entry).1, d') ∧
      d'.console = d.console ++ String.join
        (entries.map fun entry => (contribution config writer d.session.host entry).2) ∧
      d'.session.host = d.session.host ∧ d'.session.temporaries = d.session.temporaries := by
  induction entries generalizing d with
  | nil => exact ⟨d, rfl, by simp, rfl, rfl⟩
  | cons entry rest ih =>
    obtain ⟨d₁, hfirst, hconsole₁, hdir₁, hhost₁, htemp₁⟩ :=
      dumpInput_console config writer hdir (hnul entry List.mem_cons_self)
    obtain ⟨d₂, hrest, hconsole₂, hhost₂, htemp₂⟩ :=
      ih hdir₁ fun e he => hnul e (List.mem_cons_of_mem entry he)
    refine ⟨d₂, ?_, ?_, hhost₂.trans hhost₁, htemp₂.trans htemp₁⟩
    · simp only [dumpInputs, hfirst, hrest, hhost₁, List.map_cons]
    · rw [hconsole₂, hconsole₁, hhost₁]
      simp [String.append_assoc]

/-! ## Whole dumps -/

/-- The dump of inputs on a host by a dumper and in a session that have not been used. -/
def dumpFresh (config : Config) (writer : Writer) (host : Host) (entries : List InputEntry) :
    Except Failure Unit × List InputResult × Dump :=
  run config writer Host.openContainer (Session.start host) entries

/-- A dump to the console comes to its end with the contributions of its inputs, and it leaves the
host as it is. -/
theorem dumpFresh_console (config : Config) (writer : Writer) (host : Host)
    {entries : List InputEntry}
    (hdir : config.outputDirectory = none)
    (hnul : ∀ entry ∈ entries, entry.path.hasNul = false) :
    (dumpFresh config writer host entries).1 = .ok () ∧
      (dumpFresh config writer host entries).2.1 =
        entries.map (fun entry => (contribution config writer host entry).1) ∧
      (dumpFresh config writer host entries).2.2.console =
        String.join (entries.map fun entry => (contribution config writer host entry).2) ∧
      (dumpFresh config writer host entries).2.2.session.host = host := by
  have hstart : (start config writer (Session.start host)).router.directory = none := hdir
  obtain ⟨d, hrun, hconsole, hhost, htemp⟩ :=
    dumpInputs_console config writer hstart entries hnul
  have hclean : d.session.cleanUp = { d.session with temporaries := [] } := by
    have hnone : d.session.temporaries = [] := htemp
    simp [Session.cleanUp, hnone]
  unfold dumpFresh run
  rw [hrun]
  dsimp only
  rw [hclean]
  refine ⟨rfl, rfl, ?_, ?_⟩
  · rw [(foldl_report _ _).1]
    exact hconsole.trans String.empty_append
  · rw [(foldl_report _ _).2]
    exact hhost

/-- The inputs of a dump to the console do not influence each other: a dump never fails, it has one
result for each entry in order, and the results and the text of a dump of `xs` and then `ys` are
those of a dump of `xs` followed by those of a dump of `ys`, each from the same host, which all of
them leave as it is. -/
theorem dumpFresh_append (config : Config) (writer : Writer) (host : Host)
    (xs ys : List InputEntry) (hdir : config.outputDirectory = none)
    (hnul : ∀ entry ∈ xs ++ ys, entry.path.hasNul = false) :
    (dumpFresh config writer host (xs ++ ys)).1 = .ok () ∧
      (dumpFresh config writer host (xs ++ ys)).2.1.map InputResult.displayName =
        (xs ++ ys).map InputEntry.displayName ∧
      (dumpFresh config writer host (xs ++ ys)).2.1 =
        (dumpFresh config writer host xs).2.1 ++ (dumpFresh config writer host ys).2.1 ∧
      (dumpFresh config writer host (xs ++ ys)).2.2.console =
        (dumpFresh config writer host xs).2.2.console ++
          (dumpFresh config writer host ys).2.2.console ∧
      (dumpFresh config writer host (xs ++ ys)).2.2.session.host = host := by
  have hx : ∀ entry ∈ xs, entry.path.hasNul = false := fun entry h =>
    hnul entry (List.mem_append_left ys h)
  have hy : ∀ entry ∈ ys, entry.path.hasNul = false := fun entry h =>
    hnul entry (List.mem_append_right xs h)
  obtain ⟨hend, hresults, htext, hhost⟩ :=
    dumpFresh_console config writer host hdir hnul
  obtain ⟨-, hresultsX, htextX, -⟩ := dumpFresh_console config writer host hdir hx
  obtain ⟨-, hresultsY, htextY, -⟩ := dumpFresh_console config writer host hdir hy
  refine ⟨hend, ?_, ?_, ?_, hhost⟩
  · rw [hresults, List.map_map]
    apply List.map_congr_left
    intro entry _
    exact contribution_displayName host entry
  · rw [hresults, hresultsX, hresultsY, List.map_append]
  · rw [htext, htextX, htextY, List.map_append, String.join_append]

/-- A missing input before one that is no container: neither keeps the other from its result. -/
theorem dumpFresh_append_missing_then_broken :
    (∀ entry ∈ [InputEntry.mk ⟨.relative, ["a.dex"]⟩ false "a.dex"] ++
        [InputEntry.mk ⟨.relative, ["b.dex"]⟩ false "b.dex"], entry.path.hasNul = false) ∧
      (dumpFresh ⟨"*", Selection.default, none, none, .warning⟩ .java
          ⟨FileTree.empty.put ["b.dex"] (.file #[0x64, 0x65]), [], [], 0⟩
          ([⟨⟨.relative, ["a.dex"]⟩, false, "a.dex"⟩] ++
            [⟨⟨.relative, ["b.dex"]⟩, false, "b.dex"⟩])).2.1 =
        (dumpFresh ⟨"*", Selection.default, none, none, .warning⟩ .java
          ⟨FileTree.empty.put ["b.dex"] (.file #[0x64, 0x65]), [], [], 0⟩
          [⟨⟨.relative, ["a.dex"]⟩, false, "a.dex"⟩]).2.1 ++
        (dumpFresh ⟨"*", Selection.default, none, none, .warning⟩ .java
          ⟨FileTree.empty.put ["b.dex"] (.file #[0x64, 0x65]), [], [], 0⟩
          [⟨⟨.relative, ["b.dex"]⟩, false, "b.dex"⟩]).2.1 := by
  have hnul : ∀ entry ∈ [InputEntry.mk ⟨.relative, ["a.dex"]⟩ false "a.dex"] ++
      [InputEntry.mk ⟨.relative, ["b.dex"]⟩ false "b.dex"], entry.path.hasNul = false := by
    decide
  exact ⟨hnul, (dumpFresh_append _ _ _ _ _ rfl hnul).2.2.1⟩

end Dump

end DexListing
