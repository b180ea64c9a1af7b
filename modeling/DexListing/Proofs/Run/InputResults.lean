import DexListing.Proofs.File.Resolving
import DexListing.Proofs.Run.LastWrites

/-!
# The result of one input

What an input comes to depends on its matching classes only: on the console they are put out one
after the other under the banner, in a directory each of them is written to its file, unless it has
no safe one (`Dump.dumpInput_result`). Into a directory a dump may also break off, at a class whose
directories or file cannot be made (`Dump.BreaksOff`).

Which classes have a safe file is decided one by one, on a host that the classes before have
changed. It could as well be decided beforehand: as long as the dump goes on, the path name of
every class is what it was when the input began (`Router.pathFor_of_grows`).
-/

set_option autoImplicit false

namespace DexListing

/-! ## Path names on a growing host -/

namespace Router

variable {h h' : Host}

/-- On a host that has grown a class has the path name that it had, or lacks one for the reason that
it had; unless its path name now runs into a loop of links. -/
theorem pathFor_of_grows {r r' : Router} (hdir : r'.directory = r.directory)
    (hextension : r'.extension = r.extension) (hgrows : h.GrowsBelow [] h') (className : String) :
    r'.pathFor h' className = r.pathFor h className ∨
      ∃ q, r'.pathFor h' className = .error (.pathLoop q) := by
  unfold pathFor pathIn
  rw [hdir, hextension]
  cases r.directory with
  | none => exact Or.inl rfl
  | some D =>
    dsimp only
    by_cases hrejected : Text.segments '.' className = [] ∨
        ((Text.segments '.' className).any fun part => Text.holds part '/') = true
    · rw [if_pos hrejected, if_pos hrejected]
      exact Or.inl rfl
    · rw [if_neg hrejected, if_neg hrejected]
      rcases Host.realPath_of_grows hgrows D with hroot | ⟨q, hroot⟩
      · rw [hroot]
        cases h.realPath D with
        | error e => exact Or.inl rfl
        | ok root =>
          dsimp only
          rcases Host.realPath_of_grows hgrows
              (D.joinAll (fileParts r.extension (Text.segments '.' className))) with
            hreal | ⟨q, hreal⟩
          · rw [hreal]
            exact Or.inl rfl
          · rw [hreal]
            exact Or.inr ⟨q, rfl⟩
      · rw [hroot]
        exact Or.inr ⟨q, rfl⟩

/-- The class has no safe file: its name is none for a file, or the file would lie outside of the
output directory. -/
def rejects (r : Router) (h : Host) (className : String) : Bool :=
  match r.pathFor h className with
  | .error f => f.isA .unsafeOutput
  | .ok _ => false

/-- The file of a class cannot be written: its path name cannot be made out, or the directories
above it cannot be made, or the file itself. That the class has no safe file does not count. -/
inductive Obstructed (r : Router) (h : Host) (className : String) : Failure → Prop
  | path {f : Failure} : r.pathFor h className = .error f → f.isA .unsafeOutput = false →
      Obstructed r h className f
  | directories {path : PathName} {made : Host} {e : FileError} :
      r.pathFor h className = .ok path → h.ensureDirectories path.parent = (made, .error e) →
      Obstructed r h className (.file e)
  | file {path : PathName} {made : Host} {content : Bytes} {e : FileError} :
      r.pathFor h className = .ok path → h.ensureDirectories path.parent = (made, .ok ()) →
      made.storeContent path content = .error e → Obstructed r h className (.file e)

end Router

namespace Dump

variable {config : Config} {writer : Writer} {s : Session} {D : PathName} {d : Dump}

/-! ## Classes into a directory -/

/-- The class matches and has a safe file. -/
def writes (config : Config) (r : Router) (h : Host) (c : ClassInfo) : Bool :=
  config.selects c && !r.rejects h c.name

/-- One class into a directory: its file cannot be written, and the dump ends; or it is written if
it matches and has a safe file, and then it counts as a file. Nothing is put on the console. -/
theorem dumpClass_intoDirectory (config : Config) (writer : Writer)
    (hdir : d.router.directory = some D) (c : ClassInfo) :
    (∃ f d', dumpClass config writer d c = (.error f, d') ∧ config.selects c = true ∧
      d.router.Obstructed d.session.host c.name f) ∨
    (config.selects c = true → ∀ q, d.router.pathFor d.session.host c.name ≠ .error (.pathLoop q)) ∧
      ∃ d', dumpClass config writer d c = (.ok (writes config d.router d.session.host c), d') ∧
        d'.console = d.console ∧ d'.router.filesWritten =
          d.router.filesWritten + if writes config d.router d.session.host c then 1 else 0 := by
  unfold dumpClass
  by_cases hselects : config.selects c = true
  · have haccepts := hselects
    unfold Config.selects at haccepts
    rw [if_pos haccepts]
    unfold Router.write
    rw [hdir]
    dsimp only
    cases hpath : d.router.pathFor d.session.host c.name with
    | error f =>
      dsimp only
      by_cases hrejected : f.isA .unsafeOutput = true
      · have hwrites : writes config d.router d.session.host c = false := by
          simp [writes, Router.rejects, hpath, hrejected]
        rw [if_pos hrejected, hwrites]
        refine Or.inr ⟨?_, _, rfl, String.append_empty, rfl⟩
        rintro - q heq
        obtain rfl := Except.error.inj heq
        exact nomatch hrejected
      · rw [if_neg hrejected]
        exact Or.inl ⟨f, _, rfl, hselects, .path hpath (Bool.eq_false_iff.mpr hrejected)⟩
    | ok path =>
      have hwrites : writes config d.router d.session.host c = true := by
        simp [writes, Router.rejects, hpath, hselects]
      rw [hwrites]
      dsimp only
      unfold Router.toFile
      rcases hensure : d.session.host.ensureDirectories path.parent with ⟨made, outcome⟩
      cases outcome with
      | error e => exact Or.inl ⟨.file e, _, rfl, hselects, .directories hpath hensure⟩
      | ok _ =>
        dsimp only
        cases hstore : made.storeContent path
            (Text.utf8OfText (writer.render config.selection c)).toArray with
        | error e => exact Or.inl ⟨.file e, _, rfl, hselects, .file hpath hensure hstore⟩
        | ok stored => exact Or.inr ⟨fun _ _ => nofun, _, rfl, String.append_empty, rfl⟩
  · have hrejects := hselects
    unfold Config.selects at hrejects
    have hwrites : writes config d.router d.session.host c = false := by
      simp [writes, hselects]
    rw [if_neg hrejects, hwrites]
    exact Or.inr ⟨fun h => absurd h hselects, d, rfl, rfl, rfl⟩

/-- What has been written before does not matter for whether a class is written, unless the class
matches and its path name runs into a loop. -/
theorem writes_eq {r : Router} (hdir : r.directory = some D)
    (hd : IntoDirectory s D r.extension d) (c : ClassInfo) :
    writes config d.router d.session.host c = writes config r s.host c ∨
      config.selects c = true ∧
        ∃ q, d.router.pathFor d.session.host c.name = .error (.pathLoop q) := by
  unfold writes Router.rejects
  cases config.selects c with
  | false => exact Or.inl rfl
  | true =>
    rcases Router.pathFor_of_grows (hd.directory.trans hdir.symm) hd.extension
        hd.retains.keeps.grows c.name with hsame | hloop
    · rw [hsame]
      exact Or.inl rfl
    · exact Or.inr ⟨rfl, hloop⟩

/-- A dump of classes breaks off at one of them: those before it have been dumped, it matches, and
its file cannot be written. -/
inductive BreaksOff (config : Config) (writer : Writer) (d : Dump) :
    List ClassInfo → Failure → Prop
  | intro {before after : List ClassInfo} {c : ClassInfo} {count : Nat} {reached : Dump}
      {f : Failure} :
      dumpClasses config writer d before = (.ok count, reached) → config.selects c = true →
      reached.router.Obstructed reached.session.host c.name f →
      BreaksOff config writer d (before ++ c :: after) f

/-- Breaking off after a first class that has been dumped. -/
theorem BreaksOff.cons {d₁ : Dump} {c : ClassInfo} {written : Bool} {rest : List ClassInfo}
    {f : Failure} (hclass : dumpClass config writer d c = (.ok written, d₁))
    (hrest : BreaksOff config writer d₁ rest f) : BreaksOff config writer d (c :: rest) f := by
  obtain @⟨before, after, c', count, reached, f, hbefore, hselects, hobstructed⟩ := hrest
  rw [← List.cons_append]
  have hall : dumpClasses config writer d (c :: before) =
      (.ok (count + if written then 1 else 0), reached) := by
    rw [dumpClasses, hclass]
    dsimp only
    rw [hbefore]
  exact .intro hall hselects hobstructed

/-- The loop over the classes of an input into a directory: those that match and had a safe file
when it began are written, unless it breaks off. -/
theorem dumpClasses_intoDirectory (config : Config) (writer : Writer) {r : Router}
    (hdir : r.directory = some D) (hd : IntoDirectory s D r.extension d)
    (classes : List ClassInfo) :
    (∃ d', dumpClasses config writer d classes =
        (.ok (classes.countP (writes config r s.host)), d') ∧ d'.console = d.console ∧
      d'.router.filesWritten =
        d.router.filesWritten + classes.countP (writes config r s.host)) ∨
    ∃ f d', dumpClasses config writer d classes = (.error f, d') ∧
      BreaksOff config writer d classes f := by
  induction classes generalizing d with
  | nil => exact Or.inl ⟨d, rfl, rfl, rfl⟩
  | cons c rest ih =>
    have hfirst := (intoDirectory_invariant s D r.extension).dumpClass config writer hd c
    rcases dumpClass_intoDirectory config writer hd.directory c with
      ⟨f, d₁, hclass, hselects, hobstructed⟩ | ⟨hpath, d₁, hclass, hconsole, hfiles⟩
    · have hbreaks : BreaksOff config writer d ([] ++ c :: rest) f :=
        .intro rfl hselects hobstructed
      refine Or.inr ⟨f, d₁, ?_, hbreaks⟩
      rw [dumpClasses, hclass]
    · have hwrites : writes config d.router d.session.host c = writes config r s.host c := by
        rcases writes_eq hdir hd c with hsame | ⟨hselects, q, hloop⟩
        · exact hsame
        · exact absurd hloop (hpath hselects q)
      rw [hclass] at hfirst
      rw [hwrites] at hclass hfiles
      rcases ih hfirst with ⟨d₂, hrest, hconsole', hfiles'⟩ | ⟨f, d₂, hrest, hbreaks⟩
      · refine Or.inl ⟨d₂, ?_, hconsole'.trans hconsole, ?_⟩
        · rw [dumpClasses, hclass]
          dsimp only
          rw [hrest]
          dsimp only
          rw [List.countP_cons]
        · rw [hfiles', hfiles, List.countP_cons]
          omega
      · refine Or.inr ⟨f, d₂, ?_, .cons hclass hbreaks⟩
        rw [dumpClasses, hclass]
        dsimp only
        rw [hrest]

/-! ## One input -/

end Dump

/-- The classes of a byte string in order, as far as they can be read, and the error that ends them.
A byte string that is no container has none. -/
def Container.listing (data : Bytes) : Container.ClassListing :=
  match Container.ofBytes data with
  | .error e => ⟨[], some e⟩
  | .ok c => c.classes

namespace Dump

/-- What the classes of an input come to if so many of them are written. -/
def resultOf (entry : InputEntry) (listing : Container.ClassListing) (written : Nat) :
    InputResult :=
  ⟨entry.displayName, listing.classes.length, written, listing.stopped.map .container⟩

/-- The state in which the classes of an input are dumped: the router knows of the input, and apart
from what is reported all else is as before. -/
structure Begins (d : Dump) (entry : InputEntry) (begun : Dump) : Prop where
  router : begun.router = d.router.beginInput entry.displayName
  console : begun.console = d.console
  host : begun.session.host = d.session.host
  temporaries : begun.session.temporaries = d.session.temporaries

/-- The classes of a container are dumped one after the other. If none of them ends the dump, the
result follows: an error that ends the classes is one of the input, so it becomes part of it. -/
theorem dumpContainer_of_classes (config : Config) (writer : Writer) (d : Dump)
    (entry : InputEntry) {data : Bytes} {c : Container} (hbytes : Container.ofBytes data = .ok c) :
    ∃ begun, d.Begins entry begun ∧
      (∀ count d', dumpClasses config writer begun c.classes.classes = (.ok count, d') →
        ∃ d'', dumpContainer config writer d entry.displayName c =
            (.ok (resultOf entry c.classes count), d'') ∧
          d''.console = d'.console ∧ d''.router = d'.router) ∧
      ∀ f d', dumpClasses config writer begun c.classes.classes = (.error f, d') →
        dumpContainer config writer d entry.displayName c = (.error f, d') := by
  unfold dumpContainer
  dsimp only
  refine ⟨{ d.report (.containerOpened c.header.version c.header.classes.count
    c.header.strings.count) with router := d.router.beginInput entry.displayName },
    ⟨rfl, rfl, rfl, rfl⟩, ?_, ?_⟩
  · intro count d' hclasses
    rw [show (d.report _).router = d.router from rfl, hclasses]
    dsimp only
    unfold resultOf
    cases hstopped : c.classes.stopped with
    | none => exact ⟨d', rfl, rfl, rfl⟩
    | some e =>
      have hinput := (Container.classes_stopped_isFormat hbytes hstopped).isA_input
      dsimp only
      rw [giveUp_of_isA_input _ _ _ _ hinput]
      exact ⟨_, rfl, rfl, rfl⟩
  · intro f d' hclasses
    rw [show (d.report _).router = d.router from rfl, hclasses]

/-- What one input comes to, whatever its content is. Its classes are counted, those that are
written too, and the error that ends them is the error of the result.

On the console all matching classes are written: the text is empty if there is none, and else it is
the banner and the texts of these classes in order, each one as the writer renders the class; those
before an error are kept. Into a directory the matching classes are written that have a safe file,
and the files are counted, unless the dump breaks off at one that cannot be written. -/
theorem dumpInput_result (config : Config) (writer : Writer) (opener : Opener) (d : Dump)
    (entry : InputEntry) {data : Bytes} (hread : opener d.session.host entry.path = .ok data) :
    match d.router.directory with
    | none =>
      ∃ d', dumpInput config writer opener d entry =
          (.ok (resultOf entry (Container.listing data)
            ((Container.listing data).classes.countP config.selects)), d') ∧
        d'.console = d.console ++ consoleText config writer (banner entry.displayName)
          (Container.listing data).classes
    | some _ =>
      (∃ d', dumpInput config writer opener d entry =
          (.ok (resultOf entry (Container.listing data)
            ((Container.listing data).classes.countP (writes config d.router d.session.host))), d') ∧
        d'.console = d.console ∧
        d'.router.filesWritten = d.router.filesWritten +
          (Container.listing data).classes.countP (writes config d.router d.session.host)) ∨
      ∃ f begun d', d.Begins entry begun ∧
        BreaksOff config writer begun (Container.listing data).classes f ∧
        dumpInput config writer opener d entry = (.error f, d') := by
  unfold dumpInput Container.listing
  dsimp only [report, Session.report]
  rw [hread]
  dsimp only
  cases hbytes : Container.ofBytes data with
  | error e =>
    -- The input ends before the router knows of it.
    have hinput := (Container.ofBytes_error hbytes).isA_input
    dsimp only
    rw [giveUp_of_isA_input _ _ _ _ hinput]
    cases d.router.directory with
    | none => exact ⟨_, rfl, String.append_empty.symm⟩
    | some D => exact Or.inl ⟨_, rfl, rfl, rfl⟩
  | ok c =>
    dsimp only
    obtain ⟨begun, hbegins, hends, hfails⟩ :=
      dumpContainer_of_classes config writer (d.report (.inputStarted entry.displayName entry.path))
        entry hbytes
    cases hdir : d.router.directory with
    | none =>
      have hnone : begun.router.directory = none := by
        rw [hbegins.router]
        exact hdir
      have hname : begun.router.displayName = some entry.displayName := by
        rw [hbegins.router]
        rfl
      have hpending : begun.router.pendingBanner = banner entry.displayName := by
        rw [hbegins.router]
        rfl
      obtain ⟨d', hdump, hconsole, -⟩ :=
        hends _ _ (dumpClasses_console hnone hname c.classes.classes)
      refine ⟨d', hdump, ?_⟩
      rw [hconsole, hbegins.console, hpending]
      rfl
    | some D =>
      have hbegun : IntoDirectory d.session D d.router.extension begun := by
        refine ⟨?_, ?_, hbegins.temporaries, ?_⟩
        · rw [hbegins.router]
          exact hdir
        · rw [hbegins.router]
          rfl
        · rw [hbegins.host]
          exact .refl d.session.host
      rcases dumpClasses_intoDirectory config writer hdir hbegun c.classes.classes with
        ⟨d', hclasses, hconsole, hfiles⟩ | ⟨f, d', hclasses, hbreaks⟩
      · obtain ⟨d'', hdump, hconsole', hrouter⟩ := hends _ _ hclasses
        refine Or.inl ⟨d'', hdump, ?_, ?_⟩
        · rw [hconsole', hconsole, hbegins.console]
          rfl
        · rw [hrouter, hfiles, hbegins.router]
          rfl
      · exact Or.inr ⟨f, begun, d', ⟨hbegins.router, hbegins.console, hbegins.host,
          hbegins.temporaries⟩, hbreaks, hfails f d' hclasses⟩

end Dump

/-- A container with two class definitions, of which the second one is of a type that it does not
have. -/
def Container.brokenSecond : Bytes :=
  (magic ++ [0x30, 0x33, 0x35, 0] ++ List.replicate 48 0
    ++ [1, 112, 1, 116, 0, 0, 0, 0, 0, 0, 2, 120, 0, 0].flatMap (Bytes.littleEndian 4)
    -- one string, one type, and the class definitions
    ++ [184, 0].flatMap (Bytes.littleEndian 4)
    ++ [0, 1, noIndex, 0, noIndex, 0, 0, 0].flatMap (Bytes.littleEndian 4)
    ++ [1, 1, noIndex, 0, noIndex, 0, 0, 0].flatMap (Bytes.littleEndian 4)
    ++ [3, 0x4C, 0x41, 0x3B, 0]).toArray

/-- The first class of such a container is on the console, under the banner, although the second one
breaks. -/
theorem Dump.dumpInput_result_brokenSecond :
    (fun _ _ => .ok Container.brokenSecond : Opener) ⟨.empty, [], [], 0⟩ ⟨.relative, ["a.dex"]⟩ =
        .ok Container.brokenSecond ∧
      ∃ d', dumpInput ⟨"*", Selection.default, none, none, .warning⟩ .java
          (fun _ _ => .ok Container.brokenSecond)
          (start ⟨"*", Selection.default, none, none, .warning⟩ .java
            (.start ⟨.empty, [], [], 0⟩))
          ⟨⟨.relative, ["a.dex"]⟩, false, "a.dex"⟩ =
        (.ok ⟨"a.dex", 1, 1, some (.container (.format (.typeIndex 1)))⟩, d') ∧
        d'.console = banner "a.dex" ++
          Writer.java.render Selection.default ⟨"A", 1, none, [], none, [], [], []⟩ := by
  refine ⟨rfl, ?_⟩
  have hclasses : (Container.listing Container.brokenSecond).classes =
      [⟨"A", 1, none, [], none, [], [], []⟩] := by decide +kernel
  have hstopped : (Container.listing Container.brokenSecond).stopped =
      some (.format (.typeIndex 1)) := by decide +kernel
  have hselects : Config.selects ⟨"*", Selection.default, none, none, .warning⟩
      ⟨"A", 1, none, [], none, [], [], []⟩ = true := by decide +kernel
  obtain ⟨d', hdump, hconsole⟩ :=
    dumpInput_result ⟨"*", Selection.default, none, none, .warning⟩ .java
      (fun _ _ => .ok Container.brokenSecond)
      (start ⟨"*", Selection.default, none, none, .warning⟩ .java (.start ⟨.empty, [], [], 0⟩))
      ⟨⟨.relative, ["a.dex"]⟩, false, "a.dex"⟩ rfl
  refine ⟨d', ?_, ?_⟩
  · rw [hdump, resultOf, hclasses, hstopped]
    simp [hselects]
  · rw [hconsole, hclasses]
    simp [consoleText, rendered, hselects, start]

end DexListing
