import DexListing.Proofs.Run.ClassTrees

/-!
# Class names and path names

Any text can be the name of a class in a container. Below an output directory from which no names
run into a loop of links (`FileTree.LoopFree`) such a name gets a path name or is refused as unsafe,
and a class that is refused is passed over: the dump goes on with the next one. There are two
exceptions. A zero character makes no name unsafe, but no path name may hold one either: the class
is not passed over, and the dump ends at it (`Dump.run_zeroInName`). And where a link is overlooked
on the way the path that is taken instead may lead through too many links.
-/

set_option autoImplicit false

namespace DexListing

/-! ## Loops of links -/

/-- From a location no names run into a loop of links. -/
def FileTree.LoopFree (t : FileTree) (root : Location) : Prop :=
  ∀ names, (∀ name ∈ names, IsName name) → ∃ links l, t.Follows root names links l

/-! ## The path name of a class -/

namespace Router

variable {r : Router} {h : Host} {D : PathName} {root : Location} {className : String}

/-- A zero character in the name of a class makes its path name one that the system does not
take. -/
theorem hasNul_fileParts (D : PathName) (extension : String)
    (hnul : Text.holds className '\x00' = true) :
    PathName.hasNul ⟨D.root, D.parts ++ fileParts extension (Text.segments '.' className)⟩ =
      true := by
  rw [← Bool.not_eq_false, PathName.hasNul_eq_false_iff]
  intro hnone
  have hdot : '\x00' ≠ '.' := by decide
  obtain ⟨part, hpart, hholds⟩ := (Text.holds_iff_segments hdot className).mp hnul
  obtain ⟨name, hname, more, rfl⟩ := exists_mem_fileParts extension hpart
  have hno := hnone _ (List.mem_append_right D.parts hname)
  rw [Text.holds_append, hholds] at hno
  exact nomatch hno

/-- So the class has no path name. -/
theorem pathFor_of_nul (hdir : r.directory = some D) (hslash : Text.holds r.extension '/' = false)
    (hD : ¬h.Overlooks D) (hthere : h.place .target D = .ok (.existing root .directory))
    (hsafe : ¬IsUnsafe className) (hnul : Text.holds className '\x00' = true) :
    r.pathFor h className = .error (.file .embeddedNul) := by
  rw [pathFor_of_safe hdir hslash hD hthere hsafe]
  unfold Host.realPath
  dsimp only
  rw [if_pos (hasNul_fileParts D r.extension hnul)]
  rfl

/-- Whatever links there are, a class with a safe name gets its path name, unless that holds a zero
character, leads outside of the output directory, or leads through too many links. -/
theorem pathFor_cases (hdir : r.directory = some D) (hslash : Text.holds r.extension '/' = false)
    (hthere : h.place .target D = .ok (.existing root .directory)) (hsafe : ¬IsUnsafe className) :
    (∃ q, r.pathFor h className = .error (.pathLoop q)) ∨
      if PathName.hasNul ⟨D.root, D.parts ++ fileParts r.extension (Text.segments '.' className)⟩
      then r.pathFor h className = .error (.file .embeddedNul)
      else (∃ path, r.pathFor h className = .ok path) ∨
        r.pathFor h className = .error (.output (.outside className D)) := by
  have hreal : ∀ p, (∃ q, h.realPath p = .error (.loop q)) ∨
      if p.hasNul then h.realPath p = .error .embeddedNul else ∃ l, h.realPath p = .ok l := by
    intro p
    unfold Host.realPath
    dsimp only
    split
    · exact Or.inr rfl
    · split
      · split
        · exact Or.inl ⟨_, rfl⟩
        · exact Or.inr ⟨_, rfl⟩
      · exact Or.inr ⟨_, rfl⟩
  have hparts := (isUnsafe_iff className).not.mp hsafe
  unfold pathFor
  rw [hdir]
  dsimp only
  rw [if_neg hparts, pathIn_eq hslash D (by simpa using (not_or.mp hparts).2)]
  rcases hreal D with ⟨q, hD⟩ | hD
  · rw [hD]
    exact Or.inl ⟨q, rfl⟩
  · rw [(Host.walks_of_place hthere).1, if_neg Bool.false_ne_true] at hD
    obtain ⟨l, hD⟩ := hD
    rw [hD]
    dsimp only
    rcases hreal ⟨D.root, D.parts ++ fileParts r.extension (Text.segments '.' className)⟩ with
      ⟨q, hpath⟩ | hpath
    · rw [hpath]
      exact Or.inl ⟨q, rfl⟩
    · refine Or.inr ?_
      split
      · next hnul =>
        rw [if_pos hnul] at hpath
        rw [hpath]
        rfl
      · next hnul =>
        rw [if_neg hnul] at hpath
        obtain ⟨l', hpath⟩ := hpath
        rw [hpath]
        dsimp only
        split
        · exact Or.inl ⟨_, rfl⟩
        · exact Or.inr rfl

/-- Without loops of links it does not lead through too many, unless one is overlooked. -/
theorem overlooks_of_pathLoop (hdir : r.directory = some D)
    (hslash : Text.holds r.extension '/' = false)
    (hthere : h.place .target D = .ok (.existing root .directory)) (hloops : h.tree.LoopFree root)
    (hsafe : ¬IsUnsafe className) {q : PathName}
    (hpath : r.pathFor h className = .error (.pathLoop q)) :
    h.Overlooks D ∨
      h.Overlooks ⟨D.root, D.parts ++ fileParts r.extension (Text.segments '.' className)⟩ := by
  by_contra hsees
  obtain ⟨hD, hsees⟩ := not_or.mp hsees
  have hwalk := (Host.walks_of_place hthere).2
  obtain ⟨links, hroot⟩ := hwalk.follows (Or.inl (by decide))
  obtain ⟨links', l, hnames⟩ := hloops _ fun name hname => isName_of_mem_fileParts hname
  rw [pathFor_of_safe hdir hslash hD hthere hsafe] at hpath
  dsimp only at hpath
  cases hnul : PathName.hasNul
      ⟨D.root, D.parts ++ fileParts r.extension (Text.segments '.' className)⟩ with
  | true =>
    unfold Host.realPath at hpath
    rw [if_pos hnul] at hpath
    exact nomatch hpath
  | false =>
    rw [Host.realPath_of_follows hnul hsees (hwalk.crossesLink_start fun _ _ => nofun)
      (hroot.append hnames)] at hpath
    dsimp only at hpath
    split at hpath
    · exact nomatch hpath
    · exact nomatch hpath

end Router

/-! ## Dumping the class -/

namespace Dump

variable {config : Config} {writer : Writer} {d : Dump} {D : PathName} {root : Location}
  {c : ClassInfo}

/-- A class without a path name is not written: it is passed over if it is refused as unsafe, and
any other failure ends the dump. -/
theorem dumpClass_of_pathFor_error (hdir : d.router.directory = some D)
    (hselects : config.selects c = true) {f : Failure}
    (hpath : d.router.pathFor d.session.host c.name = .error f) :
    dumpClass config writer d c =
      if f.isA .unsafeOutput then (.ok false, d.report (.classSkipped f)) else (.error f, d) := by
  have hwrite : ∀ block, d.router.write d.session c.name block =
      ⟨.error f, "", d.router, d.session⟩ := by
    intro block
    unfold Router.write
    rw [hdir]
    dsimp only
    rw [hpath]
  unfold Config.selects at hselects
  unfold dumpClass
  rw [if_pos hselects, hwrite]
  dsimp only
  rw [String.append_empty]

/-- So the dump goes on with the other classes, or it ends. -/
theorem dumpClasses_of_pathFor_error (hdir : d.router.directory = some D)
    (hselects : config.selects c = true) {f : Failure}
    (hpath : d.router.pathFor d.session.host c.name = .error f) (rest : List ClassInfo) :
    dumpClasses config writer d (c :: rest) =
      if f.isA .unsafeOutput then dumpClasses config writer (d.report (.classSkipped f)) rest
      else (.error f, d) := by
  rw [dumpClasses, dumpClass_of_pathFor_error hdir hselects hpath]
  by_cases hrefused : f.isA .unsafeOutput = true
  · rw [if_pos hrefused, if_pos hrefused]
    dsimp only
    rcases dumpClasses config writer (d.report (.classSkipped f)) rest with ⟨outcome, after⟩
    cases outcome <;> rfl
  · rw [if_neg hrefused, if_neg hrefused]

/-- Whatever the name of a class is, it gets a path name, or it is refused as unsafe and the dump
goes on with the other classes of the input; unless the name is safe and holds a zero character,
which ends the dump, or a link is overlooked on the way of its path name or of the directory, so
that there may be too many links. -/
theorem className_outcome (config : Config) (writer : Writer) (hdir : d.router.directory = some D)
    (hextension : d.router.extension = writer.extension)
    (hthere : d.session.host.place .target D = .ok (.existing root .directory))
    (hloops : d.session.host.tree.LoopFree root) (c : ClassInfo) (rest : List ClassInfo) :
    let path := d.router.pathFor d.session.host c.name
    let dumped := dumpClasses config writer d (c :: rest)
    let overlooked := d.session.host.Overlooks D ∨
      d.session.host.Overlooks (d.router.pathIn D (Text.segments '.' c.name))
    (Router.IsUnsafe c.name ∨ Text.holds c.name '\x00' = false →
      (∃ p, path = .ok p) ∨
        (∃ fault, path = .error (.output fault) ∧
          (config.selects c = true →
            dumped = dumpClasses config writer (d.report (.classSkipped (.output fault))) rest)) ∨
        overlooked ∧ ∃ q, path = .error (.pathLoop q)) ∧
    (¬Router.IsUnsafe c.name → Text.holds c.name '\x00' = true →
      (path = .error (.file .embeddedNul) ∧
        (config.selects c = true → dumped = (.error (.file .embeddedNul), d))) ∨
      overlooked ∧ ∃ q, path = .error (.pathLoop q)) := by
  have hslash : Text.holds d.router.extension '/' = false :=
    hextension ▸ writer.slashFree_extension
  have hnul : Text.holds d.router.extension '\x00' = false :=
    hextension ▸ writer.nulFree_extension
  have hskipped : ∀ fault, d.router.pathFor d.session.host c.name = .error (.output fault) →
      config.selects c = true → dumpClasses config writer d (c :: rest) =
        dumpClasses config writer (d.report (.classSkipped (.output fault))) rest := by
    intro fault hpath hselects
    rw [dumpClasses_of_pathFor_error hdir hselects hpath]
    exact if_pos (by simp [Failure.isA, Failure.kind?, ErrorKind.lineage, ErrorKind.parent?])
  have hoverlooked : ¬Router.IsUnsafe c.name → ∀ q,
      d.router.pathFor d.session.host c.name = .error (.pathLoop q) →
        d.session.host.Overlooks D ∨
          d.session.host.Overlooks (d.router.pathIn D (Text.segments '.' c.name)) := by
    intro hsafe q hloop
    have hparts := (not_or.mp ((Router.isUnsafe_iff c.name).not.mp hsafe)).2
    rw [Router.pathIn_eq hslash D (by simpa using hparts)]
    exact Router.overlooks_of_pathLoop hdir hslash hthere hloops hsafe hloop
  refine ⟨?_, ?_⟩
  · intro hname
    by_cases hrefused : Router.IsUnsafe c.name
    · have hpath := Router.pathFor_refused (h := d.session.host) hdir hrefused
      exact Or.inr (Or.inl ⟨_, hpath, hskipped _ hpath⟩)
    · have hno := Router.hasNul_eq_false hthere hnul (hname.resolve_left hrefused)
      rcases Router.pathFor_cases hdir hslash hthere hrefused with ⟨q, hloop⟩ | hcases
      · exact Or.inr (Or.inr ⟨hoverlooked hrefused q hloop, q, hloop⟩)
      · rw [hno, if_neg Bool.false_ne_true] at hcases
        rcases hcases with hpath | hpath
        · exact Or.inl hpath
        · exact Or.inr (Or.inl ⟨_, hpath, hskipped _ hpath⟩)
  · intro hsafe hzero
    rcases Router.pathFor_cases hdir hslash hthere hsafe with ⟨q, hloop⟩ | hcases
    · exact Or.inr ⟨hoverlooked hsafe q hloop, q, hloop⟩
    · rw [if_pos (Router.hasNul_fileParts D d.router.extension hzero)] at hcases
      refine Or.inl ⟨hcases, fun hselects => ?_⟩
      rw [dumpClasses_of_pathFor_error hdir hselects hcases]
      exact if_neg (by decide)

/-- All classes are to be written, into the directory `out`. -/
def intoOut : Config :=
  ⟨"*", Selection.default, some ⟨.relative, ["out"]⟩, none, .warning⟩

/-- A class without a segment in its name is refused, and the next one has its turn. -/
theorem className_outcome_dots :
    let d := start intoOut .plain (.start .withContainer)
    let refused : ClassInfo := ⟨"...", 1, none, [], none, [], [], []⟩
    let next : ClassInfo := ⟨"a.B", 1, none, [], none, [], [], []⟩
    d.session.host.place .target ⟨.relative, ["out"]⟩ = .ok (.existing ["out"] .directory) ∧
      d.session.host.tree.LoopFree ["out"] ∧
      ∃ fault, dumpClasses intoOut .plain d [refused, next] =
        dumpClasses intoOut .plain (d.report (.classSkipped (.output fault))) [next] := by
  intro d refused next
  have hloops : d.session.host.tree.LoopFree ["out"] := fun names hnames =>
    ⟨0, _, (Host.linkFree_withContainer.below ["out"]).follows List.prefix_rfl names hnames⟩
  refine ⟨Host.place_out, hloops, ?_⟩
  have hselects : intoOut.selects refused = true := by decide +kernel
  have hrefused : Router.IsUnsafe refused.name := by decide
  have hpath := Router.pathFor_refused (h := d.session.host) (r := d.router) rfl hrefused
  rcases (className_outcome intoOut .plain rfl rfl Host.place_out hloops refused [next]).1
      (Or.inl hrefused) with ⟨p, hp⟩ | ⟨fault, -, hdumped⟩ | ⟨-, q, hq⟩
  · rw [hpath] at hp
    exact nomatch hp
  · exact ⟨fault, hdumped hselects⟩
  · rw [hpath] at hq
    exact nomatch hq

end Dump

/-! ## A zero character in a name -/

namespace Container

/-- A container with two classes. The name of the first one ends in a zero character, which is
encoded in two bytes; the second one is `B`. -/
def zeroInName : Bytes :=
  (magic ++ [0x30, 0x33, 0x35, 0] ++ List.replicate 48 0
    ++ [2, 112, 2, 120, 0, 0, 0, 0, 0, 0, 2, 128, 0, 0].flatMap (Bytes.littleEndian 4)
    -- two strings, two types, and the class definitions
    ++ [192, 199, 0, 1].flatMap (Bytes.littleEndian 4)
    ++ [0, 1, noIndex, 0, noIndex, 0, 0, 0].flatMap (Bytes.littleEndian 4)
    ++ [1, 1, noIndex, 0, noIndex, 0, 0, 0].flatMap (Bytes.littleEndian 4)
    ++ [4, 0x4C, 0x41, 0xC0, 0x80, 0x3B, 0] ++ [3, 0x4C, 0x42, 0x3B, 0]).toArray

/-- The header of `zeroInName`. -/
def zeroInNameHeader : Header :=
  ⟨"035", ⟨2, 112⟩, ⟨2, 120⟩, ⟨0, 0⟩, ⟨0, 0⟩, ⟨0, 0⟩, ⟨2, 128⟩⟩

end Container

namespace Dump

/-- The dump of two classes into an empty directory ends at the first one, whose name holds a zero
character: the second one is not written, and there is no result. -/
theorem run_zeroInName :
    let dumped := run intoOut .plain (fun _ _ => .ok Container.zeroInName) (.start .withContainer)
      [⟨⟨.relative, ["a.dex"]⟩, false, "a.dex"⟩]
    Host.withContainer.place .target ⟨.relative, ["out"]⟩ = .ok (.existing ["out"] .directory) ∧
      Host.withContainer.tree.LinkFree ∧
      dumped.1 = .error (.file .embeddedNul) ∧ dumped.2.1 = [] ∧
      dumped.2.2.session.host.tree = Host.withContainer.tree := by
  have hheader : (Header.ofBytes Container.zeroInName).toOption =
      some Container.zeroInNameHeader := by decide +kernel
  have hbytes := Container.ofBytes_of_header hheader
  have hclasses :
      (Container.ofLayout ⟨Container.zeroInName, Container.zeroInNameHeader⟩).classes.classes =
        [⟨"A\x00", 1, none, [], none, [], [], []⟩, ⟨"B", 1, none, [], none, [], [], []⟩] := by
    decide +kernel
  have hselects : intoOut.selects ⟨"A\x00", 1, none, [], none, [], [], []⟩ = true := by
    decide +kernel
  have hends : ∀ d : Dump, d.router.directory = some ⟨.relative, ["out"]⟩ →
      d.router.extension = Writer.plain.extension → d.session.host = .withContainer →
      dumpClasses intoOut .plain d
          [⟨"A\x00", 1, none, [], none, [], [], []⟩, ⟨"B", 1, none, [], none, [], [], []⟩] =
        (.error (.file .embeddedNul), d) := by
    intro d hdir hextension hhost
    have hsees := Host.not_overlooks_of_linkFree Host.linkFree_withContainer ⟨.relative, ["out"]⟩
    have hpath := Router.pathFor_of_nul hdir (hextension ▸ by decide) (hhost ▸ hsees)
      (hhost ▸ Host.place_out)
      (show ¬Router.IsUnsafe "A\x00" by decide) (by decide)
    rw [dumpClasses_of_pathFor_error hdir hselects hpath]
    rfl
  refine ⟨Host.place_out, Host.linkFree_withContainer, ?_⟩
  simp only [run, dumpInputs, dumpInput, hbytes, dumpContainer, hclasses]
  rw [hends _ rfl rfl rfl]
  exact ⟨rfl, rfl, rfl⟩

end Dump

end DexListing
