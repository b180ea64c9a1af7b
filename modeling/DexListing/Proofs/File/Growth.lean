import DexListing.Proofs.File.Following

/-!
# Changes below a root

Making directories and writing files changes a host in a restricted way: links stay what they are,
directories stay directories, and nothing changes but below some root
(`Host.GrowsBelow`). A path name is safe for a root when its steps lead below the root, wherever
they lead (`Host.LeadsBelow`); growth keeps that, because only links matter for it. From a safe
path name follows that neither making the directories above it nor writing to it changes
anything outside of the root (`ensureParts_grows`, `storeContent_grows`), also when it fails
half-way.
-/

set_option autoImplicit false

namespace DexListing

namespace Host

/-- A host after changes below a root: no link is made or removed, no directory is removed, and
what does not stand below the root is as before. -/
structure GrowsBelow (root : Location) (h h' : Host) : Prop where
  workingDirectory : h'.workingDirectory = h.workingDirectory
  links : ∀ l target,
    h.tree.get? l = some (.link target) ↔ h'.tree.get? l = some (.link target)
  directories : ∀ l, h.tree.get? l = some .directory → h'.tree.get? l = some .directory
  outside : ∀ l, ¬root <+: l → h'.tree.get? l = h.tree.get? l

/-- The steps of a path name lead below a root, if they lead anywhere. -/
def LeadsBelow (h : Host) (root : Location) (p : PathName) : Prop :=
  ∀ links l, h.tree.Follows (h.start p) p.parts links l → root <+: l

variable {root : Location} {h h' : Host}

namespace GrowsBelow

/-- No change at all. -/
theorem refl (root : Location) (h : Host) : h.GrowsBelow root h :=
  ⟨rfl, fun _ _ => Iff.rfl, fun _ hl => hl, fun _ _ => rfl⟩

/-- Changes after changes. -/
theorem trans {h'' : Host} (first : h.GrowsBelow root h') (second : h'.GrowsBelow root h'') :
    h.GrowsBelow root h'' where
  workingDirectory := second.workingDirectory.trans first.workingDirectory
  links l target := (first.links l target).trans (second.links l target)
  directories l hl := second.directories l (first.directories l hl)
  outside l hl := (second.outside l hl).trans (first.outside l hl)

/-- A directory or a file that is put below the root, and not in place of a link. -/
theorem put {l : Location} {n : Node} (hroot : root <+: l) (hnode : ∀ target, n ≠ .link target)
    (hold : ∀ target, h.tree.get? l ≠ some (.link target)) : h.GrowsBelow root (h.put l n) := by
  by_cases hadmits : h.tree.Admits l n
  · have hget : ∀ q, (h.put l n).tree.get? q = if q = l then some n else h.tree.get? q :=
      h.tree.get?_put hadmits
    refine ⟨rfl, ?_, ?_, ?_⟩
    · intro q target
      rw [hget]
      by_cases hq : q = l
      · subst hq
        rw [if_pos rfl]
        constructor
        · intro hlink
          exact absurd hlink (hold target)
        · intro hlink
          exact absurd (Option.some.inj hlink) (hnode target)
      · rw [if_neg hq]
    · intro q hq
      rw [hget]
      split
      · next heq =>
        subst heq
        rw [hadmits.2.2 hq]
      · exact hq
    · intro q hq
      rw [hget, if_neg]
      intro heq
      exact hq (heq ▸ hroot)
  · have hsame : h.put l n = h := by simp [Host.put, FileTree.put, hadmits]
    rw [hsame]
    exact refl root h

/-- Growth does not change where a path name starts. -/
theorem start_eq (hgrows : h.GrowsBelow root h') (p : PathName) : h'.start p = h.start p := by
  unfold Host.start
  rw [hgrows.workingDirectory]

/-- Growth keeps a path name safe. -/
theorem leadsBelow (hgrows : h.GrowsBelow root h') {p : PathName} (hsafe : h.LeadsBelow root p) :
    h'.LeadsBelow root p := by
  intro links l hfollows
  rw [hgrows.start_eq] at hfollows
  exact hsafe links l (hfollows.of_links_eq fun q target => (hgrows.links q target).symm)

end GrowsBelow

/-! ## Directories stay directories -/

/-- A path name leads to a directory when the system finds one at its end. -/
theorem isDirectory_eq_true_iff {p : PathName} :
    h.isDirectory p = .ok true ↔ ∃ l, h.place .target p = .ok (.existing l .directory) := by
  unfold isDirectory node?
  cases hplace : h.place .target p with
  | error e =>
    dsimp only
    split <;> simp [Except.map]
  | ok place =>
    cases place with
    | vacant l => simp [Except.map]
    | existing l node => simp [Except.map]

/-- A place is found by a path name without a zero character that is not too long, by a walk; so
where a path name leads somewhere, it leads to wherever else one can walk with it. -/
theorem place_of_walks {purpose purpose' : Purpose} {p : PathName} {place found : Place}
    (hfound : h.place purpose p = .ok found) (hstart : h'.start p = h.start p)
    (hwalk : h'.tree.Walks purpose' maxLinks (h.start p) p.parts place) :
    h'.place purpose' p = .ok place := by
  unfold Host.place at hfound ⊢
  split at hfound
  · exact nomatch hfound
  · next hnul =>
    split at hfound
    · exact nomatch hfound
    · next hlength =>
      rw [if_neg hnul, if_neg hlength, hstart, hwalk.walk_eq]

/-- Growth keeps the directories that path names lead to where they are. -/
theorem GrowsBelow.place_directory (hgrows : h.GrowsBelow root h') {p : PathName} {l : Location}
    (hplace : h.place .target p = .ok (.existing l .directory)) :
    h'.place .target p = .ok (.existing l .directory) := by
  have hwalk := (walks_of_place hplace).2
  exact place_of_walks hplace (hgrows.start_eq p)
    (hwalk.of_kept (fun q target => (hgrows.links q target).mp) hgrows.directories)

/-- The system finds the entry of a path name under which there is something. -/
theorem exists_entry_of_place {p : PathName} {l : Location} {node : Node}
    (hplace : h.place .target p = .ok (.existing l node)) :
    ∃ l' node', h.place .entry p = .ok (.existing l' node') := by
  obtain ⟨l', node', hentry⟩ := (walks_of_place hplace).2.exists_entry
  exact ⟨l', node', place_of_walks hplace rfl hentry⟩

/-- A directory that is there need not be made. -/
theorem ensureDirectory_of_isDirectory {p : PathName} (hdir : h.isDirectory p = .ok true) :
    h.ensureDirectory p = (h, .ok ()) := by
  obtain ⟨l, hplace⟩ := isDirectory_eq_true_iff.mp hdir
  obtain ⟨l', node', hentry⟩ := exists_entry_of_place hplace
  have hmake : h.makeDirectory p = .error (.refused .alreadyExists p) := by
    unfold makeDirectory makeNode
    rw [hentry]
  unfold ensureDirectory
  rw [hmake]
  dsimp only
  unfold acceptDirectory
  rw [hdir]

/-! ## Making directories -/

/-- Where a safe path name goes on below a vacant place, that place is below the root: the root is
a directory, so it cannot be further down. -/
theorem LeadsBelow.of_vacant {pathRoot : PathRoot} {parts below : List String} {l : Location}
    (hsafe : h.LeadsBelow root ⟨pathRoot, parts ++ below⟩)
    (hroot : h.tree.get? root = some .directory) (hnames : ∀ name ∈ below, IsName name)
    {purpose : Purpose} (hplace : h.place purpose ⟨pathRoot, parts⟩ = .ok (.vacant l)) :
    root <+: l := by
  have hwalk := (walks_of_place hplace).2
  obtain ⟨links, hfollows⟩ := hwalk.follows (Or.inr fun _ _ => nofun)
  have hall := hfollows.append (FileTree.Follows.names_of_none hwalk.get?_vacant below hnames)
  have hprefix := hsafe _ _ hall
  rcases List.prefix_or_prefix_of_prefix hprefix (List.prefix_append l below) with hle | hge
  · exact hle
  · obtain ⟨more, hmore⟩ := hge
    have hvacant := hwalk.get?_vacant
    change h.tree.get? l = none at hvacant
    have hnone := FileTree.get?_append_of_none hvacant more
    rw [hmore, hroot] at hnone
    exact nomatch hnone

/-- Making one directory changes nothing but below the root, if a vacant place there is below
it. -/
theorem ensureDirectory_grows {p : PathName}
    (hvacant : ∀ l, h.place .entry p = .ok (.vacant l) → root <+: l) :
    h.GrowsBelow root (h.ensureDirectory p).1 := by
  unfold ensureDirectory
  split
  · next made hmake =>
    unfold makeDirectory makeNode at hmake
    split at hmake
    · exact nomatch hmake
    · next l hplace =>
      obtain rfl := Except.ok.inj hmake
      have hnone := (walks_of_place hplace).2.get?_vacant
      exact .put (hvacant l hplace) (fun _ => nofun) (by simp [hnone])
    · exact nomatch hmake
  all_goals exact .refl root h

/-- Making the directories above a safe path name changes nothing but below the root. The
induction is on how many of them are asked for below the one that is there. -/
theorem ensureParts_grows {pathRoot : PathRoot} {base above below : List String}
    (hbase : h.isDirectory ⟨pathRoot, base⟩ = .ok true)
    (hroot : h.tree.get? root = some .directory)
    (hsafe : h.LeadsBelow root ⟨pathRoot, base ++ (above ++ below)⟩)
    (hnames : ∀ name ∈ above ++ below, IsName name) (k : Nat) :
    h.GrowsBelow root (h.ensureParts pathRoot (base ++ above) (base.length + k)).1 := by
  induction k with
  | zero =>
    have hensure := ensureDirectory_of_isDirectory hbase
    have htake : (base ++ above).take base.length = base := List.take_left
    rw [Nat.add_zero]
    cases hlength : base.length with
    | zero =>
      rw [hlength] at htake
      simp only [ensureParts, htake, hensure]
      exact .refl root h
    | succ n =>
      rw [hlength] at htake
      simp only [ensureParts, htake, hensure]
      exact .refl root h
  | succ k ih =>
    have htake : (base ++ above).take (base.length + (k + 1)) = base ++ above.take (k + 1) :=
      List.take_length_add_append (k + 1)
    -- One more directory is safe to make on every host that has grown from this one.
    have hstep : ∀ g : Host, h.GrowsBelow root g →
        g.GrowsBelow root (g.ensureDirectory ⟨pathRoot, base ++ above.take (k + 1)⟩).1 := by
      intro g hgrows
      apply ensureDirectory_grows
      intro l hplace
      have hsplit : base ++ (above ++ below) =
          base ++ above.take (k + 1) ++ (above.drop (k + 1) ++ below) := by
        rw [List.append_assoc, ← List.append_assoc (above.take (k + 1)), List.take_append_drop]
      have hsafe' := hgrows.leadsBelow hsafe
      rw [hsplit] at hsafe'
      refine hsafe'.of_vacant (hgrows.directories root hroot) ?_ hplace
      intro name hname
      apply hnames name
      rcases List.mem_append.mp hname with hdrop | hbelow
      · exact List.mem_append_left _ (List.mem_of_mem_drop hdrop)
      · exact List.mem_append_right _ hbelow
    rw [← Nat.add_assoc] at htake ⊢
    simp only [ensureParts, htake]
    split
    · split
      · next above' e habove =>
        rw [habove] at ih
        exact ih
      · next above' habove =>
        rw [habove] at ih
        exact ih.trans (hstep above' ih)
    · exact hstep h (.refl root h)

/-! ## Writing files -/

/-- Writing to a safe path name changes nothing but below the root. -/
theorem storeContent_grows {p : PathName} {content : Bytes} (hsafe : h.LeadsBelow root p)
    (hstore : h.storeContent p content = .ok h') : h.GrowsBelow root h' := by
  have hbelow : ∀ place, h.place .writing p = .ok place → root <+: place.location := by
    intro place hplace
    obtain ⟨links, hfollows⟩ := (walks_of_place hplace).2.follows (Or.inl (by decide))
    exact hsafe links place.location hfollows
  unfold storeContent at hstore
  split at hstore
  · exact nomatch hstore
  · next l hplace =>
    obtain rfl := Except.ok.inj hstore
    have hnone := (walks_of_place hplace).2.get?_vacant
    exact .put (hbelow _ hplace) (fun _ => nofun) (by simp [hnone])
  · next l old hplace =>
    obtain rfl := Except.ok.inj hstore
    have hfile := (walks_of_place hplace).2.get?_existing
    exact .put (hbelow _ hplace) (fun _ => nofun) (by simp [hfile])
  · exact nomatch hstore

end Host

end DexListing
