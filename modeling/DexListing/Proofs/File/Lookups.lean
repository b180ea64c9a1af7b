import DexListing.Proofs.File.Subdirectories

/-!
# Looking up files

On a host without links a path name of plain names leads to the node at the location that it spells,
or to nothing (`Host.node?_of_linkFree`). So which files there are under such names, and with which
content, is a matter of the nodes at these locations (`Host.contentOf_iff_get?`), and two hosts that
agree on the contents agree on the files (`Host.isFile_eq_of_contentOf`). A name that is too long
leads to nothing as well, but only as long as there is no directory for it
(`Host.node?_of_longName`); links or not, that is the only reason for which the system cannot tell
whether a directory is there (`Host.isDirectory_eq_error`). A file that is there can be written
again, and the directories above it need not be made for that (`Host.storeContent_again`).
-/

set_option autoImplicit false

namespace DexListing

/-- The path name consists of names that the system takes for entries of directories: it does not go
up, and no part of it is too long. -/
def PathName.IsPlain (p : PathName) : Prop :=
  ∀ part ∈ p.parts, IsEntryName part

instance (p : PathName) : Decidable p.IsPlain :=
  inferInstanceAs (Decidable (∀ part ∈ p.parts, IsEntryName part))

namespace FileTree

variable {t : FileTree} {links : Nat} {here : Location} {steps : List String}

/-- The faults of following a path that only say that nothing is there. -/
def Absent (fault : FileFault) : Prop :=
  [FileFault.noEntry, .notDirectory, .tooManyLinks].contains fault = true

instance (fault : FileFault) : Decidable (Absent fault) :=
  inferInstanceAs (Decidable (_ = true))

/-- What the outcome of following a path says about a node at its end. -/
def nodeFound : Except FileFault Place → Except FileFault (Option Node)
  | .ok (.existing _ node) => .ok (some node)
  | .ok (.vacant _) => .ok none
  | .error fault => if Absent fault then .ok none else .error fault

/-- Nothing is below what is not a directory. -/
theorem get?_append_of_not_directory (hhere : t.get? here ≠ some .directory)
    (hsteps : steps ≠ []) : t.get? (here ++ steps) = none := by
  cases hget : t.get? (here ++ steps) with
  | none => rfl
  | some node => exact absurd (get?_of_append hsteps hget) hhere

/-- Without links the system finds under names what stands at the location that they spell. -/
theorem LinkFree.nodeFound_walk (hfree : t.LinkFree) (hsteps : ∀ step ∈ steps, IsEntryName step) :
    nodeFound (t.walk .target links here steps) = .ok (t.get? (here ++ steps)) := by
  induction steps generalizing here with
  | nil =>
    rw [walk, List.append_nil]
    cases t.get? here <;> rfl
  | cons step rest ih =>
    have hname := hsteps step List.mem_cons_self
    have hrest : ∀ next ∈ rest, IsEntryName next :=
      fun next hnext => hsteps next (List.mem_cons_of_mem step hnext)
    by_cases hhere : t.get? here = some .directory
    · have htakes : Purpose.target.Takes step rest := hname.takes (by decide) rest
      rw [walk_of_takes hhere htakes, List.append_cons here step rest]
      cases hget : t.get? (here ++ [step]) with
      | none =>
        rw [get?_append_of_none hget]
        dsimp only
        split <;> rfl
      | some node =>
        cases node with
        | link target => exact absurd hget (hfree _ target)
        | directory => exact ih hrest
        | file content => exact ih hrest
    · rw [walk, if_pos hhere, get?_append_of_not_directory hhere (List.cons_ne_nil step rest)]
      rfl

/-- A name that is too long is refused in a directory. Anywhere else it is not even looked at, and
the system only says that nothing is there. -/
theorem LinkFree.nodeFound_walk_long (hfree : t.LinkFree)
    (hsteps : ∀ step ∈ steps, IsEntryName step) {long : String} (hname : IsName long)
    (hlong : maxNameBytes < long.utf8ByteSize) :
    nodeFound (t.walk .target links here (steps ++ [long])) =
      if t.get? (here ++ steps) = some .directory then .error .nameTooLong else .ok none := by
  induction steps generalizing here with
  | nil =>
    rw [List.nil_append, List.append_nil, walk]
    by_cases hhere : t.get? here = some .directory
    · rw [if_neg (not_not.mpr hhere), if_neg hname.1, if_neg hname.2, if_neg (by simp),
        if_pos hlong, if_pos hhere]
      rfl
    · rw [if_pos hhere, if_neg hhere]
      rfl
  | cons step rest ih =>
    have hstep := hsteps step List.mem_cons_self
    have hrest : ∀ next ∈ rest, IsEntryName next :=
      fun next hnext => hsteps next (List.mem_cons_of_mem step hnext)
    rw [List.cons_append]
    by_cases hhere : t.get? here = some .directory
    · have htakes : Purpose.target.Takes step (rest ++ [long]) := hstep.takes (by decide) _
      rw [walk_of_takes hhere htakes, List.append_cons here step rest]
      cases hget : t.get? (here ++ [step]) with
      | none =>
        rw [get?_append_of_none hget]
        dsimp only
        rw [if_neg (List.concat_ne_nil long rest)]
        rfl
      | some node =>
        cases node with
        | link target => exact absurd hget (hfree _ target)
        | directory => exact ih hrest
        | file content => exact ih hrest
    · rw [walk, if_pos hhere,
        get?_append_of_not_directory hhere (List.cons_ne_nil step rest)]
      rfl

/-- A name that is looked up is looked up in a directory, and the steps before it lead there. -/
theorem Walks.exists_init {last : String} (hlast : IsName last) {place : Place}
    (h : t.Walks .target links here (steps ++ [last]) place) :
    ∃ l, t.Walks .target links here steps (.existing l .directory) := by
  have htakes {step : String} {more : List String}
      (htaken : Purpose.target.Takes step (more ++ [last])) : Purpose.target.Takes step more :=
    Purpose.takes_of_isName (by decide) htaken.isName htaken.short more
  generalize hall : steps ++ [last] = all at h
  induction h generalizing steps with
  | arrived => exact absurd hall (List.concat_ne_nil last steps)
  | stay hhere hstep _ ih =>
    cases steps with
    | nil =>
      obtain ⟨rfl, -⟩ := List.cons.inj hall
      exact absurd hstep hlast.1
    | cons step steps =>
      obtain ⟨rfl, hrest⟩ := List.cons.inj hall
      obtain ⟨l, hwalk⟩ := ih hrest
      exact ⟨l, .stay hhere hstep hwalk⟩
  | up hhere _ ih =>
    cases steps with
    | nil =>
      obtain ⟨rfl, -⟩ := List.cons.inj hall
      exact absurd rfl hlast.2
    | cons step steps =>
      obtain ⟨rfl, hrest⟩ := List.cons.inj hall
      obtain ⟨l, hwalk⟩ := ih hrest
      exact ⟨l, .up hhere hwalk⟩
  | vacant hhere =>
    obtain ⟨rfl, -⟩ := List.append_inj' (hall.trans (List.nil_append _).symm) rfl
    exact ⟨_, .arrived hhere⟩
  | atLink _ _ _ hentry => exact nomatch hentry
  | @through _ _ _ target rest _ hhere htaken hlink _ _ ih =>
    cases steps with
    | nil => exact ⟨_, .arrived hhere⟩
    | cons step steps =>
      obtain ⟨rfl, rfl⟩ := List.cons.inj hall
      obtain ⟨l, hwalk⟩ := ih (List.append_assoc _ _ _)
      exact ⟨l, .through hhere (htakes htaken) hlink (fun hends => nomatch hends.2) hwalk⟩
  | into hhere htaken hnode hlink _ ih =>
    cases steps with
    | nil => exact ⟨_, .arrived hhere⟩
    | cons step steps =>
      obtain ⟨rfl, rfl⟩ := List.cons.inj hall
      obtain ⟨l, hwalk⟩ := ih rfl
      exact ⟨l, .into hhere (htakes htaken) hnode hlink hwalk⟩

/-- Without links a file that can be read can be written, unless the path ends in a slash. -/
theorem LinkFree.to_writing (hfree : t.LinkFree) {place : Place}
    (h : t.Walks .target links here steps place) (hlast : steps.getLast? ≠ some "") :
    t.Walks .writing links here steps place := by
  have hbelow {step : String} {rest : List String} (hlast : (step :: rest).getLast? ≠ some "") :
      rest.getLast? ≠ some "" := by
    cases rest with
    | nil => exact nofun
    | cons next rest => rwa [List.getLast?_cons_cons] at hlast
  have htakes {step : String} {rest : List String} (hlast : rest.getLast? ≠ some "")
      (htaken : Purpose.target.Takes step rest) : Purpose.writing.Takes step rest := by
    refine ⟨htaken.isName, fun ⟨_, hrest, hall⟩ => hlast ?_, htaken.short⟩
    rw [List.getLast?_eq_some_getLast hrest]
    exact congrArg some (of_decide_eq_true (List.all_eq_true.mp hall _ (List.getLast_mem hrest)))
  induction h with
  | arrived hnode => exact .arrived hnode
  | stay hhere hstep _ ih => exact .stay hhere hstep (ih (hbelow hlast))
  | up hhere _ ih => exact .up hhere (ih (hbelow hlast))
  | vacant hhere htaken hnone => exact .vacant hhere (htakes nofun htaken) hnone
  | atLink _ _ hlink => exact absurd hlink (hfree _ _)
  | through _ _ hlink => exact absurd hlink (hfree _ _)
  | into hhere htaken hnode hno _ ih =>
    exact .into hhere (htakes (hbelow hlast) htaken) hnode hno (ih (hbelow hlast))

end FileTree

namespace Host

variable {h h' : Host} {p : PathName} {content : Bytes}

/-- The system takes a path name under which it finds something. -/
theorem usable_of_place {purpose : Purpose} {place : Place}
    (hplace : h.place purpose p = .ok place) : p.Usable := by
  refine ⟨(walks_of_place hplace).1, Nat.not_le.mp fun hlong => ?_⟩
  unfold Host.place at hplace
  split at hplace <;> exact nomatch hplace

/-! ## The content under a path name -/

/-- Content is had from a file that the path name leads to. -/
theorem place_of_contentOf (hcontent : h.contentOf p = .ok content) :
    ∃ l, h.place .target p = .ok (.existing l (.file content)) := by
  unfold contentOf at hcontent
  split at hcontent
  · exact nomatch hcontent
  · exact nomatch hcontent
  · next l content' hplace =>
    obtain rfl := Except.ok.inj hcontent
    exact ⟨l, hplace⟩
  · exact nomatch hcontent

/-- A path name that leads to a file has its content. -/
theorem contentOf_of_place {l : Location}
    (hplace : h.place .target p = .ok (.existing l (.file content))) :
    h.contentOf p = .ok content := by
  unfold contentOf
  rw [hplace]

/-- A path name with a zero character leads to no file. -/
theorem hasNul_of_contentOf (hcontent : h.contentOf p = .ok content) : p.hasNul = false := by
  obtain ⟨l, hplace⟩ := place_of_contentOf hcontent
  exact (walks_of_place hplace).1

/-- What has been written can be read. -/
theorem contentOf_of_storeContent {h' : Host} (hstore : h.storeContent p content = .ok h') :
    h'.contentOf p = .ok content := by
  obtain ⟨place, -, -, -, hplace⟩ := exists_put_of_storeContent hstore
  exact contentOf_of_place hplace

/-- New files are not in the way of those that are there. -/
theorem contentOf_of_gainsFiles (hworking : h'.workingDirectory = h.workingDirectory)
    (hgains : h.tree.GainsFiles h'.tree) (hcontent : h.contentOf p = .ok content) :
    h'.contentOf p = .ok content := by
  obtain ⟨l, hplace⟩ := place_of_contentOf hcontent
  have hfile := (walks_of_place hplace).2.get?_existing
  exact contentOf_of_place (place_of_grows hplace (growsBelow_of_gainsFiles hworking hgains)
    (fun _ => nofun) (hgains.get?_eq hfile))

/-- A path name has content if it leads to a file with this content. -/
theorem contentOf_eq_ok_iff :
    h.contentOf p = .ok content ↔ h.node? p = .ok (some (.file content)) := by
  unfold contentOf node?
  cases h.place .target p with
  | error e =>
    dsimp only
    refine iff_of_false nofun ?_
    split <;> exact nofun
  | ok place =>
    cases place with
    | vacant l => exact iff_of_false nofun nofun
    | existing l node =>
      cases node with
      | file content' => simp
      | directory => exact iff_of_false nofun nofun
      | link target => exact iff_of_false nofun nofun

/-! ## Plain path names -/

/-- What is under a path name of plain names: it spells the location. -/
theorem node?_of_linkFree (hfree : h.tree.LinkFree) (hplain : p.IsPlain) :
    h.node? p =
      if p.hasNul then .ok none
      else if p.text.utf8ByteSize ≥ maxPathBytes then .error (.refused .nameTooLong p)
      else .ok (h.tree.get? (h.start p ++ p.parts)) := by
  have hfound : FileTree.nodeFound (h.tree.walk .target maxLinks (h.start p) p.parts) = _ :=
    hfree.nodeFound_walk hplain
  unfold node? place
  by_cases hnul : p.hasNul
  · rw [if_pos hnul, if_pos hnul]
    rfl
  · rw [if_neg hnul, if_neg hnul]
    by_cases hlength : p.text.utf8ByteSize ≥ maxPathBytes
    · rw [if_pos hlength, if_pos hlength]
      rfl
    · rw [if_neg hlength, if_neg hlength]
      cases hwalk : h.tree.walk .target maxLinks (h.start p) p.parts with
      | error fault =>
        rw [hwalk] at hfound
        cases fault with
        | noEntry | notDirectory | tooManyLinks => exact congrArg Except.ok (Except.ok.inj hfound)
        | alreadyExists | isDirectory | nameTooLong => exact nomatch hfound
      | ok place =>
        rw [hwalk] at hfound
        cases place <;> exact congrArg Except.ok (Except.ok.inj hfound)

/-- A path name with a name at its end that is too long leads to nothing as long as there is no
directory for the name, and is refused from then on. -/
theorem node?_of_longName (hfree : h.tree.LinkFree) {root : PathRoot} {parts : List String}
    {long : String} (hplain : PathName.IsPlain ⟨root, parts⟩) (hname : IsName long)
    (hlong : maxNameBytes < long.utf8ByteSize)
    (husable : PathName.Usable ⟨root, parts ++ [long]⟩) :
    h.node? ⟨root, parts ++ [long]⟩ =
      if h.tree.get? (h.start ⟨root, parts⟩ ++ parts) = some .directory then
        .error (.refused .nameTooLong ⟨root, parts ++ [long]⟩)
      else .ok none := by
  have hfound : FileTree.nodeFound
      (h.tree.walk .target maxLinks (h.start ⟨root, parts⟩) (parts ++ [long])) = _ :=
    hfree.nodeFound_walk_long hplain hname hlong
  have hstart : h.start ⟨root, parts ++ [long]⟩ = h.start ⟨root, parts⟩ := rfl
  unfold node? place
  rw [if_neg (Bool.eq_false_iff.mp husable.noNul), if_neg (Nat.not_le.mpr husable.short), hstart]
  dsimp only
  cases hwalk : h.tree.walk .target maxLinks (h.start ⟨root, parts⟩) (parts ++ [long]) with
  | error fault =>
    rw [hwalk] at hfound
    split at hfound
    · next hdir =>
      rw [if_pos hdir]
      cases fault with
      | nameTooLong => rfl
      | noEntry | notDirectory | tooManyLinks | alreadyExists | isDirectory => exact nomatch hfound
    · next hdir =>
      rw [if_neg hdir]
      cases fault with
      | noEntry | notDirectory | tooManyLinks => rfl
      | alreadyExists | isDirectory | nameTooLong => exact nomatch hfound
  | ok place =>
    rw [hwalk] at hfound
    split at hfound
    · cases place <;> exact nomatch hfound
    · next hdir =>
      rw [if_neg hdir]
      cases place with
      | existing l node => exact nomatch hfound
      | vacant l => rfl

/-- A file with some content is under a path name of plain names if it is at the location that they
spell. -/
theorem contentOf_iff_get? (hfree : h.tree.LinkFree) (hplain : p.IsPlain) :
    h.contentOf p = .ok content ↔
      p.Usable ∧ h.tree.get? (h.start p ++ p.parts) = some (.file content) := by
  rw [contentOf_eq_ok_iff, node?_of_linkFree hfree hplain]
  by_cases hnul : p.hasNul = true
  · rw [if_pos hnul]
    refine iff_of_false nofun ?_
    rintro ⟨husable, -⟩
    rw [husable.noNul] at hnul
    exact nomatch hnul
  · rw [if_neg hnul]
    by_cases hlength : p.text.utf8ByteSize ≥ maxPathBytes
    · rw [if_pos hlength]
      exact iff_of_false nofun fun hand => absurd hand.1.short (Nat.not_lt.mpr hlength)
    · rw [if_neg hlength, Except.ok.injEq]
      exact (and_iff_right ⟨by simpa using hnul, Nat.not_le.mp hlength⟩).symm

/-- Such a path name spells its real path. -/
theorem realPath_of_linkFree_plain (hfree : h.tree.LinkFree) (hplain : p.IsPlain)
    (hnul : p.hasNul = false) : h.realPath p = .ok (h.start p ++ p.parts) := by
  rw [realPath_eq_of_linkFree hfree, hnul, locate,
    foldl_writtenStep_names fun part hpart => (hplain part hpart).isName]
  rfl

/-- A path name is that of a file if it has some content. -/
theorem isFile_eq_true_iff : h.isFile p = .ok true ↔ ∃ content, h.contentOf p = .ok content := by
  simp only [contentOf_eq_ok_iff]
  unfold isFile
  cases h.node? p with
  | error e => exact iff_of_false nofun nofun
  | ok node =>
    rcases node with _ | _ | content | target
    · exact iff_of_false nofun nofun
    · exact iff_of_false nofun nofun
    · exact iff_of_true rfl ⟨content, rfl⟩
    · exact iff_of_false nofun nofun

/-- Hosts without links that agree on the contents under a path name agree on whether a file is
there. -/
theorem isFile_eq_of_contentOf (hfree : h.tree.LinkFree) (hfree' : h'.tree.LinkFree)
    (hplain : p.IsPlain)
    (hsame : ∀ content, h.contentOf p = .ok content ↔ h'.contentOf p = .ok content) :
    h'.isFile p = h.isFile p := by
  have hnode := node?_of_linkFree hfree hplain
  have hnode' := node?_of_linkFree hfree' hplain
  have hiff : h'.isFile p = .ok true ↔ h.isFile p = .ok true := by
    simp only [isFile_eq_true_iff, hsame]
  unfold isFile at hiff ⊢
  rw [hnode, hnode'] at hiff ⊢
  split
  · rfl
  · split
    · rfl
    · -- Whether it is a file is then all that can differ.
      next hnul hlength =>
      simp only [if_neg hnul, if_neg hlength, Except.map, Except.ok.injEq] at hiff ⊢
      exact Bool.eq_iff_iff.mpr hiff

/-! ## Writing a file that is there -/

/-- A directory that is there need not be made, and those above it need not either. -/
theorem ensureDirectories_of_isDirectory (hdir : h.isDirectory p = .ok true) :
    h.ensureDirectories p = (h, .ok ()) := by
  obtain ⟨l, hplace⟩ := isDirectory_eq_true_iff.mp hdir
  have hdone := ensureParts_of_place hplace []
  rwa [List.append_nil] at hdone

/-- Without links a file that is there can be written again, and making the directories above it
changes nothing. -/
theorem storeContent_again (hfree : h.tree.LinkFree) {root : PathRoot} {parts : List String}
    {last : String} (hlast : IsName last)
    (hcontent : h.contentOf ⟨root, parts ++ [last]⟩ = .ok content) :
    h.ensureDirectories ⟨root, parts⟩ = (h, .ok ()) ∧
      ∀ text, ∃ h', h.storeContent ⟨root, parts ++ [last]⟩ text = .ok h' := by
  obtain ⟨l, hplace⟩ := place_of_contentOf hcontent
  have hwalk := (walks_of_place hplace).2
  have habove := (usable_of_place hplace).of_append
  obtain ⟨above, hinit⟩ := hwalk.exists_init hlast
  have hdir : h.isDirectory ⟨root, parts⟩ = .ok true :=
    isDirectory_eq_true_iff.mpr ⟨above, place_of_short habove.noNul habove.short hinit⟩
  refine ⟨ensureDirectories_of_isDirectory hdir, fun text => ?_⟩
  have hnotEmpty : (parts ++ [last]).getLast? ≠ some "" := by
    rw [List.getLast?_concat]
    intro hempty
    exact hlast.1 (Or.inl (Option.some.inj hempty))
  have hwriting := place_of_walks hplace rfl (hfree.to_writing hwalk hnotEmpty)
  unfold storeContent
  rw [hwriting]
  exact ⟨_, rfl⟩

end Host

/-! ## What is refused -/

/-- A name with too many bytes is among the steps, or among those of a link. -/
def FileTree.MeetsLongName (t : FileTree) (steps : List String) : Prop :=
  ∃ name, maxNameBytes < name.utf8ByteSize ∧
    (name ∈ steps ∨ ∃ l target, t.get? l = some (.link target) ∧ name ∈ linkSteps target)

namespace FileTree

variable {t : FileTree}

/-- A step that goes on to a long name meets it. -/
theorem MeetsLongName.cons {steps : List String} (h : t.MeetsLongName steps) (step : String) :
    t.MeetsLongName (step :: steps) := by
  obtain ⟨name, hlong, hmem | hlink⟩ := h
  · exact ⟨name, hlong, Or.inl (List.mem_cons_of_mem step hmem)⟩
  · exact ⟨name, hlong, Or.inr hlink⟩

/-- What is met behind a link is met on the way through it. -/
theorem MeetsLongName.through {l : Location} {target : String} {rest : List String}
    (hlink : t.get? l = some (.link target)) (h : t.MeetsLongName (linkSteps target ++ rest)) :
    t.MeetsLongName rest := by
  obtain ⟨name, hlong, hmem | hother⟩ := h
  · rcases List.mem_append.mp hmem with htarget | hrest
    · exact ⟨name, hlong, Or.inr ⟨l, target, hlink, htarget⟩⟩
    · exact ⟨name, hlong, Or.inl hrest⟩
  · exact ⟨name, hlong, Or.inr hother⟩

/-- Following a path to its target fails because nothing is there, or else because of a name that is
too long. -/
theorem walk_target_fault {links : Nat} {here : Location} {steps : List String}
    {fault : FileFault} (h : t.walk .target links here steps = .error fault)
    (hpresent : ¬Absent fault) : fault = .nameTooLong ∧ t.MeetsLongName steps := by
  have hnot : ∀ {other : FileFault}, Absent other →
      (Except.error other : Except FileFault Place) ≠ .error fault := by
    rintro other habsent heq
    exact hpresent (Except.error.inj heq ▸ habsent)
  fun_induction FileTree.walk t .target links here steps with
  | case1 | case8 | case10 => cases h
  | case2 | case3 | case9 | case11 => exact absurd h (hnot (by decide))
  | case4 _ _ step _ _ _ ih | case13 _ _ step _ _ _ _ _ _ _ _ _ ih =>
    obtain ⟨hfault, hmeets⟩ := ih h
    exact ⟨hfault, hmeets.cons step⟩
  | case5 _ _ _ _ _ ih =>
    obtain ⟨hfault, hmeets⟩ := ih h
    exact ⟨hfault, hmeets.cons ".."⟩
  | case6 _ _ _ _ _ _ _ hwriting => exact absurd hwriting.1 (by decide)
  | case7 _ _ step _ _ _ _ _ hlong =>
    exact ⟨(Except.error.inj h).symm, step, hlong, Or.inl List.mem_cons_self⟩
  | case12 _ step _ _ _ _ _ _ _ hlink _ _ ih =>
    obtain ⟨hfault, hmeets⟩ := ih h
    exact ⟨hfault, (hmeets.through hlink).cons step⟩

end FileTree

namespace Host

variable {h : Host} {p : PathName}

/-- The path name is too long as a whole, or a name with too many bytes is met in it. -/
def MeetsLongName (h : Host) (p : PathName) : Prop :=
  maxPathBytes ≤ p.text.utf8ByteSize ∨ h.tree.MeetsLongName p.parts

/-- Whether there is a directory can always be told, unless a name is too long. -/
theorem isDirectory_eq_error {e : FileError} (hrefused : h.isDirectory p = .error e) :
    e = .refused .nameTooLong p ∧ h.MeetsLongName p := by
  unfold isDirectory node? place at hrefused
  by_cases hnul : p.hasNul = true
  · rw [if_pos hnul] at hrefused
    exact nomatch hrefused
  · rw [if_neg hnul] at hrefused
    by_cases hlength : p.text.utf8ByteSize ≥ maxPathBytes
    · rw [if_pos hlength] at hrefused
      exact ⟨(Except.error.inj hrefused).symm, Or.inl hlength⟩
    · rw [if_neg hlength] at hrefused
      cases hwalk : h.tree.walk .target maxLinks (h.start p) p.parts with
      | ok found =>
        rw [hwalk] at hrefused
        cases found <;> exact nomatch hrefused
      | error fault =>
        rw [hwalk] at hrefused
        by_cases habsent : FileTree.Absent fault
        · dsimp only at hrefused
          rw [if_pos (show saysAbsent (.refused fault p) = true from habsent)] at hrefused
          exact nomatch hrefused
        · obtain ⟨rfl, hmeets⟩ := FileTree.walk_target_fault hwalk habsent
          exact ⟨(Except.error.inj hrefused).symm, Or.inr hmeets⟩

end Host

end DexListing
