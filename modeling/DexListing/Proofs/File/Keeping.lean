import DexListing.Proofs.File.Growth

/-!
# What a host keeps

A location that a path name leads to stays where it is as long as links and directories do, whatever
happens to the files (`Host.place_of_grows`). Making directories and writing files moves nothing:
besides links and directories also files stay what they are, apart from their content
(`Host.Keeps`). New files, in turn, do not make or hide a directory
(`Host.isDirectory_of_gainsFiles`).
-/

set_option autoImplicit false

namespace DexListing

namespace FileTree

variable {t t' : FileTree} {purpose : Purpose}

/-- A walk that goes on starts at a directory. -/
theorem Walks.get?_start_or {links : Nat} {here : Location} {steps : List String} {place : Place}
    (h : t.Walks purpose links here steps place) :
    t.get? here = some .directory ∨ place.location = here := by
  cases h with
  | arrived => exact Or.inr rfl
  | stay hhere => exact Or.inl hhere
  | up hhere => exact Or.inl hhere
  | vacant hhere => exact Or.inl hhere
  | atLink hhere => exact Or.inl hhere
  | through hhere => exact Or.inl hhere
  | into hhere => exact Or.inl hhere

/-- A walk leads to the same location in every tree that keeps links and directories, if something
other than a link is there. -/
theorem Walks.of_filled {links : Nat} {here : Location} {steps : List String} {place : Place}
    {node : Node}
    (hlinks : ∀ p target, t.get? p = some (.link target) → t'.get? p = some (.link target))
    (hdirs : ∀ p, t.get? p = some .directory → t'.get? p = some .directory)
    (hnode : ∀ target, node ≠ .link target) (hnow : t'.get? place.location = some node)
    (h : t.Walks purpose links here steps place) :
    t'.Walks purpose links here steps (.existing place.location node) := by
  induction h with
  | arrived _ => exact .arrived hnow
  | stay hhere hstep _ ih => exact .stay (hdirs _ hhere) hstep (ih hnow)
  | up hhere _ ih => exact .up (hdirs _ hhere) (ih hnow)
  | vacant hhere htakes _ => exact .into (hdirs _ hhere) htakes hnow hnode (.arrived hnow)
  | atLink _ _ hlink _ =>
    have hlink' := hlinks _ _ hlink
    change t'.get? (_ ++ [_]) = some node at hnow
    rw [hnow] at hlink'
    exact absurd (Option.some.inj hlink') (hnode _)
  | through hhere htakes hlink hlast _ ih =>
    exact .through (hdirs _ hhere) htakes (hlinks _ _ hlink) hlast (ih hnow)
  | into hhere htakes _ _ hrest ih =>
    rcases hrest.get?_start_or with hdir | hend
    · exact .into (hdirs _ hhere) htakes (hdirs _ hdir) (fun _ => nofun) (ih hnow)
    · exact .into (hdirs _ hhere) htakes (hend ▸ hnow) hnode (ih hnow)

/-- A vacant place stands in a directory, so anything can be put there. -/
theorem Walks.admits_vacant {links : Nat} {here l : Location} {steps : List String}
    (h : t.Walks purpose links here steps (.vacant l)) (n : Node) : t.Admits l n := by
  generalize hplace : Place.vacant l = place at h
  induction h with
  | arrived | atLink => exact nomatch hplace
  | vacant hhere _ hnone =>
    obtain rfl := Place.vacant.inj hplace
    refine ⟨by simp, ?_, ?_⟩
    · rw [List.dropLast_concat, hhere]
    · intro hdir
      rw [hnone] at hdir
      exact nomatch hdir
  | stay _ _ _ ih | up _ _ ih | through _ _ _ _ _ ih | into _ _ _ _ _ ih => exact ih hplace

/-- A file may get another content. -/
theorem admits_file {l : Location} {old : Bytes} (hold : t.get? l = some (.file old))
    (content : Bytes) : t.Admits l (.file content) := by
  have hne : l ≠ [] := by
    rintro rfl
    exact nomatch hold
  refine ⟨hne, ?_, ?_⟩
  · rw [← List.dropLast_concat_getLast hne] at hold
    exact t.get?_parent hold
  · intro hdir
    rw [hold] at hdir
    exact nomatch hdir

/-- What a path name leads to is also there to be read, unless it is a link. -/
theorem Walks.to_target {links : Nat} {here : Location} {steps : List String}
    {place : Place} (h : t.Walks purpose links here steps place)
    (hlink : ∀ l target, place ≠ .existing l (.link target)) :
    t.Walks .target links here steps place := by
  have htakes {step : String} {rest : List String} (htaken : purpose.Takes step rest) :
      Purpose.target.Takes step rest :=
    Purpose.takes_of_isName (by decide) htaken.isName htaken.short rest
  induction h with
  | arrived hnode => exact .arrived hnode
  | stay hhere hstep _ ih => exact .stay hhere hstep (ih hlink)
  | up hhere _ ih => exact .up hhere (ih hlink)
  | vacant hhere htaken hnone => exact .vacant hhere (htakes htaken) hnone
  | atLink => exact absurd rfl (hlink _ _)
  | through hhere htaken htarget _ _ ih =>
    exact .through hhere (htakes htaken) htarget (fun hlast => absurd hlast.2 (by decide))
      (ih hlink)
  | into hhere htaken hnode hno _ ih => exact .into hhere (htakes htaken) hnode hno (ih hlink)

/-- Where an entry can be made a file can be written, unless the path ends in a slash. -/
theorem Walks.to_writing {links : Nat} {here : Location} {steps : List String} {place : Place}
    (h : t.Walks .entry links here steps place) (hvacant : ∃ l, place = .vacant l)
    (hlast : steps.getLast? ≠ some "") : t.Walks .writing links here steps place := by
  have hbelow {step : String} {rest : List String} (hlast : (step :: rest).getLast? ≠ some "") :
      rest.getLast? ≠ some "" := by
    cases rest with
    | nil => exact nofun
    | cons next rest => rwa [List.getLast?_cons_cons] at hlast
  have htakes {step : String} {rest : List String} (hlast : rest.getLast? ≠ some "")
      (htaken : Purpose.entry.Takes step rest) : Purpose.writing.Takes step rest := by
    refine ⟨htaken.isName, fun ⟨_, hrest, hall⟩ => hlast ?_, htaken.short⟩
    rw [List.getLast?_eq_some_getLast hrest]
    exact congrArg some (of_decide_eq_true (List.all_eq_true.mp hall _ (List.getLast_mem hrest)))
  induction h with
  | arrived =>
    obtain ⟨l, hl⟩ := hvacant
    exact nomatch hl
  | stay hhere hstep _ ih => exact .stay hhere hstep (ih hvacant (hbelow hlast))
  | up hhere _ ih => exact .up hhere (ih hvacant (hbelow hlast))
  | vacant hhere htaken hnone => exact .vacant hhere (htakes nofun htaken) hnone
  | atLink =>
    obtain ⟨l, hl⟩ := hvacant
    exact nomatch hl
  | @through _ _ _ target rest _ hhere htaken htarget hgoes _ ih =>
    have hrest : rest ≠ [] := fun hnil => hgoes ⟨hnil, rfl⟩
    have hlinked : (linkSteps target ++ rest).getLast? ≠ some "" := by
      rw [List.getLast?_append, List.getLast?_eq_some_getLast hrest, Option.some_or,
        ← List.getLast?_eq_some_getLast hrest]
      exact hbelow hlast
    exact .through hhere (htakes (hbelow hlast) htaken) htarget (fun hends => hrest hends.1)
      (ih hvacant hlinked)
  | into hhere htaken hnode hno _ ih =>
    exact .into hhere (htakes (hbelow hlast) htaken) hnode hno (ih hvacant (hbelow hlast))

/-! ## New files -/

/-- A tree that has files where another one has nothing, and is the same anywhere else. -/
def GainsFiles (t t' : FileTree) : Prop :=
  ∀ l, t'.get? l = t.get? l ∨ t.get? l = none ∧ ∃ content, t'.get? l = some (.file content)

namespace GainsFiles

/-- What is there stays there when files are gained. -/
theorem get?_eq (h : t.GainsFiles t') {l : Location} {node : Node} (hnode : t.get? l = some node) :
    t'.get? l = some node := by
  rcases h l with hsame | ⟨hnone, -⟩
  · rw [hsame, hnode]
  · rw [hnode] at hnone
    exact nomatch hnone

/-- A new node is a file. -/
theorem get?_of_ne (h : t.GainsFiles t') {l : Location} {node : Node}
    (hnode : t'.get? l = some node) (hfile : ∀ content, node ≠ .file content) :
    t.get? l = some node := by
  rcases h l with hsame | ⟨-, content, hnew⟩
  · rw [← hsame, hnode]
  · rw [hnode] at hnew
    exact absurd (Option.some.inj hnew) (hfile content)

end GainsFiles

/-- What the outcome of following a path says about a directory at its end. -/
def directoryFound : Except FileFault Place → Except FileFault Bool
  | .ok (.existing _ node) => .ok (node == .directory)
  | .ok (.vacant _) => .ok false
  | .error fault =>
    if [FileFault.noEntry, .notDirectory, .tooManyLinks].contains fault then .ok false
    else .error fault

/-- A file is not a directory, and there is nothing below it. -/
theorem directoryFound_walk_file {l : Location} {content : Bytes}
    (hfile : t.get? l = some (.file content)) (purpose : Purpose) (links : Nat)
    (steps : List String) : directoryFound (t.walk purpose links l steps) = .ok false := by
  cases steps with
  | nil =>
    rw [walk, hfile]
    rfl
  | cons step rest =>
    rw [walk, if_pos (by simp [hfile])]
    rfl

/-- New files do not change whether there is a directory at the end of a path. The induction is
along the loop in the tree without them; where it ends for want of an entry the other loop may find
a new file. -/
theorem GainsFiles.directoryFound_walk (h : t.GainsFiles t') (purpose : Purpose) (links : Nat)
    (here : Location) (steps : List String) :
    directoryFound (t'.walk purpose links here steps) =
      directoryFound (t.walk purpose links here steps) := by
  fun_induction FileTree.walk t purpose links here steps with
  | case1 links here node hnode => rw [walk, h.get?_eq hnode]
  | case2 links here hnone =>
    rcases h here with hsame | ⟨-, content, hnew⟩
    · rw [walk, hsame, hnone]
    · rw [directoryFound_walk_file hnew]
      rfl
  | case3 links here step rest hhere =>
    rw [walk, if_pos]
    intro hdir
    exact hhere (h.get?_of_ne hdir (by simp))
  | case4 links here step rest hhere hstep ih =>
    have hdir := h.get?_eq (Decidable.not_not.mp hhere)
    rw [walk, if_neg (Decidable.not_not.mpr hdir), if_pos hstep, ih]
  | case5 links here rest hhere hdot ih =>
    have hdir := h.get?_eq (Decidable.not_not.mp hhere)
    rw [walk, if_neg (Decidable.not_not.mpr hdir), if_neg hdot, if_pos rfl, ih]
  | case6 links here step rest hhere hdot hup hclosed =>
    have hdir := h.get?_eq (Decidable.not_not.mp hhere)
    rw [walk, if_neg (Decidable.not_not.mpr hdir), if_neg hdot, if_neg hup, if_pos hclosed]
  | case7 links here step rest hhere hdot hup hclosed hlong =>
    have hdir := h.get?_eq (Decidable.not_not.mp hhere)
    rw [walk, if_neg (Decidable.not_not.mpr hdir), if_neg hdot, if_neg hup, if_neg hclosed,
      if_pos hlong]
  | case8 links here step hhere hdot hup hlong hnone hclosed =>
    have hdir := h.get?_eq (Decidable.not_not.mp hhere)
    rw [walk_of_takes hdir ⟨⟨hdot, hup⟩, hclosed, Nat.le_of_not_lt hlong⟩]
    rcases h (here ++ [step]) with hsame | ⟨-, content, hnew⟩
    · rw [hsame, hnone]
      rfl
    · rw [hnew]
      exact directoryFound_walk_file hnew purpose links []
  | case9 links here step rest hhere hdot hup hclosed hlong hnone hrest =>
    have hdir := h.get?_eq (Decidable.not_not.mp hhere)
    rw [walk_of_takes hdir ⟨⟨hdot, hup⟩, hclosed, Nat.le_of_not_lt hlong⟩]
    rcases h (here ++ [step]) with hsame | ⟨-, content, hnew⟩
    · rw [hsame, hnone]
      dsimp only
      rw [if_neg hrest]
    · rw [hnew]
      exact directoryFound_walk_file hnew purpose links rest
  | case10 links here step rest hhere hdot hup hclosed hlong target hlink hlast =>
    have hdir := h.get?_eq (Decidable.not_not.mp hhere)
    rw [walk_of_takes hdir ⟨⟨hdot, hup⟩, hclosed, Nat.le_of_not_lt hlong⟩, h.get?_eq hlink]
    dsimp only
    rw [if_pos hlast]
  | case11 here step rest hhere hdot hup hclosed hlong target hlink hlast =>
    have hdir := h.get?_eq (Decidable.not_not.mp hhere)
    rw [walk_of_takes hdir ⟨⟨hdot, hup⟩, hclosed, Nat.le_of_not_lt hlong⟩, h.get?_eq hlink]
    dsimp only
    rw [if_neg hlast]
  | case12 here step rest hhere hdot hup hclosed hlong target hlink hlast links ih =>
    have hdir := h.get?_eq (Decidable.not_not.mp hhere)
    rw [walk_of_takes hdir ⟨⟨hdot, hup⟩, hclosed, Nat.le_of_not_lt hlong⟩, h.get?_eq hlink]
    dsimp only
    rw [if_neg hlast, ih]
  | case13 links here step rest hhere hdot hup hclosed hlong node hlink hnode ih =>
    have hdir := h.get?_eq (Decidable.not_not.mp hhere)
    rw [walk_of_takes hdir ⟨⟨hdot, hup⟩, hclosed, Nat.le_of_not_lt hlong⟩, h.get?_eq hnode]
    cases node with
    | link target => exact absurd rfl (hlink target)
    | directory => exact ih
    | file content => exact ih

end FileTree

namespace Host

variable {h h' h'' : Host} {purpose : Purpose} {p : PathName}

/-- What is said about the directory of a path name. -/
theorem isDirectory_eq (h : Host) (p : PathName) :
    h.isDirectory p =
      if p.hasNul then .ok false
      else if p.text.utf8ByteSize ≥ maxPathBytes then .error (.refused .nameTooLong p)
      else (FileTree.directoryFound (h.tree.walk .target maxLinks (h.start p) p.parts)).mapError
        fun fault => .refused fault p := by
  unfold isDirectory node? place
  by_cases hnul : p.hasNul
  · rw [if_pos hnul, if_pos hnul]
    rfl
  · rw [if_neg hnul, if_neg hnul]
    by_cases hlength : p.text.utf8ByteSize ≥ maxPathBytes
    · rw [if_pos hlength, if_pos hlength]
      rfl
    · rw [if_neg hlength, if_neg hlength]
      cases h.tree.walk .target maxLinks (h.start p) p.parts with
      | error fault => cases fault <;> rfl
      | ok place =>
        cases place with
        | vacant l => rfl
        | existing l node => cases node <;> rfl

/-- New files do not change which path names lead to directories. -/
theorem isDirectory_of_gainsFiles (hworking : h'.workingDirectory = h.workingDirectory)
    (hgains : h.tree.GainsFiles h'.tree) (p : PathName) : h'.isDirectory p = h.isDirectory p := by
  have hstart : h'.start p = h.start p := by
    unfold Host.start
    rw [hworking]
  rw [isDirectory_eq, isDirectory_eq, hstart, hgains.directoryFound_walk]

/-- Changes that make and remove nothing but files are a kind of growth. -/
theorem growsBelow_of_get?_iff (hworking : h'.workingDirectory = h.workingDirectory)
    (hother : ∀ l node, (∀ content, node ≠ .file content) →
      (h.tree.get? l = some node ↔ h'.tree.get? l = some node)) : h.GrowsBelow [] h' where
  workingDirectory := hworking
  links l target := hother l (.link target) fun _ => nofun
  directories l := (hother l .directory fun _ => nofun).mp
  outside _ hl := absurd List.nil_prefix hl

/-- New files are a kind of growth. -/
theorem growsBelow_of_gainsFiles (hworking : h'.workingDirectory = h.workingDirectory)
    (hgains : h.tree.GainsFiles h'.tree) : h.GrowsBelow [] h' :=
  growsBelow_of_get?_iff hworking fun _ _ hnode =>
    ⟨hgains.get?_eq, fun hnow => hgains.get?_of_ne hnow hnode⟩

/-- A path name leads to the same location as long as links and directories stay, if something
other than a link is there. -/
theorem place_of_grows {place : Place} {node : Node} (hplace : h.place purpose p = .ok place)
    (hgrows : h.GrowsBelow [] h') (hnode : ∀ target, node ≠ .link target)
    (hnow : h'.tree.get? place.location = some node) :
    h'.place purpose p = .ok (.existing place.location node) := by
  have hwalk := (walks_of_place hplace).2
  exact place_of_walks hplace (hgrows.start_eq p)
    (hwalk.of_filled (fun l target => (hgrows.links l target).mp) hgrows.directories hnode hnow)

/-! ## Files stay files -/

/-- A host after changes that keep the kind of everything there is: links and directories stay what
they are, and a file may get another content. -/
structure Keeps (h h' : Host) : Prop where
  grows : h.GrowsBelow [] h'
  files : ∀ l content, h.tree.get? l = some (.file content) →
    ∃ content', h'.tree.get? l = some (.file content')

namespace Keeps

/-- A host keeps what it has as it is. -/
theorem refl (h : Host) : h.Keeps h :=
  ⟨.refl [] h, fun _ content hfile => ⟨content, hfile⟩⟩

/-- What is kept twice is kept. -/
theorem trans (first : h.Keeps h') (second : h'.Keeps h'') : h.Keeps h'' := by
  refine ⟨first.grows.trans second.grows, ?_⟩
  intro l content hfile
  obtain ⟨content', hfile'⟩ := first.files l content hfile
  exact second.files l content' hfile'

/-- A node that is put where nothing was. -/
theorem put_vacant {l : Location} {n : Node} (hnode : ∀ target, n ≠ .link target)
    (hnone : h.tree.get? l = none) : h.Keeps (h.put l n) := by
  refine ⟨.put List.nil_prefix hnode (by simp [hnone]), ?_⟩
  intro q content hfile
  refine ⟨content, ?_⟩
  by_cases hadmits : h.tree.Admits l n
  · change (h.tree.put l n).get? q = _
    rw [h.tree.get?_put hadmits, if_neg, hfile]
    rintro rfl
    rw [hnone] at hfile
    exact nomatch hfile
  · have hsame : h.put l n = h := by simp [Host.put, FileTree.put, hadmits]
    rw [hsame, hfile]

/-- A file that gets another content. -/
theorem put_file {l : Location} {old : Bytes} (hold : h.tree.get? l = some (.file old))
    (content : Bytes) : h.Keeps (h.put l (.file content)) := by
  refine ⟨.put List.nil_prefix (fun _ => nofun) (by simp [hold]), ?_⟩
  intro q before hfile
  by_cases hadmits : h.tree.Admits l (.file content)
  · change ∃ content', (h.tree.put l (.file content)).get? q = _
    rw [h.tree.get?_put hadmits]
    by_cases hq : q = l
    · exact ⟨content, if_pos hq⟩
    · exact ⟨before, by rw [if_neg hq, hfile]⟩
  · have hsame : h.put l (.file content) = h := by simp [Host.put, FileTree.put, hadmits]
    exact ⟨before, by rw [hsame, hfile]⟩

/-- Making a file or a directory keeps what is there. -/
theorem makeNode {n : Node} (hnode : ∀ target, n ≠ .link target)
    (hmake : h.makeNode p n = .ok h') : h.Keeps h' := by
  unfold Host.makeNode at hmake
  split at hmake
  · exact nomatch hmake
  · next l hplace =>
    obtain rfl := Except.ok.inj hmake
    exact put_vacant hnode (walks_of_place hplace).2.get?_vacant
  · exact nomatch hmake

/-- Writing a file keeps what is there, but for the content of that file. -/
theorem storeContent {content : Bytes} (hstore : h.storeContent p content = .ok h') :
    h.Keeps h' := by
  unfold Host.storeContent at hstore
  split at hstore
  · exact nomatch hstore
  · next l hplace =>
    obtain rfl := Except.ok.inj hstore
    exact put_vacant (fun _ => nofun) (walks_of_place hplace).2.get?_vacant
  · next l old hplace =>
    obtain rfl := Except.ok.inj hstore
    exact put_file (walks_of_place hplace).2.get?_existing content
  · exact nomatch hstore

/-- Making a directory, or finding that it cannot be made, keeps what is there. -/
theorem ensureDirectory (h : Host) (p : PathName) : h.Keeps (h.ensureDirectory p).1 := by
  unfold Host.ensureDirectory
  split
  · next made hmake => exact makeNode (n := .directory) (fun _ => nofun) hmake
  all_goals exact .refl h

/-- So does making the directories on the way, as far as that goes. -/
theorem ensureParts (h : Host) (root : PathRoot) (parts : List String) (depth : Nat) :
    h.Keeps (h.ensureParts root parts depth).1 := by
  induction depth with
  | zero => exact ensureDirectory h _
  | succ depth ih =>
    unfold Host.ensureParts
    dsimp only
    split
    · split
      · next habove =>
        rw [habove] at ih
        exact ih
      · next habove =>
        rw [habove] at ih
        exact ih.trans (ensureDirectory _ _)
    · exact ensureDirectory h _

end Keeps

/-- Writing a file puts it at some location, where its path name leads to from then on. -/
theorem exists_put_of_storeContent {p : PathName} {content : Bytes}
    (hstore : h.storeContent p content = .ok h') :
    ∃ place, h.place .writing p = .ok place ∧ h.tree.Admits place.location (.file content) ∧
      h' = h.put place.location (.file content) ∧
      h'.place .target p = .ok (.existing place.location (.file content)) := by
  have hkeeps := Keeps.storeContent hstore
  obtain ⟨place, hplace, hadmits, rfl⟩ : ∃ place, h.place .writing p = .ok place ∧
      h.tree.Admits place.location (.file content) ∧
      h' = h.put place.location (.file content) := by
    unfold storeContent at hstore
    split at hstore
    · exact nomatch hstore
    · next l hplace =>
      exact ⟨_, hplace, (walks_of_place hplace).2.admits_vacant _, (Except.ok.inj hstore).symm⟩
    · next l old hplace =>
      exact ⟨_, hplace, FileTree.admits_file (walks_of_place hplace).2.get?_existing content,
        (Except.ok.inj hstore).symm⟩
    · exact nomatch hstore
  have hnow : (h.put place.location (.file content)).place .writing p =
      .ok (.existing place.location (.file content)) :=
    place_of_grows hplace hkeeps.grows (fun _ => nofun)
      ((h.tree.get?_put hadmits _).trans (if_pos rfl))
  exact ⟨place, hplace, hadmits, rfl,
    place_of_walks hnow rfl ((walks_of_place hnow).2.to_target fun _ _ => nofun)⟩

end Host

end DexListing
