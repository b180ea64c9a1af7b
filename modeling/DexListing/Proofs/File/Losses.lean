import DexListing.Proofs.File.Following

/-!
# What a host loses

Removing an entry takes one node away, which is not a directory. Nothing else changes by that but
the ways that led through a link that is gone: an entry that is looked up afterwards is where it
was before, or there is no way to it any more, or it is itself what has been removed
(`FileTree.Loses.fades_walk`). So an entry never gets somewhere else by the removal of others, and
what could be removed before can still be removed, or is gone (`Host.Loses.unlink_eq_error`).
-/

set_option autoImplicit false

namespace DexListing

/-- What becomes of an entry that has been looked up when others are taken away: it is where it was,
there is no way to it, or it is gone and its place is vacant. -/
inductive Fades {ε : Type} (noWay : ε) (before : Except ε Place) : Except ε Place → Prop
  | same : Fades noWay before before
  | cutOff : Fades noWay before (.error noWay)
  | gone {l : Location} {node : Node} :
      before = .ok (.existing l node) → Fades noWay before (.ok (.vacant l))

namespace Fades

variable {ε : Type} {noWay : ε} {before after : Except ε Place}

/-- What is found afterwards has been there before. -/
theorem existing (hfades : Fades noWay before after) {l : Location} {node : Node}
    (hafter : after = .ok (.existing l node)) : before = .ok (.existing l node) := by
  cases hfades with
  | same => exact hafter
  | cutOff => exact nomatch hafter
  | gone => exact nomatch hafter

end Fades

namespace FileTree

variable {t t' : FileTree}

/-- Some nodes that are not directories have been taken away; the others are as they were. -/
def Loses (t t' : FileTree) : Prop :=
  ∀ q, t'.get? q = t.get? q ∨ t'.get? q = none ∧ t.get? q ≠ some .directory

namespace Loses

/-- A loss of files keeps directories. -/
theorem directory (hloses : t.Loses t') {q : Location} (hdir : t.get? q = some .directory) :
    t'.get? q = some .directory := by
  rcases hloses q with heq | ⟨-, hother⟩
  · rw [heq, hdir]
  · exact absurd hdir hother

/-- It makes no directories. -/
theorem not_directory (hloses : t.Loses t') {q : Location} (hdir : t.get? q ≠ some .directory) :
    t'.get? q ≠ some .directory := by
  rcases hloses q with heq | ⟨hnone, -⟩
  · rwa [heq]
  · rw [hnone]
    exact nofun

/-- It puts nothing where nothing was. -/
theorem vacant (hloses : t.Loses t') {q : Location} (hnone : t.get? q = none) :
    t'.get? q = none := by
  rcases hloses q with heq | ⟨hlost, -⟩
  · rw [heq, hnone]
  · exact hlost

/-- At a name with a node it remains to look at the trees that still have this node; in the others
the entry is gone, or the way to it ends there. -/
theorem fades_at_name (hloses : t.Loses t') {links : Nat} {here : Location} {step : String}
    {rest : List String} {node : Node} {before : Except FileFault Place}
    (hhere : t.get? here = some .directory) (htakes : Purpose.entry.Takes step rest)
    (hnode : t.get? (here ++ [step]) = some node)
    (hlast : rest = [] → before = .ok (.existing (here ++ [step]) node))
    (hkept : t'.get? (here ++ [step]) = some node →
      Fades .noEntry before (t'.walk .entry links here (step :: rest))) :
    Fades .noEntry before (t'.walk .entry links here (step :: rest)) := by
  rcases hloses (here ++ [step]) with heq | ⟨hlost, -⟩
  · exact hkept (heq.trans hnode)
  · rw [walk_of_takes (hloses.directory hhere) htakes, hlost]
    by_cases hrest : rest = []
    · rw [if_pos hrest]
      exact .gone (hlast hrest)
    · rw [if_neg hrest]
      exact .cutOff

/-- The entry at the end of a path fades. The induction follows the loop through the tree as it was;
what has been taken away only matters at a name, and where the path ends before the first one. -/
theorem fades_walk (hloses : t.Loses t') (links : Nat) (here : Location) (steps : List String) :
    Fades .noEntry (t.walk .entry links here steps) (t'.walk .entry links here steps) := by
  have htakes {step : String} {rest : List String} (hdot : ¬(step = "" ∨ step = "."))
      (hup : step ≠ "..") (hshort : ¬step.utf8ByteSize > maxNameBytes) :
      Purpose.entry.Takes step rest :=
    Purpose.takes_of_isName (by decide) ⟨hdot, hup⟩ (Nat.le_of_not_lt hshort) rest
  have hdirectory {here : Location} (hhere : ¬t.get? here ≠ some .directory) :
      t'.get? here = some .directory :=
    hloses.directory (Decidable.not_not.mp hhere)
  fun_induction FileTree.walk t .entry links here steps with
  | case1 links here node hnode =>
    rw [walk]
    rcases hloses here with heq | ⟨hnone, -⟩
    · rw [heq, hnode]
      exact .same
    · rw [hnone]
      exact .cutOff
  | case2 links here hnone =>
    rw [walk, hloses.vacant hnone]
    exact .same
  | case3 links here step rest hhere =>
    rw [walk, if_pos (hloses.not_directory hhere)]
    exact .same
  | case4 links here step rest hhere hstep ih =>
    rw [walk, if_neg (Decidable.not_not.mpr (hdirectory hhere)), if_pos hstep]
    exact ih
  | case5 links here rest hhere hstep ih =>
    rw [walk_of_up (hdirectory hhere)]
    exact ih
  | case6 links here step rest hhere hdot hup hclosed =>
    exact absurd hclosed.1 (by decide)
  | case7 links here step rest hhere hdot hup hclosed hlong =>
    rw [walk, if_neg (Decidable.not_not.mpr (hdirectory hhere)), if_neg hdot, if_neg hup,
      if_neg hclosed, if_pos hlong]
    exact .same
  | case8 links here step hhere hdot hup hshort hnone hclosed =>
    rw [walk_of_takes (hdirectory hhere) (htakes hdot hup hshort), hloses.vacant hnone]
    exact .same
  | case9 links here step rest hhere hdot hup hclosed hshort hnone hrest =>
    rw [walk_of_takes (hdirectory hhere) (htakes hdot hup hshort), hloses.vacant hnone]
    dsimp only
    rw [if_neg hrest]
    exact .same
  | case10 links here step rest hhere hdot hup hclosed hshort target hlink hlast =>
    refine hloses.fades_at_name (Decidable.not_not.mp hhere) (htakes hdot hup hshort) hlink
      (fun _ => rfl) fun hkept => ?_
    rw [walk_of_takes (hdirectory hhere) (htakes hdot hup hshort), hkept]
    dsimp only
    rw [if_pos hlast]
    exact .same
  | case11 here step rest hhere hdot hup hclosed hshort target hlink hgoes =>
    refine hloses.fades_at_name (Decidable.not_not.mp hhere) (htakes hdot hup hshort) hlink
      (fun hrest => absurd ⟨hrest, rfl⟩ hgoes) fun hkept => ?_
    rw [walk_of_takes (hdirectory hhere) (htakes hdot hup hshort), hkept]
    dsimp only
    rw [if_neg hgoes]
    exact .same
  | case12 here step rest hhere hdot hup hclosed hshort target hlink hgoes links ih =>
    refine hloses.fades_at_name (Decidable.not_not.mp hhere) (htakes hdot hup hshort) hlink
      (fun hrest => absurd ⟨hrest, rfl⟩ hgoes) fun hkept => ?_
    rw [walk_of_takes (hdirectory hhere) (htakes hdot hup hshort), hkept]
    dsimp only
    rw [if_neg hgoes]
    exact ih
  | case13 links here step rest hhere hdot hup hclosed hshort node hlink hnode ih =>
    refine hloses.fades_at_name (Decidable.not_not.mp hhere) (htakes hdot hup hshort) hnode ?_
      fun hkept => ?_
    · rintro rfl
      rw [walk, hnode]
    · rw [walk_of_takes (hdirectory hhere) (htakes hdot hup hshort), hkept]
      cases node with
      | link target => exact absurd rfl (hlink target)
      | directory => exact ih
      | file content => exact ih

end Loses

end FileTree

namespace Host

variable {h h' h'' : Host} {p : PathName} {paths paths' : List PathName}

/-- Entries under some path names have been taken away, none of them a directory. Nothing else has
changed. -/
structure Loses (h : Host) (paths : List PathName) (h' : Host) : Prop where
  nodes : ∀ q, h'.tree.get? q = h.tree.get? q ∨
    h'.tree.get? q = none ∧
      ∃ p ∈ paths, ∃ node, node ≠ .directory ∧ h.place .entry p = .ok (.existing q node)
  otherwise : h' = { h with tree := h'.tree }

namespace Loses

/-- A host has lost nothing against itself. -/
theorem refl (h : Host) (paths : List PathName) : h.Loses paths h :=
  ⟨fun _ => .inl rfl, rfl⟩

/-- What is lost at some path names is lost at more of them. -/
theorem mono (hloses : h.Loses paths h') (hsubset : paths ⊆ paths') : h.Loses paths' h' where
  nodes q := (hloses.nodes q).imp_right fun ⟨hnone, p, hp, hentry⟩ =>
    ⟨hnone, p, hsubset hp, hentry⟩
  otherwise := hloses.otherwise

/-- The tree of a host that loses files does so. -/
theorem tree (hloses : h.Loses paths h') : h.tree.Loses h'.tree := by
  intro q
  rcases hloses.nodes q with heq | ⟨hnone, p, -, node, hnode, hplace⟩
  · exact .inl heq
  · refine .inr ⟨hnone, ?_⟩
    rw [(walks_of_place hplace).2.get?_existing]
    exact fun heq => hnode (Option.some.inj heq)

/-- The entry under every path name fades. -/
theorem fades (hloses : h.Loses paths h') (p : PathName) :
    Fades (.refused .noEntry p) (h.place .entry p) (h'.place .entry p) := by
  have hstart : h'.start p = h.start p := by
    rw [hloses.otherwise]
    rfl
  unfold place
  rw [hstart]
  by_cases hnul : p.hasNul
  · rw [if_pos hnul, if_pos hnul]
    exact .same
  · rw [if_neg hnul, if_neg hnul]
    by_cases hlong : p.text.utf8ByteSize ≥ maxPathBytes
    · rw [if_pos hlong, if_pos hlong]
      exact .same
    · rw [if_neg hlong, if_neg hlong]
      have hfades := hloses.tree.fades_walk maxLinks (h.start p) p.parts
      generalize h.tree.walk .entry maxLinks (h.start p) p.parts = before at hfades ⊢
      generalize h'.tree.walk .entry maxLinks (h.start p) p.parts = after at hfades ⊢
      cases hfades with
      | same => exact .same
      | cutOff => exact .cutOff
      | gone hbefore =>
        rw [hbefore]
        exact .gone rfl

/-- Losses after losses: what is lost then has been in its place before. -/
theorem trans (hfirst : h.Loses paths h') (hsecond : h'.Loses paths' h'') :
    h.Loses (paths ++ paths') h'' where
  nodes q := by
    rcases hsecond.nodes q with heq | ⟨hnone, p, hp, node, hnode, hplace⟩
    · rw [heq]
      rcases hfirst.nodes q with heq | ⟨hnone, p, hp, hentry⟩
      · exact .inl heq
      · exact .inr ⟨hnone, p, List.mem_append_left _ hp, hentry⟩
    · exact .inr ⟨hnone, p, List.mem_append_right _ hp, node, hnode,
        (hfirst.fades p).existing hplace⟩
  otherwise := by
    rw [hsecond.otherwise, hfirst.otherwise]

/-- Where nothing has been nothing appears. -/
theorem not_existing (hloses : h.Loses paths h')
    (hnone : ∀ l node, h.place .entry p ≠ .ok (.existing l node)) (l : Location) (node : Node) :
    h'.place .entry p ≠ .ok (.existing l node) :=
  fun hplace => hnone l node ((hloses.fades p).existing hplace)

/-- A file that cannot be removed when others are gone could not be removed before either, and for
the same reason. -/
theorem unlink_eq_error (hloses : h.Loses paths h') {e : FileError}
    (hunlink : h'.unlink p = .error e) : h.unlink p = .error e := by
  have hfades := hloses.fades p
  unfold unlink at hunlink ⊢
  generalize h.place .entry p = before at hfades ⊢
  generalize h'.place .entry p = after at hfades hunlink
  cases hfades with
  | same =>
    split at hunlink
    · exact nomatch hunlink
    · exact hunlink
    · exact nomatch hunlink
    · exact hunlink
    · exact nomatch hunlink
  | cutOff => exact nomatch hunlink
  | gone => exact nomatch hunlink

end Loses

/-- A file that is removed was there or was missing. Nothing is under its path name any more. -/
theorem loses_of_unlink (hunlink : h.unlink p = .ok h') :
    h.Loses [p] h' ∧ ∀ l node, h'.place .entry p ≠ .ok (.existing l node) := by
  have hmissing (hplace : ∀ l node, h.place .entry p ≠ .ok (.existing l node)) :
      h.Loses [p] h ∧ ∀ l node, h.place .entry p ≠ .ok (.existing l node) :=
    ⟨.refl h [p], hplace⟩
  unfold unlink at hunlink
  split at hunlink
  · next hplace =>
    obtain rfl := Except.ok.inj hunlink
    exact hmissing (by simp [hplace])
  · exact nomatch hunlink
  · next hplace =>
    obtain rfl := Except.ok.inj hunlink
    exact hmissing (by simp [hplace])
  · exact nomatch hunlink
  · next q node hnode hplace =>
    obtain rfl := Except.ok.inj hunlink
    have hold := (walks_of_place hplace).2.get?_existing
    have hother : h.tree.get? q ≠ some .directory :=
      fun hdir => hnode (Option.some.inj (hold.symm.trans hdir))
    have hget := h.tree.get?_erase hother
    have hloses : h.Loses [p] { h with tree := h.tree.erase q } := by
      refine ⟨fun l => ?_, rfl⟩
      rw [hget]
      by_cases hl : l = q
      · subst hl
        exact .inr ⟨if_pos rfl, p, List.mem_singleton_self p, node, hnode, hplace⟩
      · exact .inl (if_neg hl)
    refine ⟨hloses, fun l other hafter => ?_⟩
    -- It would have been there before, so it would be the very node that has been taken away.
    have hbefore := (hloses.fades p).existing hafter
    rw [hplace] at hbefore
    obtain ⟨rfl, rfl⟩ := Place.existing.inj (Except.ok.inj hbefore)
    have hnow := (walks_of_place hafter).2.get?_existing
    rw [hget, if_pos rfl] at hnow
    exact nomatch hnow

/-- A path name without a zero character only fails to be looked up if the system refuses it. -/
theorem refused_of_place (hnul : p.hasNul = false) {purpose : Purpose} {e : FileError}
    (hplace : h.place purpose p = .error e) : ∃ fault, e = .refused fault p := by
  unfold place at hplace
  rw [hnul, if_neg Bool.false_ne_true] at hplace
  split at hplace
  · exact ⟨.nameTooLong, (Except.error.inj hplace).symm⟩
  · split at hplace
    · next fault _ => exact ⟨fault, (Except.error.inj hplace).symm⟩
    · exact nomatch hplace

/-- A path name without a zero character only stays if the system refuses to remove it. -/
theorem refused_of_unlink (hnul : p.hasNul = false) {e : FileError}
    (hunlink : h.unlink p = .error e) : ∃ fault, e = .refused fault p := by
  unfold unlink at hunlink
  split at hunlink
  · exact nomatch hunlink
  · next hplace =>
    obtain rfl := Except.error.inj hunlink
    exact refused_of_place hnul hplace
  · exact nomatch hunlink
  · exact ⟨.isDirectory, (Except.error.inj hunlink).symm⟩
  · exact nomatch hunlink

end Host

end DexListing
