import DexListing.Proofs.File.Keeping
import DexListing.Proofs.File.RealPaths

/-!
# Real paths of a growing host

What a path name resolves to depends on the links of a tree and on the working directory only
(`Host.GrowsBelow.resolution_eq`). Making directories and writing files makes and removes no link,
so a path name keeps its real path, or its lack of one. There is one exception: in a path name that
leads through too many links a new directory may be what the system needs to go on to them
(`Host.realPath_of_grows`).
-/

set_option autoImplicit false

namespace DexListing

namespace FileTree

variable {t t' : FileTree}

/-- Trees that have a link at the same locations list as many. -/
theorem length_links_eq (hlinks : ∀ l, t'.linkTarget? l = t.linkTarget? l) :
    t'.links.length = t.links.length := by
  apply Nat.le_antisymm
  · refine length_le_links t'.nodup_links fun l hl => ?_
    rw [← hlinks]
    exact mem_links.mp hl
  · refine length_le_links t.nodup_links fun l hl => ?_
    rw [hlinks]
    exact mem_links.mp hl

/-- Steps that lead through too many links do so in every tree that keeps links and directories. -/
theorem walk_tooManyLinks
    (hlinks : ∀ l target, t.get? l = some (.link target) → t'.get? l = some (.link target))
    (hdirs : ∀ l, t.get? l = some .directory → t'.get? l = some .directory) {purpose : Purpose}
    {links : Nat} {here : Location} {steps : List String}
    (h : t.walk purpose links here steps = .error .tooManyLinks) :
    t'.walk purpose links here steps = .error .tooManyLinks := by
  fun_induction FileTree.walk t purpose links here steps with
  | case1 | case2 | case3 | case6 | case7 | case8 | case9 | case10 => cases h
  | case4 links here step rest hhere hstep ih =>
    have hdir := hdirs _ (Decidable.not_not.mp hhere)
    rw [walk, if_neg (Decidable.not_not.mpr hdir), if_pos hstep, ih h]
  | case5 links here rest hhere hdot ih =>
    have hdir := hdirs _ (Decidable.not_not.mp hhere)
    rw [walk, if_neg (Decidable.not_not.mpr hdir), if_neg hdot, if_pos rfl, ih h]
  | case11 here step rest hhere hdot hup hclosed hlong target hlink hlast =>
    have hdir := hdirs _ (Decidable.not_not.mp hhere)
    rw [walk_of_takes hdir ⟨⟨hdot, hup⟩, hclosed, Nat.le_of_not_lt hlong⟩, hlinks _ _ hlink]
    dsimp only
    rw [if_neg hlast]
  | case12 here step rest hhere hdot hup hclosed hlong target hlink hlast links ih =>
    have hdir := hdirs _ (Decidable.not_not.mp hhere)
    rw [walk_of_takes hdir ⟨⟨hdot, hup⟩, hclosed, Nat.le_of_not_lt hlong⟩, hlinks _ _ hlink]
    dsimp only
    rw [if_neg hlast, ih h]
  | case13 links here step rest hhere hdot hup hclosed hlong node hlink hnode ih =>
    have hdir := hdirs _ (Decidable.not_not.mp hhere)
    cases node with
    | link target => exact absurd rfl (hlink target)
    | directory =>
      rw [walk_of_takes hdir ⟨⟨hdot, hup⟩, hclosed, Nat.le_of_not_lt hlong⟩, hdirs _ hnode]
      exact ih h
    | file content =>
      -- A walk does not go on below a file.
      cases rest with
      | nil =>
        rw [walk, hnode] at h
        cases h
      | cons next rest =>
        rw [walk, if_pos (by simp [hnode])] at h
        cases h

end FileTree

namespace Host

variable {h h' : Host} {p q : PathName}

/-- A path name that leads through too many links does so on every host that has grown. -/
theorem GrowsBelow.place_tooManyLinks (hgrows : h.GrowsBelow [] h') {purpose : Purpose}
    (hplace : h.place purpose p = .error (.refused .tooManyLinks q)) :
    h'.place purpose p = .error (.refused .tooManyLinks q) := by
  unfold Host.place at hplace ⊢
  split at hplace
  · exact nomatch hplace
  · next hnul =>
    split at hplace
    · exact nomatch hplace
    · next hlength =>
      rw [if_neg hnul, if_neg hlength, hgrows.start_eq]
      split at hplace
      · next fault hwalk =>
        obtain ⟨rfl, rfl⟩ := FileError.refused.inj (Except.error.inj hplace)
        rw [FileTree.walk_tooManyLinks (fun l target => (hgrows.links l target).mp)
          hgrows.directories hwalk]
      · exact nomatch hplace

namespace GrowsBelow

/-- Growth makes and removes no link. -/
theorem linkTarget?_eq {root : Location} (hgrows : h.GrowsBelow root h') (l : Location) :
    h'.tree.linkTarget? l = h.tree.linkTarget? l := by
  cases htarget : h.tree.linkTarget? l with
  | none =>
    rw [FileTree.linkTarget?_eq_none_iff] at htarget ⊢
    exact fun target hlink => htarget target ((hgrows.links l target).mpr hlink)
  | some target =>
    rw [FileTree.linkTarget?_eq_some_iff] at htarget ⊢
    exact (hgrows.links l target).mp htarget

/-- Growth does not change what is written where. -/
theorem locate_eq {root : Location} (hgrows : h.GrowsBelow root h') (p : PathName) :
    h'.locate p = h.locate p := by
  unfold locate
  rw [hgrows.start_eq]

/-- Growth does not change what links there are. -/
theorem linkAt?_eq {root : Location} (hgrows : h.GrowsBelow root h') : h'.linkAt? = h.linkAt? := by
  funext p
  rw [linkAt?, hgrows.locate_eq, hgrows.linkTarget?_eq, linkAt?]

/-- Growth does not change what links the system sees. -/
theorem seenLink?_eq {root : Location} (hgrows : h.GrowsBelow root h') :
    h'.seenLink? = h.seenLink? := by
  funext p
  rw [seenLink?, hgrows.linkAt?_eq, seenLink?]

/-- Growth does not change what a path name resolves to. -/
theorem resolution_eq {root : Location} (hgrows : h.GrowsBelow root h')
    (look : PathName → Option String) (p : PathName) : h'.resolution look p = h.resolution look p := by
  unfold resolution maxDepth
  rw [FileTree.length_links_eq hgrows.linkTarget?_eq]

/-- Growth does not change what links are overlooked. -/
theorem overlooks_iff {root : Location} (hgrows : h.GrowsBelow root h') (p : PathName) :
    h'.Overlooks p ↔ h.Overlooks p := by
  unfold Overlooks
  rw [hgrows.linkAt?_eq, hgrows.seenLink?_eq, hgrows.resolution_eq, hgrows.resolution_eq]

/-- Growth does not change which locations have links on the way. -/
theorem crossesLink_eq {root : Location} (hgrows : h.GrowsBelow root h') (l : Location) :
    h'.tree.crossesLink l = h.tree.crossesLink l := by
  rw [Bool.eq_iff_iff, ← not_iff_not, Bool.not_eq_true, Bool.not_eq_true,
    FileTree.crossesLink_eq_false_iff, FileTree.crossesLink_eq_false_iff]
  simp only [hgrows.linkTarget?_eq]

end GrowsBelow

/-- On a host that has grown a path name has the real path that it had, or has none as it had none;
unless it leads through too many links. -/
theorem realPath_of_grows (hgrows : h.GrowsBelow [] h') (p : PathName) :
    h'.realPath p = h.realPath p ∨ ∃ q, h'.realPath p = .error (.loop q) := by
  unfold realPath
  rw [hgrows.seenLink?_eq, hgrows.resolution_eq, hgrows.locate_eq]
  split
  · exact Or.inl rfl
  · dsimp only
    rw [hgrows.crossesLink_eq]
    split
    · -- Through too many links the way is the same on the host that has grown.
      split
      · next q _ => exact Or.inr ⟨q, rfl⟩
      · next hother =>
        refine Or.inl ?_
        split
        · next q hloops => exact absurd (hgrows.place_tooManyLinks hloops) (hother q)
        · rfl
    · exact Or.inl rfl

end Host

end DexListing
