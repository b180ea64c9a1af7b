import DexListing.Proofs.File.Keeping
import DexListing.Proofs.File.RealPaths

/-!
# Trees without links

Where there are no symbolic links a path name leads where it says: names after the path name of a
directory lead to the location with these names below that directory, if no link stands below it
(`Host.location_of_place`). So the outcome of making directories and of writing a file can be told
exactly, location by location: the directories from the root down to the last one made are there
(`Host.ensureParts_get?`), or the file with its content (`Host.storeContent_get?`), and everything
else is as before.
-/

set_option autoImplicit false

namespace DexListing

namespace FileTree

variable {t t' : FileTree}

/-- There is no symbolic link in the tree. -/
def LinkFree (t : FileTree) : Prop :=
  ∀ l target, t.get? l ≠ some (.link target)

/-- The empty tree has no links. -/
theorem linkFree_empty : empty.LinkFree := by
  intro l target hlink
  unfold get? at hlink
  split at hlink <;> exact nomatch hlink

/-- Putting a file or a directory makes no links. -/
theorem LinkFree.put (hfree : t.LinkFree) {l : Location} {n : Node}
    (hnode : ∀ target, n ≠ .link target) : (t.put l n).LinkFree := by
  intro q target hlink
  by_cases hadmits : t.Admits l n
  · rw [t.get?_put hadmits] at hlink
    split at hlink
    · exact hnode target (Option.some.inj hlink)
    · exact hfree q target hlink
  · rw [FileTree.put, dif_neg hadmits] at hlink
    exact hfree q target hlink

/-- There is no symbolic link below a location. -/
def LinkFreeBelow (t : FileTree) (root : Location) : Prop :=
  ∀ l target, root <+: l → t.get? l ≠ some (.link target)

/-- Where there are no links, there are none below any place. -/
theorem LinkFree.below (hfree : t.LinkFree) (root : Location) : t.LinkFreeBelow root :=
  fun l target _ => hfree l target

/-- Names lead to what is written. -/
theorem LinkFreeBelow.follows {root here : Location} (hfree : t.LinkFreeBelow root)
    (hbelow : root <+: here) (names : List String) (hnames : ∀ name ∈ names, IsName name) :
    t.Follows here names 0 (here ++ names) := by
  induction names generalizing here with
  | nil =>
    rw [List.append_nil]
    exact .done
  | cons name names ih =>
    have hnext : root <+: here ++ [name] := hbelow.trans (List.prefix_append here [name])
    have hrest := ih hnext fun n hn => hnames n (List.mem_cons_of_mem name hn)
    rw [List.append_assoc] at hrest
    exact .into (hnames name List.mem_cons_self) (fun target => hfree _ target hnext) hrest

/-- No link is found anywhere. -/
theorem LinkFree.linkTarget?_eq (hfree : t.LinkFree) (l : Location) : t.linkTarget? l = none :=
  linkTarget?_eq_none_iff.mpr (hfree l)

/-- No location has a link on the way. -/
theorem LinkFree.crossesLink_eq (hfree : t.LinkFree) (l : Location) : t.crossesLink l = false :=
  crossesLink_eq_false_iff.mpr fun above _ => hfree.linkTarget?_eq above

end FileTree

namespace Host

variable {root : Location} {h h' : Host} {D : PathName}

/-- Growth makes no links. -/
theorem GrowsBelow.linkFree (hgrows : h.GrowsBelow root h') (hfree : h.tree.LinkFree) :
    h'.tree.LinkFree :=
  fun l target hlink => hfree l target ((hgrows.links l target).mpr hlink)

/-- Nor does growth below one place make links below another one. -/
theorem GrowsBelow.linkFreeBelow {top : Location} (hgrows : h.GrowsBelow top h')
    (hfree : h.tree.LinkFreeBelow root) : h'.tree.LinkFreeBelow root :=
  fun l target hbelow hlink => hfree l target hbelow ((hgrows.links l target).mpr hlink)

/-- Where no link is seen the steps of a path are taken as they are written. -/
theorem locate_ofSteps {look : PathName → Option String} (hlook : ∀ p, look p = none) (depth : Nat)
    (active : List PathName) {here : PathName} (hhere : here.IsStraight) (steps : List String) :
    h.locate (Resolution.ofSteps look depth active here steps).path =
      steps.foldl writtenStep (h.locate here) := by
  induction steps generalizing here with
  | nil =>
    rw [Resolution.ofSteps]
    rfl
  | cons step rest ih =>
    rw [Resolution.ofSteps, List.foldl_cons, writtenStep]
    by_cases hstay : step = "" ∨ step = "."
    · rw [if_pos hstay, if_pos hstay, ih hhere]
    · rw [if_neg hstay, if_neg hstay]
      by_cases hup : step = ".."
      · rw [if_pos hup, if_pos hup, ih hhere.up, locate_up h hhere]
      · rw [if_neg hup, if_neg hup, hlook, ← locate_child h here ⟨hstay, hup⟩]
        exact ih (hhere.child ⟨hstay, hup⟩)

/-- Without links the real path of a path name is what is written. -/
theorem realPath_eq_of_linkFree (hfree : h.tree.LinkFree) (p : PathName) :
    h.realPath p = if p.hasNul then .error .embeddedNul else .ok (h.locate p) := by
  have hseen : ∀ q, h.seenLink? q = none := by
    intro q
    unfold seenLink? linkAt?
    rw [hfree.linkTarget?_eq, ite_self]
  have hlocate : h.locate (h.resolution h.seenLink? p).path = h.locate p := by
    unfold resolution
    rw [locate_ofSteps hseen _ _ p.isStraight_base, locate_base]
    rfl
  unfold realPath
  rw [hlocate]
  dsimp only
  rw [hfree.crossesLink_eq]
  rfl

/-- Where there are no links none is overlooked. -/
theorem not_overlooks_of_linkFree (hfree : h.tree.LinkFree) (p : PathName) : ¬h.Overlooks p := by
  have hsame : h.seenLink? = h.linkAt? := by
    funext q
    unfold seenLink? linkAt?
    rw [hfree.linkTarget?_eq, ite_self]
  unfold Overlooks
  rw [hsame]
  exact fun hne => hne rfl

/-- Where there are no links the real path of a path name is where the system goes. -/
theorem realPath_of_place_linkFree (hfree : h.tree.LinkFree) {p : PathName} {purpose : Purpose}
    {place : Place} (hplace : h.place purpose p = .ok place) :
    h.realPath p = .ok place.location := by
  refine realPath_of_place (not_overlooks_of_linkFree hfree p) hplace ?_
  rintro l target rfl
  exact hfree l target (walks_of_place hplace).2.get?_existing

/-- Real paths are the same on all hosts without links that have one working directory. -/
theorem realPath_of_linkFree (hfree : h.tree.LinkFree) (hfree' : h'.tree.LinkFree)
    (hworking : h'.workingDirectory = h.workingDirectory) (p : PathName) :
    h'.realPath p = h.realPath p := by
  rw [realPath_eq_of_linkFree hfree, realPath_eq_of_linkFree hfree']
  unfold locate start
  rw [hworking]

/-- A path name with an extension ends in the name that its location ends in. -/
theorem getLast?_of_realPath (hfree : h.tree.LinkFree) {p : PathName} {l : Location}
    (hreal : h.realPath p = .ok l) (hsuffix : p.suffix ≠ "") : l.getLast? = some p.name := by
  have hparts : p.parts ≠ [] := by
    intro hnil
    apply hsuffix
    unfold PathName.suffix PathName.name
    rw [hnil]
    rfl
  have hlast : p.parts = p.parts.dropLast ++ [p.name] := by
    unfold PathName.name
    rw [List.getLast?_eq_some_getLast hparts, Option.getD_some, List.dropLast_concat_getLast]
  have hname : IsName p.name := by
    have hno : ∀ name : String, PathName.suffixOf name.toList = [] → p.name ≠ name := by
      intro name hnone heq
      apply hsuffix
      unfold PathName.suffix
      rw [heq, hnone]
    exact ⟨not_or.mpr ⟨hno "" (by decide), hno "." (by decide)⟩, hno ".." (by decide)⟩
  rw [realPath_eq_of_linkFree hfree] at hreal
  split at hreal
  · exact nomatch hreal
  · obtain rfl := Except.ok.inj hreal
    rw [locate, hlast, List.foldl_append, List.foldl_cons, List.foldl_nil, writtenStep, if_neg hname.1,
      if_neg hname.2, List.getLast?_concat]

/-- Path names that lead to one location have the same extension, if both have one. -/
theorem suffix_eq_of_realPath (hfree : h.tree.LinkFree) {p q : PathName} {l : Location}
    (hp : h.realPath p = .ok l) (hq : h.realPath q = .ok l) (hpe : p.suffix ≠ "")
    (hqe : q.suffix ≠ "") : p.suffix = q.suffix := by
  have hname := getLast?_of_realPath hfree hp hpe
  rw [getLast?_of_realPath hfree hq hqe] at hname
  unfold PathName.suffix
  rw [Option.some.inj hname]

/-- Names after the path name of a directory lead to the location with these names below it. -/
theorem follows_names (hfree : h.tree.LinkFreeBelow root)
    (hplace : h.place .target D = .ok (.existing root .directory)) {names : List String}
    (hnames : ∀ name ∈ names, IsName name) :
    ∃ links, h.tree.Follows (h.start ⟨D.root, D.parts ++ names⟩) (D.parts ++ names) links
      (root ++ names) := by
  obtain ⟨links, hfollows⟩ := (walks_of_place hplace).2.follows (Or.inl (by decide))
  exact ⟨_, hfollows.append (hfree.follows List.prefix_rfl names hnames)⟩

/-- The place that such a path name leads to. -/
theorem location_of_place (hfree : h.tree.LinkFreeBelow root)
    (hthere : h.place .target D = .ok (.existing root .directory)) {names : List String}
    (hnames : ∀ name ∈ names, IsName name) {purpose : Purpose} {place : Place}
    (hpurpose : purpose ≠ .entry ∨ ∀ l target, place ≠ .existing l (.link target))
    (hplace : h.place purpose ⟨D.root, D.parts ++ names⟩ = .ok place) :
    place.location = root ++ names := by
  obtain ⟨links, hfollows⟩ := (walks_of_place hplace).2.follows hpurpose
  obtain ⟨links', hnamed⟩ := follows_names hfree hthere hnames
  exact (hfollows.unique hnamed).2

/-- Making one directory, or finding it there, changes nothing else. -/
theorem ensureDirectory_get? (hfree : h.tree.LinkFreeBelow root)
    (hthere : h.place .target D = .ok (.existing root .directory)) {names : List String}
    (hnames : ∀ name ∈ names, IsName name)
    (hensure : h.ensureDirectory ⟨D.root, D.parts ++ names⟩ = (h', .ok ())) (l : Location) :
    h'.tree.get? l = if l = root ++ names then some .directory else h.tree.get? l := by
  unfold ensureDirectory at hensure
  split at hensure
  · next made hmake =>
    obtain ⟨rfl, -⟩ := Prod.mk.inj hensure
    unfold makeDirectory makeNode at hmake
    split at hmake
    · exact nomatch hmake
    · next place hplace =>
      obtain rfl := Except.ok.inj hmake
      have hlocation := location_of_place hfree hthere hnames (Or.inr (by simp)) hplace
      rw [← hlocation]
      exact h.tree.get?_put ((walks_of_place hplace).2.admits_vacant _) l
    · exact nomatch hmake
  · exact nomatch (Prod.mk.inj hensure).2
  · exact nomatch (Prod.mk.inj hensure).2
  · -- A directory was there already.
    obtain ⟨rfl, haccept⟩ := Prod.mk.inj hensure
    have hdir : h.isDirectory ⟨D.root, D.parts ++ names⟩ = .ok true := by
      unfold acceptDirectory at haccept
      split at haccept
      · exact nomatch haccept
      · assumption
      · exact nomatch haccept
    obtain ⟨l', hplace⟩ := isDirectory_eq_true_iff.mp hdir
    obtain rfl : l' = root ++ names :=
      location_of_place hfree hthere hnames (Or.inl (by decide)) hplace
    split
    · next heq => rw [heq, (walks_of_place hplace).2.get?_existing]
    · rfl

/-- A directory that is there need not be made. -/
theorem ensureParts_of_place (hthere : h.place .target D = .ok (.existing root .directory))
    (names : List String) :
    h.ensureParts D.root (D.parts ++ names) D.parts.length = (h, .ok ()) := by
  have hdone := ensureDirectory_of_isDirectory (isDirectory_eq_true_iff.mpr ⟨root, hthere⟩)
  have htake : (D.parts ++ names).take D.parts.length = D.parts := List.take_left
  cases hlength : D.parts.length with
  | zero =>
    rw [hlength] at htake
    simp only [ensureParts, htake, hdone]
  | succ n =>
    rw [hlength] at htake
    simp only [ensureParts, htake, hdone]

/-- Between the root and a location with one more name is that location, and what is between the
root and the location without the name. -/
theorem between_concat_iff {l here : Location} {name : String} (hroot : root <+: here) :
    root <+: l ∧ l <+: here ++ [name] ↔ l = here ++ [name] ∨ root <+: l ∧ l <+: here := by
  rw [List.prefix_concat_iff]
  constructor
  · rintro ⟨hbelow, rfl | habove⟩
    · exact Or.inl rfl
    · exact Or.inr ⟨hbelow, habove⟩
  · rintro (rfl | ⟨hbelow, habove⟩)
    · exact ⟨hroot.trans (List.prefix_append _ _), Or.inl rfl⟩
    · exact ⟨hbelow, Or.inr habove⟩

/-- Making directories makes those from the root down to the last one asked for, and changes
nothing else. The induction is on how many of them are asked for. -/
theorem ensureParts_get? (hfree : h.tree.LinkFreeBelow root)
    (hthere : h.place .target D = .ok (.existing root .directory)) {names : List String}
    (hnames : ∀ name ∈ names, IsName name) {k : Nat} (hk : k ≤ names.length)
    (hensure : h.ensureParts D.root (D.parts ++ names) (D.parts.length + k) = (h', .ok ()))
    (l : Location) :
    h'.tree.get? l =
      if root <+: l ∧ l <+: root ++ names.take k then some .directory else h.tree.get? l := by
  induction k generalizing h' l with
  | zero =>
    have hroot := (walks_of_place hthere).2.get?_existing
    obtain ⟨rfl, -⟩ := Prod.mk.inj ((ensureParts_of_place hthere names).symm.trans hensure)
    rw [List.take_zero, List.append_nil]
    split
    · next hbetween => rw [← hbetween.1.eq_of_length_le hbetween.2.length_le, hroot]
    · rfl
  | succ k ih =>
    have hlt : k < names.length := hk
    have htake : (D.parts ++ names).take (D.parts.length + k + 1) =
        D.parts ++ names.take (k + 1) := by
      rw [Nat.add_assoc]
      exact List.take_length_add_append (k + 1)
    have hnames' : ∀ name ∈ names.take (k + 1), IsName name :=
      fun name hname => hnames name (List.mem_of_mem_take hname)
    have hnext : root ++ names.take (k + 1) = root ++ names.take k ++ [names[k]] := by
      rw [List.take_succ_eq_append_getElem hlt, List.append_assoc]
    have hbetween : root <+: l ∧ l <+: root ++ names.take (k + 1) ↔
        l = root ++ names.take (k + 1) ∨ root <+: l ∧ l <+: root ++ names.take k := by
      rw [hnext]
      exact between_concat_iff (List.prefix_append root _)
    rw [← Nat.add_assoc] at hensure
    simp only [ensureParts, htake] at hensure
    split at hensure
    · split at hensure
      · cases (Prod.mk.inj hensure).2
      · next above habove =>
        have hkeeps := Keeps.ensureParts h D.root (D.parts ++ names) (D.parts.length + k)
        rw [habove] at hkeeps
        have hlast := ensureDirectory_get? (hkeeps.grows.linkFreeBelow hfree)
          (hkeeps.grows.place_directory hthere) hnames' hensure l
        rw [hlast, ih (Nat.le_of_lt hlt) habove]
        simp only [hbetween]
        by_cases hl : l = root ++ names.take (k + 1) <;> simp [hl]
    · have hlast := ensureDirectory_get? hfree hthere hnames' hensure
      rw [hlast]
      simp only [hbetween]
      by_cases hl : l = root ++ names.take (k + 1)
      · simp [hl]
      · rw [if_neg hl]
        by_cases habove : root <+: l ∧ l <+: root ++ names.take k
        · -- What is above a directory is one.
          obtain ⟨more, hmore⟩ := habove.2
          have hdir : h'.tree.get? (l ++ (more ++ [names[k]])) = some .directory := by
            rw [hlast, if_pos]
            rw [hnext, ← hmore, List.append_assoc]
          have habove' := FileTree.get?_of_append (by simp) hdir
          rw [hlast, if_neg hl] at habove'
          rw [if_pos (Or.inr habove), habove']
        · rw [if_neg (by simp [hl, habove])]

/-- Writing a file changes that file only. -/
theorem storeContent_get? (hfree : h.tree.LinkFreeBelow root)
    (hthere : h.place .target D = .ok (.existing root .directory)) {names : List String}
    (hnames : ∀ name ∈ names, IsName name) {content : Bytes}
    (hstore : h.storeContent ⟨D.root, D.parts ++ names⟩ content = .ok h') :
    (∀ l, h'.tree.get? l = if l = root ++ names then some (.file content) else h.tree.get? l) ∧
      h'.place .target ⟨D.root, D.parts ++ names⟩ =
        .ok (.existing (root ++ names) (.file content)) := by
  obtain ⟨place, hplace, hadmits, rfl, hnow⟩ := exists_put_of_storeContent hstore
  have hlocation := location_of_place hfree hthere hnames (Or.inl (by decide)) hplace
  rw [hlocation] at hadmits hnow ⊢
  exact ⟨h.tree.get?_put hadmits, hnow⟩

end Host

end DexListing
