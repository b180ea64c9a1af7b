import DexListing.File.RealPath
import DexListing.Proofs.File.Following
import DexListing.Proofs.Text.Joining
import Mathlib.Data.List.Nodup
import Mathlib.Data.List.ProdSigma

/-!
# Real paths

What steps follow to is what they resolve to, if every link is seen (`Host.ofSteps_of_follows`): a
resolution that comes back to a link under way would have to go through more links than there are
on that way. So a real path is where the system goes, whenever it gets there
(`Host.realPath_of_place`), unless it overlooks a link (`Host.Overlooks`): a path of the resolution
can be too long for the system although the path name itself is not.

The depth of a resolution is there to end it, but never does: the system sees a link under so many
path names only that more depth changes nothing (`Host.ofSteps_of_depth`).
-/

set_option autoImplicit false

namespace DexListing

namespace FileTree

variable {t : FileTree}

/-! ## Links under way -/

/-- Every one of these locations is a link whose own steps lead through at least `links` links, if
they lead anywhere. -/
def Costly (t : FileTree) (active : List Location) (links : Nat) : Prop :=
  ∀ a ∈ active, ∀ here step target inner mid, a = here ++ [step] →
    t.get? a = some (.link target) →
    t.Follows (linkStart here target) (linkSteps target) inner mid → links ≤ inner

/-- What is costly with some links left is so with fewer of them. -/
theorem Costly.mono {active : List Location} {links fewer : Nat} (h : t.Costly active links)
    (hle : fewer ≤ links) : t.Costly active fewer := by
  intro a ha here step target inner mid heq hlink htarget
  exact Nat.le_trans hle (h a ha here step target inner mid heq hlink htarget)

/-- A link whose steps lead through `links` links may join locations that are as costly. -/
theorem Costly.cons {active : List Location} {links : Nat} (h : t.Costly active links)
    {here mid : Location} {step target : String}
    (hlink : t.get? (here ++ [step]) = some (.link target))
    (htarget : t.Follows (linkStart here target) (linkSteps target) links mid) :
    t.Costly ((here ++ [step]) :: active) links := by
  intro a ha here' step' target' inner' mid' heq hlink' htarget'
  rcases List.mem_cons.mp ha with rfl | ha
  · obtain ⟨rfl, hstep⟩ := List.append_inj' heq rfl
    obtain rfl := Node.link.inj (Option.some.inj (hlink.symm.trans hlink'))
    exact Nat.le_of_eq (htarget.unique htarget').1
  · exact h a ha here' step' target' inner' mid' heq hlink' htarget'

/-! ## The links of a tree -/

/-- A location is listed among the links exactly if a link stands there. -/
theorem mem_links {l : Location} : l ∈ t.links ↔ (t.linkTarget? l).isSome := by
  have hmem : ∀ ls : List Location, l ∈ ls.foldr List.insert [] ↔ l ∈ ls := by
    intro ls
    induction ls with
    | nil => exact Iff.rfl
    | cons other ls ih => rw [List.foldr_cons, List.mem_insert_iff, ih, List.mem_cons]
  rw [links, hmem, List.mem_filter, and_iff_right_iff_imp]
  intro hlink
  unfold linkTarget? at hlink
  split at hlink
  · next target hget =>
    unfold get? at hget
    split at hget
    · exact nomatch hget
    · have hkey := OrderedMap.mem_keys_of_find? hget
      obtain ⟨entry, hentry, heq⟩ := List.mem_map.mp hkey
      refine List.mem_map.mpr ⟨(l, entry.2), List.mem_map.mpr ⟨entry, hentry, ?_⟩, rfl⟩
      rw [heq, List.reverse_reverse]
  · exact nomatch hlink

/-- No link is listed twice. -/
theorem nodup_links (t : FileTree) : t.links.Nodup := by
  unfold links
  generalize (t.nodes.map Prod.fst).filter _ = ls
  induction ls with
  | nil => exact List.nodup_nil
  | cons l ls ih =>
    rw [List.foldr_cons]
    by_cases hmem : l ∈ ls.foldr List.insert []
    · rwa [List.insert_of_mem hmem]
    · rw [List.insert_of_not_mem hmem]
      exact List.nodup_cons.mpr ⟨hmem, ih⟩

/-- Different links are no more than a tree has. -/
theorem length_le_links {ls : List Location} (hnodup : ls.Nodup)
    (hlinks : ∀ l ∈ ls, (t.linkTarget? l).isSome) : ls.length ≤ t.links.length :=
  hnodup.length_le_of_subset fun l hl => mem_links.mpr (hlinks l hl)

/-- There is a link with a target at a location. -/
theorem linkTarget?_eq_some_iff {l : Location} {target : String} :
    t.linkTarget? l = some target ↔ t.get? l = some (.link target) := by
  unfold linkTarget?
  constructor
  · intro h
    split at h
    · next hget => rw [hget, Option.some.inj h]
    · exact nomatch h
  · intro h
    rw [h]

/-- There is no link at a location. -/
theorem linkTarget?_eq_none_iff {l : Location} :
    t.linkTarget? l = none ↔ ∀ target, t.get? l ≠ some (.link target) := by
  constructor
  · intro hnone target hlink
    rw [linkTarget?_eq_some_iff.mpr hlink] at hnone
    exact nomatch hnone
  · intro hno
    cases htarget : t.linkTarget? l with
    | none => rfl
    | some target => exact absurd (linkTarget?_eq_some_iff.mp htarget) (hno target)

/-- No link is on the way to a location exactly if there is none above it and none at it. -/
theorem crossesLink_eq_false_iff {l : Location} :
    t.crossesLink l = false ↔ ∀ above, above <+: l → t.linkTarget? above = none := by
  rw [crossesLink, List.any_eq_false]
  constructor
  · intro hno above habove
    rw [← Option.not_isSome_iff_eq_none]
    intro hlink
    exact hno above (mem_links.mpr hlink) (List.isPrefixOf_iff_prefix.mpr habove)
  · intro hno link hlink habove
    rw [mem_links, hno link (List.isPrefixOf_iff_prefix.mp habove)] at hlink
    exact nomatch hlink

/-- No link is on the way to a directory. -/
theorem crossesLink_of_directory {l : Location} (hdir : t.get? l = some .directory) :
    t.crossesLink l = false := by
  refine crossesLink_eq_false_iff.mpr fun above habove => linkTarget?_eq_none_iff.mpr ?_
  intro target hlink
  obtain ⟨more, rfl⟩ := habove
  by_cases hmore : more = []
  · rw [hmore, List.append_nil, hlink] at hdir
    exact nomatch hdir
  · rw [get?_of_append hmore hdir] at hlink
    exact nomatch hlink

/-- Following steps never leaves the locations without a link on the way. -/
theorem Follows.crossesLink {here l : Location} {steps : List String} {links : Nat}
    (h : t.Follows here steps links l) (hhere : t.crossesLink here = false) :
    t.crossesLink l = false := by
  induction h with
  | done => exact hhere
  | stay _ _ ih => exact ih hhere
  | @up here _ _ _ _ ih =>
    rw [crossesLink_eq_false_iff] at hhere
    refine ih (crossesLink_eq_false_iff.mpr fun above habove => hhere above ?_)
    exact habove.trans (List.dropLast_prefix here)
  | into _ hno _ ih =>
    rw [crossesLink_eq_false_iff] at hhere
    refine ih (crossesLink_eq_false_iff.mpr fun above habove => ?_)
    rcases List.prefix_concat_iff.mp habove with rfl | habove
    · exact linkTarget?_eq_none_iff.mpr hno
    · exact hhere above habove
  | @through here _ target _ _ _ _ _ _ _ _ _ ihTarget ihRest =>
    refine ihRest (ihTarget ?_)
    unfold linkStart
    split
    · exact crossesLink_of_directory rfl
    · exact hhere

/-- A walk to what is not a link starts where no link is on the way. -/
theorem Walks.crossesLink_start {purpose : Purpose} {links : Nat} {here : Location}
    {steps : List String} {place : Place} (h : t.Walks purpose links here steps place)
    (hnode : ∀ l target, place ≠ .existing l (.link target)) : t.crossesLink here = false := by
  cases h with
  | @arrived _ _ node hget =>
    rw [crossesLink_eq_false_iff]
    intro above habove
    obtain ⟨more, rfl⟩ := habove
    by_cases hmore : more = []
    · rw [hmore, List.append_nil] at hget
      refine linkTarget?_eq_none_iff.mpr fun target hlink => ?_
      obtain rfl := Option.some.inj (hget.symm.trans hlink)
      exact hnode _ target rfl
    · have hdir := crossesLink_of_directory (get?_of_append hmore hget)
      exact crossesLink_eq_false_iff.mp hdir above List.prefix_rfl
  | stay hhere | up hhere | vacant hhere | through hhere | into hhere =>
    exact crossesLink_of_directory hhere
  | atLink => exact absurd rfl (hnode _ _)

end FileTree

/-! ## Paths without links -/

/-- A path name as the resolution builds it: names, after steps up if it is relative. -/
def PathName.IsStraight (p : PathName) : Prop :=
  ∃ ups names, p.parts = List.replicate ups ".." ++ names ∧ (∀ name ∈ names, IsName name) ∧
    (p.root = .relative ∨ p.root = .slash ∧ ups = 0)

namespace PathName

variable {p : PathName}

/-- The resolution starts with a path name that has no parts. -/
theorem isStraight_base (p : PathName) : p.base.IsStraight := by
  refine ⟨0, [], rfl, fun _ => nofun, ?_⟩
  unfold base
  split
  · exact Or.inl rfl
  · exact Or.inr ⟨rfl, rfl⟩

namespace IsStraight

/-- Every step is a name, or a step up in a relative path name. -/
theorem isName_or_up (h : p.IsStraight) {step : String} (hstep : step ∈ p.parts) :
    IsName step ∨ step = ".." ∧ p.root = .relative := by
  obtain ⟨ups, names, hparts, hnames, hroot⟩ := h
  rw [hparts] at hstep
  rcases List.mem_append.mp hstep with hup | hname
  · obtain ⟨hups, rfl⟩ := List.mem_replicate.mp hup
    exact Or.inr ⟨rfl, hroot.resolve_right fun hslash => hups hslash.2⟩
  · exact Or.inl (hnames step hname)

/-- A name after a path name. -/
theorem child (h : p.IsStraight) {name : String} (hname : IsName name) :
    (p.child name).IsStraight := by
  obtain ⟨ups, names, hparts, hnames, hroot⟩ := h
  refine ⟨ups, names ++ [name], ?_, ?_, hroot⟩
  · rw [PathName.child, hparts, List.append_assoc]
  · intro other hother
    rcases List.mem_append.mp hother with hother | hother
    · exact hnames other hother
    · rwa [List.mem_singleton.mp hother]

/-- A step up takes the last name away, or is one more before the first name. -/
theorem up (h : p.IsStraight) : p.up.IsStraight := by
  obtain ⟨ups, names, hparts, hnames, hroot⟩ := h
  unfold PathName.up
  rcases List.eq_nil_or_concat names with rfl | ⟨above, last, rfl⟩
  · rw [List.append_nil] at hparts
    rcases hroot with hroot | ⟨hroot, rfl⟩
    · have hups : p.parts = [] ∨ p.name = ".." := by
        cases ups with
        | zero => exact Or.inl hparts
        | succ n =>
          refine Or.inr ?_
          rw [PathName.name, hparts, List.replicate_succ', List.getLast?_concat, Option.getD_some]
      rw [if_pos ⟨hroot, hups⟩]
      refine ⟨ups + 1, [], ?_, fun _ => nofun, Or.inl hroot⟩
      rw [PathName.child, hparts, List.replicate_succ', List.append_nil]
    · rw [if_neg (by simp [hroot])]
      refine ⟨0, [], ?_, fun _ => nofun, Or.inr ⟨hroot, rfl⟩⟩
      rw [PathName.parent, hparts]
      rfl
  · rw [List.concat_eq_append] at hparts hnames
    rw [← List.append_assoc] at hparts
    have hname : p.name = last := by
      rw [PathName.name, hparts, List.getLast?_concat, Option.getD_some]
    have hlast : last ≠ ".." := (hnames last (by simp)).2
    rw [if_neg (by simp [hname, hlast, hparts])]
    refine ⟨ups, above, ?_, fun name hmem => hnames name (List.mem_append_left _ hmem), hroot⟩
    rw [PathName.parent, hparts, List.dropLast_concat]

/-- The target of a link continues the path name of its directory, or starts at the root. -/
theorem targetBase (h : p.IsStraight) (target : String) : (p.targetBase target).IsStraight := by
  unfold PathName.targetBase
  split
  · exact ⟨0, [], rfl, fun _ => nofun, Or.inr ⟨rfl, rfl⟩⟩
  · exact h

end IsStraight

end PathName

/-- A property of path names that every move of the resolution keeps. -/
structure PathName.Closed (P : PathName → Prop) : Prop where
  child : ∀ p name, P p → IsName name → P (p.child name)
  up : ∀ p, P p → P p.up
  targetBase : ∀ p target, P p → P (p.targetBase target)

/-- The resolution builds straight path names only. -/
theorem PathName.closed_isStraight : Closed IsStraight :=
  ⟨fun _ _ h hname => h.child hname, fun _ h => h.up, fun _ target h => h.targetBase target⟩

/-- From the root it builds path names from the root only. -/
theorem PathName.closed_absolute : Closed fun p => p.IsStraight ∧ p.root = .slash := by
  refine ⟨fun p _ h hname => ⟨h.1.child hname, h.2⟩, fun p h => ⟨h.1.up, ?_⟩,
    fun p target h => ⟨h.1.targetBase target, ?_⟩⟩
  · have hroot := h.2
    rw [PathName.up, if_neg (by simp [hroot])]
    exact hroot
  · rw [PathName.targetBase]
    split
    · rfl
    · exact h.2

/-! ## Steps of a resolution -/

/-- Texts without slashes, joined by slashes, are the target of a link that starts where it
stands. -/
theorem link_joined {first : String} {rest : List String} (hfirst : first ≠ "")
    (htexts : ∀ text ∈ first :: rest, Text.holds text '/' = false) :
    (Text.joined "/" (first :: rest)).toList.head? ≠ some '/' ∧
      linkSteps (Text.joined "/" (first :: rest)) = first :: rest := by
  refine ⟨?_, Text.pieces_joined rfl (List.cons_ne_nil _ _) htexts⟩
  have hhead : (Text.joined "/" (first :: rest)).toList.head? = first.toList.head? := by
    by_cases hrest : rest = []
    · subst hrest
      rw [show Text.joined "/" [first] = first from String.intercalate_singleton]
    · rw [Text.joined_cons "/" first hrest, String.append_assoc, String.toList_append,
        List.head?_append_of_ne_nil _ (String.toList_eq_nil_iff.not.mpr hfirst)]
  rw [hhead]
  intro hslash
  have hmem := List.mem_of_mem_head? (Option.mem_def.mpr hslash)
  exact Text.holds_eq_false_iff.mp (htexts first List.mem_cons_self) hmem

namespace Resolution

variable {P : PathName → Prop} {look look' : PathName → Option String} {depth : Nat}
  {active : List PathName} {here there : PathName} {steps : List String}

/-- What steps are resolved to has every such property that the path before them has. -/
theorem of_resolved (hP : PathName.Closed P)
    (hresolved : ofSteps look depth active here steps = .resolved there) (hhere : P here) :
    P there := by
  fun_induction ofSteps look depth active here steps generalizing there with
  | case1 => rwa [← Resolution.resolved.inj hresolved]
  | case2 _ _ _ _ _ _ ih => exact ih hresolved hhere
  | case3 _ _ here _ _ ih => exact ih hresolved (hP.up here hhere)
  | case4 _ _ here step _ hstay hup _ ih => exact ih hresolved (hP.child here step hhere ⟨hstay, hup⟩)
  | case5 | case6 | case8 => exact nomatch hresolved
  | case7 _ here _ _ _ _ target _ _ _ p hmid ihTarget ihRest =>
    exact ihRest hresolved (ihTarget hmid (hP.targetBase here target hhere))

/-- Steps are resolved in the same way if the same links are found at all path names that the
resolution comes to. -/
theorem ofSteps_congr (hP : PathName.Closed P) (hlook : ∀ p, P p → look' p = look p)
    (hhere : P here) :
    ofSteps look' depth active here steps = ofSteps look depth active here steps := by
  fun_induction ofSteps look depth active here steps with
  | case1 => rw [ofSteps]
  | case2 _ _ _ _ _ hstay ih => rw [ofSteps, if_pos hstay, ih hhere]
  | case3 _ _ here _ hstay ih => rw [ofSteps, if_neg hstay, if_pos rfl, ih (hP.up here hhere)]
  | case4 _ _ here step _ hstay hup hnone ih =>
    have hnext := hP.child here step hhere ⟨hstay, hup⟩
    rw [ofSteps, if_neg hstay, if_neg hup, hlook _ hnext, hnone]
    exact ih hnext
  | case5 _ _ here step _ hstay hup target hlink hactive =>
    rw [ofSteps, if_neg hstay, if_neg hup, hlook _ (hP.child here step hhere ⟨hstay, hup⟩), hlink]
    dsimp only
    rw [if_pos hactive]
  | case6 _ here step _ hstay hup target hlink hactive =>
    rw [ofSteps, if_neg hstay, if_neg hup, hlook _ (hP.child here step hhere ⟨hstay, hup⟩), hlink]
    dsimp only
    rw [if_neg hactive]
  | case7 _ here step _ hstay hup target hlink hactive _ mid hmid ihTarget ihRest =>
    have hbase := hP.targetBase here target hhere
    rw [ofSteps, if_neg hstay, if_neg hup, hlook _ (hP.child here step hhere ⟨hstay, hup⟩), hlink]
    dsimp only
    rw [if_neg hactive, ihTarget hbase, hmid]
    exact ihRest (of_resolved hP hmid hbase)
  | case8 _ here step _ hstay hup target hlink hactive _ mid hmid ihTarget =>
    rw [ofSteps, if_neg hstay, if_neg hup, hlook _ (hP.child here step hhere ⟨hstay, hup⟩), hlink]
    dsimp only
    rw [if_neg hactive, ihTarget (hP.targetBase here target hhere), hmid]

/-- After steps that are resolved the other ones go on. -/
theorem ofSteps_append (hresolved : ofSteps look depth active here steps = .resolved there)
    (more : List String) :
    ofSteps look depth active here (steps ++ more) = ofSteps look depth active there more := by
  fun_induction ofSteps look depth active here steps generalizing there with
  | case1 =>
    obtain rfl := Resolution.resolved.inj hresolved
    rfl
  | case2 _ _ _ _ _ hstay ih => rw [List.cons_append, ofSteps, if_pos hstay, ih hresolved]
  | case3 _ _ _ _ hstay ih => rw [List.cons_append, ofSteps, if_neg hstay, if_pos rfl, ih hresolved]
  | case4 _ _ _ _ _ hstay hup hnone ih =>
    rw [List.cons_append, ofSteps, if_neg hstay, if_neg hup, hnone]
    exact ih hresolved
  | case5 | case6 | case8 => exact nomatch hresolved
  | case7 _ _ _ _ hstay hup target hlink hactive _ mid hmid _ ihRest =>
    rw [List.cons_append, ofSteps, if_neg hstay, if_neg hup, hlink]
    dsimp only
    rw [if_neg hactive, hmid]
    exact ihRest hresolved

/-- Names under which no link is found are taken as they are written. -/
theorem ofSteps_names {names : List String} (hnames : ∀ name ∈ names, IsName name)
    (hnone : ∀ above, above ≠ [] → above <+: names → look ⟨here.root, here.parts ++ above⟩ = none)
    (rest : List String) :
    ofSteps look depth active here (names ++ rest) =
      ofSteps look depth active ⟨here.root, here.parts ++ names⟩ rest := by
  induction names generalizing here with
  | nil => rw [List.append_nil, List.nil_append]
  | cons name names ih =>
    have hname := hnames name List.mem_cons_self
    have hfirst : look (here.child name) = none :=
      hnone [name] (List.cons_ne_nil _ _) (List.prefix_append [name] names)
    rw [List.cons_append, ofSteps, if_neg hname.1, if_neg hname.2, hfirst]
    dsimp only
    rw [ih (fun other hother => hnames other (List.mem_cons_of_mem name hother))]
    · rw [PathName.child, List.append_assoc]
      rfl
    · intro above hne habove
      rw [PathName.child, List.append_assoc]
      exact hnone (name :: above) (List.cons_ne_nil _ _) (List.cons_prefix_cons.mpr ⟨rfl, habove⟩)

/-- A link that is found leads to what its steps are resolved to. -/
theorem ofSteps_link {step target : String} (hname : IsName step)
    (hlink : look (here.child step) = some target) (hnew : here.child step ∉ active)
    (htarget : ofSteps look depth (here.child step :: active) (here.targetBase target)
      (linkSteps target) = .resolved there) (rest : List String) :
    ofSteps look (depth + 1) active here (step :: rest) =
      ofSteps look (depth + 1) active there rest := by
  rw [ofSteps, if_neg hname.1, if_neg hname.2, hlink]
  dsimp only
  rw [if_neg hnew, htarget]

end Resolution

namespace Host

variable {h : Host} {p : PathName}

/-- The location that a path name starts from. -/
theorem locate_base (h : Host) (p : PathName) : h.locate p.base = h.start p := by
  unfold locate PathName.base start
  by_cases hroot : p.root = .relative <;> simp [hroot]

/-- A name after a path leads below its location. -/
theorem locate_child (h : Host) (p : PathName) {name : String} (hname : IsName name) :
    h.locate (p.child name) = h.locate p ++ [name] := by
  have hstart : h.start (p.child name) = h.start p := rfl
  unfold locate
  rw [hstart, PathName.child, List.foldl_append, List.foldl_cons, List.foldl_nil, writtenStep,
    if_neg hname.1, if_neg hname.2]

/-- A step up leads to where the location stands. -/
theorem locate_up (h : Host) (hp : p.IsStraight) : h.locate p.up = (h.locate p).dropLast := by
  unfold PathName.up
  split
  · have hstart : h.start (p.child "..") = h.start p := rfl
    unfold locate
    rw [hstart, PathName.child, List.foldl_append, List.foldl_cons, List.foldl_nil, writtenStep,
      if_neg (by decide), if_pos rfl]
  · next hkept =>
    have hstart : h.start p.parent = h.start p := rfl
    rcases List.eq_nil_or_concat p.parts with hnil | ⟨above, name, hparts⟩
    · -- There is nothing to drop, so the path starts at the root.
      have hroot : p.root ≠ .relative := fun hroot => hkept ⟨hroot, Or.inl hnil⟩
      unfold locate
      rw [hstart, PathName.parent, hnil, start, if_neg hroot]
      rfl
    · rw [List.concat_eq_append] at hparts
      have hlast : p.name = name := by
        rw [PathName.name, hparts, List.getLast?_concat, Option.getD_some]
      have hname : IsName name := by
        have hmem : name ∈ p.parts := by simp [hparts]
        rcases hp.isName_or_up hmem with hname | ⟨hup, hroot⟩
        · exact hname
        · exact absurd ⟨hroot, Or.inr (hlast.trans hup)⟩ hkept
      unfold locate
      rw [hstart, PathName.parent, hparts, List.dropLast_concat, List.foldl_append, List.foldl_cons,
        List.foldl_nil, writtenStep, if_neg hname.1, if_neg hname.2, List.dropLast_concat]

/-- The target of a link starts in the directory of the link, or at the root. -/
theorem locate_targetBase (h : Host) (p : PathName) (target : String) :
    h.locate (p.targetBase target) = linkStart (h.locate p) target := by
  unfold PathName.targetBase linkStart
  split <;> rfl

/-! ## What steps follow to is what they resolve to -/

/-- Steps that lead somewhere resolve to it, as long as the links under way are all too costly to
be met again and there is depth for the other ones. -/
theorem ofSteps_of_follows {start l : Location} {steps : List String} {links : Nat}
    (hfollows : h.tree.Follows start steps links l) {here : PathName} (hhere : h.locate here = start)
    (hstraight : here.IsStraight) (depth : Nat) (active : List PathName)
    (hcostly : h.tree.Costly (active.map h.locate) links) (hnodup : (active.map h.locate).Nodup)
    (hactive : ∀ a ∈ active, (h.linkAt? a).isSome)
    (hdepth : h.tree.links.length ≤ depth + active.length) :
    ∃ there, Resolution.ofSteps h.linkAt? depth active here steps = .resolved there ∧
      h.locate there = l ∧ there.IsStraight := by
  induction hfollows generalizing here depth active with
  | done => exact ⟨here, by rw [Resolution.ofSteps], hhere, hstraight⟩
  | stay hstep _ ih =>
    rw [Resolution.ofSteps, if_pos hstep]
    exact ih hhere hstraight depth active hcostly hnodup hactive hdepth
  | up _ ih =>
    rw [Resolution.ofSteps, if_neg (by decide), if_pos rfl]
    refine ih ?_ hstraight.up depth active hcostly hnodup hactive hdepth
    rw [locate_up h hstraight, hhere]
  | @into start step _ _ _ hname hno _ ih =>
    have hnext : h.locate (here.child step) = start ++ [step] := by
      rw [locate_child h _ hname, hhere]
    have hnone : h.linkAt? (here.child step) = none := by
      rw [linkAt?, hnext]
      exact FileTree.linkTarget?_eq_none_iff.mpr hno
    rw [Resolution.ofSteps, if_neg hname.1, if_neg hname.2, hnone]
    exact ih hnext (hstraight.child hname) depth active hcostly hnodup hactive hdepth
  | @through start step target _ inner links _ _ hname hlink htarget _ ihTarget ihRest =>
    have hnext : h.locate (here.child step) = start ++ [step] := by
      rw [locate_child h _ hname, hhere]
    have hsome : h.linkAt? (here.child step) = some target := by
      rw [linkAt?, hnext]
      exact FileTree.linkTarget?_eq_some_iff.mpr hlink
    have hnew : start ++ [step] ∉ active.map h.locate := by
      intro hmem
      have := hcostly _ hmem start step target inner _ rfl hlink htarget
      omega
    have hnodup' : ((here.child step :: active).map h.locate).Nodup := by
      rw [List.map_cons, hnext]
      exact List.nodup_cons.mpr ⟨hnew, hnodup⟩
    have hactive' : ∀ a ∈ here.child step :: active, (h.linkAt? a).isSome := by
      intro a ha
      rcases List.mem_cons.mp ha with rfl | ha
      · rw [hsome]
        rfl
      · exact hactive a ha
    -- The links under way and the new one are different links of the tree.
    have hroom := FileTree.length_le_links hnodup' fun l hl => by
      obtain ⟨a, ha, rfl⟩ := List.mem_map.mp hl
      exact hactive' a ha
    rw [List.length_map, List.length_cons] at hroom
    obtain ⟨depth, rfl⟩ : ∃ d, depth = d + 1 := ⟨depth - 1, by omega⟩
    have hcostly' : h.tree.Costly ((here.child step :: active).map h.locate) inner := by
      rw [List.map_cons, hnext]
      exact (hcostly.mono (by omega)).cons hlink htarget
    have hbase : h.locate (here.targetBase target) = linkStart start target := by
      rw [locate_targetBase, hhere]
    obtain ⟨mid, hresolved, hmid, hmidStraight⟩ :=
      ihTarget hbase (hstraight.targetBase target) depth (here.child step :: active) hcostly' hnodup'
        hactive' (by rw [List.length_cons]; omega)
    have hnotActive : here.child step ∉ active := fun hmem =>
      hnew (hnext ▸ List.mem_map_of_mem hmem)
    rw [Resolution.ofSteps, if_neg hname.1, if_neg hname.2, hsome]
    dsimp only
    rw [if_neg hnotActive, hresolved]
    exact ihRest hmid hmidStraight (depth + 1) active (hcostly.mono (by omega)) hnodup hactive hdepth

/-- A path name that leads somewhere is resolved to that if every link is seen. -/
theorem exists_resolution_of_follows {links : Nat} {l : Location}
    (hfollows : h.tree.Follows (h.start p) p.parts links l) :
    ∃ there, h.resolution h.linkAt? p = .resolved there ∧ h.locate there = l := by
  obtain ⟨there, hresolved, hthere, -⟩ :=
    ofSteps_of_follows hfollows (h.locate_base p) (PathName.isStraight_base p) h.maxDepth []
      (fun a ha => nomatch ha) List.nodup_nil (fun a ha => nomatch ha)
      (Nat.le_mul_of_pos_left _ (by decide))
  exact ⟨there, hresolved, hthere⟩

/-! ## Depth -/

end Host

/-- Names lead below where they start. -/
theorem foldl_writtenStep_names {names : List String} (hnames : ∀ name ∈ names, IsName name)
    (here : Location) : names.foldl writtenStep here = here ++ names := by
  induction names generalizing here with
  | nil => exact (List.append_nil here).symm
  | cons name rest ih =>
    have hname := hnames name List.mem_cons_self
    rw [List.foldl_cons, writtenStep, if_neg hname.1, if_neg hname.2,
      ih (fun other hother => hnames other (List.mem_cons_of_mem name hother)), List.append_assoc]
    rfl

/-- The steps up that a path name begins with, and one more if it is relative. -/
def PathName.climb (p : PathName) : Nat :=
  if p.root = .relative then (p.parts.takeWhile (· = "..")).length + 1 else 0

/-- A relative path name with parts is these parts with slashes between them. -/
theorem PathName.text_relative {parts : List String} (hne : parts ≠ []) :
    PathName.text ⟨.relative, parts⟩ = Text.joined "/" parts :=
  if_neg hne

namespace PathName.IsStraight

variable {h : Host} {p q : PathName}

/-- A straight path name climbs as far as it has steps up. -/
theorem climb_eq {ups : Nat} {names : List String}
    (hparts : p.parts = List.replicate ups ".." ++ names) (hnames : ∀ name ∈ names, IsName name) :
    p.climb = if p.root = .relative then ups + 1 else 0 := by
  have hnone : names.takeWhile (· = "..") = [] := by
    cases names with
    | nil => rfl
    | cons name rest => simp [(hnames name List.mem_cons_self).2]
  unfold PathName.climb
  rw [hparts, List.takeWhile_append_of_pos (by simp), hnone, List.append_nil, List.length_replicate]

/-- A straight path name that is not too long does not climb too far. -/
theorem climb_lt (hp : p.IsStraight) (hshort : p.text.utf8ByteSize < maxPathBytes) :
    p.climb < maxPathBytes := by
  obtain ⟨ups, names, hparts, hnames, hroot⟩ := hp
  rw [climb_eq hparts hnames]
  split
  · next hrelative =>
    by_cases hnil : p.parts = []
    · have hups : ups = 0 := by
        cases ups with
        | zero => rfl
        | succ n => rw [hparts] at hnil; exact nomatch hnil
      rw [hups]
      decide
    · have hparts' : ∀ step ∈ p.parts, step ≠ "" := by
        intro step hstep hempty
        rw [hparts] at hstep
        rcases List.mem_append.mp hstep with hup | hname
        · rw [(List.mem_replicate.mp hup).2] at hempty
          exact absurd hempty (by decide)
        · exact (hnames step hname).1 (Or.inl hempty)
      have hbound := Text.two_mul_length_le_joined hparts'
      have htext : p.text = Text.joined "/" p.parts := by
        have hp : p = ⟨.relative, p.parts⟩ := by rw [← hrelative]
        rw [hp, PathName.text_relative hnil]
      rw [htext] at hshort
      have hlength : ups ≤ p.parts.length := by
        rw [hparts, List.length_append, List.length_replicate]
        exact Nat.le_add_right ups _
      unfold maxPathBytes at hshort ⊢
      omega
  · decide

/-- Straight path names that climb as far and have one location are the same. -/
theorem eq_of_locate (hp : p.IsStraight) (hq : q.IsStraight) (hclimb : p.climb = q.climb)
    (hlocate : h.locate p = h.locate q) : p = q := by
  obtain ⟨ups, names, hparts, hnames, hroot⟩ := hp
  obtain ⟨ups', names', hparts', hnames', hroot'⟩ := hq
  rw [climb_eq hparts hnames, climb_eq hparts' hnames'] at hclimb
  have hsame : p.root = q.root ∧ ups = ups' := by
    rcases hroot with hroot | ⟨hroot, rfl⟩ <;> rcases hroot' with hroot' | ⟨hroot', rfl⟩
    · simp only [hroot, hroot', if_true] at hclimb
      exact ⟨by rw [hroot, hroot'], by omega⟩
    · simp [hroot, hroot'] at hclimb
    · simp [hroot, hroot'] at hclimb
    · exact ⟨by rw [hroot, hroot'], rfl⟩
  obtain ⟨hroots, rfl⟩ := hsame
  have hstart : h.start p = h.start q := by
    unfold Host.start
    rw [hroots]
  unfold Host.locate at hlocate
  rw [hparts, hparts', List.foldl_append, List.foldl_append, hstart, foldl_writtenStep_names hnames,
    foldl_writtenStep_names hnames'] at hlocate
  rw [← List.append_cancel_left hlocate] at hparts'
  cases p
  cases q
  simp_all

end PathName.IsStraight

namespace Host

variable {h : Host} {p : PathName}

/-- Where the system sees a link, there is one, and the path name is short enough. -/
theorem linkAt?_of_seenLink? {target : String} (hseen : h.seenLink? p = some target) :
    h.linkAt? p = some target ∧ p.text.utf8ByteSize < maxPathBytes := by
  unfold seenLink? at hseen
  split at hseen
  · next hshort => exact ⟨hseen, hshort.1⟩
  · exact nomatch hseen

/-- The system sees links under no more than so many straight path names: these differ by how far
they climb or by the location of the link. -/
theorem length_le_maxDepth {paths : List PathName} (hnodup : paths.Nodup)
    (hstraight : ∀ p ∈ paths, p.IsStraight) (hseen : ∀ p ∈ paths, (h.seenLink? p).isSome) :
    paths.length ≤ h.maxDepth := by
  have hinj : (paths.map fun p => (p.climb, h.locate p)).Nodup := by
    refine List.Nodup.map_on ?_ hnodup
    intro p hp q hq heq
    obtain ⟨hclimb, hlocate⟩ := Prod.mk.inj heq
    exact (hstraight p hp).eq_of_locate (hstraight q hq) hclimb hlocate
  have hsub : (paths.map fun p => (p.climb, h.locate p)) ⊆
      List.range maxPathBytes ×ˢ h.tree.links := by
    intro pair hpair
    obtain ⟨p, hp, rfl⟩ := List.mem_map.mp hpair
    obtain ⟨target, htarget⟩ := Option.isSome_iff_exists.mp (hseen p hp)
    obtain ⟨hlink, hshort⟩ := linkAt?_of_seenLink? htarget
    refine List.mem_product.mpr ⟨List.mem_range.mpr ((hstraight p hp).climb_lt hshort), ?_⟩
    refine FileTree.mem_links.mpr ?_
    rw [show h.tree.linkTarget? (h.locate p) = some target from hlink]
    rfl
  have hle := hinj.length_le_of_subset hsub
  rwa [List.length_map, List.length_product, List.length_range] at hle

/-- The links under way are seen under different path names, and there is depth for all other
ones. -/
structure Room (h : Host) (depth : Nat) (active : List PathName) : Prop where
  nodup : active.Nodup
  straight : ∀ p ∈ active, p.IsStraight
  seen : ∀ p ∈ active, (h.seenLink? p).isSome
  enough : h.maxDepth ≤ depth + active.length

/-- There is room for one more link that is not under way. -/
theorem Room.cons {depth : Nat} {active : List PathName} (hroom : h.Room depth active)
    {target : String} (hstraight : p.IsStraight) (hseen : h.seenLink? p = some target)
    (hnew : p ∉ active) : ∃ less, depth = less + 1 ∧ h.Room less (p :: active) := by
  have hnodup : (p :: active).Nodup := List.nodup_cons.mpr ⟨hnew, hroom.nodup⟩
  have hstraight' : ∀ q ∈ p :: active, q.IsStraight := by
    intro q hq
    rcases List.mem_cons.mp hq with rfl | hq
    · exact hstraight
    · exact hroom.straight q hq
  have hseen' : ∀ q ∈ p :: active, (h.seenLink? q).isSome := by
    intro q hq
    rcases List.mem_cons.mp hq with rfl | hq
    · rw [hseen]
      rfl
    · exact hroom.seen q hq
  have hbound := length_le_maxDepth hnodup hstraight' hseen'
  have henough := hroom.enough
  rw [List.length_cons] at hbound
  refine ⟨depth - 1, by omega, hnodup, hstraight', hseen', ?_⟩
  rw [List.length_cons]
  omega

/-- The depth does not matter where it is enough. The induction is along the resolution with one of
two depths. -/
theorem Room.ofSteps_eq {depth depth' : Nat} {active : List PathName} {here : PathName}
    (hroom : h.Room depth active) (hroom' : h.Room depth' active) (hhere : here.IsStraight)
    (steps : List String) :
    Resolution.ofSteps h.seenLink? depth' active here steps =
      Resolution.ofSteps h.seenLink? depth active here steps := by
  fun_induction Resolution.ofSteps h.seenLink? depth active here steps generalizing depth' with
  | case1 => rw [Resolution.ofSteps]
  | case2 _ _ _ _ _ hstay ih => rw [Resolution.ofSteps, if_pos hstay, ih hroom hroom' hhere]
  | case3 _ _ _ _ hstay ih =>
    rw [Resolution.ofSteps, if_neg hstay, if_pos rfl, ih hroom hroom' hhere.up]
  | case4 _ _ _ _ _ hstay hup hnone ih =>
    rw [Resolution.ofSteps, if_neg hstay, if_neg hup, hnone]
    exact ih hroom hroom' (hhere.child ⟨hstay, hup⟩)
  | case5 _ _ _ _ _ hstay hup target hlink hactive =>
    rw [Resolution.ofSteps, if_neg hstay, if_neg hup, hlink]
    dsimp only
    rw [if_pos hactive]
  | case6 _ _ _ _ hstay hup target hlink hactive =>
    obtain ⟨less, hless, -⟩ := hroom.cons (hhere.child ⟨hstay, hup⟩) hlink hactive
    exact absurd hless (Nat.succ_ne_zero less).symm
  | case7 _ _ _ _ hstay hup target hlink hactive depth mid hmid ihTarget ihRest =>
    obtain ⟨less, hless, hless'⟩ := hroom.cons (hhere.child ⟨hstay, hup⟩) hlink hactive
    obtain rfl := Nat.succ.inj hless
    obtain ⟨other, rfl, hother⟩ := hroom'.cons (hhere.child ⟨hstay, hup⟩) hlink hactive
    have hbase := hhere.targetBase target
    rw [Resolution.ofSteps, if_neg hstay, if_neg hup, hlink]
    dsimp only
    rw [if_neg hactive, ihTarget hless' hother hbase, hmid]
    exact ihRest hroom hroom' (Resolution.of_resolved PathName.closed_isStraight hmid hbase)
  | case8 _ _ _ _ hstay hup target hlink hactive depth mid hmid ihTarget =>
    obtain ⟨less, hless, hless'⟩ := hroom.cons (hhere.child ⟨hstay, hup⟩) hlink hactive
    obtain rfl := Nat.succ.inj hless
    obtain ⟨other, rfl, hother⟩ := hroom'.cons (hhere.child ⟨hstay, hup⟩) hlink hactive
    rw [Resolution.ofSteps, if_neg hstay, if_neg hup, hlink]
    dsimp only
    rw [if_neg hactive, ihTarget hless' hother (hhere.targetBase target), hmid]

/-- More depth changes no resolution. -/
theorem ofSteps_of_depth {depth : Nat} (hdepth : h.maxDepth ≤ depth) (p : PathName) :
    Resolution.ofSteps h.seenLink? depth [] p.base p.parts = h.resolution h.seenLink? p :=
  Room.ofSteps_eq ⟨List.nodup_nil, fun _ => nofun, fun _ => nofun, Nat.le_refl _⟩
    ⟨List.nodup_nil, fun _ => nofun, fun _ => nofun, hdepth⟩ (PathName.isStraight_base p) p.parts

/-! ## Links that are overlooked -/

/-- The system would resolve a path name differently if it saw every link, however long the path
name is under which it has to look for one. -/
def Overlooks (h : Host) (p : PathName) : Prop :=
  h.resolution h.seenLink? p ≠ h.resolution h.linkAt? p

/-- Where all links have short path names, none is overlooked on the way from the root. -/
theorem not_overlooks_of_short (habsolute : p.root ≠ .relative)
    (hshort : ∀ l ∈ h.tree.links, (PathName.mk .slash l).text.utf8ByteSize < maxPathBytes ∧
      (PathName.mk .slash l).name.utf8ByteSize ≤ maxNameBytes) : ¬h.Overlooks p := by
  have hlook : ∀ q : PathName, q.IsStraight ∧ q.root = .slash → h.linkAt? q = h.seenLink? q := by
    rintro q ⟨⟨ups, names, hparts, hnames, hroot⟩, hslash⟩
    obtain ⟨-, rfl⟩ := hroot.resolve_left (by simp [hslash])
    rw [List.replicate_zero, List.nil_append] at hparts
    have hq : q = ⟨.slash, names⟩ := by
      cases q
      simp_all
    have hlocate : h.locate q = names := by
      rw [hq]
      exact foldl_writtenStep_names hnames []
    unfold seenLink?
    cases htarget : h.linkAt? q with
    | none => rw [ite_self]
    | some target =>
      have hmem : names ∈ h.tree.links := by
        rw [FileTree.mem_links, ← hlocate, show h.tree.linkTarget? (h.locate q) = _ from htarget]
        rfl
      rw [hq, if_pos (hshort names hmem)]
  have hbase : p.base = ⟨.slash, []⟩ := by
    rw [PathName.base, if_neg habsolute]
  have hsame : h.resolution h.linkAt? p = h.resolution h.seenLink? p :=
    Resolution.ofSteps_congr PathName.closed_absolute hlook
      ⟨p.isStraight_base, by rw [hbase]⟩
  exact fun hoverlooks => hoverlooks hsame.symm

/-- Below a location without links no more links are overlooked than on the way there. -/
theorem not_overlooks_append {links : Nat} {root : Location} (hsees : ¬h.Overlooks p)
    (hfollows : h.tree.Follows (h.start p) p.parts links root) {names : List String}
    (hnames : ∀ name ∈ names, IsName name)
    (hnone : ∀ above, above ≠ [] → h.tree.linkTarget? (root ++ above) = none) :
    ¬h.Overlooks ⟨p.root, p.parts ++ names⟩ := by
  obtain ⟨there, hresolved, hthere⟩ := exists_resolution_of_follows hfollows
  have hseen : h.resolution h.seenLink? p = .resolved there :=
    (Decidable.not_not.mp hsees).trans hresolved
  have hlink : ∀ above, above ≠ [] → above <+: names →
      h.linkAt? ⟨there.root, there.parts ++ above⟩ = none := by
    intro above hne habove
    have hlocate : h.locate ⟨there.root, there.parts ++ above⟩ = root ++ above := by
      rw [← hthere]
      unfold locate
      rw [List.foldl_append]
      exact foldl_writtenStep_names (fun name hname => hnames name (habove.subset hname)) _
    rw [linkAt?, hlocate]
    exact hnone above hne
  have hboth : ∀ look : PathName → Option String, h.resolution look p = .resolved there →
      (∀ above, above ≠ [] → above <+: names → look ⟨there.root, there.parts ++ above⟩ = none) →
      h.resolution look ⟨p.root, p.parts ++ names⟩ =
        .resolved ⟨there.root, there.parts ++ names⟩ := by
    intro look hlook hno
    have hall := Resolution.ofSteps_append hlook names
    rw [← List.append_nil names, Resolution.ofSteps_names hnames hno [], Resolution.ofSteps] at hall
    rw [List.append_nil] at hall
    exact hall
  have hunseen : ∀ above, above ≠ [] → above <+: names →
      h.seenLink? ⟨there.root, there.parts ++ above⟩ = none := by
    intro above hne habove
    unfold seenLink?
    rw [hlink above hne habove, ite_self]
  exact fun hoverlooks => hoverlooks ((hboth _ hseen hunseen).trans (hboth _ hresolved hlink).symm)

/-- A path name that leads somewhere is resolved to that, unless the system overlooks a link. -/
theorem locate_resolution_of_follows {links : Nat} {l : Location} (hsees : ¬h.Overlooks p)
    (hfollows : h.tree.Follows (h.start p) p.parts links l) :
    h.locate (h.resolution h.seenLink? p).path = l := by
  obtain ⟨there, hresolved, hthere⟩ := exists_resolution_of_follows hfollows
  have hseen : h.resolution h.seenLink? p = .resolved there :=
    (Decidable.not_not.mp hsees).trans hresolved
  rw [hseen]
  exact hthere

/-- A path name that leads somewhere from where no link is on the way has that as its real path,
unless the system overlooks a link. -/
theorem realPath_of_follows {links : Nat} {l : Location} (hnul : p.hasNul = false)
    (hsees : ¬h.Overlooks p) (hstart : h.tree.crossesLink (h.start p) = false)
    (hfollows : h.tree.Follows (h.start p) p.parts links l) : h.realPath p = .ok l := by
  unfold realPath
  rw [hnul, locate_resolution_of_follows hsees hfollows]
  dsimp only
  rw [hfollows.crossesLink hstart]
  rfl

/-- The real path of a path name is where the system goes, whenever it gets there and that is not a
link, unless it overlooks a link. -/
theorem realPath_of_place {purpose : Purpose} {place : Place}
    (hsees : ¬h.Overlooks p) (hplace : h.place purpose p = .ok place)
    (hnode : ∀ l target, place ≠ .existing l (.link target)) :
    h.realPath p = .ok place.location := by
  obtain ⟨hnul, hwalk⟩ := walks_of_place hplace
  obtain ⟨links, hfollows⟩ := hwalk.follows (Or.inr hnode)
  exact realPath_of_follows hnul hsees (hwalk.crossesLink_start hnode) hfollows

/-- Names after a path name that is resolved, each with a path so far that is too long, are taken as
they are written: whether a link is among them is not seen. -/
theorem realPath_of_long {there : PathName} (hresolved : h.resolution h.seenLink? p = .resolved there)
    {names : List String} (hnames : ∀ name ∈ names, IsName name)
    (hlong : ∀ above, above ≠ [] → above <+: names →
      maxPathBytes ≤ (PathName.mk there.root (there.parts ++ above)).text.utf8ByteSize)
    (hnul : PathName.hasNul ⟨p.root, p.parts ++ names⟩ = false)
    (hlongest : maxPathBytes ≤ (Location.pathName (h.locate there ++ names)).text.utf8ByteSize) :
    h.realPath ⟨p.root, p.parts ++ names⟩ = .ok (h.locate there ++ names) := by
  have hunseen : ∀ above, above ≠ [] → above <+: names →
      h.seenLink? ⟨there.root, there.parts ++ above⟩ = none := by
    intro above hne habove
    rw [seenLink?, if_neg fun hshort => Nat.not_lt.mpr (hlong above hne habove) hshort.1]
  have hall := Resolution.ofSteps_append hresolved names
  rw [← List.append_nil names, Resolution.ofSteps_names hnames hunseen [], Resolution.ofSteps,
    List.append_nil] at hall
  have hpath : h.resolution h.seenLink? ⟨p.root, p.parts ++ names⟩ =
      .resolved ⟨there.root, there.parts ++ names⟩ := hall
  have hlocate : h.locate ⟨there.root, there.parts ++ names⟩ = h.locate there ++ names := by
    unfold locate
    rw [List.foldl_append]
    exact foldl_writtenStep_names hnames _
  unfold realPath
  rw [hnul, hpath]
  dsimp only [Resolution.path]
  rw [hlocate, if_neg Bool.false_ne_true]
  split
  · unfold place
    rw [if_pos hlongest]
    split
    · next hloop =>
      split at hloop
      · cases hloop
      · cases hloop
    · rfl
  · rfl

end Host

end DexListing
