import DexListing.File.Lookup
import Mathlib.Data.List.Induction

/-!
# Walks along a path

The system follows a path by a loop that may fail at every step (`FileTree.walk`). Here are the
walks that do not fail, as a relation with one constructor for each kind of step
(`FileTree.Walks`), and the proof that these are the successes of the loop (`walk_eq_ok_iff`).
What a walk says about the place that it leads to is then an induction over its steps.
-/

set_option autoImplicit false

namespace DexListing

/-- A step that names an entry of a directory; the other steps stay or go up. -/
def IsName (step : String) : Prop := ¬(step = "" ∨ step = ".") ∧ step ≠ ".."

instance (step : String) : Decidable (IsName step) :=
  inferInstanceAs (Decidable (_ ∧ _))

/-- A name that the system takes: it is short enough, and where a file is to be written no slash
follows it at the end. -/
structure Purpose.Takes (purpose : Purpose) (step : String) (rest : List String) : Prop where
  isName : IsName step
  notClosed : ¬(purpose = .writing ∧ rest ≠ [] ∧ rest.all (· = ""))
  short : step.utf8ByteSize ≤ maxNameBytes

/-- A name that is short enough is taken unless something is to be written. -/
theorem Purpose.takes_of_isName {purpose : Purpose} (hpurpose : purpose ≠ .writing) {step : String}
    (hname : IsName step) (hshort : step.utf8ByteSize ≤ maxNameBytes) (rest : List String) :
    purpose.Takes step rest :=
  ⟨hname, fun hwriting => hpurpose hwriting.1, hshort⟩

/-- The location that a place has, whether or not anything is there. -/
def Place.location : Place → Location
  | .existing l _ => l
  | .vacant l => l

namespace FileTree

variable {t : FileTree} {purpose : Purpose}

/-- A walk from a location along steps to a place, through at most so many links. -/
inductive Walks (t : FileTree) (purpose : Purpose) :
    (links : Nat) → (here : Location) → (steps : List String) → Place → Prop
  | arrived {links : Nat} {here : Location} {node : Node} :
      t.get? here = some node → Walks t purpose links here [] (.existing here node)
  | stay {links : Nat} {here : Location} {step : String} {rest : List String} {place : Place} :
      t.get? here = some .directory → step = "" ∨ step = "." →
      Walks t purpose links here rest place → Walks t purpose links here (step :: rest) place
  | up {links : Nat} {here : Location} {rest : List String} {place : Place} :
      t.get? here = some .directory →
      Walks t purpose links here.dropLast rest place →
      Walks t purpose links here (".." :: rest) place
  | vacant {links : Nat} {here : Location} {step : String} :
      t.get? here = some .directory → purpose.Takes step [] → t.get? (here ++ [step]) = none →
      Walks t purpose links here [step] (.vacant (here ++ [step]))
  | atLink {links : Nat} {here : Location} {step target : String} :
      t.get? here = some .directory → purpose.Takes step [] →
      t.get? (here ++ [step]) = some (.link target) → purpose = .entry →
      Walks t purpose links here [step] (.existing (here ++ [step]) (.link target))
  | through {links : Nat} {here : Location} {step target : String} {rest : List String}
      {place : Place} :
      t.get? here = some .directory → purpose.Takes step rest →
      t.get? (here ++ [step]) = some (.link target) → ¬(rest = [] ∧ purpose = .entry) →
      Walks t purpose links (linkStart here target) (linkSteps target ++ rest) place →
      Walks t purpose (links + 1) here (step :: rest) place
  | into {links : Nat} {here : Location} {step : String} {rest : List String} {node : Node}
      {place : Place} :
      t.get? here = some .directory → purpose.Takes step rest →
      t.get? (here ++ [step]) = some node → (∀ target, node ≠ .link target) →
      Walks t purpose links (here ++ [step]) rest place →
      Walks t purpose links here (step :: rest) place

/-- The loop that succeeds has walked. -/
theorem walks_of_walk {links : Nat} {here : Location} {steps : List String} {place : Place}
    (h : t.walk purpose links here steps = .ok place) :
    t.Walks purpose links here steps place := by
  fun_induction FileTree.walk t purpose links here steps with
  | case1 links here node hnode =>
    obtain rfl := Except.ok.inj h
    exact .arrived hnode
  | case2 | case3 | case6 | case7 | case9 | case11 => exact nomatch h
  | case4 links here step rest hhere hstep ih => exact .stay (Decidable.not_not.mp hhere) hstep (ih h)
  | case5 links here rest hhere hstep ih => exact .up (Decidable.not_not.mp hhere) (ih h)
  | case8 links here step hhere hdot hup hshort hnone hclosed =>
    obtain rfl := Except.ok.inj h
    exact .vacant (Decidable.not_not.mp hhere) ⟨⟨hdot, hup⟩, hclosed, Nat.le_of_not_lt hshort⟩ hnone
  | case10 links here step rest hhere hdot hup hclosed hshort target hlink hlast =>
    obtain rfl := Except.ok.inj h
    obtain ⟨rfl, hentry⟩ := hlast
    exact .atLink (Decidable.not_not.mp hhere) ⟨⟨hdot, hup⟩, hclosed, Nat.le_of_not_lt hshort⟩ hlink
      hentry
  | case12 here step rest hhere hdot hup hclosed hshort target hlink hlast links ih =>
    exact .through (Decidable.not_not.mp hhere) ⟨⟨hdot, hup⟩, hclosed, Nat.le_of_not_lt hshort⟩ hlink
      hlast (ih h)
  | case13 links here step rest hhere hdot hup hclosed hshort node hlink hnode ih =>
    exact .into (Decidable.not_not.mp hhere) ⟨⟨hdot, hup⟩, hclosed, Nat.le_of_not_lt hshort⟩ hnode
      hlink (ih h)

/-- One round of the loop at a name that the system takes. -/
theorem walk_of_takes {here : Location} {step : String} {rest : List String}
    (hhere : t.get? here = some .directory) (htakes : purpose.Takes step rest) (links : Nat) :
    t.walk purpose links here (step :: rest) =
      match t.get? (here ++ [step]) with
      | none => if rest = [] then .ok (.vacant (here ++ [step])) else .error .noEntry
      | some (.link target) =>
        if rest = [] ∧ purpose = .entry then .ok (.existing (here ++ [step]) (.link target))
        else
          match links with
          | 0 => .error .tooManyLinks
          | links + 1 => t.walk purpose links (linkStart here target) (linkSteps target ++ rest)
      | some _ => t.walk purpose links (here ++ [step]) rest := by
  rewrite [walk, if_neg (Decidable.not_not.mpr hhere), if_neg htakes.isName.1,
    if_neg htakes.isName.2, if_neg htakes.notClosed, if_neg (Nat.not_lt.mpr htakes.short)]
  rfl

/-- One round of the loop at a step up. -/
theorem walk_of_up {here : Location} (hhere : t.get? here = some .directory) (links : Nat)
    (rest : List String) :
    t.walk purpose links here (".." :: rest) = t.walk purpose links here.dropLast rest := by
  rw [walk, if_neg (Decidable.not_not.mpr hhere), if_neg (by decide), if_pos rfl]

/-- A walk is a success of the loop. -/
theorem Walks.walk_eq {links : Nat} {here : Location} {steps : List String} {place : Place}
    (h : t.Walks purpose links here steps place) :
    t.walk purpose links here steps = .ok place := by
  induction h with
  | arrived hnode =>
    rw [walk, hnode]
  | stay hhere hstep _ ih =>
    rw [walk, if_neg (Decidable.not_not.mpr hhere), if_pos hstep, ih]
  | up hhere _ ih =>
    rw [walk_of_up hhere, ih]
  | vacant hhere htakes hnone =>
    rw [walk_of_takes hhere htakes, hnone]
    rfl
  | atLink hhere htakes hlink hentry =>
    rw [walk_of_takes hhere htakes, hlink]
    exact if_pos ⟨rfl, hentry⟩
  | through hhere htakes hlink hlast _ ih =>
    rw [walk_of_takes hhere htakes, hlink]
    dsimp only
    rw [if_neg hlast, ih]
  | @into _ _ _ _ node _ hhere htakes hnode hlink _ ih =>
    rw [walk_of_takes hhere htakes, hnode]
    cases node with
    | link target => exact absurd rfl (hlink target)
    | directory => exact ih
    | file content => exact ih

/-- The walks are the successes of the loop. -/
theorem walk_eq_ok_iff {links : Nat} {here : Location} {steps : List String} {place : Place} :
    t.walk purpose links here steps = .ok place ↔ t.Walks purpose links here steps place :=
  ⟨walks_of_walk, Walks.walk_eq⟩

/-! ## The place at the end -/

/-- A walk to something ends where it is. -/
theorem Walks.get?_existing {links : Nat} {here : Location} {steps : List String} {l : Location}
    {node : Node} (h : t.Walks purpose links here steps (.existing l node)) :
    t.get? l = some node := by
  generalize hplace : Place.existing l node = place at h
  induction h with
  | arrived hnode =>
    obtain ⟨rfl, rfl⟩ := Place.existing.inj hplace
    exact hnode
  | vacant => exact nomatch hplace
  | atLink _ _ hlink =>
    obtain ⟨rfl, rfl⟩ := Place.existing.inj hplace
    exact hlink
  | stay _ _ _ ih | up _ _ ih | through _ _ _ _ _ ih | into _ _ _ _ _ ih => exact ih hplace

/-- A walk to a vacant place ends where nothing is. -/
theorem Walks.get?_vacant {links : Nat} {here : Location} {steps : List String} {l : Location}
    (h : t.Walks purpose links here steps (.vacant l)) : t.get? l = none := by
  generalize hplace : Place.vacant l = place at h
  induction h with
  | arrived | atLink => exact nomatch hplace
  | vacant _ _ hnone =>
    obtain rfl := Place.vacant.inj hplace
    exact hnone
  | stay _ _ _ ih | up _ _ ih | through _ _ _ _ _ ih | into _ _ _ _ _ ih => exact ih hplace

/-- Where there is something at the end of a path, the entry itself can also be looked up: it is
the same thing, or a link to it. -/
theorem Walks.exists_entry {links : Nat} {here : Location} {steps : List String} {l : Location}
    {node : Node} (h : t.Walks .target links here steps (.existing l node)) :
    ∃ l' node', t.Walks .entry links here steps (.existing l' node') := by
  generalize hplace : Place.existing l node = place at h
  induction h with
  | arrived hnode => exact ⟨_, _, .arrived hnode⟩
  | vacant => exact nomatch hplace
  | atLink _ _ _ hentry => exact nomatch hentry
  | stay hhere hstep _ ih =>
    obtain ⟨l', node', hwalk⟩ := ih hplace
    exact ⟨l', node', .stay hhere hstep hwalk⟩
  | up hhere _ ih =>
    obtain ⟨l', node', hwalk⟩ := ih hplace
    exact ⟨l', node', .up hhere hwalk⟩
  | @through _ _ _ _ rest _ hhere htakes hlink _ _ ih =>
    obtain ⟨l', node', hwalk⟩ := ih hplace
    have htakes' : Purpose.entry.Takes _ rest :=
      Purpose.takes_of_isName (by decide) htakes.isName htakes.short rest
    by_cases hrest : rest = []
    · subst hrest
      exact ⟨_, _, .atLink hhere htakes' hlink rfl⟩
    · exact ⟨l', node', .through hhere htakes' hlink (fun hlast => hrest hlast.1) hwalk⟩
  | into hhere htakes hnode hlink _ ih =>
    obtain ⟨l', node', hwalk⟩ := ih hplace
    refine ⟨l', node', .into hhere ?_ hnode hlink hwalk⟩
    exact Purpose.takes_of_isName (by decide) htakes.isName htakes.short _

/-! ## Walks to directories -/

/-- A walk that ends at a directory starts at one. -/
theorem Walks.get?_start {links : Nat} {here l : Location} {steps : List String}
    (h : t.Walks purpose links here steps (.existing l .directory)) :
    t.get? here = some .directory := by
  cases h with
  | arrived hnode => exact hnode
  | stay hhere => exact hhere
  | up hhere => exact hhere
  | through hhere => exact hhere
  | into hhere => exact hhere

/-- A walk to a directory leads the same way in every tree that keeps links and directories. -/
theorem Walks.of_kept {t' : FileTree} {links : Nat} {here l : Location} {steps : List String}
    (hlinks : ∀ p target, t.get? p = some (.link target) → t'.get? p = some (.link target))
    (hdirs : ∀ p, t.get? p = some .directory → t'.get? p = some .directory)
    (h : t.Walks purpose links here steps (.existing l .directory)) :
    t'.Walks purpose links here steps (.existing l .directory) := by
  generalize hplace : Place.existing l .directory = place at h
  induction h with
  | arrived hnode =>
    obtain ⟨rfl, rfl⟩ := Place.existing.inj hplace
    exact .arrived (hdirs _ hnode)
  | stay hhere hstep _ ih => exact .stay (hdirs _ hhere) hstep (ih hplace)
  | up hhere _ ih => exact .up (hdirs _ hhere) (ih hplace)
  | vacant => exact nomatch hplace
  | atLink _ _ _ _ => exact nomatch (Place.existing.inj hplace).2
  | through hhere htakes hlink hlast _ ih =>
    exact .through (hdirs _ hhere) htakes (hlinks _ _ hlink) hlast (ih hplace)
  | into hhere htakes _ hlink hrest ih =>
    subst hplace
    exact .into (hdirs _ hhere) htakes (hdirs _ hrest.get?_start) (fun _ => nofun) (ih rfl)

/-! ## What stands below a location -/

/-- A location under which there is something is a directory. -/
theorem get?_of_append {p more : Location} {node : Node} (hmore : more ≠ [])
    (h : t.get? (p ++ more) = some node) : t.get? p = some .directory := by
  induction more generalizing p with
  | nil => exact absurd rfl hmore
  | cons x rest ih =>
    by_cases hrest : rest = []
    · subst hrest
      exact t.get?_parent h
    · rw [List.append_cons] at h
      exact t.get?_parent (ih hrest h)

/-- Nothing is under a location where there is nothing. -/
theorem get?_append_of_none {p : Location} (h : t.get? p = none) (more : Location) :
    t.get? (p ++ more) = none := by
  by_cases hnil : more = []
  · rwa [hnil, List.append_nil]
  · cases hget : t.get? (p ++ more) with
    | none => rfl
    | some node =>
      have hdir := get?_of_append hnil hget
      rw [h] at hdir
      exact nomatch hdir

/-! ## Walks down and up -/

/-- A walk to what a path leads to may begin with the names of directories. -/
theorem Walks.names {names : List String} {links : Nat} {here : Location} {rest : List String}
    {place : Place} (hnames : ∀ name ∈ names, IsName name ∧ name.utf8ByteSize ≤ maxNameBytes)
    (hdir : t.get? (here ++ names) = some .directory)
    (h : t.Walks .target links (here ++ names) rest place) :
    t.Walks .target links here (names ++ rest) place := by
  induction names generalizing here with
  | nil => rwa [List.append_nil] at h
  | cons name names ih =>
    rw [List.append_cons] at hdir h
    obtain ⟨hname, hshort⟩ := hnames name List.mem_cons_self
    have hnext : t.get? (here ++ [name]) = some .directory := by
      by_cases hnil : names = []
      · rwa [hnil, List.append_nil] at hdir
      · exact get?_of_append hnil hdir
    refine .into (t.get?_parent hnext) (Purpose.takes_of_isName (by decide) hname hshort _) hnext
      (fun _ => nofun) ?_
    exact ih (fun other hother => hnames other (List.mem_cons_of_mem name hother)) hdir h

/-- A walk may begin with as many steps up as it takes to get back. -/
theorem Walks.ups {links : Nat} {here below : Location} {rest : List String} {place : Place}
    (hdir : t.get? (here ++ below) = some .directory) (h : t.Walks purpose links here rest place) :
    t.Walks purpose links (here ++ below) (List.replicate below.length ".." ++ rest) place := by
  induction below using List.reverseRecOn with
  | nil => rwa [List.append_nil]
  | append_singleton init last ih =>
    rw [← List.append_assoc] at hdir ⊢
    rw [List.length_append, List.length_singleton, List.replicate_succ, List.cons_append]
    refine .up hdir ?_
    rw [List.dropLast_concat]
    exact ih (t.get?_parent hdir)

end FileTree

end DexListing
