import DexListing.File.Host
import DexListing.Proofs.File.Walks

/-!
# Following links

Two loops follow the links of a tree. The system's walk puts the steps of a link before those
that are left, counts the links, and fails where something is missing; the resolution of real
paths resolves a link on its own, keeps the links that are under way, and goes on where nothing
is. `FileTree.Follows` is what they have in common: where steps lead to if all links on the way
are followed, and through how many links. A walk that succeeds follows its steps
(`Walks.follows`).
-/

set_option autoImplicit false

namespace DexListing

namespace FileTree

variable {t : FileTree}

/-- Steps lead from a location to another one, through so many links; it does not matter what is
there. -/
inductive Follows (t : FileTree) :
    (here : Location) → (steps : List String) → (links : Nat) → Location → Prop
  | done {here : Location} : Follows t here [] 0 here
  | stay {here : Location} {step : String} {rest : List String} {links : Nat} {l : Location} :
      step = "" ∨ step = "." → Follows t here rest links l → Follows t here (step :: rest) links l
  | up {here : Location} {rest : List String} {links : Nat} {l : Location} :
      Follows t here.dropLast rest links l → Follows t here (".." :: rest) links l
  | into {here : Location} {step : String} {rest : List String} {links : Nat} {l : Location} :
      IsName step → (∀ target, t.get? (here ++ [step]) ≠ some (.link target)) →
      Follows t (here ++ [step]) rest links l → Follows t here (step :: rest) links l
  | through {here : Location} {step target : String} {rest : List String} {inner links : Nat}
      {mid l : Location} :
      IsName step → t.get? (here ++ [step]) = some (.link target) →
      Follows t (linkStart here target) (linkSteps target) inner mid →
      Follows t mid rest links l → Follows t here (step :: rest) (inner + links + 1) l

namespace Follows

/-- Steps lead to one location only, through one number of links. -/
theorem unique {here l l' : Location} {steps : List String} {links links' : Nat}
    (h : t.Follows here steps links l) (h' : t.Follows here steps links' l') :
    links = links' ∧ l = l' := by
  induction h generalizing links' l' with
  | done =>
    cases h'
    exact ⟨rfl, rfl⟩
  | stay hstep _ ih =>
    cases h' with
    | stay _ hrest => exact ih hrest
    | up => exact absurd hstep (by decide)
    | into hname => exact absurd hstep hname.1
    | through hname => exact absurd hstep hname.1
  | up _ ih =>
    cases h' with
    | stay hstep => exact absurd hstep (by decide)
    | up hrest => exact ih hrest
    | into hname => exact absurd rfl hname.2
    | through hname => exact absurd rfl hname.2
  | into hname hno _ ih =>
    cases h' with
    | stay hstep => exact absurd hstep hname.1
    | up => exact absurd rfl hname.2
    | into _ _ hrest => exact ih hrest
    | through _ hlink => exact absurd hlink (hno _)
  | through hname hlink _ _ ihTarget ihRest =>
    cases h' with
    | stay hstep => exact absurd hstep hname.1
    | up => exact absurd rfl hname.2
    | into _ hno => exact absurd hlink (hno _)
    | through _ hlink' htarget' hrest' =>
      obtain rfl := Node.link.inj (Option.some.inj (hlink.symm.trans hlink'))
      obtain ⟨rfl, rfl⟩ := ihTarget htarget'
      obtain ⟨rfl, rfl⟩ := ihRest hrest'
      exact ⟨rfl, rfl⟩

/-- Steps after steps. -/
theorem append {here mid l : Location} {steps more : List String} {links links' : Nat}
    (h : t.Follows here steps links mid) (h' : t.Follows mid more links' l) :
    t.Follows here (steps ++ more) (links + links') l := by
  induction h with
  | done => rwa [Nat.zero_add]
  | stay hstep _ ih => exact .stay hstep (ih h')
  | up _ ih => exact .up (ih h')
  | into hname hno _ ih => exact .into hname hno (ih h')
  | through hname hlink htarget _ _ ihRest =>
    have := Follows.through hname hlink htarget (ihRest h')
    rwa [← Nat.add_assoc, Nat.add_right_comm] at this

/-- What the first of some steps lead to is where the other ones start. -/
theorem split {here l : Location} {steps more : List String} {total : Nat}
    (h : t.Follows here (steps ++ more) total l) :
    ∃ links mid rest, t.Follows here steps links mid ∧ t.Follows mid more rest l ∧
      total = links + rest := by
  generalize hall : steps ++ more = all at h
  induction h generalizing steps with
  | done =>
    obtain ⟨rfl, rfl⟩ := List.append_eq_nil_iff.mp hall
    exact ⟨0, _, 0, .done, .done, rfl⟩
  | stay hstep hrest ih =>
    cases steps with
    | nil =>
      obtain rfl : more = _ := hall
      exact ⟨0, _, _, .done, .stay hstep hrest, (Nat.zero_add _).symm⟩
    | cons step steps =>
      obtain ⟨rfl, rfl⟩ := List.cons.inj hall
      obtain ⟨links, mid, rest, hfirst, hsecond, rfl⟩ := ih rfl
      exact ⟨links, mid, rest, .stay hstep hfirst, hsecond, rfl⟩
  | up hrest ih =>
    cases steps with
    | nil =>
      obtain rfl : more = _ := hall
      exact ⟨0, _, _, .done, .up hrest, (Nat.zero_add _).symm⟩
    | cons step steps =>
      obtain ⟨rfl, rfl⟩ := List.cons.inj hall
      obtain ⟨links, mid, rest, hfirst, hsecond, rfl⟩ := ih rfl
      exact ⟨links, mid, rest, .up hfirst, hsecond, rfl⟩
  | into hname hno hrest ih =>
    cases steps with
    | nil =>
      obtain rfl : more = _ := hall
      exact ⟨0, _, _, .done, .into hname hno hrest, (Nat.zero_add _).symm⟩
    | cons step steps =>
      obtain ⟨rfl, rfl⟩ := List.cons.inj hall
      obtain ⟨links, mid, rest, hfirst, hsecond, rfl⟩ := ih rfl
      exact ⟨links, mid, rest, .into hname hno hfirst, hsecond, rfl⟩
  | @through _ _ _ _ inner _ _ _ hname hlink htarget hrest _ ihRest =>
    cases steps with
    | nil =>
      obtain rfl : more = _ := hall
      exact ⟨0, _, _, .done, .through hname hlink htarget hrest, (Nat.zero_add _).symm⟩
    | cons step steps =>
      obtain ⟨rfl, rfl⟩ := List.cons.inj hall
      obtain ⟨links, mid, rest, hfirst, hsecond, rfl⟩ := ihRest rfl
      exact ⟨inner + links + 1, mid, rest, .through hname hlink htarget hfirst, hsecond, by omega⟩

/-- Names below a location where nothing is lead to what is written. -/
theorem names_of_none {here : Location} (hnone : t.get? here = none) (names : List String)
    (hnames : ∀ name ∈ names, IsName name) : t.Follows here names 0 (here ++ names) := by
  induction names generalizing here with
  | nil =>
    rw [List.append_nil]
    exact .done
  | cons name names ih =>
    have hnext : t.get? (here ++ [name]) = none := get?_append_of_none hnone [name]
    have hrest := ih hnext fun n hn => hnames n (List.mem_cons_of_mem name hn)
    rw [List.append_assoc] at hrest
    exact .into (hnames name List.mem_cons_self) (by simp [hnext]) hrest

/-- Only the links of a tree matter for where steps lead. -/
theorem of_links_eq {t' : FileTree} {here l : Location} {steps : List String} {links : Nat}
    (hlinks : ∀ p target, t.get? p = some (.link target) ↔ t'.get? p = some (.link target))
    (h : t.Follows here steps links l) : t'.Follows here steps links l := by
  induction h with
  | done => exact .done
  | stay hstep _ ih => exact .stay hstep ih
  | up _ ih => exact .up ih
  | into hname hno _ ih =>
    exact .into hname (fun target hlink => hno target ((hlinks _ _).mpr hlink)) ih
  | through hname hlink _ _ ihTarget ihRest =>
    exact .through hname ((hlinks _ _).mp hlink) ihTarget ihRest

end Follows

/-! ## Walks follow their steps -/

/-- A walk follows its steps, unless it stops at a link because the entry itself is asked for. -/
theorem Walks.follows {purpose : Purpose} {links : Nat} {here : Location} {steps : List String}
    {place : Place} (h : t.Walks purpose links here steps place)
    (hplace : purpose ≠ .entry ∨ ∀ l target, place ≠ .existing l (.link target)) :
    ∃ through, t.Follows here steps through place.location := by
  induction h with
  | arrived => exact ⟨0, .done⟩
  | stay _ hstep _ ih =>
    obtain ⟨n, hrest⟩ := ih hplace
    exact ⟨n, .stay hstep hrest⟩
  | up _ _ ih =>
    obtain ⟨n, hrest⟩ := ih hplace
    exact ⟨n, .up hrest⟩
  | vacant _ htakes hnone => exact ⟨0, .into htakes.isName (by simp [hnone]) .done⟩
  | atLink _ _ _ hentry =>
    rcases hplace with hpurpose | hnode
    · exact absurd hentry hpurpose
    · exact absurd rfl (hnode _ _)
  | through _ htakes hlink _ _ ih =>
    obtain ⟨n, hall⟩ := ih hplace
    obtain ⟨inner, mid, rest, htarget, hrest, rfl⟩ := hall.split
    exact ⟨inner + rest + 1, .through htakes.isName hlink htarget hrest⟩
  | into _ htakes hnode hlink _ ih =>
    obtain ⟨n, hrest⟩ := ih hplace
    refine ⟨n, .into htakes.isName ?_ hrest⟩
    intro target htarget
    exact hlink target (Option.some.inj (hnode.symm.trans htarget))

end FileTree

namespace Host

variable {h : Host} {p : PathName}

/-- A place that the system finds has been walked to, by a path name without a zero character. -/
theorem walks_of_place {purpose : Purpose} {place : Place}
    (hplace : h.place purpose p = .ok place) :
    p.hasNul = false ∧ h.tree.Walks purpose maxLinks (h.start p) p.parts place := by
  unfold Host.place at hplace
  split at hplace
  · exact nomatch hplace
  · next hnul =>
    split at hplace
    · exact nomatch hplace
    · split at hplace
      · exact nomatch hplace
      · next found hwalk =>
        obtain rfl := Except.ok.inj hplace
        exact ⟨by simpa using hnul, FileTree.walks_of_walk hwalk⟩

/-- A path name without a zero character that is not too long leads to where one can walk. -/
theorem place_of_short {purpose : Purpose} {place : Place}
    (hnul : p.hasNul = false) (hshort : p.text.utf8ByteSize < maxPathBytes)
    (hwalk : h.tree.Walks purpose maxLinks (h.start p) p.parts place) :
    h.place purpose p = .ok place := by
  unfold Host.place
  rw [hnul, if_neg Bool.false_ne_true, if_neg (Nat.not_le.mpr hshort), hwalk.walk_eq]

end Host

end DexListing
