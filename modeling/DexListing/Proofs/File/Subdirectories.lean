import DexListing.Proofs.File.LinkFree
import DexListing.Proofs.Run.FileNames

/-!
# Names below a directory

Making directories and writing a file succeed if nothing is in the way. The names that are looked
up below the path name of a directory lead there whatever links the path name of the directory
itself goes through (`FileTree.Walks.walk_append`); where neither a file nor a link stands among
them, they lead to what is there, or to a vacant place, or they fail for want of a directory
(`Host.place_of_clear`). In the last case the directories above are made first, so all of them can
be made (`Host.ensureParts_of_clear`), and then a file can be written
(`Host.storeContent_of_clear`).
-/

set_option autoImplicit false

namespace DexListing

/-! ## Shorter path names -/

namespace Text

/-- Joining more texts only adds at the end. -/
theorem exists_joined_append (texts more : List String) :
    ∃ tail, joined "/" (texts ++ more) = joined "/" texts ++ tail := by
  by_cases htexts : texts = []
  · exact ⟨joined "/" more, by rw [htexts]; exact String.empty_append.symm⟩
  · by_cases hmore : more = []
    · exact ⟨"", by rw [hmore, List.append_nil, String.append_empty]⟩
    · refine ⟨"/" ++ joined "/" more, ?_⟩
      unfold joined
      rw [String.intercalate_append_of_ne_nil htexts hmore, String.append_assoc]

end Text

namespace PathName

/-- The system takes the path name: it holds no zero character and is not too long. -/
structure Usable (p : PathName) : Prop where
  noNul : p.hasNul = false
  short : p.text.utf8ByteSize < maxPathBytes

/-- A path name is usable if it is so with more parts. -/
theorem Usable.of_append {root : PathRoot} {parts more : List String}
    (h : Usable ⟨root, parts ++ more⟩) : Usable ⟨root, parts⟩ := by
  by_cases hdot : root = .relative ∧ parts = []
  · obtain ⟨rfl, rfl⟩ := hdot
    exact ⟨by decide, by decide⟩
  · obtain ⟨tail, htail⟩ := Text.exists_joined_append parts more
    have htext : text ⟨root, parts ++ more⟩ = text ⟨root, parts⟩ ++ tail := by
      unfold text
      cases root with
      | relative =>
        have hne : parts ≠ [] := fun hnil => hdot ⟨rfl, hnil⟩
        dsimp only
        rw [if_neg hne, if_neg (List.append_ne_nil_of_left_ne_nil hne more), htail]
      | slash =>
        dsimp only
        rw [htail, String.append_assoc]
      | twoSlashes =>
        dsimp only
        rw [htail, String.append_assoc]
    obtain ⟨hnul, hshort⟩ := h
    unfold hasNul at hnul
    rw [htext, Text.holds_append, Bool.or_eq_false_iff] at hnul
    rw [htext, String.utf8ByteSize_append] at hshort
    exact ⟨hnul.1, Nat.lt_of_le_of_lt (Nat.le_add_right _ _) hshort⟩

end PathName

/-! ## Walks below a directory -/

/-- A name that the system takes for an entry of a directory. -/
structure IsEntryName (name : String) : Prop where
  isName : IsName name
  short : name.utf8ByteSize ≤ maxNameBytes

instance (name : String) : Decidable (IsEntryName name) :=
  decidable_of_iff (IsName name ∧ name.utf8ByteSize ≤ maxNameBytes)
    ⟨fun h => ⟨h.1, h.2⟩, fun h => ⟨h.isName, h.short⟩⟩

/-- Such a name is taken unless something is to be written. -/
theorem IsEntryName.takes {name : String} (h : IsEntryName name) {purpose : Purpose}
    (hpurpose : purpose ≠ .writing) (rest : List String) : purpose.Takes name rest :=
  Purpose.takes_of_isName hpurpose h.isName h.short rest

namespace FileTree

variable {t : FileTree} {purpose : Purpose}

/-- Before other names a name is taken for whatever purpose. -/
theorem takes_of_names {step : String} (hname : IsName step)
    (hshort : step.utf8ByteSize ≤ maxNameBytes) {rest : List String}
    (hrest : ∀ name, rest.getLast? = some name → IsName name) : purpose.Takes step rest := by
  refine ⟨hname, ?_, hshort⟩
  rintro ⟨-, hne, hall⟩
  have hlast := hrest _ (List.getLast?_eq_some_getLast hne)
  have hempty := List.all_eq_true.mp hall _ (List.getLast_mem hne)
  exact hlast.1 (Or.inl (of_decide_eq_true hempty))

/-- Steps to a directory and then names below it: the names are looked up from the directory on,
with the links that are left. -/
theorem Walks.walk_append {links : Nat} {here root : Location} {steps : List String}
    (h : t.Walks .target links here steps (.existing root .directory)) {more : List String}
    (hne : more ≠ []) (hmore : ∀ name ∈ more, IsName name) (purpose : Purpose) :
    ∃ left, t.walk purpose links here (steps ++ more) = t.walk purpose left root more := by
  have hlast (rest : List String) (name : String)
      (hname : (rest ++ more).getLast? = some name) : IsName name := by
    rw [List.getLast?_append, List.getLast?_eq_some_getLast hne, Option.some_or] at hname
    exact hmore name (Option.some.inj hname ▸ List.getLast_mem hne)
  generalize hplace : Place.existing root .directory = place at h
  induction h with
  | arrived _ =>
    obtain ⟨rfl, -⟩ := Place.existing.inj hplace
    exact ⟨_, rfl⟩
  | stay hhere hstep _ ih =>
    obtain ⟨left, hleft⟩ := ih hplace
    refine ⟨left, ?_⟩
    rw [List.cons_append, walk, if_neg (Decidable.not_not.mpr hhere), if_pos hstep, hleft]
  | up hhere _ ih =>
    obtain ⟨left, hleft⟩ := ih hplace
    refine ⟨left, ?_⟩
    rw [List.cons_append, walk_of_up hhere, hleft]
  | vacant => cases hplace
  | atLink _ _ _ hentry => cases hentry
  | through hhere htakes hlink _ _ ih =>
    obtain ⟨left, hleft⟩ := ih hplace
    refine ⟨left, ?_⟩
    rw [List.cons_append, walk_of_takes hhere (takes_of_names htakes.isName htakes.short (hlast _)),
      hlink]
    dsimp only
    rw [if_neg fun hends => hne (List.append_eq_nil_iff.mp hends.1).2, ← List.append_assoc, hleft]
  | @into _ _ _ _ node _ hhere htakes hnode hlink _ ih =>
    obtain ⟨left, hleft⟩ := ih hplace
    refine ⟨left, ?_⟩
    rw [List.cons_append, walk_of_takes hhere (takes_of_names htakes.isName htakes.short (hlast _)),
      hnode]
    cases node with
    | link target => exact absurd rfl (hlink target)
    | directory => exact hleft
    | file content => exact hleft

/-- No file and no link stands in the way of names below a location: where there is something it is
a directory. -/
def Clear (t : FileTree) (here : Location) (names : List String) : Prop :=
  ∀ above, above <+: names →
    t.get? (here ++ above) = none ∨ t.get? (here ++ above) = some .directory

/-- If the whole way is clear, so is the way to a directory on it. -/
theorem Clear.of_prefix {here : Location} {names above : List String} (h : t.Clear here names)
    (habove : above <+: names) : t.Clear here above :=
  fun first hfirst => h first (hfirst.trans habove)

/-- Where nothing is in the way names lead to what is there; if the last name only is missing, they
lead to a vacant place, and else there is no entry. -/
theorem walk_of_clear {here : Location} {names : List String} {last : String}
    (hhere : t.get? here = some .directory) (hclear : t.Clear here names)
    (hlast : ∀ target, t.get? (here ++ (names ++ [last])) ≠ some (.link target))
    (hnames : ∀ name ∈ names ++ [last], IsEntryName name) (purpose : Purpose) (links : Nat) :
    t.walk purpose links here (names ++ [last]) =
      if t.get? (here ++ names) = some .directory then
        match t.get? (here ++ (names ++ [last])) with
        | none => .ok (.vacant (here ++ (names ++ [last])))
        | some node => .ok (.existing (here ++ (names ++ [last])) node)
      else .error .noEntry := by
  induction names generalizing here with
  | nil =>
    have hentry := hnames last List.mem_cons_self
    have htakes : purpose.Takes last [] :=
      takes_of_names hentry.isName hentry.short fun _ hnone => by simp at hnone
    rw [List.append_nil, if_pos hhere, List.nil_append, walk_of_takes hhere htakes]
    rw [List.nil_append] at hlast
    cases hget : t.get? (here ++ [last]) with
    | none => rfl
    | some node =>
      cases node with
      | link target => exact absurd hget (hlast target)
      | directory =>
        dsimp only
        rw [walk, hget]
      | file content =>
        dsimp only
        rw [walk, hget]
  | cons name names ih =>
    have hentry := hnames name List.mem_cons_self
    have hrest (next : String) (hnext : (names ++ [last]).getLast? = some next) : IsName next :=
      (hnames next (List.mem_cons_of_mem name (List.mem_of_getLast? hnext))).isName
    have hsplit (more : List String) : here ++ name :: more = here ++ [name] ++ more :=
      List.append_cons here name more
    rw [List.cons_append] at hlast ⊢
    rw [hsplit (names ++ [last])] at hlast
    rw [hsplit names, hsplit (names ++ [last]),
      walk_of_takes hhere (takes_of_names hentry.isName hentry.short hrest)]
    rcases hclear [name] (List.prefix_append [name] names) with hnone | hdir
    · have hmissing : t.get? (here ++ [name] ++ names) ≠ some .directory := by
        rw [get?_append_of_none hnone]
        exact (Option.some_ne_none _).symm
      rw [hnone, if_neg hmissing]
      dsimp only
      rw [if_neg (List.concat_ne_nil last names)]
    · have hclear' : t.Clear (here ++ [name]) names := by
        intro above habove
        have habove' := hclear (name :: above) ((List.prefix_cons_inj name).mpr habove)
        rwa [hsplit] at habove'
      rw [hdir]
      exact ih hdir hclear' hlast fun next hnext => hnames next (List.mem_cons_of_mem name hnext)

end FileTree

/-! ## Operations below a directory -/

namespace Host

variable {root : Location} {h : Host} {D : PathName}

/-- What names below the path name of a directory lead to, if nothing is in their way. -/
theorem place_of_clear (hthere : h.place .target D = .ok (.existing root .directory))
    {names : List String} {last : String} (hclear : h.tree.Clear root names)
    (hlast : ∀ target, h.tree.get? (root ++ (names ++ [last])) ≠ some (.link target))
    (hnames : ∀ name ∈ names ++ [last], IsEntryName name)
    (husable : PathName.Usable ⟨D.root, D.parts ++ (names ++ [last])⟩) (purpose : Purpose) :
    h.place purpose ⟨D.root, D.parts ++ (names ++ [last])⟩ =
      if h.tree.get? (root ++ names) = some .directory then
        match h.tree.get? (root ++ (names ++ [last])) with
        | none => .ok (.vacant (root ++ (names ++ [last])))
        | some node => .ok (.existing (root ++ (names ++ [last])) node)
      else .error (.refused .noEntry ⟨D.root, D.parts ++ (names ++ [last])⟩) := by
  have hwalks := (walks_of_place hthere).2
  obtain ⟨left, hleft⟩ := hwalks.walk_append (List.concat_ne_nil last names)
    (fun name hname => (hnames name hname).isName) purpose
  have hwalk := FileTree.walk_of_clear hwalks.get?_existing hclear hlast hnames purpose left
  have hstart : h.start ⟨D.root, D.parts ++ (names ++ [last])⟩ = h.start D := rfl
  unfold place
  rw [husable.noNul, if_neg Bool.false_ne_true, if_neg (Nat.not_le.mpr husable.short), hstart,
    hleft, hwalk]
  by_cases hdir : h.tree.get? (root ++ names) = some .directory
  · rw [if_pos hdir, if_pos hdir]
    cases h.tree.get? (root ++ (names ++ [last])) <;> rfl
  · rw [if_neg hdir, if_neg hdir]

/-- One directory can be made, if the one above it is there. -/
theorem ensureDirectory_of_clear (hthere : h.place .target D = .ok (.existing root .directory))
    {names : List String} {last : String} (hclear : h.tree.Clear root (names ++ [last]))
    (hnames : ∀ name ∈ names ++ [last], IsEntryName name)
    (husable : PathName.Usable ⟨D.root, D.parts ++ (names ++ [last])⟩) :
    (h.ensureDirectory ⟨D.root, D.parts ++ (names ++ [last])⟩).2 =
      if h.tree.get? (root ++ names) = some .directory then .ok ()
      else .error (.refused .noEntry ⟨D.root, D.parts ++ (names ++ [last])⟩) := by
  have hall := hclear _ List.prefix_rfl
  have hlast : ∀ target, h.tree.get? (root ++ (names ++ [last])) ≠ some (.link target) := by
    intro target hlink
    rcases hall with hnone | hdir
    · rw [hnone] at hlink
      exact nomatch hlink
    · rw [hdir] at hlink
      exact nomatch hlink
  have hplace := place_of_clear hthere (hclear.of_prefix (List.prefix_append names [last])) hlast
    hnames husable
  by_cases habove : h.tree.get? (root ++ names) = some .directory
  · rw [if_pos habove]
    simp only [if_pos habove] at hplace
    rcases hall with hnone | hdir
    · rw [hnone] at hplace
      unfold ensureDirectory makeDirectory makeNode
      rw [hplace .entry]
    · rw [hdir] at hplace
      rw [ensureDirectory_of_isDirectory (isDirectory_eq_true_iff.mpr ⟨_, hplace .target⟩)]
  · rw [if_neg habove]
    simp only [if_neg habove] at hplace
    unfold ensureDirectory makeDirectory makeNode
    rw [hplace .entry]

/-- All directories on the way can be made. The induction is on how many of them are asked for: if
the last one cannot be made for want of the one above it, those above are made first. -/
theorem ensureParts_of_clear (hfree : h.tree.LinkFreeBelow root)
    (hthere : h.place .target D = .ok (.existing root .directory)) {names : List String}
    (hclear : h.tree.Clear root names) (hnames : ∀ name ∈ names, IsEntryName name)
    (husable : PathName.Usable ⟨D.root, D.parts ++ names⟩) {k : Nat} (hk : k ≤ names.length) :
    (h.ensureParts D.root (D.parts ++ names) (D.parts.length + k)).2 = .ok () := by
  induction k with
  | zero =>
    rw [Nat.add_zero, ensureParts_of_place hthere]
  | succ k ih =>
    have hlt : k < names.length := hk
    have hnext : names.take (k + 1) = names.take k ++ [names[k]] :=
      List.take_succ_eq_append_getElem hlt
    have htake : (D.parts ++ names).take (D.parts.length + k + 1) =
        D.parts ++ (names.take k ++ [names[k]]) := by
      rw [Nat.add_assoc, List.take_length_add_append, hnext]
    have hnames' : ∀ name ∈ names.take k ++ [names[k]], IsEntryName name :=
      fun name hname => hnames name (List.mem_of_mem_take (hnext ▸ hname))
    have hclear' : h.tree.Clear root (names.take k ++ [names[k]]) :=
      hclear.of_prefix (hnext ▸ List.take_prefix (k + 1) names)
    have husable' : PathName.Usable ⟨D.root, D.parts ++ (names.take k ++ [names[k]])⟩ := by
      have hall : PathName.Usable
          ⟨D.root, D.parts ++ names.take (k + 1) ++ names.drop (k + 1)⟩ := by
        rwa [List.append_assoc, List.take_append_drop]
      rw [← hnext]
      exact hall.of_append
    have hfirst := ensureDirectory_of_clear hthere hclear' hnames' husable'
    rw [← Nat.add_assoc]
    simp only [ensureParts, htake]
    split
    · next refused q hrefused =>
      rcases habove : h.ensureParts D.root (D.parts ++ names) (D.parts.length + k) with
        ⟨above, outcome⟩
      rw [habove] at ih
      obtain rfl : outcome = .ok () := ih (Nat.le_of_lt hlt)
      dsimp only
      have hkeeps := Keeps.ensureParts h D.root (D.parts ++ names) (D.parts.length + k)
      rw [habove] at hkeeps
      have hget := ensureParts_get? hfree hthere (fun name hname => (hnames name hname).isName)
        (Nat.le_of_lt hlt) habove
      have hclearNow : above.tree.Clear root (names.take k ++ [names[k]]) := by
        intro first hfirst
        rw [hget]
        split
        · exact Or.inr rfl
        · exact hclear' first hfirst
      rw [ensureDirectory_of_clear (hkeeps.grows.place_directory hthere) hclearNow hnames' husable',
        if_pos]
      rw [hget, if_pos ⟨List.prefix_append _ _, List.prefix_rfl⟩]
    · next hother =>
      rw [hfirst]
      split
      · rfl
      · next hmissing =>
        rw [if_neg hmissing] at hfirst
        exact (hother _ _ (Prod.ext rfl hfirst)).elim

/-- A file can be written in a directory, if nothing but a file is there under its name. -/
theorem storeContent_of_clear (hthere : h.place .target D = .ok (.existing root .directory))
    {names : List String} {last : String} (hclear : h.tree.Clear root names)
    (hdir : h.tree.get? (root ++ names) = some .directory)
    (hlast : ∀ node, h.tree.get? (root ++ (names ++ [last])) = some node →
      ∃ content, node = .file content)
    (hnames : ∀ name ∈ names ++ [last], IsEntryName name)
    (husable : PathName.Usable ⟨D.root, D.parts ++ (names ++ [last])⟩) (content : Bytes) :
    ∃ h', h.storeContent ⟨D.root, D.parts ++ (names ++ [last])⟩ content = .ok h' := by
  have hlink : ∀ target, h.tree.get? (root ++ (names ++ [last])) ≠ some (.link target) := by
    intro target hget
    obtain ⟨content, hfile⟩ := hlast _ hget
    exact nomatch hfile
  have hplace := place_of_clear hthere hclear hlink hnames husable .writing
  rw [if_pos hdir] at hplace
  unfold storeContent
  cases hget : h.tree.get? (root ++ (names ++ [last])) with
  | none =>
    rw [hget] at hplace
    rw [hplace]
    exact ⟨_, rfl⟩
  | some node =>
    obtain ⟨old, rfl⟩ := hlast node hget
    rw [hget] at hplace
    rw [hplace]
    exact ⟨_, rfl⟩

end Host

end DexListing
