import DexListing.Proofs.Assembly.Laying

/-!
# Reading what was laid out

A container whose strings and types are those of a builder (`Container.Resolves`) reads each item of
its data part as what it was laid out for: a list of types as their readable names, a set of
annotations and the code of a method likewise. Each of these lemmas asks only that the bytes of the
container hold the data part right after the item.
-/

set_option autoImplicit false

namespace DexListing

open Assembly

/-- The readable name of a type by its name as it is written. -/
def Descriptor.readable (name : String) : String :=
  Descriptor.name (Descriptor.ofName name)

/-- What a code item holds: registers and units; a method without code has no registers. -/
def Assembly.MethodSpec.registersAndCode (m : MethodSpec) : Nat × List Nat :=
  match m.code with
  | none => (0, [])
  | some units => (m.registers, units)

namespace Container

/-- The container finds the strings and the types of a builder under their indices. -/
structure Resolves (c : Container) (b : Builder) : Prop where
  size : c.data.size < 0x100000000
  types : b.types.length < 0x100000000
  string : ∀ s ∈ b.strings, c.string (b.stringIndex s) = .ok s
  typeName : ∀ name, Descriptor.ofName name ∈ b.types →
    c.typeName (b.typeIndex name) = .ok (Descriptor.readable name)

variable {c : Container} {b : Builder} {d : DataPart}

namespace Resolves

/-- The index of a type is not the one that stands for none. -/
theorem typeIndex_lt (hc : c.Resolves b) {name : String} (h : Descriptor.ofName name ∈ b.types) :
    b.typeIndex name < 0xFFFFFFFF := by
  have hlt : b.typeIndex name < b.types.length := List.idxOf_lt_length_of_mem h
  have := hc.types
  omega

/-! ## Lists of types -/

/-- A row of indices is read as the names of the types. -/
theorem typeNames_eq (hc : c.Resolves b) {names : List String}
    (hnames : ∀ name ∈ names, Descriptor.ofName name ∈ b.types) {offset : Nat}
    (h : c.data.HasPieces offset (names.map fun name => .short (b.typeIndex name))) :
    c.typeNames names.length offset = .ok (names.map Descriptor.readable) := by
  induction names generalizing offset with
  | nil => rfl
  | cons name rest ih =>
    have hindex := Layout.u2_of_short h
    have hname := hc.typeName name (hnames name List.mem_cons_self)
    have hrest := ih (fun n hn => hnames n (List.mem_cons_of_mem name hn)) h.short.2.2
    simp only [List.length_cons, typeNames, hindex, hname, hrest, bind, Except.bind]
    rfl

/-- A list of types is read as the readable names of the types. -/
theorem typeList_eq (hc : c.Resolves b) {names : List String}
    (hnames : ∀ name ∈ names, Descriptor.ofName name ∈ b.types) (hsound : d.Sound b)
    (h : (d.typeList b names).data.HeldBy c.data) :
    c.typeList (d.typeList b names).value = .ok (names.map Descriptor.readable) := by
  unfold DataPart.typeList at h ⊢
  by_cases hempty : names = []
  · subst hempty
    rfl
  · rw [if_neg hempty] at h ⊢
    obtain ⟨-, hpieces⟩ := h.of_put
    have hpos := ((DataPart.align_grows b d).sound hsound).here_pos
    have hcount := Layout.u4_of_word hpieces
    have hlist := hc.typeNames_eq hnames hpieces.word.2.2
    change c.typeList d.align.here = _
    unfold typeList
    rw [if_neg (by omega)]
    simp only [hcount, hlist, bind, Except.bind]

/-! ## Annotations -/

/-- The entries of a set are read as the names of the annotations. -/
theorem setEntries_eq (hc : c.Resolves b) (hsound : d.Sound b) (hheld : d.HeldBy c.data)
    {names : List String} (hnames : ∀ name ∈ names, Descriptor.ofName name ∈ b.types)
    (hitems : ∀ name ∈ names, (OrderedMap.find? d.items name).isSome) {offset : Nat}
    (h : c.data.HasPieces offset (names.map fun name => .word (d.itemOffset name))) :
    c.setEntries names.length offset = .ok (names.map Descriptor.readable) := by
  induction names generalizing offset with
  | nil => rfl
  | cons name rest ih =>
    have htype := hnames name List.mem_cons_self
    have hoffset := Layout.u4_of_word h
    obtain ⟨item, hitem⟩ := Option.isSome_iff_exists.mp (hitems name List.mem_cons_self)
    have hvalue : d.itemOffset name = item := by
      unfold DataPart.itemOffset
      rw [hitem]
      rfl
    obtain ⟨-, hpieces⟩ := (hsound.items c.data hheld name item hitem).byte
    obtain ⟨_, hindex, -⟩ :=
      Layout.leb128_of_number (Nat.lt_trans (hc.typeIndex_lt htype) (by decide)) hpieces
    have hname := hc.typeName name htype
    have hrest := ih (fun n hn => hnames n (List.mem_cons_of_mem name hn))
      (fun n hn => hitems n (List.mem_cons_of_mem name hn)) h.word.2.2
    simp only [List.length_cons, setEntries, hoffset, hvalue, hindex, hname, hrest, bind,
      Except.bind]
    rfl

/-- A set of annotations is read as the readable names of their types. -/
theorem annotationSet_eq (hc : c.Resolves b) {names : List String}
    (hnames : ∀ name ∈ names, Descriptor.ofName name ∈ b.types) (hsound : d.Sound b)
    (h : (d.annotationSet b names).data.HeldBy c.data) :
    c.annotationSet (d.annotationSet b names).value = .ok (names.map Descriptor.readable) := by
  unfold DataPart.annotationSet at h ⊢
  by_cases hempty : names = []
  · subst hempty
    rfl
  · rw [if_neg hempty] at h ⊢
    dsimp only at h ⊢
    have hgrows := (DataPart.annotationItems_grows b d names).trans
      (DataPart.align_grows b (names.foldl (DataPart.annotationItem b) d))
    have hitems : ∀ name ∈ names, (OrderedMap.find?
        (names.foldl (DataPart.annotationItem b) d).align.items name).isSome :=
      fun name hname => DataPart.find?_annotationItems (Or.inr hname)
    generalize (names.foldl (DataPart.annotationItem b) d).align = e at h hgrows hitems ⊢
    obtain ⟨hheld, hpieces⟩ := h.of_put
    have hpos := (hgrows.sound hsound).here_pos
    have hcount := Layout.u4_of_word hpieces
    have hentries := hc.setEntries_eq (hgrows.sound hsound) hheld hnames hitems hpieces.word.2.2
    change c.annotationSet e.here = _
    unfold annotationSet
    rw [if_neg (by omega)]
    simp only [hcount, hentries, bind, Except.bind]

end Resolves

/-! ## Code -/

/-- Units that stand one after the other are read back, and they end within the container. -/
theorem units_eq {data : Bytes} {units : List Nat} {offset : Nat} (hoffset : offset ≤ data.size)
    (h : data.HasPieces offset (units.map .short)) :
    offset + 2 * units.length ≤ data.size ∧
      (List.range units.length).map (fun i => data.u2 (offset + 2 * i)) = units := by
  induction units generalizing offset with
  | nil => exact ⟨hoffset, rfl⟩
  | cons unit rest ih =>
    obtain ⟨hunit, hsize, hrest⟩ := h.short
    obtain ⟨hend, hunits⟩ := ih hsize hrest
    refine ⟨?_, ?_⟩
    · rw [List.length_cons]
      omega
    · have hshift : ∀ i, offset + 2 * (i + 1) = offset + 2 + 2 * i := by
        intro i
        omega
      rw [List.length_cons, List.range_succ_eq_map, List.map_cons, List.map_map]
      simp only [Function.comp_def, Nat.mul_zero, Nat.add_zero, hunit, Nat.succ_eq_add_one, hshift]
      rw [hunits]

/-- A code item is read as the registers and the units of the method. -/
theorem code_eq {m : MethodSpec} (hsound : d.Sound b) (h : (d.codeItem m).data.HeldBy c.data) :
    c.code (d.codeItem m).value = .ok m.registersAndCode := by
  unfold DataPart.codeItem at h ⊢
  unfold MethodSpec.registersAndCode
  cases hcode : m.code with
  | none => rfl
  | some units =>
    simp only [hcode] at h ⊢
    obtain ⟨-, hpieces⟩ := h.of_put
    have hpos := ((DataPart.align_grows b d).sound hsound).here_pos
    change c.code d.align.here = _
    generalize d.align.here = offset at hpieces hpos ⊢
    obtain ⟨hregisters, -, h⟩ := hpieces.short
    obtain ⟨-, -, h⟩ := h.short
    obtain ⟨-, -, h⟩ := h.short
    obtain ⟨-, -, h⟩ := h.short
    obtain ⟨-, -, h⟩ := h.word
    obtain ⟨hcount, hhead, h⟩ := h.word
    change c.data.u4 (offset + 12) = units.length at hcount
    change offset + 16 ≤ c.data.size at hhead
    obtain ⟨hend, hunits⟩ := units_eq hhead h
    have hrequireHead := Layout.require_of_le hhead
    have hrequireUnits := Layout.require_of_le hend
    change c.require offset 16 = _ at hrequireHead
    change c.require (offset + 16) (2 * units.length) = _ at hrequireUnits
    unfold code
    rw [if_neg (by omega)]
    simp only [hrequireHead, hcount, hrequireUnits, bind, Except.bind]
    exact congrArg Except.ok (Prod.ext hregisters hunits)

/-- The code of a method lies within the container. -/
theorem codeOffset_le {m : MethodSpec} {data : Bytes} (h : (d.codeItem m).data.HeldBy data) :
    (d.codeItem m).value ≤ data.size := by
  unfold DataPart.codeItem at h ⊢
  cases hcode : m.code with
  | none => exact Nat.zero_le _
  | some units =>
    simp only [hcode] at h ⊢
    obtain ⟨-, hpieces⟩ := h.of_put
    have hsize := hpieces.short.2.1
    change d.align.here ≤ data.size
    omega

/-! ## The annotations directory -/

/-- The annotated methods of a class are read with the readable names of their annotations. -/
theorem memberAnnotations_eq {methods : List (MethodSpec × Nat)}
    {sets : List (Nat × Nat)}
    (hsets : List.Forall₂ (fun m entry => entry.1 = m.2 ∧
      c.annotationSet entry.2 = .ok (m.1.annotations.map Descriptor.readable)) methods sets)
    {offset : Nat}
    (h : c.data.HasPieces offset (sets.flatMap fun entry => [.word entry.1, .word entry.2])) :
    c.memberAnnotations sets.length offset =
      .ok (methods.map fun m => (m.2, m.1.annotations.map Descriptor.readable)) := by
  induction hsets generalizing offset with
  | nil => rfl
  | cons hset _ ih =>
    obtain ⟨hindex, hnames⟩ := hset
    obtain ⟨hfirst, -, hnext⟩ := h.word
    obtain ⟨hsecond, hsize, hrest⟩ := hnext.word
    have hrequire : c.require offset 8 = .ok () := Layout.require_of_le hsize
    have hothers := ih hrest
    simp only [List.length_cons, memberAnnotations, hrequire, hfirst, hsecond, hnames, hothers,
      hindex, bind, Except.bind]
    rfl

/-- The directory of a class is read as the annotations of the class and of its methods. -/
theorem annotationsDirectory_eq {classSet : Nat} {names : List String}
    {methods : List (MethodSpec × Nat)} {sets : List (Nat × Nat)}
    (hclass : c.annotationSet classSet = .ok (names.map Descriptor.readable))
    (hempty : classSet = 0 ↔ names = [])
    (hsets : List.Forall₂ (fun m entry => entry.1 = m.2 ∧
      c.annotationSet entry.2 = .ok (m.1.annotations.map Descriptor.readable)) methods sets)
    (hsound : d.Sound b) (h : (d.directory classSet sets).data.HeldBy c.data) :
    c.annotationsDirectory (d.directory classSet sets).value =
      .ok ⟨names.map Descriptor.readable, .ofEntries [],
        .ofEntries (methods.map fun m => (m.2, m.1.annotations.map Descriptor.readable))⟩ := by
  unfold DataPart.directory at h ⊢
  by_cases hnone : classSet = 0 ∧ sets = []
  · rw [if_pos hnone]
    obtain ⟨hzero, rfl⟩ := hnone
    cases hsets
    rw [hempty.mp hzero]
    rfl
  · rw [if_neg hnone] at h ⊢
    obtain ⟨-, hpieces⟩ := h.of_put
    have hpos := ((DataPart.align_grows b d).sound hsound).here_pos
    change c.annotationsDirectory d.align.here = _
    generalize d.align.here = offset at hpieces hpos ⊢
    obtain ⟨hset, -, h⟩ := hpieces.word
    obtain ⟨hfields, -, h⟩ := h.word
    obtain ⟨hmethods, -, h⟩ := h.word
    obtain ⟨-, hsize, h⟩ := h.word
    have hrequire : c.require offset 16 = .ok () := Layout.require_of_le hsize
    change c.data.u4 (offset + 4) = 0 at hfields
    change c.data.u4 (offset + 8) = sets.length at hmethods
    have hread := memberAnnotations_eq hsets h
    change c.memberAnnotations sets.length (offset + 16) = _ at hread
    unfold annotationsDirectory
    rw [if_neg (by omega)]
    simp only [hrequire, hset, hfields, hmethods, Nat.mul_zero, Nat.add_zero, hread, hclass,
      memberAnnotations, bind, Except.bind]
    rfl

end Container

end DexListing
