import DexListing.Proofs.Assembly.Collecting
import DexListing.Proofs.Assembly.Reading

/-!
# Reading the members of a class

Within a group the members of a class are kept by the differences of their indices, which grow; so
reading them one after the other comes back to the indices, and from these to what the builder has in
its tables. Annotations are found by index: each method with annotations has one entry in the
directory, and the others have none.
-/

set_option autoImplicit false

namespace DexListing

open Assembly

namespace Assembly

/-- A field as it is listed. -/
def FieldSpec.info (f : FieldSpec) : FieldInfo where
  name := f.name
  typeName := Descriptor.readable f.typeName
  accessFlags := f.accessFlags
  annotations := []

/-- A method as it is listed. -/
def MethodSpec.info (m : MethodSpec) : MethodInfo where
  name := m.name
  returnType := Descriptor.readable m.proto.returnType
  parameters := m.proto.parameters.map Descriptor.readable
  accessFlags := m.accessFlags
  annotations := m.annotations.map Descriptor.readable
  registers := m.registersAndCode.1
  code := m.registersAndCode.2

/-- The fields of a class as they are kept: the static ones before the others. -/
def ClassSpec.orderedFields (c : ClassSpec) : List FieldSpec :=
  c.fields.filter (·.isStatic) ++ c.fields.filter (!·.isStatic)

/-- The access flags of all members take at most 32 bits. -/
structure ClassSpec.FlagsFit (c : ClassSpec) : Prop where
  fields : ∀ f ∈ c.fields, f.accessFlags < 0x100000000
  methods : ∀ m ∈ c.methods, m.accessFlags < 0x100000000

/-- The indices of members stand in order. -/
theorem pairwise_zipIdx {α : Type} (xs : List α) (n : Nat) :
    (xs.zipIdx n).Pairwise fun x y => x.2 ≤ y.2 := by
  induction xs generalizing n with
  | nil => exact .nil
  | cons x rest ih =>
    rw [List.zipIdx_cons, List.pairwise_cons]
    refine ⟨?_, ih (n + 1)⟩
    intro y hy
    have hle := List.le_snd_of_mem_zipIdx hy
    dsimp only
    omega

end Assembly

/-- Without entries no member has annotations. -/
theorem MemberAnnotations.of_ofEntries_nil (index : Nat) : of (ofEntries []) index = [] := by
  rw [of_ofEntries]
  rfl

namespace Container

variable {c : Container} {b : Builder}

/-- The container finds the fields, the methods and the prototypes of a builder as well. -/
structure Carries (c : Container) (b : Builder) : Prop extends Resolves c b where
  stringCount : b.strings.length < 0x100000000
  fieldCount : b.fields.length < 0x100000000
  methodCount : b.methods.length < 0x100000000
  field : ∀ (i : Nat) f, b.fields[i]? = some f →
    c.fieldId i = .ok (f.name, Descriptor.readable f.typeName)
  method : ∀ (i : Nat) m, b.methods[i]? = some m → c.methodId i = .ok (m.name, b.protoIndex m.proto)
  proto : ∀ p ∈ b.protos, c.proto (b.protoIndex p) =
    .ok (Descriptor.readable p.returnType, p.parameters.map Descriptor.readable)

/-! ## Groups of members -/

/-- A field is found under its index, and its numbers can be written. -/
structure FindsField (c : Container) (x : FieldSpec × Nat) : Prop where
  id : c.fieldId x.2 = .ok (x.1.name, Descriptor.readable x.1.typeName)
  index_lt : x.2 < 0x100000000
  flags_lt : x.1.accessFlags < 0x100000000

/-- A group of fields is read with the indices that it was written with. -/
theorem readFields_eq {annotations : MemberAnnotations} (hnone : ∀ i, annotations.of i = [])
    {fields : List (FieldSpec × Nat)} (hfinds : ∀ x ∈ fields, c.FindsField x)
    (hsorted : fields.Pairwise fun x y => x.2 ≤ y.2) {last : Nat} (hlast : ∀ x ∈ fields, last ≤ x.2)
    {offset : Nat} {rest : List Piece}
    (h : c.data.HasPieces offset (fieldPieces last fields ++ rest)) :
    ∃ next, c.readFields annotations fields.length last offset =
        .ok (fields.map (·.1.info), next) ∧ c.data.HasPieces next rest := by
  induction fields generalizing last offset with
  | nil => exact ⟨offset, rfl, h⟩
  | cons x fields ih =>
    obtain ⟨f, index⟩ := x
    have hx := hfinds (f, index) List.mem_cons_self
    have hindex := hx.index_lt
    have hflags := hx.flags_lt
    obtain ⟨hle, hsorted⟩ := List.pairwise_cons.mp hsorted
    have hfrom := hlast (f, index) List.mem_cons_self
    dsimp only at hindex hflags hfrom hle
    obtain ⟨afterIndex, hreadIndex, h⟩ := Layout.leb128_of_number (by omega) h
    obtain ⟨afterFlags, hreadFlags, h⟩ :=
      Layout.leb128_of_number (Nat.lt_trans hflags (by decide)) h
    obtain ⟨next, hothers, hnext⟩ :=
      ih (fun y hy => hfinds y (List.mem_cons_of_mem _ hy)) hsorted hle h
    refine ⟨next, ?_, hnext⟩
    have hsum : last + (index - last) = index := by omega
    have hid := hx.id
    simp only [List.length_cons, readFields, hreadIndex, hreadFlags, hsum, hid, hothers, hnone,
      bind, Except.bind]
    rfl

/-- A method is found under its index, its code and its annotations likewise, and its numbers can be
written. -/
structure FindsMethod (c : Container) (annotations : MemberAnnotations)
    (x : (MethodSpec × Nat) × Nat) : Prop where
  id : ∃ protoIndex, c.methodId x.1.2 = .ok (x.1.1.name, protoIndex) ∧ c.proto protoIndex =
    .ok (Descriptor.readable x.1.1.proto.returnType,
      x.1.1.proto.parameters.map Descriptor.readable)
  annotations : annotations.of x.1.2 = x.1.1.annotations.map Descriptor.readable
  code : c.code x.2 = .ok x.1.1.registersAndCode
  index_lt : x.1.2 < 0x100000000
  flags_lt : x.1.1.accessFlags < 0x100000000
  offset_lt : x.2 < 0x100000000

/-- A group of methods is read with the indices that it was written with. -/
theorem readMethods_eq {annotations : MemberAnnotations} {methods : List ((MethodSpec × Nat) × Nat)}
    (hfinds : ∀ x ∈ methods, c.FindsMethod annotations x)
    (hsorted : methods.Pairwise fun x y => x.1.2 ≤ y.1.2) {last : Nat}
    (hlast : ∀ x ∈ methods, last ≤ x.1.2) {offset : Nat}
    (h : c.data.HasPieces offset (methodPieces last methods)) :
    ∃ next, c.readMethods annotations methods.length last offset =
        .ok (methods.map (·.1.1.info), next) := by
  induction methods generalizing last offset with
  | nil => exact ⟨offset, rfl⟩
  | cons x methods ih =>
    obtain ⟨⟨m, index⟩, codeOffset⟩ := x
    have hx := hfinds ((m, index), codeOffset) List.mem_cons_self
    have hindex := hx.index_lt
    have hflags := hx.flags_lt
    have hoffset := hx.offset_lt
    obtain ⟨hle, hsorted⟩ := List.pairwise_cons.mp hsorted
    have hfrom := hlast ((m, index), codeOffset) List.mem_cons_self
    dsimp only at hindex hflags hoffset hfrom hle
    obtain ⟨afterIndex, hreadIndex, h⟩ := Layout.leb128_of_number (by omega) h
    obtain ⟨afterFlags, hreadFlags, h⟩ :=
      Layout.leb128_of_number (Nat.lt_trans hflags (by decide)) h
    obtain ⟨afterOffset, hreadOffset, h⟩ := Layout.leb128_of_number (by omega) h
    obtain ⟨next, hothers⟩ := ih (fun y hy => hfinds y (List.mem_cons_of_mem _ hy)) hsorted hle h
    refine ⟨next, ?_⟩
    have hsum : last + (index - last) = index := by omega
    obtain ⟨protoIndex, hid, hproto⟩ := hx.id
    have hcode := hx.code
    have hannotations := hx.annotations
    dsimp only at hid hproto hcode hannotations
    simp only [List.length_cons, readMethods, hreadIndex, hreadFlags, hreadOffset, hsum, hid, hproto,
      hcode, hothers, hannotations, bind, Except.bind]
    rfl

/-! ## The members of one class -/

variable {p : PlacedClass}

/-- A field of a class stands in the table of all fields under its index. -/
theorem field_of_mem (hcovers : b.Covers p) {x : FieldSpec × Nat} (hx : x ∈ p.fields) :
    x.1 ∈ p.spec.fields ∧ b.fields[x.2]? = some ⟨p.spec.name, x.1.typeName, x.1.name⟩ := by
  obtain ⟨hfrom, hget⟩ := List.mem_zipIdx_iff_le_and_getElem?_sub.mp hx
  have hfield := hcovers.fields _ _ hget
  rw [Nat.add_sub_cancel' hfrom] at hfield
  exact ⟨List.mem_of_getElem? hget, hfield⟩

/-- A method of a class stands in the table of all methods under its index. -/
theorem method_of_mem (hcovers : b.Covers p) {x : MethodSpec × Nat} (hx : x ∈ p.methods) :
    x.1 ∈ p.spec.methods ∧ b.methods[x.2]? = some ⟨p.spec.name, x.1.proto, x.1.name⟩ := by
  obtain ⟨hfrom, hget⟩ := List.mem_zipIdx_iff_le_and_getElem?_sub.mp hx
  have hmethod := hcovers.methods _ _ hget
  rw [Nat.add_sub_cancel' hfrom] at hmethod
  exact ⟨List.mem_of_getElem? hget, hmethod⟩

/-- The fields of a covered class are found by the reader. -/
theorem Carries.findsField (hc : c.Carries b) (hcovers : b.Covers p) (hflags : p.spec.FlagsFit)
    {x : FieldSpec × Nat} (hx : x ∈ p.fields) : c.FindsField x := by
  obtain ⟨hmem, hfield⟩ := field_of_mem hcovers hx
  have hlt := (List.getElem?_eq_some_iff.mp hfield).1
  exact {
    id := hc.field _ _ hfield
    index_lt := Nat.lt_trans hlt hc.fieldCount
    flags_lt := hflags.fields _ hmem }

/-- The annotations of the methods of a class, as they are read from its directory. -/
def methodAnnotations (p : PlacedClass) : MemberAnnotations :=
  .ofEntries ((p.methods.filter fun m => m.1.annotations ≠ []).map fun m =>
    (m.2, m.1.annotations.map Descriptor.readable))

/-- Each method has its own annotations. -/
theorem methodAnnotations_of {x : MethodSpec × Nat} (hx : x ∈ p.methods) :
    (methodAnnotations p).of x.2 = x.1.annotations.map Descriptor.readable := by
  obtain ⟨-, hget⟩ := List.mem_zipIdx_iff_le_and_getElem?_sub.mp hx
  unfold methodAnnotations
  rw [MemberAnnotations.of_ofEntries]
  generalize hentries : ((p.methods.filter fun m => m.1.annotations ≠ []).map fun m =>
    (m.2, m.1.annotations.map Descriptor.readable)) = entries
  cases hlookup : entries.reverse.lookup x.2 with
  | none =>
    have hnone := List.lookup_eq_none_iff.mp hlookup
    have hempty : x.1.annotations = [] := by
      by_cases hannotations : x.1.annotations = []
      · exact hannotations
      · have hmem : (x.2, x.1.annotations.map Descriptor.readable) ∈ entries.reverse := by
          rw [List.mem_reverse, ← hentries]
          exact List.mem_map.mpr ⟨x, List.mem_filter.mpr ⟨hx, by simpa using hannotations⟩, rfl⟩
        exact absurd (hnone _ hmem) (by simp)
    rw [hempty]
    rfl
  | some names =>
    obtain ⟨before, after, hsplit, -⟩ := List.lookup_eq_some_iff.mp hlookup
    have hmem : (x.2, names) ∈ entries := by
      rw [← List.mem_reverse, hsplit]
      exact List.mem_append_right _ List.mem_cons_self
    rw [← hentries] at hmem
    obtain ⟨y, hy, heq⟩ := List.mem_map.mp hmem
    obtain ⟨hindex, rfl⟩ := Prod.mk.inj heq
    obtain ⟨-, hgetY⟩ := List.mem_zipIdx_iff_le_and_getElem?_sub.mp (List.mem_filter.mp hy).1
    rw [hindex, hget] at hgetY
    rw [Option.some.inj hgetY]
    rfl

/-- The methods of a covered class are found by the reader, with their code and their
annotations. -/
theorem Carries.findsMethod (hc : c.Carries b) (hclosed : b.Closed) (hcovers : b.Covers p)
    (hflags : p.spec.FlagsFit) {x : (MethodSpec × Nat) × Nat} (hx : x.1 ∈ p.methods)
    (hcode : c.code x.2 = .ok x.1.1.registersAndCode) (hoffset : x.2 ≤ c.data.size) :
    c.FindsMethod (methodAnnotations p) x := by
  obtain ⟨hmem, hmethod⟩ := method_of_mem hcovers hx
  have hlt := (List.getElem?_eq_some_iff.mp hmethod).1
  have hproto := (hclosed.methods _ (List.mem_of_getElem? hmethod)).1
  exact {
    id := ⟨_, hc.method _ _ hmethod, hc.proto _ hproto⟩
    annotations := methodAnnotations_of hx
    code := hcode
    index_lt := Nat.lt_trans hlt hc.methodCount
    flags_lt := hflags.methods _ hmem
    offset_lt := Nat.lt_of_le_of_lt hoffset hc.size }

/-- There are no more members than the tables have entries, so the sizes of groups are small. -/
theorem Carries.length_fields_lt (hc : c.Carries b) (hcovers : b.Covers p)
    (q : FieldSpec × Nat → Bool) : (p.fields.filter q).length < 0x100000000 := by
  have hfilter := List.length_filter_le q p.fields
  have hlength : p.fields.length = p.spec.fields.length := List.length_zipIdx
  have hle := hcovers.length_fields_le
  have hlimit := hc.fieldCount
  omega

/-- A class has fewer methods than a number can count. -/
theorem Carries.length_methods_lt (hc : c.Carries b) (hcovers : b.Covers p)
    {codeOffsets : List Nat} (hzipped : (p.methods.zip codeOffsets).map Prod.fst = p.methods) :
    (p.methods.zip codeOffsets).length < 0x100000000 := by
  have hlength : (p.methods.zip codeOffsets).length = p.spec.methods.length := by
    rw [← List.length_map (f := Prod.fst), hzipped]
    exact List.length_zipIdx
  have hle := hcovers.length_methods_le
  have hlimit := hc.methodCount
  omega

/-- The fields of one group are those of the class that belong to it. -/
theorem info_filter_fields (p : PlacedClass) (q : FieldSpec → Bool) :
    (p.fields.filter fun x => q x.1).map (·.1.info) =
      (p.spec.fields.filter q).map FieldSpec.info := by
  have hfst : (p.fields.filter fun x => q x.1).map Prod.fst = p.spec.fields.filter q := by
    have hfilter := List.filter_map (f := Prod.fst) (p := q) (l := p.fields)
    unfold PlacedClass.fields at hfilter ⊢
    rw [List.zipIdx_map_fst] at hfilter
    exact hfilter.symm
  rw [← hfst, List.map_map]
  rfl

/-- The methods of a class with the offsets of their code. -/
theorem zip_codeOffsets {P : MethodSpec → Nat → Prop} {codeOffsets : List Nat}
    (hcodes : List.Forall₂ P p.spec.methods codeOffsets) :
    (p.methods.zip codeOffsets).map Prod.fst = p.methods ∧
      ∀ x ∈ p.methods.zip codeOffsets, P x.1.1 x.2 := by
  unfold PlacedClass.methods
  generalize p.spec.methods = methods at hcodes ⊢
  generalize p.firstMethod = n
  induction hcodes generalizing n with
  | nil => exact ⟨rfl, fun x hx => nomatch hx⟩
  | cons hfirst _ ih =>
    obtain ⟨hmap, hall⟩ := ih (n + 1)
    rw [List.zipIdx_cons, List.zip_cons_cons, List.map_cons, hmap]
    refine ⟨rfl, ?_⟩
    intro x hx
    rcases List.mem_cons.mp hx with rfl | hrest
    · exact hfirst
    · exact hall x hrest

/-- With the offsets of their code the methods are still those of the class, in order. -/
theorem info_zip_methods {codeOffsets : List Nat}
    (hzipped : (p.methods.zip codeOffsets).map Prod.fst = p.methods) :
    (p.methods.zip codeOffsets).map (·.1.1.info) = p.spec.methods.map MethodSpec.info := by
  have hspecs : p.methods.map Prod.fst = p.spec.methods := List.zipIdx_map_fst _ _
  calc (p.methods.zip codeOffsets).map (·.1.1.info)
      = ((p.methods.zip codeOffsets).map Prod.fst).map (·.1.info) := by
        rw [List.map_map]
        rfl
    _ = (p.methods.map Prod.fst).map MethodSpec.info := by
        rw [hzipped, List.map_map]
        rfl
    _ = p.spec.methods.map MethodSpec.info := by
        rw [hspecs]

/-- The methods stand in the order of their indices. -/
theorem pairwise_zip_methods {codeOffsets : List Nat}
    (hzipped : (p.methods.zip codeOffsets).map Prod.fst = p.methods) :
    (p.methods.zip codeOffsets).Pairwise fun x y => x.1.2 ≤ y.1.2 := by
  have hsorted : p.methods.Pairwise fun x y => x.2 ≤ y.2 :=
    pairwise_zipIdx p.spec.methods p.firstMethod
  rw [← hzipped, List.pairwise_map] at hsorted
  exact hsorted

/-- The class data of a class is read as its members; it is not laid out only if there are none. -/
theorem Carries.readMembers_eq (hc : c.Carries b) (hclosed : b.Closed) (hcovers : b.Covers p)
    (hflags : p.spec.FlagsFit) (names : List String) {codeOffsets : List Nat}
    (hcodes : List.Forall₂ (fun m offset => c.code offset = .ok m.registersAndCode ∧
      offset ≤ c.data.size) p.spec.methods codeOffsets)
    {d : DataPart} (hsound : d.Sound b) (h : (d.classData p codeOffsets).data.HeldBy c.data) :
    (if (d.classData p codeOffsets).value = 0 then pure ([], [])
      else c.readMembers ⟨names, .ofEntries [], methodAnnotations p⟩
        (d.classData p codeOffsets).value) =
      .ok (p.spec.orderedFields.map FieldSpec.info, p.spec.methods.map MethodSpec.info) := by
  unfold DataPart.classData at h ⊢
  by_cases hempty : p.spec.fields = [] ∧ p.spec.methods = []
  · rw [if_pos hempty]
    unfold ClassSpec.orderedFields
    rw [hempty.1, hempty.2]
    rfl
  · rw [if_neg hempty] at h ⊢
    dsimp only at h ⊢
    obtain ⟨-, hpieces⟩ := h.of_put
    have hpos := hsound.here_pos
    obtain ⟨hzipped, hzip⟩ := zip_codeOffsets (p := p) hcodes
    have hfindsField : ∀ (q : FieldSpec × Nat → Bool), ∀ x ∈ p.fields.filter q, c.FindsField x :=
      fun q x hx => hc.findsField hcovers hflags (List.mem_filter.mp hx).1
    have hfindsMethod : ∀ x ∈ p.methods.zip codeOffsets,
        c.FindsMethod (methodAnnotations p) x := by
      intro x hx
      have hmem : x.1 ∈ p.methods := by
        rw [← hzipped]
        exact List.mem_map_of_mem hx
      exact hc.findsMethod hclosed hcovers hflags hmem (hzip x hx).1 (hzip x hx).2
    have hfieldsLt := hc.length_fields_lt hcovers
    have hmethodsLt := hc.length_methods_lt hcovers hzipped
    -- The sizes of the groups, and then the groups themselves.
    obtain ⟨o₁, hreadStatic, h⟩ :=
      Layout.leb128_of_number (Nat.lt_trans (hfieldsLt _) (by decide)) hpieces
    obtain ⟨o₂, hreadInstance, h⟩ :=
      Layout.leb128_of_number (Nat.lt_trans (hfieldsLt _) (by decide)) h
    obtain ⟨o₃, hreadDirect, h⟩ := Layout.leb128_of_number (by decide) h
    obtain ⟨o₄, hreadVirtual, h⟩ :=
      Layout.leb128_of_number (Nat.lt_trans hmethodsLt (by decide)) h
    have hsorted := pairwise_zipIdx p.spec.fields p.firstField
    obtain ⟨o₅, hstatic, h⟩ := readFields_eq MemberAnnotations.of_ofEntries_nil (hfindsField _)
      (hsorted.sublist List.filter_sublist) (fun x _ => Nat.zero_le x.2) h
    obtain ⟨o₆, hinstance, h⟩ := readFields_eq MemberAnnotations.of_ofEntries_nil (hfindsField _)
      (hsorted.sublist List.filter_sublist) (fun x _ => Nat.zero_le x.2) h
    obtain ⟨o₇, hmethods⟩ := readMethods_eq hfindsMethod (pairwise_zip_methods hzipped)
      (fun x _ => Nat.zero_le x.1.2) h
    change (if d.here = 0 then _ else c.readMembers _ d.here) = _
    rw [if_neg (by omega)]
    unfold readMembers
    simp only [hreadStatic, hreadInstance, hreadDirect, hreadVirtual, hstatic, hinstance,
      hmethods, readMethods, bind, Except.bind]
    rw [info_filter_fields p fun f => f.isStatic, info_filter_fields p fun f => !f.isStatic,
      info_zip_methods hzipped]
    unfold ClassSpec.orderedFields
    rw [List.map_append]
    rfl

end Container

end DexListing
