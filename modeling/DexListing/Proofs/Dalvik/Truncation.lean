import DexListing.Dalvik.ClassReader
import DexListing.Proofs.Bytes.Extension

/-!
# Containers that go on

A container that is cut short keeps its header, as long as it is still accepted. So what is read of
it is looked for at the same places, and every read either stays within the bytes that are left and
gives the same, or it fails. For each reader there is one lemma: its result persists when the
container goes on (`Layout.Extends`). The last one is about whole classes
(`Container.readClass_persists`), and `Container.reads_of_append` says it for bytes.

No read only looks whether there are more bytes: the end of a container shows in failures alone.
-/

set_option autoImplicit false

namespace DexListing

/-! ## Headers -/

/-- The header of an accepted container does not change when bytes follow. -/
theorem Header.ofBytes_append {data : Bytes} {header : Header}
    (h : Header.ofBytes data = .ok header) (more : Bytes) :
    Header.ofBytes (data ++ more) = .ok header := by
  have hstarts := Bytes.startsWith_append data more
  have hsize := hstarts.size_le
  unfold Header.ofBytes at h
  split at h
  · exact nomatch h
  · next hmagic =>
    simp only [Bool.or_eq_true, decide_eq_true_eq, not_or, Nat.not_lt, bne_iff_ne, ne_eq,
      Decidable.not_not] at hmagic
    obtain ⟨hlarge, hmagic⟩ := hmagic
    have hlarge' : 0x70 ≤ data.size := hlarge
    have htable : ∀ position, position + 8 ≤ 0x70 →
        Table.at (data ++ more) position = Table.at data position := by
      intro position hposition
      simp only [Table.at]
      rw [hstarts.u4_eq (by omega), hstarts.u4_eq (by omega)]
    dsimp only at h
    split at h
    · exact nomatch h
    · next hclasses =>
      obtain rfl := Except.ok.inj h
      have hmagic' : (data ++ more).range 0 4 = magic := by
        rw [hstarts.range_eq (by omega), hmagic]
      have hversion : (data ++ more).range 4 7 = data.range 4 7 := hstarts.range_eq (by omega)
      unfold Header.ofBytes
      rw [if_neg]
      · simp only [hversion, htable 56 (by omega), htable 64 (by omega), htable 72 (by omega),
          htable 80 (by omega), htable 88 (by omega), htable 96 (by omega)]
        rw [if_neg]
        omega
      · simp only [hmagic', Bool.or_eq_true, decide_eq_true_eq, bne_self_eq_false, or_false,
          Bool.false_eq_true, Nat.not_lt]
        exact Nat.le_trans hlarge hsize

/-! ## Strings and types -/

namespace Layout

/-- A layout has the header of another one and starts with its bytes. -/
structure Extends (next first : Layout) : Prop where
  header : next.header = first.header
  data : next.data.StartsWith first.data

/-- An item that passes the check lies within the container. -/
theorem le_size_of_require {l : Layout} {offset size : Nat} {u : Unit}
    (h : l.require offset size = .ok u) : offset + size ≤ l.data.size := by
  unfold require Bytes.require at h
  split at h
  · exact nomatch h
  · next hcheck =>
    split at hcheck
    · next hle => exact hle
    · exact nomatch hcheck

namespace Extends

variable {next first : Layout}

/-- Bytes that are there stay there when more are added. -/
theorem require_persists (h : next.Extends first) (offset size : Nat) :
    Persists (first.require offset size) (next.require offset size) := by
  intro u hfirst
  have hle := le_size_of_require hfirst
  have hsize := h.data.size_le
  have hle' : offset + size ≤ next.data.size := by omega
  simp [require, Bytes.require, hle']

/-- A word that can be read stays the same. -/
theorem u4_persists (h : next.Extends first) (offset : Nat) :
    Persists (first.u4 offset) (next.u4 offset) := by
  apply (h.require_persists offset 4).bind
  intro _ hcheck
  rw [h.data.u4_eq (le_size_of_require hcheck)]
  exact .refl _

/-- A half word that can be read stays the same. -/
theorem u2_persists (h : next.Extends first) (offset : Nat) :
    Persists (first.u2 offset) (next.u2 offset) := by
  apply (h.require_persists offset 2).bind
  intro _ hcheck
  rw [h.data.u2_eq (le_size_of_require hcheck)]
  exact .refl _

/-- A number of variable length stays the same, for its last byte ends it. -/
theorem leb128_persists (h : next.Extends first) (offset : Nat) :
    Persists (first.leb128 offset) (next.leb128 offset) := by
  unfold leb128
  cases hread : Leb128.read first.data offset with
  | error fault => exact .error _ _
  | ok result =>
    have hnext : Leb128.read next.data offset = .ok result :=
      h.data.readWithin_persists Leb128.maxBytes offset result hread
    rw [hnext]
    exact .refl _

/-- A string stays the same, for its zero byte ends it. -/
theorem stringAt_persists (h : next.Extends first) (offset : Nat) :
    Persists (first.stringAt offset) (next.stringAt offset) := by
  apply (h.leb128_persists offset).bind
  rintro ⟨length, start⟩ _
  dsimp only
  cases hfind : first.data.findZero? start with
  | none => exact .error _ _
  | some stop =>
    obtain ⟨hstop, hnext⟩ := h.data.findZero?_eq hfind
    rw [hnext]
    dsimp only
    rw [h.data.range_eq (Nat.le_of_lt hstop)]
    exact .refl _

/-- So does a string of the table. -/
theorem string_persists (h : next.Extends first) (index : Nat) :
    Persists (first.string index) (next.string index) := by
  unfold string
  rw [h.header]
  apply Persists.ite
  · intro _
    exact .error _ _
  · intro _
    apply (h.u4_persists _).bind
    intro offset _
    exact h.stringAt_persists offset

/-- The place of a descriptor stays the same. -/
theorem descriptorIndex_persists (h : next.Extends first) (index : Nat) :
    Persists (first.descriptorIndex index) (next.descriptorIndex index) := by
  unfold descriptorIndex
  rw [h.header]
  apply Persists.ite
  · intro _
    exact .error _ _
  · intro _
    exact h.u4_persists _

/-- The name of a type stays the same. -/
theorem typeName_persists (h : next.Extends first) (index : Nat) :
    Persists (first.typeName index) (next.typeName index) := by
  apply Persists.bind
  · apply (h.descriptorIndex_persists index).bind
    intro descriptor _
    exact h.string_persists descriptor
  · intro descriptor _
    exact .refl _

end Extends

end Layout

/-! ## Items of classes -/

namespace Container

/-- The layout of a container extends that of another one. -/
def Extends (next first : Container) : Prop := next.toLayout.Extends first.toLayout

namespace Extends

variable {next first : Container}

/-- A string stays the same, whether or not it is remembered. -/
theorem string_persists (h : next.Extends first) (index : Nat) :
    Persists (first.string index) (next.string index) := by
  rw [string_eq, string_eq]
  exact Layout.Extends.string_persists h index

/-- The name of a type stays the same, whether or not it is remembered. -/
theorem typeName_persists (h : next.Extends first) (index : Nat) :
    Persists (first.typeName index) (next.typeName index) := by
  rw [typeName_eq, typeName_eq]
  exact Layout.Extends.typeName_persists h index

/-- A row of type names stays the same, one name after the other. -/
theorem typeNames_persists (h : next.Extends first) (count offset : Nat) :
    Persists (first.typeNames count offset) (next.typeNames count offset) := by
  induction count generalizing offset with
  | zero => exact .refl _
  | succ count ih =>
    apply (Layout.Extends.u2_persists h offset).bind
    intro index _
    apply (h.typeName_persists index).bind
    intro name _
    apply (ih (offset + 2)).bind
    intro rest _
    exact .refl _

/-- A list of types stays the same. -/
theorem typeList_persists (h : next.Extends first) (offset : Nat) :
    Persists (first.typeList offset) (next.typeList offset) := by
  apply Persists.ite
  · intro _
    exact .refl _
  · intro _
    apply (Layout.Extends.u4_persists h offset).bind
    intro count _
    exact h.typeNames_persists count (offset + 4)

/-- A prototype stays the same. -/
theorem proto_persists (h : next.Extends first) (index : Nat) :
    Persists (first.proto index) (next.proto index) := by
  unfold proto
  rw [h.header]
  apply (Layout.Extends.require_persists h _ 12).bind
  intro _ hcheck
  have hle := Layout.le_size_of_require hcheck
  rw [h.data.u4_eq (by omega), h.data.u4_eq (by omega)]
  apply (h.typeName_persists _).bind
  intro returnType _
  apply (h.typeList_persists _).bind
  intro parameters _
  exact .refl _

/-- The identity of a field stays the same. -/
theorem fieldId_persists (h : next.Extends first) (index : Nat) :
    Persists (first.fieldId index) (next.fieldId index) := by
  unfold fieldId
  rw [h.header]
  apply (Layout.Extends.require_persists h _ 8).bind
  intro _ hcheck
  have hle := Layout.le_size_of_require hcheck
  rw [h.data.u4_eq (by omega), h.data.u2_eq (by omega)]
  apply (h.string_persists _).bind
  intro name _
  apply (h.typeName_persists _).bind
  intro typeName _
  exact .refl _

/-- The identity of a method stays the same. -/
theorem methodId_persists (h : next.Extends first) (index : Nat) :
    Persists (first.methodId index) (next.methodId index) := by
  unfold methodId
  rw [h.header]
  apply (Layout.Extends.require_persists h _ 8).bind
  intro _ hcheck
  have hle := Layout.le_size_of_require hcheck
  rw [h.data.u4_eq (by omega), h.data.u2_eq (by omega)]
  apply (h.string_persists _).bind
  intro name _
  exact .refl _

/-- The units of a code item lie within the range that is checked for all of them. -/
theorem code_persists (h : next.Extends first) (offset : Nat) :
    Persists (first.code offset) (next.code offset) := by
  apply Persists.ite
  · intro _
    exact .refl _
  · intro _
    apply (Layout.Extends.require_persists h offset 16).bind
    intro _ hhead
    have hle := Layout.le_size_of_require hhead
    dsimp only
    rw [h.data.u4_eq (by omega), h.data.u2_eq (by omega)]
    apply (Layout.Extends.require_persists h _ _).bind
    intro _ hunits
    have hunitsLe := Layout.le_size_of_require hunits
    have hsame : ∀ i ∈ List.range (first.data.u4 (offset + 12)),
        next.data.u2 (offset + 16 + 2 * i) = first.data.u2 (offset + 16 + 2 * i) := by
      intro i hi
      rw [List.mem_range] at hi
      exact h.data.u2_eq (by omega)
    rw [List.map_congr_left hsame]
    exact .refl _

/-! ## Annotations -/

/-- The entries of a set of annotations stay the same, one after the other. -/
theorem setEntries_persists (h : next.Extends first) (count offset : Nat) :
    Persists (first.setEntries count offset) (next.setEntries count offset) := by
  induction count generalizing offset with
  | zero => exact .refl _
  | succ count ih =>
    apply (Layout.Extends.u4_persists h offset).bind
    intro item _
    apply (Layout.Extends.leb128_persists h (item + 1)).bind
    rintro ⟨typeIndex, stop⟩ _
    apply (h.typeName_persists typeIndex).bind
    intro name _
    apply (ih (offset + 4)).bind
    intro rest _
    exact .refl _

/-- A set of annotations stays the same. -/
theorem annotationSet_persists (h : next.Extends first) (offset : Nat) :
    Persists (first.annotationSet offset) (next.annotationSet offset) := by
  apply Persists.ite
  · intro _
    exact .refl _
  · intro _
    apply (Layout.Extends.u4_persists h offset).bind
    intro count _
    exact h.setEntries_persists count (offset + 4)

/-- The annotations of members stay the same, one member after the other. -/
theorem memberAnnotations_persists (h : next.Extends first) (count offset : Nat) :
    Persists (first.memberAnnotations count offset) (next.memberAnnotations count offset) := by
  induction count generalizing offset with
  | zero => exact .refl _
  | succ count ih =>
    apply (Layout.Extends.require_persists h offset 8).bind
    intro _ hcheck
    have hle := Layout.le_size_of_require hcheck
    rw [h.data.u4_eq (by omega), h.data.u4_eq (by omega)]
    apply (h.annotationSet_persists _).bind
    intro names _
    apply (ih (offset + 8)).bind
    intro rest _
    exact .refl _

/-- A directory of annotations stays the same. -/
theorem annotationsDirectory_persists (h : next.Extends first) (offset : Nat) :
    Persists (first.annotationsDirectory offset) (next.annotationsDirectory offset) := by
  apply Persists.ite
  · intro _
    exact .refl _
  · intro _
    apply (Layout.Extends.require_persists h offset 16).bind
    intro _ hcheck
    have hle := Layout.le_size_of_require hcheck
    dsimp only
    rw [h.data.u4_eq (by omega), h.data.u4_eq (by omega), h.data.u4_eq (by omega)]
    apply (h.memberAnnotations_persists _ _).bind
    intro ofFields _
    apply (h.memberAnnotations_persists _ _).bind
    intro ofMethods _
    apply (h.annotationSet_persists _).bind
    intro ofClass _
    exact .refl _

/-! ## Members -/

/-- The fields of a group stay the same: each index is told by the ones before it. -/
theorem readFields_persists (h : next.Extends first) (annotations : MemberAnnotations)
    (count last offset : Nat) :
    Persists (first.readFields annotations count last offset)
      (next.readFields annotations count last offset) := by
  induction count generalizing last offset with
  | zero => exact .refl _
  | succ count ih =>
    apply (Layout.Extends.leb128_persists h offset).bind
    rintro ⟨difference, offset⟩ _
    apply (Layout.Extends.leb128_persists h offset).bind
    rintro ⟨accessFlags, offset⟩ _
    apply (h.fieldId_persists _).bind
    rintro ⟨name, typeName⟩ _
    apply (ih (last + difference) offset).bind
    intro rest _
    exact .refl _

/-- The methods of a group stay the same, with their code. -/
theorem readMethods_persists (h : next.Extends first) (annotations : MemberAnnotations)
    (count last offset : Nat) :
    Persists (first.readMethods annotations count last offset)
      (next.readMethods annotations count last offset) := by
  induction count generalizing last offset with
  | zero => exact .refl _
  | succ count ih =>
    apply (Layout.Extends.leb128_persists h offset).bind
    rintro ⟨difference, offset⟩ _
    apply (Layout.Extends.leb128_persists h offset).bind
    rintro ⟨accessFlags, offset⟩ _
    apply (Layout.Extends.leb128_persists h offset).bind
    rintro ⟨codeOffset, offset⟩ _
    apply (h.methodId_persists _).bind
    rintro ⟨name, protoIndex⟩ _
    apply (h.proto_persists protoIndex).bind
    rintro ⟨returnType, parameters⟩ _
    apply (h.code_persists codeOffset).bind
    rintro ⟨registers, code⟩ _
    apply (ih (last + difference) offset).bind
    intro rest _
    exact .refl _

/-- All members of a class stay the same. -/
theorem readMembers_persists (h : next.Extends first) (annotations : AnnotationsDirectory)
    (offset : Nat) :
    Persists (first.readMembers annotations offset) (next.readMembers annotations offset) := by
  apply (Layout.Extends.leb128_persists h offset).bind
  rintro ⟨staticCount, offset⟩ _
  apply (Layout.Extends.leb128_persists h offset).bind
  rintro ⟨instanceCount, offset⟩ _
  apply (Layout.Extends.leb128_persists h offset).bind
  rintro ⟨directCount, offset⟩ _
  apply (Layout.Extends.leb128_persists h offset).bind
  rintro ⟨virtualCount, offset⟩ _
  apply (h.readFields_persists _ staticCount 0 offset).bind
  rintro ⟨staticFields, offset⟩ _
  apply (h.readFields_persists _ instanceCount 0 offset).bind
  rintro ⟨instanceFields, offset⟩ _
  apply (h.readMethods_persists _ directCount 0 offset).bind
  rintro ⟨directMethods, offset⟩ _
  apply (h.readMethods_persists _ virtualCount 0 offset).bind
  intro virtualMethods _
  exact .refl _

/-! ## Classes -/

/-- The entry of a class stays the same. -/
theorem classDef_persists (h : next.Extends first) (index : Nat) :
    Persists (first.classDef index) (next.classDef index) := by
  unfold classDef
  rw [h.header]
  apply (Layout.Extends.require_persists h _ classDefSize).bind
  intro _ hcheck
  have hle : _ + 32 ≤ _ := Layout.le_size_of_require hcheck
  rw [h.data.u4_eq (by omega), h.data.u4_eq (by omega), h.data.u4_eq (by omega),
    h.data.u4_eq (by omega), h.data.u4_eq (by omega), h.data.u4_eq (by omega),
    h.data.u4_eq (by omega)]
  exact .refl _

/-- What the entry of a class refers to stays the same. -/
theorem resolveClass_persists (h : next.Extends first) (d : ClassDef) :
    Persists (first.resolveClass d) (next.resolveClass d) := by
  apply (h.annotationsDirectory_persists d.annotationsOffset).bind
  intro annotations _
  apply (h.typeName_persists d.classIndex).bind
  intro name _
  apply Persists.ite_bind
  · intro _
    exact .refl _
  · intro _
    exact (h.typeName_persists d.superclassIndex).map some
  intro superclass
  apply (h.typeList_persists d.interfacesOffset).bind
  intro interfaces _
  apply Persists.ite_bind
  · intro _
    exact .refl _
  · intro _
    exact (h.string_persists d.sourceFileIndex).map some
  intro sourceFile
  apply Persists.ite_bind
  · intro _
    exact .refl _
  · intro _
    exact h.readMembers_persists annotations d.dataOffset
  intro members
  exact .refl _

/-- A class that can be read stays the same when the container goes on. -/
theorem readClass_persists (h : next.Extends first) (index : Nat) :
    Persists (first.readClass index) (next.readClass index) := by
  apply (h.classDef_persists index).bind
  intro d _ info hinfo
  have hresolved : first.resolveClass d = .ok info := by
    split at hinfo
    · exact nomatch hinfo
    · exact hinfo
  rw [h.resolveClass_persists d info hresolved]

end Extends

/-! ## Appended bytes -/

/-- A container with bytes after it is accepted as one that extends it. -/
theorem ofBytes_append {data : Bytes} {c : Container} (h : ofBytes data = .ok c) (more : Bytes) :
    ∃ next, ofBytes (data ++ more) = .ok next ∧ next.Extends c := by
  unfold ofBytes at h
  split at h
  · exact nomatch h
  · next header hheader =>
    obtain rfl := Except.ok.inj h
    refine ⟨ofLayout ⟨data ++ more, header⟩, ?_, rfl, Bytes.startsWith_append data more⟩
    unfold ofBytes
    rw [Header.ofBytes_append hheader more]

/-- Bytes after a container change nothing that could be read of it. If bytes are accepted, so are
longer ones that start with them, and every string, every type name and every class that the
shorter container gives the longer one gives as well. So a container that is cut short either
leaves a class as it was or makes reading it fail. -/
theorem reads_of_append {data : Bytes} {c : Container} (h : ofBytes data = .ok c) (more : Bytes) :
    ∃ next, ofBytes (data ++ more) = .ok next ∧
      ∀ index,
        (∀ s, c.string index = .ok s → next.string index = .ok s) ∧
        (∀ name, c.typeName index = .ok name → next.typeName index = .ok name) ∧
        (∀ info, c.readClass index = .ok info → next.readClass index = .ok info) ∧
        (c.readClass index = next.readClass index ∨ ∃ e, c.readClass index = .error e) := by
  obtain ⟨next, hnext, hextends⟩ := ofBytes_append h more
  refine ⟨next, hnext, ?_⟩
  intro index
  have hclass := hextends.readClass_persists index
  refine ⟨hextends.string_persists index, hextends.typeName_persists index, hclass, ?_⟩
  cases hread : c.readClass index with
  | error e => exact Or.inr ⟨e, rfl⟩
  | ok info => exact Or.inl (hclass info hread).symm

/-- Bytes with a good header are accepted. -/
theorem ofBytes_of_header {data : Bytes} {header : Header}
    (h : (Header.ofBytes data).toOption = some header) :
    ofBytes data = .ok (ofLayout ⟨data, header⟩) := by
  unfold ofBytes
  rw [eq_ok_of_toOption h]

/-- A container with one class, `A`, which has no superclass and no members. -/
def oneClass : Bytes :=
  (magic ++ [0x30, 0x33, 0x35, 0] ++ List.replicate 48 0
    ++ [1, 112, 1, 116, 0, 0, 0, 0, 0, 0, 1, 120, 0, 0].flatMap (Bytes.littleEndian 4)
    -- one string, one type, and the class definition
    ++ [152, 0].flatMap (Bytes.littleEndian 4)
    ++ [0, 1, noIndex, 0, noIndex, 0, 0, 0].flatMap (Bytes.littleEndian 4)
    ++ [3, 0x4C, 0x41, 0x3B, 0]).toArray

/-- The header of `oneClass`. -/
def oneClassHeader : Header :=
  ⟨"035", ⟨1, 112⟩, ⟨1, 116⟩, ⟨0, 0⟩, ⟨0, 0⟩, ⟨0, 0⟩, ⟨1, 120⟩⟩

/-- The header of a container with one class. -/
theorem header_oneClass : (Header.ofBytes oneClass).toOption = some oneClassHeader := by
  decide +kernel

/-- A container with one class, and the same with a byte more. -/
theorem reads_of_append_oneClass :
    ∃ c, ofBytes oneClass = .ok c ∧
      (c.readClass 0).toOption = some ⟨"A", 1, none, [], none, [], [], []⟩ ∧
      ∃ next, ofBytes (oneClass ++ #[0]) = .ok next ∧ next.readClass 0 = c.readClass 0 := by
  have haccepted := ofBytes_of_header header_oneClass
  have hread : ((ofLayout ⟨oneClass, oneClassHeader⟩).readClass 0).toOption =
      some ⟨"A", 1, none, [], none, [], [], []⟩ := by decide +kernel
  obtain ⟨next, hnext, hreads⟩ := reads_of_append haccepted #[0]
  obtain ⟨-, -, hclass, -⟩ := hreads 0
  refine ⟨_, haccepted, hread, next, hnext, ?_⟩
  cases h : (ofLayout ⟨oneClass, oneClassHeader⟩).readClass 0 with
  | error e => simp [h, Except.toOption] at hread
  | ok info => exact hclass info h

end Container

end DexListing
