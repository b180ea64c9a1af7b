import DexListing.Proofs.Assembly.Members

/-!
# Reading classes

What a class refers to is laid out in one go, and its definition holds where each part has come to
stand. Reading the definition follows these offsets; what it finds is the class as it was asked for,
with every type under its readable name (`ClassSpec.info`).
-/

set_option autoImplicit false

namespace DexListing

open Assembly

/-- A class as it is listed. -/
def Assembly.ClassSpec.info (c : ClassSpec) : ClassInfo where
  name := Descriptor.readable c.name
  accessFlags := c.accessFlags
  superclass := c.superclass?.map Descriptor.readable
  interfaces := c.interfaces.map Descriptor.readable
  sourceFile := c.sourceFile?
  annotations := c.annotations.map Descriptor.readable
  fields := c.orderedFields.map FieldSpec.info
  methods := c.methods.map MethodSpec.info

namespace Container

variable {c : Container} {b : Builder} {p : PlacedClass} {d : DataPart}

/-- A choice that gives a value goes on with it, whichever side was chosen. -/
theorem bind_ite {α β : Type} {q : Prop} [Decidable q] {x y : Except ContainerError α} {v : α}
    {k : α → Except ContainerError β} (h : (if q then x else y) = .ok v) :
    (if q then x >>= k else y >>= k) = k v := by
  rw [← apply_ite (· >>= k), h]
  rfl

/-- What may be absent is read under its index, and as absent under the index for that. -/
theorem optional_eq {read : Nat → Except ContainerError String} {index : String → Nat}
    {shown : String → String} {wanted : Option String}
    (h : ∀ s ∈ wanted, index s ≠ noIndex ∧ read (index s) = .ok (shown s)) :
    (if (wanted.map index).getD noIndex = noIndex then pure none
      else some <$> read ((wanted.map index).getD noIndex)) = .ok (wanted.map shown) := by
  cases wanted with
  | none => rfl
  | some s =>
    obtain ⟨hne, hread⟩ := h s rfl
    change (if index s = noIndex then _ else some <$> read (index s)) = _
    rw [if_neg hne, hread]
    rfl

/-- The superclass of a class is read back, if it has one. -/
theorem Carries.superclass_eq (hc : c.Carries b) (hcovers : b.Covers p) :
    (if (p.spec.superclass?.map b.typeIndex).getD noIndex = noIndex then pure none
      else some <$> c.typeName ((p.spec.superclass?.map b.typeIndex).getD noIndex)) =
      .ok (p.spec.superclass?.map Descriptor.readable) := by
  apply optional_eq
  intro name hname
  have htype : Descriptor.ofName name ∈ b.types := by
    apply hcovers.types
    simp [Option.mem_def.mp hname]
  exact ⟨Nat.ne_of_lt (hc.typeIndex_lt htype), hc.typeName name htype⟩

/-- The source file of a class is read back, if it has one. -/
theorem Carries.sourceFile_eq (hc : c.Carries b) (hcovers : b.Covers p) :
    (if (p.spec.sourceFile?.map b.stringIndex).getD noIndex = noIndex then pure none
      else some <$> c.string ((p.spec.sourceFile?.map b.stringIndex).getD noIndex)) =
      .ok p.spec.sourceFile? := by
  have hpresent : ∀ s ∈ p.spec.sourceFile?,
      b.stringIndex s ≠ noIndex ∧ c.string (b.stringIndex s) = .ok (id s) := by
    intro s hs
    have hstring := hcovers.sourceFile s hs
    have hlt : b.stringIndex s < b.strings.length := List.idxOf_lt_length_of_mem hstring
    have hcount := hc.stringCount
    refine ⟨?_, hc.string s hstring⟩
    unfold noIndex
    omega
  have hread := optional_eq hpresent
  rwa [Option.map_id] at hread

/-- The annotations of a class and of its methods are read back from the directory that is laid out
after their sets. -/
theorem Resolves.directory_eq (hc : c.Resolves b) (hcovers : b.Covers p) (hsound : d.Sound b)
    {sets : Laid (List (Nat × Nat))} {classSet : Laid Nat}
    (hsets : d.layAll (DataPart.methodSet b)
      (p.methods.filter fun m => m.1.annotations ≠ []) = sets)
    (hclassSet : sets.data.annotationSet b p.spec.annotations = classSet)
    (h : (classSet.data.directory classSet.value sets.value).data.HeldBy c.data) :
    c.annotationsDirectory (classSet.data.directory classSet.value sets.value).value =
      .ok ⟨p.spec.annotations.map Descriptor.readable, .ofEntries [], methodAnnotations p⟩ := by
  have hsetsGrow : DataPart.Grows b d sets.data := by
    rw [← hsets]
    exact DataPart.layAll_grows (DataPart.methodSet_grows b) _ _
  have hsetsSound := hsetsGrow.sound hsound
  have hclassGrows : DataPart.Grows b sets.data classSet.data := by
    rw [← hclassSet]
    exact DataPart.annotationSet_grows b _ _
  have hclassHeld := (DataPart.directory_grows b _ _ _).held _ h
  have hsetsHeld := hclassGrows.held _ hclassHeld
  have hclassNames : ∀ name ∈ p.spec.annotations, Descriptor.ofName name ∈ b.types := by
    intro name hname
    apply hcovers.types
    exact List.mem_append_right _ hname
  have hclass : c.annotationSet classSet.value =
      .ok (p.spec.annotations.map Descriptor.readable) := by
    subst hclassSet
    exact hc.annotationSet_eq hclassNames hsetsSound hclassHeld
  have hempty : classSet.value = 0 ↔ p.spec.annotations = [] := by
    rw [← hclassSet]
    exact DataPart.annotationSet_eq_zero hsetsSound
  have hmethods : List.Forall₂ (fun m entry => entry.1 = m.2 ∧
      c.annotationSet entry.2 = .ok (m.1.annotations.map Descriptor.readable))
      (p.methods.filter fun m => m.1.annotations ≠ []) sets.value := by
    subst hsets
    refine DataPart.layAll_forall₂ (DataPart.methodSet_grows b) ?_ hsound hsetsHeld
    intro e he m hm hheld
    have hmem := (method_of_mem hcovers (List.mem_filter.mp hm).1).1
    have hnames := hcovers.methodAnnotations _ hmem
    exact ⟨rfl, hc.annotationSet_eq hnames he hheld⟩
  exact annotationsDirectory_eq hclass hempty hmethods (hclassGrows.sound hsetsSound) h

/-- Everything that a class refers to is read back from its definition. -/
theorem Carries.resolveClass_eq (hc : c.Carries b) (hclosed : b.Closed) (hcovers : b.Covers p)
    (hflags : p.spec.FlagsFit) (hsound : d.Sound b)
    (h : (d.classItems b p).data.HeldBy c.data) :
    c.resolveClass (d.classItems b p).value = .ok p.spec.info := by
  unfold DataPart.classItems at h ⊢
  dsimp only at h ⊢
  generalize hinterfaces : d.typeList b p.spec.interfaces = interfaces at h ⊢
  generalize hcodes : interfaces.data.layAll DataPart.codeItem p.spec.methods = codes at h ⊢
  generalize hsets : codes.data.layAll (DataPart.methodSet b)
    (p.methods.filter fun m => m.1.annotations ≠ []) = sets at h ⊢
  generalize hclassSet : sets.data.annotationSet b p.spec.annotations = classSet at h ⊢
  -- What bytes hold in the end they hold after each of the items, and each item is laid out soundly.
  have hinterfacesGrow : DataPart.Grows b d interfaces.data := by
    rw [← hinterfaces]
    exact DataPart.typeList_grows b d _
  have hcodesGrow : DataPart.Grows b interfaces.data codes.data := by
    rw [← hcodes]
    exact DataPart.layAll_grows (DataPart.codeItem_grows b) _ _
  have hannotationsGrow : DataPart.Grows b codes.data classSet.data := by
    rw [← hclassSet, ← hsets]
    exact (DataPart.layAll_grows (DataPart.methodSet_grows b) _ _).trans
      (DataPart.annotationSet_grows b _ _)
  have hdirectoryGrows := DataPart.directory_grows b classSet.data classSet.value sets.value
  have hdirectoryHeld := (DataPart.classData_grows b _ p codes.value).held _ h
  have hclassHeld := hdirectoryGrows.held _ hdirectoryHeld
  have hcodesHeld := hannotationsGrow.held _ hclassHeld
  have hinterfacesHeld := hcodesGrow.held _ hcodesHeld
  have hinterfacesSound := hinterfacesGrow.sound hsound
  have hcodesSound := hcodesGrow.sound hinterfacesSound
  have hdirectorySound := hdirectoryGrows.sound (hannotationsGrow.sound hcodesSound)
  have hinterfaceNames : ∀ name ∈ p.spec.interfaces, Descriptor.ofName name ∈ b.types := by
    intro name hname
    apply hcovers.types
    simp [hname]
  have hinterfacesRead : c.typeList interfaces.value =
      .ok (p.spec.interfaces.map Descriptor.readable) := by
    subst hinterfaces
    exact hc.typeList_eq hinterfaceNames hsound hinterfacesHeld
  have hcodesRead : List.Forall₂ (fun m offset => c.code offset = .ok m.registersAndCode ∧
      offset ≤ c.data.size) p.spec.methods codes.value := by
    subst hcodes
    refine DataPart.layAll_forall₂ (DataPart.codeItem_grows b) ?_ hinterfacesSound hcodesHeld
    intro e he m _ hheld
    exact ⟨code_eq he hheld, codeOffset_le hheld⟩
  have hdirectoryRead := hc.directory_eq hcovers hcodesSound hsets hclassSet hdirectoryHeld
  have hname := hc.typeName p.spec.name (hcovers.types _ List.mem_cons_self)
  have hsuperclass := hc.superclass_eq hcovers
  have hsourceFile := hc.sourceFile_eq hcovers
  have hmembers := hc.readMembers_eq hclosed hcovers hflags
    (p.spec.annotations.map Descriptor.readable) hcodesRead hdirectorySound h
  unfold resolveClass
  rw [hdirectoryRead, hname]
  refine (bind_ite hsuperclass).trans ?_
  rw [hinterfacesRead]
  refine (bind_ite hsourceFile).trans ?_
  exact bind_ite hmembers

end Container

end DexListing
