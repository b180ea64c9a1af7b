import DexListing.Dalvik.Access
import DexListing.Proofs.Dalvik.Truncation

/-!
# What every access has in common

A reader on top of an access does what the container's own reader does, step by step. So if a
relation between computations with the access and plain results holds for each kind of step and is
kept when steps are put one after the other (`Access.Relates`), it holds between the whole of one
reader and the whole of the other (`Access.Relates.answer`). Each function of the reader is gone
through only once, whatever the access is.
-/

set_option autoImplicit false

namespace DexListing

/-- What going to an entry of a table says about its index, if the bytes there can be read: strings
and types have an index below the declared count, and an entry of any other table lies within the
bytes. -/
def Container.Reaches (c : Container) (r : Reference) : Prop :=
  match r.table with
  | .strings | .types => r.index < (c.header.table r.table).count
  | _ => (c.header.table r.table).offset + r.index * r.table.entrySize + r.table.entrySize ≤
    c.data.size

namespace Access

variable {m : Type → Type} [Monad m]

/-- A relation between computations with an access and plain results holds for each step of a
reader, and steps one after the other keep it. -/
structure Relates (a : Access m) (c : Container)
    (R : {α : Type} → m α → Except ContainerError α → Prop) : Prop where
  pure {α : Type} (x : α) : R (Pure.pure x : m α) (.ok x)
  bind {α β : Type} {x : m α} {r : Except ContainerError α} {f : α → m β}
    {g : α → Except ContainerError β} :
    R x r → (∀ v, r = .ok v → R (f v) (g v)) → R (x >>= f) (r >>= g)
  map {α β : Type} (f : α → β) {x : m α} {r : Except ContainerError α} :
    R x r → R (f <$> x) (f <$> r)
  look {α : Type} (x : Except ContainerError α) : R (a.look x) x
  entry {α : Type} {table : TableName} {index : Nat} {x : Except ContainerError α} :
    (∀ v, x = .ok v → c.Reaches ⟨table, index⟩) → R (a.entry table index x) x
  string (index : Nat) : R (a.string index) (c.toLayout.string index)
  mapError {α : Type} (f : ContainerError → ContainerError) {x : m α}
    {r : Except ContainerError α} : R x r → R (a.mapError f x) (r.mapError f)

end Access

namespace Container

variable {c : Container}

/-- A string that can be looked up has an index below the count. -/
theorem reaches_string {index : Nat} {s : String} (h : c.toLayout.string index = .ok s) :
    c.Reaches ⟨.strings, index⟩ := by
  unfold Layout.string at h
  split at h
  · exact nomatch h
  · next hlt => exact Nat.lt_of_not_le hlt

/-- A type whose descriptor can be looked up has an index below the count. -/
theorem reaches_type {index stringIndex : Nat}
    (h : c.toLayout.descriptorIndex index = .ok stringIndex) : c.Reaches ⟨.types, index⟩ := by
  unfold Layout.descriptorIndex at h
  split at h
  · exact nomatch h
  · next hlt => exact Nat.lt_of_not_le hlt

end Container

namespace Access.Relates

variable {m : Type → Type} [Monad m] {a : Access m} {c : Container}
  {R : {α : Type} → m α → Except ContainerError α → Prop}

/-! ## Strings and types -/

/-- The descriptor of a type is related, since its string is. -/
theorem typeDescriptor (h : a.Relates c R) (index : Nat) :
    R (a.typeDescriptor c index) (c.typeDescriptor index) := by
  rw [c.typeDescriptor_eq]
  apply h.bind
  · exact h.entry fun _ => Container.reaches_type
  · intro stringIndex _
    exact h.string stringIndex

/-- The readable name of a type is related. -/
theorem typeName (h : a.Relates c R) (index : Nat) : R (a.typeName c index) (c.typeName index) := by
  rw [c.typeName_eq]
  have hdescriptor := h.typeDescriptor index
  rw [c.typeDescriptor_eq] at hdescriptor
  apply h.bind hdescriptor
  intro descriptor _
  exact h.pure _

/-- The container looks a string up by way of its memo, which makes no difference. -/
theorem lookUp (h : a.Relates c R) (index : Nat) : R (a.string index) (c.string index) := by
  rw [c.string_eq]
  exact h.string index

/-- A row of type names is related, by induction on its length. -/
theorem typeNames (h : a.Relates c R) (count offset : Nat) :
    R (a.typeNames c count offset) (c.typeNames count offset) := by
  induction count generalizing offset with
  | zero => exact h.pure _
  | succ count ih =>
    apply h.bind (h.look _)
    intro index _
    apply h.bind (h.typeName index)
    intro name _
    apply h.bind (ih _)
    intro rest _
    exact h.pure _

/-- A list of types is related. -/
theorem typeList (h : a.Relates c R) (offset : Nat) :
    R (a.typeList c offset) (c.typeList offset) := by
  unfold Access.typeList Container.typeList
  split
  · exact h.pure _
  · apply h.bind (h.look _)
    intro count _
    exact h.typeNames _ _

/-! ## Entries of the other tables -/

/-- A prototype is related. -/
theorem proto (h : a.Relates c R) (index : Nat) : R (a.proto c index) (c.proto index) := by
  apply h.bind
  · exact h.entry fun _ hcheck => Layout.le_size_of_require hcheck
  · intro _ _
    apply h.bind (h.typeName _)
    intro returnType _
    apply h.bind (h.typeList _)
    intro parameters _
    exact h.pure _

/-- The identity of a field is related. -/
theorem fieldId (h : a.Relates c R) (index : Nat) : R (a.fieldId c index) (c.fieldId index) := by
  apply h.bind
  · exact h.entry fun _ hcheck => Layout.le_size_of_require hcheck
  · intro _ _
    apply h.bind (h.lookUp _)
    intro name _
    apply h.bind (h.typeName _)
    intro typeName _
    exact h.pure _

/-- The identity of a method is related. -/
theorem methodId (h : a.Relates c R) (index : Nat) : R (a.methodId c index) (c.methodId index) := by
  apply h.bind
  · exact h.entry fun _ hcheck => Layout.le_size_of_require hcheck
  · intro _ _
    apply h.bind (h.lookUp _)
    intro name _
    exact h.pure _

/-! ## Annotations -/

/-- The entries of a set of annotations are related, by induction on their number. -/
theorem setEntries (h : a.Relates c R) (count offset : Nat) :
    R (a.setEntries c count offset) (c.setEntries count offset) := by
  induction count generalizing offset with
  | zero => exact h.pure _
  | succ count ih =>
    apply h.bind (h.look _)
    intro item _
    apply h.bind (h.look _)
    rintro ⟨typeIndex, stop⟩ _
    apply h.bind (h.typeName typeIndex)
    intro name _
    apply h.bind (ih _)
    intro rest _
    exact h.pure _

/-- A set of annotations is related. -/
theorem annotationSet (h : a.Relates c R) (offset : Nat) :
    R (a.annotationSet c offset) (c.annotationSet offset) := by
  unfold Access.annotationSet Container.annotationSet
  split
  · exact h.pure _
  · apply h.bind (h.look _)
    intro count _
    exact h.setEntries _ _

/-- The annotations of members are related, by induction on their number. -/
theorem memberAnnotations (h : a.Relates c R) (count offset : Nat) :
    R (a.memberAnnotations c count offset) (c.memberAnnotations count offset) := by
  induction count generalizing offset with
  | zero => exact h.pure _
  | succ count ih =>
    apply h.bind (h.look _)
    intro _ _
    apply h.bind (h.annotationSet _)
    intro names _
    apply h.bind (ih _)
    intro rest _
    exact h.pure _

/-- A directory of annotations is related. -/
theorem annotationsDirectory (h : a.Relates c R) (offset : Nat) :
    R (a.annotationsDirectory c offset) (c.annotationsDirectory offset) := by
  unfold Access.annotationsDirectory Container.annotationsDirectory
  split
  · exact h.pure _
  · apply h.bind (h.look _)
    intro _ _
    apply h.bind (h.memberAnnotations _ _)
    intro ofFields _
    apply h.bind (h.memberAnnotations _ _)
    intro ofMethods _
    apply h.bind (h.annotationSet _)
    intro ofClass _
    exact h.pure _

/-! ## Classes -/

/-- The fields of a group are related, by induction on their number. -/
theorem readFields (h : a.Relates c R) (annotations : MemberAnnotations)
    (count last offset : Nat) :
    R (a.readFields c annotations count last offset) (c.readFields annotations count last offset) := by
  induction count generalizing last offset with
  | zero => exact h.pure _
  | succ count ih =>
    apply h.bind (h.look _)
    rintro ⟨difference, offset⟩ _
    apply h.bind (h.look _)
    rintro ⟨accessFlags, offset⟩ _
    apply h.bind (h.fieldId _)
    rintro ⟨name, typeName⟩ _
    apply h.bind (ih _ _)
    rintro ⟨rest, offset⟩ _
    exact h.pure _

/-- The methods of a group are related, by induction on their number. -/
theorem readMethods (h : a.Relates c R) (annotations : MemberAnnotations)
    (count last offset : Nat) :
    R (a.readMethods c annotations count last offset)
      (c.readMethods annotations count last offset) := by
  induction count generalizing last offset with
  | zero => exact h.pure _
  | succ count ih =>
    apply h.bind (h.look _)
    rintro ⟨difference, offset⟩ _
    apply h.bind (h.look _)
    rintro ⟨accessFlags, offset⟩ _
    apply h.bind (h.look _)
    rintro ⟨codeOffset, offset⟩ _
    apply h.bind (h.methodId _)
    rintro ⟨name, protoIndex⟩ _
    apply h.bind (h.proto _)
    rintro ⟨returnType, parameters⟩ _
    apply h.bind (h.look _)
    rintro ⟨registers, code⟩ _
    apply h.bind (ih _ _)
    rintro ⟨rest, offset⟩ _
    exact h.pure _

/-- All members of a class are related. -/
theorem readMembers (h : a.Relates c R) (annotations : AnnotationsDirectory) (offset : Nat) :
    R (a.readMembers c annotations offset) (c.readMembers annotations offset) := by
  apply h.bind (h.look _)
  rintro ⟨staticCount, offset⟩ _
  apply h.bind (h.look _)
  rintro ⟨instanceCount, offset⟩ _
  apply h.bind (h.look _)
  rintro ⟨directCount, offset⟩ _
  apply h.bind (h.look _)
  rintro ⟨virtualCount, offset⟩ _
  apply h.bind (h.readFields _ _ _ _)
  rintro ⟨staticFields, offset⟩ _
  apply h.bind (h.readFields _ _ _ _)
  rintro ⟨instanceFields, offset⟩ _
  apply h.bind (h.readMethods _ _ _ _)
  rintro ⟨directMethods, offset⟩ _
  apply h.bind (h.readMethods _ _ _ _)
  rintro ⟨virtualMethods, offset⟩ _
  exact h.pure _

/-- So are they if a class may have none. -/
theorem members (h : a.Relates c R) (annotations : AnnotationsDirectory) (offset : Nat) :
    R (a.members c annotations offset)
      (if offset = 0 then Pure.pure ([], []) else c.readMembers annotations offset) := by
  unfold Access.members
  split
  · exact h.pure _
  · exact h.readMembers annotations offset

/-- What may be missing is related if what is looked up is. -/
theorem optional (h : a.Relates c R) (index : Nat) {lookUp : m String}
    {found : Except ContainerError String} (hlook : R lookUp found) :
    R (Access.optional index lookUp)
      (if index = noIndex then Pure.pure none else some <$> found) := by
  unfold Access.optional
  split
  · exact h.pure _
  · exact h.map some hlook

/-- A choice between two results that go on in one way. -/
theorem bind_ite {α β : Type} (h : a.Relates c R) {q : Prop} [Decidable q] {x : m α}
    {r r' : Except ContainerError α} {f : α → m β} {g : α → Except ContainerError β}
    (hx : R x (if q then r else r')) (hthen : ∀ v, R (f v) (g v)) :
    R (x >>= f) (if q then r >>= g else r' >>= g) := by
  rw [← apply_ite (· >>= g)]
  exact h.bind hx fun v _ => hthen v

/-- What the entry of a class refers to is related. -/
theorem resolveClass (h : a.Relates c R) (d : ClassDef) :
    R (a.resolveClass c d) (c.resolveClass d) := by
  apply h.bind (h.annotationsDirectory _)
  intro annotations _
  apply h.bind (h.typeName _)
  intro name _
  apply h.bind_ite (h.optional _ (h.typeName _))
  intro superclass
  apply h.bind (h.typeList _)
  intro interfaces _
  apply h.bind_ite (h.optional _ (h.lookUp _))
  intro sourceFile
  apply h.bind_ite (h.members _ _)
  rintro ⟨fields, methods⟩
  exact h.pure _

/-- A whole class is related: it asks for nothing but strings and types. -/
theorem readClass (h : a.Relates c R) (index : Nat) :
    R (a.readClass c index) (c.readClass index) := by
  apply h.bind (h.look _)
  intro d _
  have hresolved := h.mapError (truncated index) (h.resolveClass d)
  generalize c.resolveClass d = result at hresolved ⊢
  cases result with
  | ok info => exact hresolved
  | error e =>
    cases e with
    | outside read => exact hresolved
    | format fault => exact hresolved

/-- A reader on top of the access answers every question as the container does, as far as the
relation says. -/
theorem answer (h : a.Relates c R) (question : Question) :
    R (a.answer c question) (c.answer question) := by
  cases question with
  | string index => exact h.map _ (h.lookUp index)
  | typeDescriptor index => exact h.map _ (h.typeDescriptor index)
  | typeName index => exact h.map _ (h.typeName index)
  | classAt index => exact h.map _ (h.readClass index)

end Access.Relates

end DexListing
