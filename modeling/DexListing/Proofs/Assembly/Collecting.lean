import DexListing.Assembly.Builder

/-!
# What a builder has collected

Whatever a class mentions is in the tables of its builder from then on, and tables only grow: strings,
types and prototypes may come to stand behind more of them, fields and methods keep their indices. So
a builder is closed (`Builder.Closed`): each entry of a table mentions only what is in the other
tables, and each class finds its members at the indices that it was given. Every step of the
collection keeps it closed, so the builder of any classes is (`Builder.closed_ofClasses`).
-/

set_option autoImplicit false

namespace DexListing

/-- The text does not hold the zero character. -/
def NulFree (s : String) : Prop := '\x00' ∉ s.toList

instance (s : String) : Decidable (NulFree s) := inferInstanceAs (Decidable ('\x00' ∉ s.toList))

namespace Descriptor

/-- The descriptor of a name without zero characters has none. -/
theorem nulFree_ofName {name : String} (h : NulFree name) : NulFree (ofName name) := by
  unfold ofName
  split
  · exact h
  · unfold NulFree
    rw [String.toList_ofList]
    intro hmem
    rcases List.mem_append.mp hmem with hbody | hend
    · rcases List.mem_cons.mp hbody with hl | hname
      · exact absurd hl (by decide)
      · obtain ⟨c, hc, heq⟩ := List.mem_map.mp hname
        split at heq
        · exact absurd heq (by decide)
        · exact h (heq ▸ hc)
    · exact absurd (List.mem_singleton.mp hend) (by decide)

/-- The short form of a descriptor has a zero character only if the descriptor has. -/
theorem nulFree_shortForm {descriptor : String} (h : NulFree descriptor) :
    NulFree (shortForm descriptor) := by
  have hletter : NulFree "L" := by
    unfold NulFree
    decide
  unfold shortForm
  split
  · exact hletter
  · exact hletter
  · exact h

end Descriptor

namespace Assembly

/-- All texts in a method that is asked for. -/
def MethodSpec.texts (m : MethodSpec) : List String :=
  m.name :: m.proto.returnType :: (m.proto.parameters ++ m.annotations)

/-- All texts in a class that is asked for. -/
def ClassSpec.texts (c : ClassSpec) : List String :=
  c.name :: (c.superclass.toList ++ (c.interfaces ++ (c.sourceFile.toList ++ (c.annotations ++
    (c.fields.flatMap (fun f => [f.name, f.typeName]) ++ c.methods.flatMap MethodSpec.texts)))))

/-- The short form of a prototype has no zero character if its types have none. -/
theorem ProtoSpec.nulFree_shorty {p : ProtoSpec} (hreturn : NulFree p.returnType)
    (hparameters : ∀ name ∈ p.parameters, NulFree name) : NulFree p.shorty := by
  have hjoin : ∀ parts : List String, (∀ part ∈ parts, NulFree part) →
      NulFree (String.join parts) := by
    intro parts hparts
    unfold NulFree
    rw [String.toList_join]
    intro hmem
    obtain ⟨part, hpart, hc⟩ := List.mem_flatMap.mp hmem
    exact hparts part hpart hc
  apply hjoin
  intro part hpart
  obtain ⟨name, hname, rfl⟩ := List.mem_map.mp hpart
  apply Descriptor.nulFree_shortForm
  apply Descriptor.nulFree_ofName
  rcases List.mem_cons.mp hname with rfl | hparameter
  · exact hreturn
  · exact hparameters name hparameter

namespace Builder

variable {b b' : Builder}

/-- What a class mentions is in the tables, and its members are at their indices. -/
structure Covers (b : Builder) (p : PlacedClass) : Prop where
  types : ∀ name ∈ p.spec.name :: (p.spec.superclass?.toList ++ p.spec.interfaces) ++
    p.spec.annotations, Descriptor.ofName name ∈ b.types
  methodAnnotations : ∀ m ∈ p.spec.methods, ∀ name ∈ m.annotations,
    Descriptor.ofName name ∈ b.types
  sourceFile : ∀ s ∈ p.spec.sourceFile?, s ∈ b.strings
  fields : ∀ i f, p.spec.fields[i]? = some f →
    b.fields[p.firstField + i]? = some ⟨p.spec.name, f.typeName, f.name⟩
  methods : ∀ i m, p.spec.methods[i]? = some m →
    b.methods[p.firstMethod + i]? = some ⟨p.spec.name, m.proto, m.name⟩

/-- What the entries of the tables mention is in the tables. -/
structure Closed (b : Builder) : Prop where
  strings : ∀ s ∈ b.strings, NulFree s
  types : ∀ descriptor ∈ b.types, descriptor ∈ b.strings
  protos : ∀ p ∈ b.protos, ∀ name ∈ p.returnType :: p.parameters,
    Descriptor.ofName name ∈ b.types
  fields : ∀ f ∈ b.fields, Descriptor.ofName f.typeName ∈ b.types ∧ f.name ∈ b.strings
  methods : ∀ m ∈ b.methods, m.proto ∈ b.protos ∧ m.name ∈ b.strings
  classes : ∀ p ∈ b.classes, b.Covers p

/-- Strings, types and prototypes may have come to the tables of a builder, and it is still closed
if it was. -/
structure Grows (b b' : Builder) : Prop where
  strings : b.strings ⊆ b'.strings
  types : b.types ⊆ b'.types
  protos : b.protos ⊆ b'.protos
  classes : b'.classes = b.classes
  closed : b.Closed → b'.Closed

/-- Nothing else has come to a builder. -/
structure Interns (b b' : Builder) : Prop extends Grows b b' where
  fields : b'.fields = b.fields
  methods : b'.methods = b.methods

/-- A builder has grown out of itself. -/
theorem Grows.refl (b : Builder) : Grows b b :=
  ⟨List.Subset.refl _, List.Subset.refl _, List.Subset.refl _, rfl, id⟩

/-- What has grown out of growth has grown. -/
theorem Grows.trans {b'' : Builder} (h : Grows b b') (h' : Grows b' b'') : Grows b b'' :=
  ⟨List.Subset.trans h.strings h'.strings, List.Subset.trans h.types h'.types,
    List.Subset.trans h.protos h'.protos, h'.classes.trans h.classes, h'.closed ∘ h.closed⟩

/-- Nothing has come to a builder that stays as it is. -/
theorem Interns.refl (b : Builder) : Interns b b := ⟨.refl b, rfl, rfl⟩

/-- If no members come in two steps, none come in both together. -/
theorem Interns.trans {b'' : Builder} (h : Interns b b') (h' : Interns b' b'') : Interns b b'' :=
  ⟨h.toGrows.trans h'.toGrows, h'.fields.trans h.fields, h'.methods.trans h.methods⟩

/-- A class stays covered while tables grow. -/
theorem Covers.mono {p : PlacedClass} (h : b.Covers p) (hstrings : b.strings ⊆ b'.strings)
    (htypes : b.types ⊆ b'.types) (hfields : b.fields <+: b'.fields)
    (hmethods : b.methods <+: b'.methods) : b'.Covers p where
  types name hname := htypes (h.types name hname)
  methodAnnotations m hm name hname := htypes (h.methodAnnotations m hm name hname)
  sourceFile s hs := hstrings (h.sourceFile s hs)
  fields i f hf := by
    obtain ⟨more, hmore⟩ := hfields
    rw [← hmore, List.getElem?_append_left]
    · exact h.fields i f hf
    · exact (List.getElem?_eq_some_iff.mp (h.fields i f hf)).1
  methods i m hm := by
    obtain ⟨more, hmore⟩ := hmethods
    rw [← hmore, List.getElem?_append_left]
    · exact h.methods i m hm
    · exact (List.getElem?_eq_some_iff.mp (h.methods i m hm)).1

/-- Where each entry of a list has one at its place in another list, that one is as long. -/
theorem length_le_of_getElem? {α β : Type} {xs : List α} {ys : List β} {n : Nat}
    (h : ∀ (i : Nat) x, xs[i]? = some x → ∃ y, ys[n + i]? = some y) : xs.length ≤ ys.length := by
  cases hlast : xs.length with
  | zero => exact Nat.zero_le _
  | succ k =>
    obtain ⟨y, hy⟩ := h k _ (List.getElem?_eq_getElem (by omega))
    have hlt := (List.getElem?_eq_some_iff.mp hy).1
    omega

/-- A class has no more fields than there are. -/
theorem Covers.length_fields_le {p : PlacedClass} (h : b.Covers p) :
    p.spec.fields.length ≤ b.fields.length :=
  length_le_of_getElem? fun i f hf => ⟨_, h.fields i f hf⟩

/-- A class has no more methods than there are. -/
theorem Covers.length_methods_le {p : PlacedClass} (h : b.Covers p) :
    p.spec.methods.length ≤ b.methods.length :=
  length_le_of_getElem? fun i m hm => ⟨_, h.methods i m hm⟩

/-! ## Strings, types and prototypes -/

/-- Adding a string brings no members of classes. -/
theorem addString_interns {s : String} (hs : NulFree s) : Interns b (b.addString s) := by
  unfold addString
  split
  · exact .refl b
  · refine ⟨⟨List.subset_append_left _ _, List.Subset.refl _, List.Subset.refl _, rfl, ?_⟩, rfl, rfl⟩
    intro h
    have hsub : b.strings ⊆ b.strings ++ [s] := List.subset_append_left _ _
    refine ⟨?_, ?_, h.protos, ?_, ?_, ?_⟩
    · intro t ht
      rcases List.mem_append.mp ht with hold | hnew
      · exact h.strings t hold
      · exact List.mem_singleton.mp hnew ▸ hs
    · intro descriptor hd
      exact hsub (h.types descriptor hd)
    · intro f hf
      exact ⟨(h.fields f hf).1, hsub (h.fields f hf).2⟩
    · intro m hm
      exact ⟨(h.methods m hm).1, hsub (h.methods m hm).2⟩
    · intro p hp
      exact (h.classes p hp).mono hsub (List.Subset.refl _) List.prefix_rfl List.prefix_rfl

/-- The string that is added is there. -/
theorem mem_addString (b : Builder) (s : String) : s ∈ (b.addString s).strings := by
  unfold addString
  split
  · next h => exact h
  · exact List.mem_append_right _ List.mem_cons_self

/-- Adding a type, with its descriptor, brings no members of classes. -/
theorem addType_interns {name : String} (hname : NulFree name) : Interns b (b.addType name) := by
  unfold addType
  dsimp only
  split
  · exact .refl b
  · have hstring := addString_interns (b := b) (Descriptor.nulFree_ofName hname)
    refine hstring.trans ⟨⟨List.Subset.refl _, List.subset_append_left _ _, List.Subset.refl _, rfl,
      ?_⟩, rfl, rfl⟩
    intro h
    have hsub : (b.addString (Descriptor.ofName name)).types ⊆
        (b.addString (Descriptor.ofName name)).types ++ [Descriptor.ofName name] :=
      List.subset_append_left _ _
    refine ⟨h.strings, ?_, ?_, ?_, h.methods, ?_⟩
    · intro descriptor hd
      rcases List.mem_append.mp hd with hold | hnew
      · exact h.types descriptor hold
      · rw [List.mem_singleton.mp hnew]
        exact mem_addString b _
    · intro p hp other hother
      exact hsub (h.protos p hp other hother)
    · intro f hf
      exact ⟨hsub (h.fields f hf).1, (h.fields f hf).2⟩
    · intro p hp
      exact (h.classes p hp).mono (List.Subset.refl _) hsub List.prefix_rfl List.prefix_rfl

/-- The type that is added is there. -/
theorem mem_addType (b : Builder) (name : String) :
    Descriptor.ofName name ∈ (b.addType name).types := by
  unfold addType
  dsimp only
  split
  · next h => exact h
  · exact List.mem_append_right _ List.mem_cons_self

/-- Adding types in turn brings no members of classes. -/
theorem addTypes_interns {names : List String} (hnames : ∀ name ∈ names, NulFree name) :
    Interns b (b.addTypes names) := by
  induction names generalizing b with
  | nil => exact .refl b
  | cons name rest ih =>
    have hfirst := addType_interns (b := b) (hnames name List.mem_cons_self)
    exact hfirst.trans (ih fun n hn => hnames n (List.mem_cons_of_mem name hn))

/-- Each of the types that are added is there. -/
theorem mem_addTypes {names : List String} (hnames : ∀ name ∈ names, NulFree name) {name : String}
    (h : name ∈ names) : Descriptor.ofName name ∈ (b.addTypes names).types := by
  induction names generalizing b with
  | nil => exact nomatch h
  | cons first rest ih =>
    have hrest : ∀ n ∈ rest, NulFree n := fun n hn => hnames n (List.mem_cons_of_mem first hn)
    rcases List.mem_cons.mp h with rfl | hmem
    · exact (addTypes_interns hrest).types (mem_addType b name)
    · exact ih hrest hmem

/-- Adding a prototype, with its types and its short form, brings no members of classes. -/
theorem addProto_interns {p : ProtoSpec} (hreturn : NulFree p.returnType)
    (hparameters : ∀ name ∈ p.parameters, NulFree name) : Interns b (b.addProto p) := by
  unfold addProto
  split
  · exact .refl b
  · have hstring := addString_interns (b := b) (ProtoSpec.nulFree_shorty hreturn hparameters)
    have htype := addType_interns (b := b.addString p.shorty) hreturn
    have htypes := addTypes_interns (b := (b.addString p.shorty).addType p.returnType) hparameters
    refine (hstring.trans (htype.trans htypes)).trans
      ⟨⟨List.Subset.refl _, List.Subset.refl _, List.subset_append_left _ _, rfl, ?_⟩, rfl, rfl⟩
    intro h
    refine ⟨h.strings, h.types, ?_, h.fields, ?_, ?_⟩
    · intro q hq name hname
      rcases List.mem_append.mp hq with hold | hnew
      · exact h.protos q hold name hname
      · obtain rfl := List.mem_singleton.mp hnew
        rcases List.mem_cons.mp hname with rfl | hparameter
        · exact htypes.types (mem_addType _ _)
        · exact mem_addTypes hparameters hparameter
    · intro m hm
      exact ⟨List.mem_append_left _ (h.methods m hm).1, (h.methods m hm).2⟩
    · intro q hq
      exact (h.classes q hq).mono (List.Subset.refl _) (List.Subset.refl _) List.prefix_rfl
        List.prefix_rfl

/-- The prototype that is added is there. -/
theorem mem_addProto (b : Builder) (p : ProtoSpec) : p ∈ (b.addProto p).protos := by
  unfold addProto
  split
  · next h => exact h
  · exact List.mem_append_right _ List.mem_cons_self

/-! ## Members -/

/-- Adding a field puts it after the fields that are there, and leaves the methods. -/
theorem addField_fields {owner : String} {f : FieldSpec} (hname : NulFree f.name)
    (htype : NulFree f.typeName) :
    (addField owner b f).fields = b.fields ++ [⟨owner, f.typeName, f.name⟩] ∧
      (addField owner b f).methods = b.methods := by
  have hinterns : Interns b ((b.addType f.typeName).addString f.name) :=
    (addType_interns htype).trans (addString_interns hname)
  unfold addField
  dsimp only
  rw [hinterns.fields]
  exact ⟨rfl, hinterns.methods⟩

/-- A field is added with everything that it mentions. -/
theorem addField_grows {owner : String} {f : FieldSpec} (hname : NulFree f.name)
    (htype : NulFree f.typeName) : Grows b (addField owner b f) := by
  have hadded := addType_interns (b := b) htype
  have hnamed := addString_interns (b := b.addType f.typeName) hname
  refine (hadded.trans hnamed).toGrows.trans
    ⟨List.Subset.refl _, List.Subset.refl _, List.Subset.refl _, rfl, ?_⟩
  intro h
  refine ⟨h.strings, h.types, h.protos, ?_, h.methods, ?_⟩
  · intro g hg
    rcases List.mem_append.mp hg with hold | hnew
    · exact h.fields g hold
    · rw [List.mem_singleton.mp hnew]
      exact ⟨hnamed.types (mem_addType b _), mem_addString _ _⟩
  · intro p hp
    exact (h.classes p hp).mono (List.Subset.refl _) (List.Subset.refl _) (List.prefix_append _ _)
      List.prefix_rfl

/-- The texts of a method one by one. -/
theorem nulFree_of_methodTexts {m : MethodSpec} (h : ∀ s ∈ m.texts, NulFree s) :
    NulFree m.name ∧ NulFree m.proto.returnType ∧ (∀ s ∈ m.proto.parameters, NulFree s) ∧
      ∀ s ∈ m.annotations, NulFree s := by
  unfold MethodSpec.texts at h
  refine ⟨h _ (by simp), h _ (by simp), ?_, ?_⟩
  · intro s hs
    exact h s (by simp [hs])
  · intro s hs
    exact h s (by simp [hs])

/-- What a method mentions comes to the tables before it and, of its annotations, after it. -/
theorem addMethod_grows {owner : String} {m : MethodSpec} (htexts : ∀ s ∈ m.texts, NulFree s) :
    Grows b (addMethod owner b m) ∧
      (addMethod owner b m).methods = b.methods ++ [⟨owner, m.proto, m.name⟩] ∧
      (addMethod owner b m).fields = b.fields := by
  obtain ⟨hname, hreturn, hparameters, hannotations⟩ := nulFree_of_methodTexts htexts
  have hproto := addProto_interns (b := b) hreturn hparameters
  have hnamed := addString_interns (b := b.addProto m.proto) hname
  have hpool := hproto.trans hnamed
  let b₁ := (b.addProto m.proto).addString m.name
  let b₂ : Builder := { b₁ with methods := b₁.methods ++ [⟨owner, m.proto, m.name⟩] }
  have hplaced : Grows b₁ b₂ := by
    refine ⟨List.Subset.refl _, List.Subset.refl _, List.Subset.refl _, rfl, ?_⟩
    intro h
    refine ⟨h.strings, h.types, h.protos, h.fields, ?_, ?_⟩
    · intro n hn
      rcases List.mem_append.mp hn with hold | hnew
      · exact h.methods n hold
      · rw [List.mem_singleton.mp hnew]
        exact ⟨hnamed.protos (mem_addProto b _), mem_addString _ _⟩
    · intro p hp
      exact (h.classes p hp).mono (List.Subset.refl _) (List.Subset.refl _) List.prefix_rfl
        (List.prefix_append _ _)
  have htypes := addTypes_interns (b := b₂) hannotations
  change Grows b (b₂.addTypes m.annotations) ∧ (b₂.addTypes m.annotations).methods = _ ∧
    (b₂.addTypes m.annotations).fields = _
  refine ⟨hpool.toGrows.trans (hplaced.trans htypes.toGrows), ?_, ?_⟩
  · rw [htypes.methods]
    exact congrArg (· ++ [_]) hpool.methods
  · rw [htypes.fields]
    exact hpool.fields

/-- With a method the types of its annotations are added. -/
theorem mem_addMethod {owner : String} {m : MethodSpec} (htexts : ∀ s ∈ m.texts, NulFree s)
    {name : String} (hname : name ∈ m.annotations) :
    Descriptor.ofName name ∈ (addMethod owner b m).types :=
  mem_addTypes (nulFree_of_methodTexts htexts).2.2.2 hname

/-- All fields of a class get indices one after the other. -/
theorem addFields_grows {owner : String} {fields : List FieldSpec}
    (h : ∀ f ∈ fields, NulFree f.name ∧ NulFree f.typeName) :
    Grows b (fields.foldl (addField owner) b) ∧
      (fields.foldl (addField owner) b).fields =
        b.fields ++ fields.map (fun f => ⟨owner, f.typeName, f.name⟩) ∧
      (fields.foldl (addField owner) b).methods = b.methods := by
  induction fields generalizing b with
  | nil => exact ⟨.refl b, (List.append_nil _).symm, rfl⟩
  | cons f rest ih =>
    obtain ⟨hname, htype⟩ := h f List.mem_cons_self
    obtain ⟨hfields, hmethods⟩ := @addField_fields b owner f hname htype
    obtain ⟨hgrows, hrestFields, hrestMethods⟩ :=
      ih (b := addField owner b f) fun g hg => h g (List.mem_cons_of_mem f hg)
    refine ⟨(addField_grows hname htype).trans hgrows, ?_, hrestMethods.trans hmethods⟩
    rw [List.foldl_cons, hrestFields, hfields, List.append_assoc]
    rfl

/-- All methods of a class get indices one after the other. -/
theorem addMethods_grows {owner : String} {methods : List MethodSpec}
    (h : ∀ m ∈ methods, ∀ s ∈ m.texts, NulFree s) :
    Grows b (methods.foldl (addMethod owner) b) ∧
      (methods.foldl (addMethod owner) b).methods =
        b.methods ++ methods.map (fun m => ⟨owner, m.proto, m.name⟩) ∧
      (methods.foldl (addMethod owner) b).fields = b.fields ∧
      ∀ m ∈ methods, ∀ name ∈ m.annotations,
        Descriptor.ofName name ∈ (methods.foldl (addMethod owner) b).types := by
  induction methods generalizing b with
  | nil => exact ⟨.refl b, (List.append_nil _).symm, rfl, fun m hm => nomatch hm⟩
  | cons m rest ih =>
    have htexts := h m List.mem_cons_self
    obtain ⟨hfirst, hmethods, hfields⟩ := @addMethod_grows b owner m htexts
    obtain ⟨hgrows, hrestMethods, hrestFields, hrestTypes⟩ :=
      ih (b := addMethod owner b m) fun n hn => h n (List.mem_cons_of_mem m hn)
    refine ⟨hfirst.trans hgrows, ?_, hrestFields.trans hfields, ?_⟩
    · rw [List.foldl_cons, hrestMethods, hmethods, List.append_assoc]
      rfl
    · intro n hn name hname
      rcases List.mem_cons.mp hn with rfl | hmem
      · exact hgrows.types (mem_addMethod htexts hname)
      · exact hrestTypes n hmem name hname

/-! ## Classes -/

/-- The texts of a class one by one. -/
theorem nulFree_of_classTexts {c : ClassSpec} (h : ∀ s ∈ c.texts, NulFree s) :
    (∀ name ∈ c.name :: (c.superclass?.toList ++ c.interfaces) ++ c.annotations, NulFree name) ∧
      (∀ s ∈ c.sourceFile?, NulFree s) ∧
      (∀ f ∈ c.fields, NulFree f.name ∧ NulFree f.typeName) ∧
      ∀ m ∈ c.methods, ∀ s ∈ m.texts, NulFree s := by
  simp only [ClassSpec.texts, List.mem_cons, List.mem_append, List.mem_flatMap] at h
  refine ⟨?_, ?_, ?_, ?_⟩
  · intro name hname
    apply h
    rcases List.mem_append.mp hname with hheading | hannotation
    · rcases List.mem_cons.mp hheading with rfl | hmore
      · exact Or.inl rfl
      · rcases List.mem_append.mp hmore with hsuper | hinterface
        · have hpresent : c.superclass? = some name := Option.mem_toList.mp hsuper
          have hsome := (Option.filter_eq_some_iff.mp hpresent).1
          exact Or.inr (Or.inl (Option.mem_toList.mpr hsome))
        · exact Or.inr (Or.inr (Or.inl hinterface))
    · exact Or.inr (Or.inr (Or.inr (Or.inr (Or.inl hannotation))))
  · intro s hs
    have hsome := (Option.filter_eq_some_iff.mp hs).1
    exact h s (Or.inr (Or.inr (Or.inr (Or.inl (Option.mem_toList.mpr hsome)))))
  · intro f hf
    refine ⟨h _ ?_, h _ ?_⟩
    · exact Or.inr (Or.inr (Or.inr (Or.inr (Or.inr (Or.inl ⟨f, hf, by simp⟩)))))
    · exact Or.inr (Or.inr (Or.inr (Or.inr (Or.inr (Or.inl ⟨f, hf, by simp⟩)))))
  · intro m hm s hs
    exact h s (Or.inr (Or.inr (Or.inr (Or.inr (Or.inr (Or.inr ⟨m, hm, hs⟩))))))

/-- What a class mentions besides its members comes to the tables. -/
theorem addHeading_interns {c : ClassSpec} (h : ∀ s ∈ c.texts, NulFree s) :
    Interns b (b.addHeading c) ∧
      (∀ name ∈ c.name :: (c.superclass?.toList ++ c.interfaces) ++ c.annotations,
        Descriptor.ofName name ∈ (b.addHeading c).types) ∧
      ∀ s ∈ c.sourceFile?, s ∈ (b.addHeading c).strings := by
  obtain ⟨hnames, hsource, -, -⟩ := nulFree_of_classTexts h
  have hname : NulFree c.name := hnames _ (List.mem_append_left _ List.mem_cons_self)
  have hmore : ∀ n ∈ c.superclass?.toList ++ c.interfaces, NulFree n := fun n hn =>
    hnames n (List.mem_append_left _ (List.mem_cons_of_mem _ hn))
  have hannotations : ∀ n ∈ c.annotations, NulFree n := fun n hn =>
    hnames n (List.mem_append_right _ hn)
  let b₁ := (b.addType c.name).addTypes (c.superclass?.toList ++ c.interfaces)
  let b₂ := c.sourceFile?.toList.foldl addString b₁
  have hfirst : Interns b (b.addType c.name) := addType_interns hname
  have hsecond : Interns (b.addType c.name) b₁ := addTypes_interns hmore
  have hthird : Interns b₁ b₂ ∧ ∀ s ∈ c.sourceFile?, s ∈ b₂.strings := by
    change Interns b₁ (c.sourceFile?.toList.foldl addString b₁) ∧
      ∀ s ∈ c.sourceFile?, s ∈ (c.sourceFile?.toList.foldl addString b₁).strings
    cases hfile : c.sourceFile? with
    | none => exact ⟨.refl b₁, fun s hs => nomatch hs⟩
    | some file =>
      refine ⟨addString_interns (hsource file hfile), ?_⟩
      intro s hs
      obtain rfl := Option.some.inj hs
      exact mem_addString b₁ file
  have hfourth : Interns b₂ (b₂.addTypes c.annotations) := addTypes_interns hannotations
  change Interns b (b₂.addTypes c.annotations) ∧
    (∀ name ∈ _, _ ∈ (b₂.addTypes c.annotations).types) ∧
    ∀ s ∈ c.sourceFile?, s ∈ (b₂.addTypes c.annotations).strings
  refine ⟨hfirst.trans (hsecond.trans (hthird.1.trans hfourth)), ?_, ?_⟩
  · intro name hmem
    rcases List.mem_append.mp hmem with hheading | hannotation
    · apply hfourth.types
      apply hthird.1.types
      rcases List.mem_cons.mp hheading with rfl | hin
      · exact hsecond.types (mem_addType b _)
      · exact mem_addTypes hmore hin
    · exact mem_addTypes hannotations hannotation
  · intro s hs
    exact hfourth.strings (hthird.2 s hs)

/-- A class is added to a closed builder. -/
theorem closed_addClass {c : ClassSpec} (hb : b.Closed) (h : ∀ s ∈ c.texts, NulFree s) :
    (b.addClass c).Closed ∧
      (b.addClass c).classes.map PlacedClass.spec = b.classes.map PlacedClass.spec ++ [c] := by
  obtain ⟨-, -, hfieldTexts, hmethodTexts⟩ := nulFree_of_classTexts h
  obtain ⟨hheading, htypes, hsource⟩ := addHeading_interns (b := b) h
  let b₁ := b.addHeading c
  let b₂ := c.fields.foldl (addField c.name) b₁
  let b₃ := c.methods.foldl (addMethod c.name) b₂
  obtain ⟨hgrows₂, hfields₂, hmethods₂⟩ : Grows b₁ b₂ ∧ b₂.fields = _ ∧ b₂.methods = b₁.methods :=
    addFields_grows hfieldTexts
  obtain ⟨hgrows₃, hmethods₃, hfields₃, hannotations⟩ :
      Grows b₂ b₃ ∧ b₃.methods = _ ∧ b₃.fields = b₂.fields ∧
        ∀ m ∈ c.methods, ∀ name ∈ m.annotations, _ ∈ b₃.types :=
    addMethods_grows hmethodTexts
  have hclosed : b₃.Closed := hgrows₃.closed (hgrows₂.closed (hheading.closed hb))
  have hclasses : b₃.classes = b.classes :=
    hgrows₃.classes.trans (hgrows₂.classes.trans hheading.classes)
  have hcovers : b₃.Covers ⟨c, b₁.fields.length, b₁.methods.length⟩ := by
    refine ⟨?_, hannotations, ?_, ?_, ?_⟩
    · intro name hname
      exact hgrows₃.types (hgrows₂.types (htypes name hname))
    · intro s hs
      exact hgrows₃.strings (hgrows₂.strings (hsource s hs))
    · intro i f hf
      rw [hfields₃, hfields₂, List.getElem?_append_right (Nat.le_add_right _ _),
        Nat.add_sub_cancel_left, List.getElem?_map, hf]
      rfl
    · intro i m hm
      rw [hmethods₃, hmethods₂, List.getElem?_append_right (Nat.le_add_right _ _),
        Nat.add_sub_cancel_left, List.getElem?_map, hm]
      rfl
  refine ⟨⟨hclosed.strings, hclosed.types, hclosed.protos, hclosed.fields, hclosed.methods, ?_⟩, ?_⟩
  · intro p hp
    rcases List.mem_append.mp hp with hold | hnew
    · exact (hclosed.classes p hold).mono (List.Subset.refl _) (List.Subset.refl _)
        List.prefix_rfl List.prefix_rfl
    · rw [List.mem_singleton.mp hnew]
      exact hcovers.mono (List.Subset.refl _) (List.Subset.refl _) List.prefix_rfl List.prefix_rfl
  · change (b₃.classes ++ [_]).map PlacedClass.spec = _
    rw [hclasses, List.map_append]
    rfl

/-- The builder of classes is closed, and it has them in their order. -/
theorem closed_ofClasses {specs : List ClassSpec}
    (h : ∀ c ∈ specs, ∀ s ∈ c.texts, NulFree s) :
    (ofClasses specs).Closed ∧ (ofClasses specs).classes.map PlacedClass.spec = specs := by
  have hempty : empty.Closed := by
    refine ⟨?_, ?_, ?_, ?_, ?_, ?_⟩ <;> exact fun _ hmem => nomatch hmem
  have hloop : ∀ (specs : List ClassSpec) (b : Builder), b.Closed →
      (∀ c ∈ specs, ∀ s ∈ c.texts, NulFree s) →
        (specs.foldl addClass b).Closed ∧
          (specs.foldl addClass b).classes.map PlacedClass.spec =
            b.classes.map PlacedClass.spec ++ specs := by
    intro specs
    induction specs with
    | nil => exact fun b hb _ => ⟨hb, (List.append_nil _).symm⟩
    | cons c rest ih =>
      intro b hb h
      obtain ⟨hfirst, hclasses⟩ := closed_addClass hb (h c List.mem_cons_self)
      obtain ⟨hrest, hrestClasses⟩ :=
        ih (b.addClass c) hfirst fun x hx => h x (List.mem_cons_of_mem c hx)
      refine ⟨hrest, ?_⟩
      rw [List.foldl_cons, hrestClasses, hclasses, List.append_assoc]
      rfl
  exact hloop specs empty hempty h

end Builder

end Assembly

end DexListing
