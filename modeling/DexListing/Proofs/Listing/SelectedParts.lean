import DexListing.Proofs.Listing.PlainReading

/-!
# What a selection lets through

A listing shows nothing of a class that is not selected: two classes that agree in the parts that a
selection lets through have the same text (`Writer.render_selected`). What these parts are depends
on the writer: see `Plain.Agree` and `JavaSource.Agree`. Annotations and instructions of methods
belong to methods, so where methods are not selected neither of them matters.
-/

set_option autoImplicit false

namespace DexListing

/-! ## Classes that agree in what is selected -/

/-- Methods that agree in what a selection of methods lets through. -/
structure MethodsAgree (s : Selection) (m n : MethodInfo) : Prop where
  name : m.name = n.name
  returnType : m.returnType = n.returnType
  parameters : m.parameters = n.parameters
  flags : AccessFlags.AgreeOn Plain.methodFlags m.accessFlags n.accessFlags
  annotations : s.shows .methodAnnotations = true → m.annotations = n.annotations
  registers : s.shows .opcodes = true → m.registers = n.registers
  code : s.shows .opcodes = true → m.code = n.code

/-- Classes that agree in what a plain listing lets through. -/
structure Plain.Agree (s : Selection) (c d : ClassInfo) : Prop where
  annotations : s.shows .classAnnotations = true → c.annotations = d.annotations
  name : s.shows .className = true → c.name = d.name
  flags : s.shows .className = true →
    AccessFlags.AgreeOn Plain.classFlags c.accessFlags d.accessFlags
  superclass : s.shows .classDetails = true → c.superclass = d.superclass
  interfaces : s.shows .classDetails = true → c.interfaces = d.interfaces
  sourceFile : s.shows .classDetails = true → c.sourceFile = d.sourceFile
  fields : s.shows .fields = true → List.Forall₂ Plain.SameField c.fields d.fields
  methods : s.shows .methods = true → List.Forall₂ (MethodsAgree s) c.methods d.methods

namespace JavaSource

/-- The flags that the Java listing shows of a class. -/
def classFlags : List AccessFlag := .isAnnotationType :: Plain.classFlags

/-- The flags that the Java listing shows of a field. -/
def fieldFlags : List AccessFlag := fieldKeywords.map Prod.fst

/-- Fields that the Java listing shows alike. -/
structure SameField (f g : FieldInfo) : Prop where
  name : f.name = g.name
  typeName : f.typeName = g.typeName
  flags : AccessFlags.AgreeOn fieldFlags f.accessFlags g.accessFlags

/-- Methods that agree in what the Java listing lets through: whether there is code can be seen even
where it is not selected. -/
structure MethodsMatch (s : Selection) (m n : MethodInfo) : Prop extends MethodsAgree s m n where
  hasCode : m.code = [] ↔ n.code = []

/-- Classes that agree in what a Java listing lets through. Of the name of a class the package is
one of the details, and the rest is in its head and in those of its constructors. What a class
extends stands in the head too. -/
structure Agree (s : Selection) (c d : ClassInfo) : Prop where
  annotations : s.shows .classAnnotations = true → c.annotations = d.annotations
  package : s.shows .classDetails = true → c.package = d.package
  simpleName : s.shows .className = true ∨ s.shows .methods = true → c.simpleName = d.simpleName
  flags : s.shows .className = true → AccessFlags.AgreeOn classFlags c.accessFlags d.accessFlags
  superclass : s.shows .classDetails = true → s.shows .className = true →
    c.superclass = d.superclass
  interfaces : s.shows .classDetails = true → s.shows .className = true →
    c.interfaces = d.interfaces
  fields : s.shows .fields = true → List.Forall₂ SameField c.fields d.fields
  methods : s.shows .methods = true → List.Forall₂ (MethodsMatch s) c.methods d.methods

end JavaSource

/-- Classes that agree in what a listing lets through. -/
def Writer.Agree : Writer → Selection → ClassInfo → ClassInfo → Prop
  | plain => Plain.Agree
  | java => JavaSource.Agree

/-! ## Congruence -/

/-- Lists that are related one by one have the same images under functions that do not tell related
elements apart. -/
theorem map_eq_of_forall₂ {α β : Type} {R : α → α → Prop} {f g : α → β} {xs ys : List α}
    (h : List.Forall₂ R xs ys) (hfg : ∀ x y, R x y → f x = g y) : xs.map f = ys.map g := by
  induction h with
  | nil => rfl
  | cons hxy _ ih => rw [List.map_cons, List.map_cons, hfg _ _ hxy, ih]

/-- Rows of items are the same if they are the same for each of two items that belong together. -/
theorem flatMap_eq_of_forall₂ {α β : Type} {R : α → α → Prop} {f g : α → List β} {xs ys : List α}
    (h : List.Forall₂ R xs ys) (hfg : ∀ x y, R x y → f x = g y) :
    xs.flatMap f = ys.flatMap g := by
  rw [List.flatMap_def, List.flatMap_def, map_eq_of_forall₂ h hfg]

namespace Plain

variable {s t : Selection} {c d : ClassInfo} {m n : MethodInfo}

/-- The line of a class depends on its name and on the flags that have a keyword. -/
theorem classLine_congr (hname : c.name = d.name)
    (hflags : AccessFlags.AgreeOn classFlags c.accessFlags d.accessFlags) :
    classLine c = classLine d := by
  unfold classLine
  rw [hname, classWords_eq_iff.mpr hflags]

/-- Fields that say the same have the same line. -/
theorem fieldLine_congr {f g : FieldInfo} (h : SameField f g) : fieldLine f = fieldLine g := by
  rw [fieldLine_eq, fieldLine_eq, h.name, h.typeName, fieldWords_eq_iff.mpr h.flags]

/-- Methods that agree in the selected parts have the same lines. -/
theorem methodLines_congr (h : MethodsAgree s m n) : methodLines s m = methodLines s n := by
  have hline : methodLine m = methodLine n := by
    unfold methodLine
    rw [h.name, h.returnType, h.parameters, methodWords_eq_iff.mpr h.flags]
  have hannotations : s.showing .methodAnnotations (annotationLines m.annotations) =
      s.showing .methodAnnotations (annotationLines n.annotations) :=
    Selection.showing_congr fun hpart => by rw [h.annotations hpart]
  have hcode : s.showing .opcodes (codeLines m) = s.showing .opcodes (codeLines n) := by
    refine Selection.showing_congr fun hpart => ?_
    unfold codeLines
    rw [h.code hpart, h.registers hpart]
  unfold methodLines
  rw [hline, hannotations, hcode]

/-- Classes that agree in the selected parts have the same lines. -/
theorem lines_congr (h : Agree s c d) : lines s c = lines s d := by
  have hannotations : s.showing .classAnnotations (annotationLines c.annotations) =
      s.showing .classAnnotations (annotationLines d.annotations) :=
    Selection.showing_congr fun hpart => by rw [h.annotations hpart]
  have hclass : s.showing .className [classLine c] = s.showing .className [classLine d] :=
    Selection.showing_congr fun hpart => by rw [classLine_congr (h.name hpart) (h.flags hpart)]
  have hdetails : s.showing .classDetails (detailLines c) =
      s.showing .classDetails (detailLines d) := by
    refine Selection.showing_congr fun hpart => ?_
    unfold detailLines
    rw [h.superclass hpart, h.interfaces hpart, h.sourceFile hpart]
  have hfields : s.showing .fields (c.fields.map fieldLine) =
      s.showing .fields (d.fields.map fieldLine) :=
    Selection.showing_congr fun hpart =>
      map_eq_of_forall₂ (h.fields hpart) fun _ _ => fieldLine_congr
  have hmethods : s.showing .methods (c.methods.flatMap (methodLines s)) =
      s.showing .methods (d.methods.flatMap (methodLines s)) :=
    Selection.showing_congr fun hpart =>
      flatMap_eq_of_forall₂ (h.methods hpart) fun _ _ => methodLines_congr
  unfold lines
  rw [hannotations, hclass, hdetails, hfields, hmethods]

/-- Without methods their parts do not matter. -/
theorem lines_of_no_methods (hmethods : s.shows .methods = false)
    (h : ∀ part, part ≠ .methodAnnotations → part ≠ .opcodes → t.shows part = s.shows part) :
    lines t c = lines s c := by
  have hhidden : t.shows .methods = false := (h .methods nofun nofun).trans hmethods
  unfold lines
  rw [Selection.showing_of_hidden hmethods, Selection.showing_of_hidden hhidden,
    Selection.showing_eq (h .classAnnotations nofun nofun),
    Selection.showing_eq (h .className nofun nofun),
    Selection.showing_eq (h .classDetails nofun nofun),
    Selection.showing_eq (h .fields nofun nofun)]

end Plain

namespace JavaSource

variable {s t : Selection} {c d : ClassInfo} {m n : MethodInfo}

/-- The kind of a class depends on the flags that have a keyword. -/
theorem Kind.ofFlags_congr {a b : AccessFlags} (h : AccessFlags.AgreeOn classFlags a b) :
    Kind.ofFlags a = Kind.ofFlags b := by
  unfold Kind.ofFlags
  rw [h .isAnnotationType (by decide), h .isInterface (by decide), h .isEnum (by decide)]

/-- The modifiers of a class depend on the flags that have a keyword. -/
theorem modifiers_congr {a b : AccessFlags} (h : AccessFlags.AgreeOn classFlags a b)
    (kind : Kind) : modifiers kind a = modifiers kind b := by
  have hwords : a.keywords classKeywords = b.keywords classKeywords :=
    (AccessFlags.keywords_eq_iff (by decide)).mpr fun flag hflag =>
      h flag ((show classKeywords.map Prod.fst ⊆ classFlags by decide) hflag)
  unfold modifiers
  rw [hwords]

/-- Classes that agree have the same declaration, if it is shown. -/
theorem declaration_congr (h : Agree s c d) (hpart : s.shows .className = true) :
    declaration s c = declaration s d := by
  have hkind := Kind.ofFlags_congr (h.flags hpart)
  unfold declaration
  dsimp only
  rw [hkind, modifiers_congr (h.flags hpart), h.simpleName (.inl hpart)]
  cases hdetails : s.shows .classDetails with
  | false => rfl
  | true =>
    unfold extended implemented
    rw [h.superclass hdetails hpart, h.interfaces hdetails hpart]

/-- Fields that say the same have the same declaration. -/
theorem fieldLine_congr {f g : FieldInfo} (h : SameField f g) (indent : String) :
    fieldLine indent f = fieldLine indent g := by
  have hwords : f.accessFlags.keywords fieldKeywords = g.accessFlags.keywords fieldKeywords :=
    (AccessFlags.keywords_eq_iff (by decide)).mpr h.flags
  unfold fieldLine
  rw [h.name, h.typeName, hwords]

/-- Methods that agree in the selected parts have the same lines in classes of the same simple
name. -/
theorem methodLines_congr (h : MethodsMatch s m n) (hname : c.simpleName = d.simpleName)
    (indent : String) : methodLines s indent c m = methodLines s indent d n := by
  have hhead : methodHead c m = methodHead d n := by
    unfold methodHead
    rw [h.name, h.returnType, h.parameters, hname, Plain.methodWords_eq_iff.mpr h.flags]
  have hannotations : s.showing .methodAnnotations (m.annotations.map fun name =>
      indent ++ "@" ++ name) =
        s.showing .methodAnnotations (n.annotations.map fun name => indent ++ "@" ++ name) :=
    Selection.showing_congr fun hpart => by rw [h.annotations hpart]
  have hcode : s.showing .opcodes (codeLines indent m) =
      s.showing .opcodes (codeLines indent n) := by
    refine Selection.showing_congr fun hpart => ?_
    unfold codeLines
    rw [h.code hpart, h.registers hpart]
  have hbody : ∀ head, bodyLines s indent head m = bodyLines s indent head n := by
    intro head
    unfold bodyLines
    rw [hcode]
  have hdeclaration : declarationLines s indent c m = declarationLines s indent d n := by
    unfold declarationLines
    rw [h.name, hbody, hbody, hhead]
    simp only [h.hasCode]
  unfold methodLines
  rw [hannotations, hdeclaration]

/-- Classes that agree in the selected parts have the same lines of source. -/
theorem lines_congr (h : Agree s c d) : lines s c = lines s d := by
  have hpackage : s.showing .classDetails (packageLines c) =
      s.showing .classDetails (packageLines d) := by
    refine Selection.showing_congr fun hpart => ?_
    unfold packageLines
    rw [h.package hpart]
  have hannotations : s.showing .classAnnotations (c.annotations.map ("@" ++ ·)) =
      s.showing .classAnnotations (d.annotations.map ("@" ++ ·)) :=
    Selection.showing_congr fun hpart => by rw [h.annotations hpart]
  have hhead : s.showing .className [declaration s c ++ " \x7b"] =
      s.showing .className [declaration s d ++ " \x7b"] :=
    Selection.showing_congr fun hpart => by rw [declaration_congr h hpart]
  have hfields : ∀ indent, s.showing .fields (c.fields.map (fieldLine indent)) =
      s.showing .fields (d.fields.map (fieldLine indent)) :=
    fun indent => Selection.showing_congr fun hpart =>
      map_eq_of_forall₂ (h.fields hpart) fun _ _ hsame => fieldLine_congr hsame indent
  have hmethods : ∀ indent, s.showing .methods (c.methods.flatMap (methodLines s indent c)) =
      s.showing .methods (d.methods.flatMap (methodLines s indent d)) :=
    fun indent => Selection.showing_congr fun hpart =>
      flatMap_eq_of_forall₂ (h.methods hpart) fun _ _ hmatch =>
        methodLines_congr hmatch (h.simpleName (.inr hpart)) indent
  unfold lines
  dsimp only
  rw [hpackage, hannotations, hhead, hfields, hmethods]

/-- Without methods their parts do not matter. -/
theorem lines_of_no_methods (hmethods : s.shows .methods = false)
    (h : ∀ part, part ≠ .methodAnnotations → part ≠ .opcodes → t.shows part = s.shows part) :
    lines t c = lines s c := by
  have hhidden : t.shows .methods = false := (h .methods nofun nofun).trans hmethods
  have hdetails := h .classDetails nofun nofun
  have hname := h .className nofun nofun
  have hdeclaration : declaration t c = declaration s c := by
    unfold declaration
    rw [hdetails]
  unfold lines
  dsimp only
  rw [hdeclaration, Selection.showing_of_hidden hmethods, Selection.showing_of_hidden hhidden,
    Selection.showing_eq hdetails, Selection.showing_eq (h .classAnnotations nofun nofun),
    Selection.showing_eq hname, Selection.showing_eq hname,
    Selection.showing_eq (h .fields nofun nofun), hname]

end JavaSource

/-- A writer shows nothing that is not selected: classes that agree in what the selection lets
through have the same text, and where methods are not selected the text of a class does not depend
on whether their annotations or their instructions are. -/
theorem Writer.render_selected (w : Writer) (s : Selection) :
    (∀ c d, w.Agree s c d → w.render s c = w.render s d) ∧
      (s.shows .methods = false → ∀ t : Selection,
        (∀ part, part ≠ .methodAnnotations → part ≠ .opcodes → t.shows part = s.shows part) →
          ∀ c, w.render t c = w.render s c) := by
  unfold render
  cases w with
  | plain =>
    exact ⟨fun c d h => congrArg Text.unlines (Plain.lines_congr h),
      fun hmethods t h c => congrArg Text.unlines (Plain.lines_of_no_methods hmethods h)⟩
  | java =>
    exact ⟨fun c d h => congrArg Text.unlines (JavaSource.lines_congr h),
      fun hmethods t h c => congrArg Text.unlines (JavaSource.lines_of_no_methods hmethods h)⟩

/-- A class with a field and a constructor. -/
def counter : ClassInfo where
  name := "app.Counter"
  accessFlags := 0x11
  superclass := some "app.Base"
  interfaces := ["java.lang.Runnable"]
  sourceFile := some "Counter.java"
  annotations := ["Deprecated"]
  fields := [⟨"count", "int", 0x2, ["NonNull"]⟩]
  methods := [⟨"<init>", "void", ["int"], 0x1, ["Inject"], 2, [0x70, 0xe]⟩]

/-- A class of the same simple name, with the same members but for their annotations, a synthetic
flag and other instructions. -/
def otherCounter : ClassInfo where
  name := "lib.Counter"
  accessFlags := 0x401
  superclass := none
  interfaces := []
  sourceFile := none
  annotations := []
  fields := [⟨"count", "int", 0x1002, []⟩]
  methods := [⟨"<init>", "void", ["int"], 0x1, [], 1, [0xe]⟩]

/-- Two counters that agree in their members have the same source with only members shown; and where
methods are not shown, selecting their code changes nothing. -/
theorem Writer.render_selected_counter :
    let members := Selection.ofList [.fields, .methods]
    let fields := Selection.ofList [.fields]
    Writer.java.Agree members counter otherCounter ∧
      Writer.java.render members counter = Writer.java.render members otherCounter ∧
      fields.shows .methods = false ∧
      Writer.plain.render (Selection.ofList [.fields, .opcodes]) counter =
        Writer.plain.render fields counter := by
  intro members fields
  have hagree : Writer.java.Agree members counter otherCounter := by
    refine ⟨nofun, nofun, fun _ => by decide, nofun, nofun, nofun, fun _ => ?_, fun _ => ?_⟩
    · exact .cons ⟨rfl, rfl, by unfold AccessFlags.AgreeOn; decide⟩ .nil
    · exact .cons ⟨⟨rfl, rfl, rfl, fun _ _ => rfl, nofun, nofun, nofun⟩, by decide⟩ .nil
  have hfields : ∀ part : DisplayOption, part ≠ .methodAnnotations → part ≠ .opcodes →
      (Selection.ofList [.fields, .opcodes]).shows part = fields.shows part := by
    intro part _ hopcodes
    cases part with
    | opcodes => exact absurd rfl hopcodes
    | _ => rfl
  exact ⟨hagree, (Writer.render_selected .java members).1 _ _ hagree, rfl,
    (Writer.render_selected .plain fields).2 rfl _ hfields counter⟩

end DexListing
