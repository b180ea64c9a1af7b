import DexListing.Listing.Writer
import DexListing.Proofs.Text.Joining
import Mathlib.Data.List.Flatten

/-!
# The lines of plain listings

Each line of a plain listing is an entry of the class (`Plain.Entry`), which alone decides what the
line says and which parts have to be selected for it. So what a selection shows are those of the
entries of the class whose parts it has (`Plain.lines_eq_shown`), and more parts only add lines
(`Plain.lines_sublist`).
-/

set_option autoImplicit false

namespace DexListing

namespace Plain

/-- What a line is about. -/
inductive Entry
  | annotationOfClass (name : String)
  | classHead (c : ClassInfo)
  | superclass (name : String)
  | interfaceName (name : String)
  | sourceFile (name : String)
  | field (f : FieldInfo)
  | methodGap
  | annotationOfMethod (name : String)
  | methodHead (m : MethodInfo)
  | registers (count : Nat)
  | codeLine (line : String)
  | methodEnd
  | classEnd
  deriving DecidableEq, Repr

namespace Entry

/-- The line of an entry. -/
def text : Entry → String
  | annotationOfClass name => "@" ++ name
  | classHead c => classLine c
  | superclass name => ".super " ++ name
  | interfaceName name => ".implements " ++ name
  | sourceFile name => ".source \"" ++ name ++ "\""
  | field f => fieldLine f
  | methodGap => ""
  | annotationOfMethod name => "@" ++ name
  | methodHead m => methodLine m
  | registers count => "    .registers " ++ toString count
  | codeLine line => "    " ++ line
  | methodEnd => ".end method"
  | classEnd => ""

/-- The parts that have to be selected for an entry: what belongs to a method is shown only with the
method. -/
def needs : Entry → List DisplayOption
  | annotationOfClass _ => [.classAnnotations]
  | classHead _ => [.className]
  | superclass _ | interfaceName _ | sourceFile _ => [.classDetails]
  | field _ => [.fields]
  | methodGap | methodHead _ | methodEnd => [.methods]
  | annotationOfMethod _ => [.methods, .methodAnnotations]
  | registers _ | codeLine _ => [.methods, .opcodes]
  | classEnd => []

/-- The selection shows the entry. -/
def isShown (s : Selection) (e : Entry) : Bool :=
  e.needs.all s.shows

/-- The member that an entry introduces. -/
def member? : Entry → Option (FieldInfo ⊕ MethodInfo)
  | field f => some (.inl f)
  | methodHead m => some (.inr m)
  | _ => none

end Entry

/-- The entry of a text that may be missing; an empty one counts as missing. -/
def optionalEntry (text : Option String) (entry : String → Entry) : List Entry :=
  match text with
  | none => []
  | some t => if t = "" then [] else [entry t]

/-- The entries of superclass, interfaces and source file. -/
def detailEntries (c : ClassInfo) : List Entry :=
  optionalEntry c.superclass .superclass ++ c.interfaces.map .interfaceName ++
    optionalEntry c.sourceFile .sourceFile

/-- The entries of the instructions of a method that has any. -/
def codeEntries (m : MethodInfo) : List Entry :=
  if m.code = [] then [] else .registers m.registers :: (CodeDump.lines m.code).map .codeLine

/-- All entries of a method. -/
def methodEntries (m : MethodInfo) : List Entry :=
  .methodGap :: m.annotations.map .annotationOfMethod ++ [.methodHead m] ++ codeEntries m ++
    [.methodEnd]

/-- All entries of a class. -/
def entries (c : ClassInfo) : List Entry :=
  c.annotations.map .annotationOfClass ++ [.classHead c] ++ detailEntries c ++
    c.fields.map .field ++ c.methods.flatMap methodEntries ++ [.classEnd]

/-- The entries that a selection shows. -/
def shown (s : Selection) (c : ClassInfo) : List Entry :=
  (entries c).filter (·.isShown s)

/-! ## What is shown of the sections of a listing -/

section Sections

variable {s : Selection} {es : List Entry} {parts : List DisplayOption}

/-- Entries that need the same parts are shown all or none. -/
theorem filter_isShown (hes : ∀ e ∈ es, e.needs = parts) :
    es.filter (·.isShown s) = if parts.all s.shows then es else [] := by
  have hshown : ∀ e ∈ es, e.isShown s = parts.all s.shows :=
    fun e he => congrArg (·.all s.shows) (hes e he)
  rw [List.filter_congr hshown]
  cases parts.all s.shows <;> simp

/-- A line that may be left out needs what it needs where it is there. -/
theorem needs_optionalEntry {text : Option String} {entry : String → Entry}
    (hentry : ∀ t, (entry t).needs = parts) : ∀ e ∈ optionalEntry text entry, e.needs = parts := by
  intro e he
  unfold optionalEntry at he
  split at he
  · exact absurd he List.not_mem_nil
  · split at he
    · exact absurd he List.not_mem_nil
    · rw [List.mem_singleton.mp he]
      exact hentry _

/-- The details of a class need this one part. -/
theorem needs_detailEntries (c : ClassInfo) :
    ∀ e ∈ detailEntries c, e.needs = [.classDetails] := by
  simp only [detailEntries, List.forall_mem_append, List.forall_mem_map]
  exact ⟨⟨needs_optionalEntry fun _ => rfl, fun _ _ => rfl⟩, needs_optionalEntry fun _ => rfl⟩

/-- The code of a method needs methods and code to be shown. -/
theorem needs_codeEntries (m : MethodInfo) :
    ∀ e ∈ codeEntries m, e.needs = [.methods, .opcodes] := by
  intro e he
  unfold codeEntries at he
  split at he
  · exact nomatch he
  · rcases List.mem_cons.mp he with rfl | he
    · rfl
    · obtain ⟨line, -, rfl⟩ := List.mem_map.mp he
      rfl

end Sections

/-- What is shown of a method where methods are shown. -/
def shownMethodEntries (s : Selection) (m : MethodInfo) : List Entry :=
  .methodGap ::
      (if s.shows .methodAnnotations then m.annotations.map .annotationOfMethod else []) ++
    [.methodHead m] ++ (if s.shows .opcodes then codeEntries m else []) ++ [.methodEnd]

/-- Of the lines of a method those are shown that are left if methods are shown. -/
theorem filter_methodEntries (s : Selection) (m : MethodInfo) :
    (methodEntries m).filter (·.isShown s) =
      if s.shows .methods then shownMethodEntries s m else [] := by
  have hgap : ∀ e ∈ [Entry.methodGap], e.needs = [.methods] := by simp [Entry.needs]
  have hannotations : ∀ e ∈ m.annotations.map Entry.annotationOfMethod,
      e.needs = [.methods, .methodAnnotations] := by simp [Entry.needs]
  have hhead : ∀ e ∈ [Entry.methodHead m], e.needs = [.methods] := by simp [Entry.needs]
  have hend : ∀ e ∈ [Entry.methodEnd], e.needs = [.methods] := by simp [Entry.needs]
  unfold methodEntries shownMethodEntries
  rw [← List.singleton_append, List.filter_append, List.filter_append, List.filter_append,
    List.filter_append, filter_isShown hgap, filter_isShown hannotations, filter_isShown hhead,
    filter_isShown (needs_codeEntries m), filter_isShown hend]
  cases h : s.shows .methods <;> simp [h]

/-- What is shown of a class. -/
theorem shown_eq (s : Selection) (c : ClassInfo) :
    shown s c = (if s.shows .classAnnotations then c.annotations.map .annotationOfClass else []) ++
      (if s.shows .className then [.classHead c] else []) ++
      (if s.shows .classDetails then detailEntries c else []) ++
      (if s.shows .fields then c.fields.map .field else []) ++
      (if s.shows .methods then c.methods.flatMap (shownMethodEntries s) else []) ++
      [.classEnd] := by
  have hannotations : ∀ e ∈ c.annotations.map Entry.annotationOfClass,
      e.needs = [.classAnnotations] := by simp [Entry.needs]
  have hhead : ∀ e ∈ [Entry.classHead c], e.needs = [.className] := by simp [Entry.needs]
  have hfields : ∀ e ∈ c.fields.map Entry.field, e.needs = [.fields] := by simp [Entry.needs]
  have hmethods : (c.methods.flatMap methodEntries).filter (·.isShown s) =
      if s.shows .methods then c.methods.flatMap (shownMethodEntries s) else [] := by
    rw [List.filter_flatMap]
    simp only [filter_methodEntries]
    cases s.shows .methods <;> simp
  unfold shown entries
  rw [List.filter_append, List.filter_append, List.filter_append, List.filter_append,
    List.filter_append, filter_isShown hannotations, filter_isShown hhead,
    filter_isShown (needs_detailEntries c), filter_isShown hfields, hmethods]
  simp [Entry.isShown, Entry.needs]

/-! ## Lines from entries -/

/-- The text of a line that may be left out. -/
theorem map_text_optionalEntry (text : Option String) (entry : String → Entry) :
    (optionalEntry text entry).map Entry.text =
      optionalLine text fun t => (entry t).text := by
  unfold optionalEntry optionalLine
  cases text with
  | none => rfl
  | some t => dsimp only; split <;> rfl

/-- The texts of the details of a class are its lines. -/
theorem map_text_detailEntries (c : ClassInfo) :
    (detailEntries c).map Entry.text = detailLines c := by
  unfold detailEntries detailLines
  rw [List.map_append, List.map_append, map_text_optionalEntry, map_text_optionalEntry,
    List.map_map]
  rfl

/-- The texts of the code of a method are its lines. -/
theorem map_text_codeEntries (m : MethodInfo) :
    (codeEntries m).map Entry.text = codeLines m := by
  unfold codeEntries codeLines
  split
  · rfl
  · rw [List.map_cons, List.map_map]
    rfl

/-- The texts that are shown of a method are its lines. -/
theorem map_text_shownMethodEntries (s : Selection) (m : MethodInfo) :
    (shownMethodEntries s m).map Entry.text = methodLines s m := by
  have hannotations : m.annotations.map (Entry.text ∘ .annotationOfMethod) =
      annotationLines m.annotations := rfl
  unfold shownMethodEntries methodLines Selection.showing
  cases s.shows .methodAnnotations <;> cases s.shows .opcodes <;>
    simp [Entry.text, map_text_codeEntries, hannotations]

/-- The lines of a class with a selection are those of the entries that the selection shows. -/
theorem lines_eq_shown (s : Selection) (c : ClassInfo) :
    lines s c = (shown s c).map Entry.text := by
  have hannotations : c.annotations.map (Entry.text ∘ .annotationOfClass) =
      annotationLines c.annotations := rfl
  have hfields : c.fields.map (Entry.text ∘ .field) = c.fields.map fieldLine := rfl
  rw [shown_eq]
  unfold lines Selection.showing
  simp only [List.map_append, apply_ite (List.map Entry.text), List.map_map, List.map_flatMap,
    map_text_detailEntries, map_text_shownMethodEntries, hannotations, hfields, List.map_nil]
  rfl

/-! ## Members -/

/-- The members that a selection shows, in the order of the class: its fields, then its methods. -/
def shownMembers (s : Selection) (c : ClassInfo) : List (FieldInfo ⊕ MethodInfo) :=
  (if s.shows .fields then c.fields.map .inl else []) ++
    if s.shows .methods then c.methods.map .inr else []

/-- Entries that need something else than fields alone or methods alone introduce no member. -/
theorem filterMap_member?_eq_nil {es : List Entry} {parts : List DisplayOption}
    (hes : ∀ e ∈ es, e.needs = parts) (hparts : parts ≠ [.fields] ∧ parts ≠ [.methods]) :
    es.filterMap Entry.member? = [] := by
  rw [List.filterMap_eq_nil_iff]
  intro e he
  cases e with
  | field f => exact absurd (hes _ he).symm hparts.1
  | methodHead m => exact absurd (hes _ he).symm hparts.2
  | _ => rfl

/-- Among the lines of a method one is its own. -/
theorem filterMap_member?_shownMethodEntries (s : Selection) (m : MethodInfo) :
    (shownMethodEntries s m).filterMap Entry.member? = [.inr m] := by
  have hcode := filterMap_member?_eq_nil (needs_codeEntries m) (by decide)
  unfold shownMethodEntries
  cases s.shows .methodAnnotations <;> cases s.shows .opcodes <;>
    simp [List.filterMap_cons, Entry.member?, hcode, Function.comp_def]

/-- The entries that a selection shows introduce the members that it shows. -/
theorem filterMap_member?_shown (s : Selection) (c : ClassInfo) :
    (shown s c).filterMap Entry.member? = shownMembers s c := by
  have hdetails := filterMap_member?_eq_nil (needs_detailEntries c) (by decide)
  rw [shown_eq]
  unfold shownMembers
  simp only [List.filterMap_append, apply_ite (List.filterMap Entry.member?), hdetails,
    List.filterMap_flatMap, filterMap_member?_shownMethodEntries, ← List.map_eq_flatMap]
  simp [Entry.member?, Function.comp_def, List.filterMap_cons]

/-! ## Larger selections -/

/-- More parts only add lines: what a smaller selection shows of a class comes in the same order and
with the same lines when more is selected, and so do its members. This holds of the lines as they
are written and, where a name has line feeds in it, of the lines that the text then has. -/
theorem lines_sublist {s t : Selection} (hle : ∀ part, s.shows part = true → t.shows part = true)
    (c : ClassInfo) :
    (Writer.plain.lines s c).Sublist (Writer.plain.lines t c) ∧
      (shown s c).Sublist (shown t c) ∧
      (∀ u, Writer.plain.lines u c = (shown u c).map Entry.text ∧
        (shown u c).filterMap Entry.member? = shownMembers u c) ∧
      (Text.pieces '\n' (Writer.plain.render s c)).Sublist
        (Text.pieces '\n' (Writer.plain.render t c)) := by
  have hentries : (shown s c).Sublist (shown t c) := by
    refine List.monotone_filter_right (entries c) fun e he => ?_
    rw [Entry.isShown, List.all_eq_true] at he ⊢
    exact fun part hpart => hle part (he part hpart)
  have hlines : (lines s c).Sublist (lines t c) := by
    rw [lines_eq_shown, lines_eq_shown]
    exact hentries.map Entry.text
  refine ⟨hlines, hentries, fun u => ⟨lines_eq_shown u c, filterMap_member?_shown u c⟩, ?_⟩
  unfold Writer.render
  rw [Text.pieces_unlines, Text.pieces_unlines]
  exact (hlines.flatMap _).append_right _

/-- An interface with a method that is annotated. -/
def timer : ClassInfo where
  name := "app.Timer"
  accessFlags := 0x601
  superclass := some "java.lang.Object"
  interfaces := []
  sourceFile := none
  annotations := []
  fields := []
  methods := [⟨"stop", "void", ["int"], 0x401, ["Override"], 0, []⟩]

/-- The lines of a timer with only its methods shown are some of those with all parts shown. -/
theorem lines_sublist_timer :
    let methods := Selection.ofList [.methods]
    let annotated := Selection.ofList [.className, .methodAnnotations, .methods]
    Writer.plain.lines methods timer =
        ["", ".method public abstract void stop(int)", ".end method", ""] ∧
      Writer.plain.lines annotated timer =
        [".class public abstract interface app.Timer", "", "@Override",
          ".method public abstract void stop(int)", ".end method", ""] ∧
      (∀ part, methods.shows part = true → annotated.shows part = true) ∧
      (Writer.plain.lines methods timer).Sublist (Writer.plain.lines annotated timer) := by
  intro methods annotated
  have hle : ∀ part, methods.shows part = true → annotated.shows part = true := by
    intro part
    cases part <;> decide
  exact ⟨by decide, by decide, hle, (lines_sublist hle timer).1⟩

end Plain

end DexListing
