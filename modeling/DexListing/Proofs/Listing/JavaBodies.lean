import DexListing.Listing.Writer
import DexListing.Proofs.Listing.CodeDumps
import DexListing.Proofs.Text.Braces

/-!
# The bodies in Java listings

The braces of a Java listing are those of the body of the class, which is there if the name of the
class is shown, and those of the bodies of methods that have code or initialise the class
(`JavaSource.IsBody`). Where no name holds a brace, braces are balanced, and one is open exactly in
these bodies (`JavaSource.depth_eq_zero_iff`).
-/

set_option autoImplicit false

namespace DexListing

namespace JavaSource

/-! ## Bodies -/

/-- A body: what comes before its opening brace, what stands between its braces, and what comes
after the closing one. -/
structure Body where
  before : String
  inner : String
  after : String

/-- A text with the body in it. -/
def Body.text (b : Body) : String :=
  b.before ++ "\x7b" ++ b.inner ++ "\x7d" ++ b.after

/-- The place after the characters `p` of the text is in the body. -/
def Body.Reaches (b : Body) (p : List Char) : Prop :=
  ∃ q, q <+: b.inner.toList ∧ p = b.before.toList ++ Text.openBrace :: q

/-- What the members of a class are indented by. -/
def memberIndent (s : Selection) : String :=
  if s.shows .className then indentation else ""

/-- The lines before the head of a class. -/
def preambleLines (s : Selection) (c : ClassInfo) : List String :=
  s.showing .classDetails (packageLines c) ++
    s.showing .classAnnotations (c.annotations.map ("@" ++ ·))

/-- The lines of fields. -/
def fieldLines (s : Selection) (c : ClassInfo) : List String :=
  s.showing .fields (c.fields.map (fieldLine (memberIndent s)))

/-- The lines of some methods of a class. -/
def methodsLines (s : Selection) (c : ClassInfo) (methods : List MethodInfo) : List String :=
  methods.flatMap (methodLines s (memberIndent s) c)

/-- The lines of all members. -/
def memberLines (s : Selection) (c : ClassInfo) : List String :=
  fieldLines s c ++ s.showing .methods (methodsLines s c c.methods)

/-- The method is listed with a body. -/
def HasBody (m : MethodInfo) : Prop :=
  m.name = "<clinit>" ∨ m.code ≠ []

/-- What opens the body of a method. -/
def bodyHead (c : ClassInfo) (m : MethodInfo) : String :=
  if m.name = "<clinit>" then "static" else methodHead c m

/-- A method up to the opening brace of its body. -/
def methodOpening (s : Selection) (c : ClassInfo) (m : MethodInfo) : String :=
  Text.unlines ("" :: s.showing .methodAnnotations
      (m.annotations.map fun name => memberIndent s ++ "@" ++ name)) ++
    (memberIndent s ++ bodyHead c m ++ " ")

/-- The body of a method. -/
def methodInner (s : Selection) (m : MethodInfo) : String :=
  "\n" ++ Text.unlines (s.showing .opcodes (codeLines (memberIndent s) m)) ++ memberIndent s

/-- The body of a class. -/
def classBody (s : Selection) (c : ClassInfo) : Body where
  before := Text.unlines (preambleLines s c) ++ (declaration s c ++ " ")
  inner := "\n" ++ Text.unlines (memberLines s c)
  after := "\n\n"

/-- The body of a method between some methods and others. -/
def methodBody (s : Selection) (c : ClassInfo) (earlier : List MethodInfo) (m : MethodInfo)
    (later : List MethodInfo) : Body where
  before := Text.unlines (preambleLines s c ++ s.showing .className [declaration s c ++ " \x7b"] ++
    fieldLines s c ++ methodsLines s c earlier) ++ methodOpening s c m
  inner := methodInner s m
  after := "\n" ++ Text.unlines (methodsLines s c later ++ s.showing .className ["\x7d"] ++ [""])

/-- The bodies in the listing of a class. -/
inductive IsBody (s : Selection) (c : ClassInfo) : Body → Prop
  | ofClass (hname : s.shows .className = true) : IsBody s c (classBody s c)
  | ofMethod (hmethods : s.shows .methods = true) {earlier later : List MethodInfo}
      {m : MethodInfo} (hsplit : c.methods = earlier ++ m :: later) (hbody : HasBody m) :
      IsBody s c (methodBody s c earlier m later)

/-- There is no brace in what the listing shows of the names in a class. -/
structure NoBraces (c : ClassInfo) : Prop where
  name : Text.BraceFree c.name
  superclass : ∀ t ∈ c.superclass, Text.BraceFree t
  interfaces : ∀ t ∈ c.interfaces, Text.BraceFree t
  annotations : ∀ t ∈ c.annotations, Text.BraceFree t
  fields : ∀ f ∈ c.fields, Text.BraceFree f.typeName ∧ Text.BraceFree f.name
  methodNames : ∀ m ∈ c.methods, Text.BraceFree m.name
  returnTypes : ∀ m ∈ c.methods, Text.BraceFree m.returnType
  parameters : ∀ m ∈ c.methods, ∀ t ∈ m.parameters, Text.BraceFree t
  methodAnnotations : ∀ m ∈ c.methods, ∀ t ∈ m.annotations, Text.BraceFree t

/-! ## Lines without braces -/

section Lines

open Text (BraceFree)

variable {s : Selection} {c : ClassInfo} {m : MethodInfo}

/-- Two texts hold no braces if each of them holds none. -/
theorem forall_mem_pair {t u : String} :
    (∀ w ∈ [t, u], BraceFree w) ↔ BraceFree t ∧ BraceFree u := by
  rw [List.forall_mem_cons, List.forall_mem_singleton]

/-- Keywords have no braces if none in their table has. -/
theorem braceFree_keywords (table : KeywordTable)
    (htable : ∀ word ∈ table.map Prod.snd, BraceFree word) (flags : AccessFlags) :
    ∀ word ∈ flags.keywords table, BraceFree word := by
  intro word hword
  obtain ⟨entry, hentry, rfl⟩ := List.mem_map.mp hword
  exact htable _ (List.mem_map_of_mem (List.mem_of_mem_filter hentry))

/-- The indentation of members is made of blanks. -/
theorem braceFree_memberIndent (s : Selection) : BraceFree (memberIndent s) := by
  unfold memberIndent
  split <;> decide

/-- What follows the last dot is part of the text. -/
theorem afterLastDot_subset (cs : List Char) : afterLastDot cs ⊆ cs := by
  intro x hx
  have hmem := (List.takeWhile_sublist _).subset (List.mem_reverse.mp hx)
  exact List.mem_reverse.mp hmem

/-- What precedes the last dot is part of the text. -/
theorem beforeLastDot_subset (cs : List Char) : beforeLastDot cs ⊆ cs := by
  intro x hx
  have hmem := List.mem_of_mem_drop (List.mem_reverse.mp hx)
  exact List.mem_reverse.mp ((List.dropWhile_sublist _).subset hmem)

/-- A simple name has no braces if the name of the class has none. -/
theorem braceFree_simpleName (hc : NoBraces c) : BraceFree c.simpleName :=
  hc.name.ofList (afterLastDot_subset _)

/-- The lines before the declaration have no braces: a comment and the package. -/
theorem braceFree_preambleLines (hc : NoBraces c) :
    ∀ l ∈ preambleLines s c, BraceFree l := by
  have hpackage : ∀ l ∈ packageLines c, BraceFree l := by
    have hname : BraceFree c.package := hc.name.ofList (beforeLastDot_subset _)
    unfold packageLines
    split
    · exact nofun
    · exact List.forall_mem_cons.mpr ⟨((show BraceFree "package " by decide).append hname).append
        (by decide), by decide⟩
  have hannotations : ∀ l ∈ c.annotations.map ("@" ++ ·), BraceFree l :=
    List.forall_mem_map.mpr fun t ht => (show BraceFree "@" by decide).append (hc.annotations t ht)
  exact List.forall_mem_append.mpr
    ⟨Selection.forall_mem_showing hpackage, Selection.forall_mem_showing hannotations⟩

/-- The declaration has no braces; its opening brace is added afterwards. -/
theorem braceFree_declaration (hc : NoBraces c) : BraceFree (declaration s c) := by
  have hmodifiers : ∀ kind, ∀ w ∈ modifiers kind c.accessFlags, BraceFree w := by
    intro kind w hw
    refine braceFree_keywords classKeywords (by decide) c.accessFlags w ?_
    unfold modifiers at hw
    dsimp only at hw
    split at hw
    · exact hw
    · exact List.mem_of_mem_erase hw
  have hextended : ∀ w ∈ extended c, BraceFree w := by
    unfold extended
    split
    · exact List.forall_mem_nil _
    · next name hname =>
      split
      · exact List.forall_mem_nil _
      · exact List.forall_mem_cons.mpr ⟨by decide, List.forall_mem_singleton.mpr
          (hc.superclass name hname)⟩
  have himplemented : ∀ kind, ∀ w ∈ implemented kind c, BraceFree w := by
    intro kind
    have hjoined : BraceFree (Text.joined ", " c.interfaces) := .joined (by decide) hc.interfaces
    unfold implemented
    split
    · exact List.forall_mem_nil _
    · refine List.forall_mem_cons.mpr ⟨?_, List.forall_mem_singleton.mpr hjoined⟩
      split <;> decide
  have hkeyword : ∀ kind : Kind, BraceFree kind.keyword := by
    intro kind
    cases kind <;> decide
  have hsupers : ∀ kind, ∀ w ∈ (if s.shows .classDetails then
      (if kind = Kind.classType then extended c else []) ++ implemented kind c else []),
      BraceFree w := by
    intro kind
    split
    · refine List.forall_mem_append.mpr ⟨?_, himplemented kind⟩
      split
      · exact hextended
      · exact List.forall_mem_nil _
    · exact List.forall_mem_nil _
  unfold declaration
  dsimp only
  refine .joined (by decide) (List.forall_mem_append.mpr ⟨List.forall_mem_append.mpr
    ⟨hmodifiers _, forall_mem_pair.mpr ⟨hkeyword _, braceFree_simpleName hc⟩⟩, hsupers _⟩)

/-- The lines of the fields have no braces. -/
theorem braceFree_fieldLines (hc : NoBraces c) : ∀ l ∈ fieldLines s c, BraceFree l := by
  refine Selection.forall_mem_showing (List.forall_mem_map.mpr fun f hf => ?_)
  have hwords : ∀ w ∈ f.accessFlags.keywords fieldKeywords ++ [f.typeName, f.name],
      BraceFree w :=
    List.forall_mem_append.mpr ⟨braceFree_keywords fieldKeywords (by decide) _,
      forall_mem_pair.mpr (hc.fields f hf)⟩
  exact ((braceFree_memberIndent s).append (.joined (by decide) hwords)).append (by decide)

/-- Parameters have no braces if their types have none. -/
theorem braceFree_parametersFrom {types : List String} (htypes : ∀ t ∈ types, BraceFree t)
    (position : Nat) : ∀ p ∈ parametersFrom position types, BraceFree p := by
  induction types generalizing position with
  | nil => exact nofun
  | cons typeName rest ih =>
    obtain ⟨htype, hrest⟩ := List.forall_mem_cons.mp htypes
    exact List.forall_mem_cons.mpr
      ⟨(htype.append (by decide)).append (.numeral position), ih hrest (position + 1)⟩

/-- The head of a method has no braces. -/
theorem braceFree_methodHead (hc : NoBraces c) (hm : m ∈ c.methods) :
    BraceFree (methodHead c m) := by
  have hnames : ∀ w ∈ (if m.name = "<init>" then [c.simpleName] else [m.returnType, m.name]),
      BraceFree w := by
    split
    · exact List.forall_mem_singleton.mpr (braceFree_simpleName hc)
    · exact forall_mem_pair.mpr ⟨hc.returnTypes m hm, hc.methodNames m hm⟩
  have hwords := List.forall_mem_append.mpr
    ⟨braceFree_keywords methodKeywords (by decide) m.accessFlags, hnames⟩
  have hparameters := braceFree_parametersFrom (hc.parameters m hm) 0
  exact (((BraceFree.joined (by decide) hwords).append (by decide)).append
    (.joined (by decide) hparameters)).append (by decide)

/-- The lines of a code dump are digits and blanks, so they have no braces. -/
theorem braceFree_linesFrom {start : Nat} {units : List Nat} :
    ∀ l ∈ CodeDump.linesFrom start units, BraceFree l := by
  intro l hl c hc
  rcases List.mem_pair.mp hc with rfl | rfl <;>
    exact CodeDump.holds_of_mem_linesFrom (by decide) (by decide) l hl

/-- The lines with the code of a method have no braces. -/
theorem braceFree_codeLines (s : Selection) (m : MethodInfo) :
    ∀ l ∈ codeLines (memberIndent s) m, BraceFree l := by
  have hindent := (braceFree_memberIndent s).append (show BraceFree indentation by decide)
  exact List.forall_mem_cons.mpr ⟨(hindent.append (by decide)).append (.numeral m.registers),
    List.forall_mem_map.mpr fun line hline =>
      (hindent.append (by decide)).append (braceFree_linesFrom line hline)⟩

/-- The lines before a method, which show its annotations, have no braces. -/
theorem braceFree_annotationLines (hc : NoBraces c) (hm : m ∈ c.methods) :
    ∀ l ∈ "" :: s.showing .methodAnnotations
      (m.annotations.map fun name => memberIndent s ++ "@" ++ name), BraceFree l := by
  have hlines : ∀ l ∈ m.annotations.map fun name => memberIndent s ++ "@" ++ name,
      BraceFree l := List.forall_mem_map.mpr fun name hname =>
    ((braceFree_memberIndent s).append (by decide)).append (hc.methodAnnotations m hm name hname)
  exact List.forall_mem_cons.mpr ⟨by decide, Selection.forall_mem_showing hlines⟩

/-- What precedes the body of a method has no braces. -/
theorem braceFree_methodOpening (hc : NoBraces c) (hm : m ∈ c.methods) :
    BraceFree (methodOpening s c m) := by
  have hhead : BraceFree (bodyHead c m) := by
    unfold bodyHead
    split
    · decide
    · exact braceFree_methodHead hc hm
  exact (BraceFree.unlines (braceFree_annotationLines hc hm)).append
    (((braceFree_memberIndent s).append hhead).append (by decide))

/-- What stands in the body of a method has no braces. -/
theorem braceFree_methodInner (s : Selection) (m : MethodInfo) :
    BraceFree (methodInner s m) := by
  have hlines : ∀ l ∈ s.showing .opcodes (codeLines (memberIndent s) m), BraceFree l :=
    Selection.forall_mem_showing (braceFree_codeLines s m)
  exact ((show BraceFree "\n" by decide).append (.unlines hlines)).append (braceFree_memberIndent s)

end Lines

/-! ## Listings and their bodies -/

section Texts

variable {s : Selection} {c : ClassInfo} {m : MethodInfo}

/-- The lines of a class around its members: the preamble, the declaration with its brace, and the
closing brace. -/
theorem lines_eq (s : Selection) (c : ClassInfo) :
    lines s c = preambleLines s c ++ s.showing .className [declaration s c ++ " \x7b"] ++
      memberLines s c ++ s.showing .className ["\x7d"] ++ [""] := by
  unfold lines preambleLines memberLines fieldLines methodsLines memberIndent
  simp only [List.append_assoc]

/-- The lines of methods follow each other as the methods do. -/
theorem methodsLines_append (s : Selection) (c : ClassInfo) (earlier later : List MethodInfo) :
    methodsLines s c (earlier ++ later) = methodsLines s c earlier ++ methodsLines s c later :=
  List.flatMap_append

/-- The lines of the first method come first. -/
theorem methodsLines_cons (s : Selection) (c : ClassInfo) (m : MethodInfo)
    (later : List MethodInfo) :
    methodsLines s c (m :: later) =
      methodLines s (memberIndent s) c m ++ methodsLines s c later :=
  List.flatMap_cons

/-- A method with a body. -/
theorem unlines_of_hasBody (s : Selection) (c : ClassInfo) (hbody : HasBody m) :
    Text.unlines (methodLines s (memberIndent s) c m) =
      methodOpening s c m ++ "\x7b" ++ methodInner s m ++ "\x7d" ++ "\n" := by
  have hdeclaration : declarationLines s (memberIndent s) c m =
      bodyLines s (memberIndent s) (bodyHead c m) m := by
    unfold declarationLines bodyHead
    split
    · rfl
    · next hname => rw [if_neg (hbody.resolve_left hname)]
  unfold methodLines methodOpening methodInner
  rw [hdeclaration, Text.unlines_append]
  unfold bodyLines
  rw [Text.unlines_append, Text.unlines_cons, Text.unlines_cons, Text.unlines_singleton,
    show " \x7b" = " " ++ "\x7b" from rfl]
  simp only [String.append_assoc]

/-- The text of a class whose name is shown is that of its body. -/
theorem render_of_className (hname : s.shows .className = true) :
    Writer.java.render s c = (classBody s c).text := by
  unfold Writer.render Writer.lines Body.text classBody
  dsimp only
  rw [lines_eq, Text.unlines_append, Text.unlines_append, Text.unlines_append, Text.unlines_append]
  unfold Selection.showing
  rw [if_pos hname, if_pos hname, show " \x7b" = " " ++ "\x7b" from rfl, Text.unlines_cons]
  simp only [String.append_assoc]
  rfl

/-- The text of a class around the body of one of its methods. -/
theorem render_of_split (hmethods : s.shows .methods = true) {earlier later : List MethodInfo}
    (hsplit : c.methods = earlier ++ m :: later) (hbody : HasBody m) :
    Writer.java.render s c = (methodBody s c earlier m later).text := by
  have hmembers : memberLines s c = fieldLines s c ++ (methodsLines s c earlier ++
      (methodLines s (memberIndent s) c m ++ methodsLines s c later)) := by
    rw [memberLines, Selection.showing, if_pos hmethods, hsplit, methodsLines_append,
      methodsLines_cons]
  unfold Writer.render Writer.lines Body.text methodBody
  dsimp only
  rw [lines_eq, hmembers]
  simp only [Text.unlines_append, unlines_of_hasBody s c hbody, String.append_assoc]

/-- The text of a class whose name is not shown. -/
theorem render_of_no_className (hname : s.shows .className = false) :
    Writer.java.render s c = Text.unlines (preambleLines s c ++ fieldLines s c) ++
      Text.unlines (s.showing .methods (methodsLines s c c.methods)) ++ "\n" := by
  unfold Writer.render Writer.lines
  dsimp only
  rw [lines_eq, memberLines, Selection.showing_of_hidden hname, Selection.showing_of_hidden hname]
  simp only [Text.unlines_append, List.append_nil, List.append_assoc, String.append_assoc]
  rfl

/-- Where the class itself is not shown, a method is preceded by the preamble, the fields and the
earlier methods only. -/
theorem methodBody_before_of_no_className (hname : s.shows .className = false)
    (earlier later : List MethodInfo) :
    (methodBody s c earlier m later).before = Text.unlines (preambleLines s c ++ fieldLines s c) ++
      (Text.unlines (methodsLines s c earlier) ++ methodOpening s c m) := by
  unfold methodBody
  dsimp only
  rw [Selection.showing_of_hidden hname, List.append_nil, Text.unlines_append, String.append_assoc]

end Texts

/-! ## Depth -/

section Depth

open Text (BraceFree Nested depth openBrace closeBrace)

variable {s : Selection} {c : ClassInfo} {m : MethodInfo} {p : List Char}

/-- The characters of a text in braces with other text around it. -/
theorem toList_braced (before inner after : String) :
    (before ++ "\x7b" ++ inner ++ "\x7d" ++ after).toList =
      before.toList ++ openBrace :: (inner.toList ++ closeBrace :: after.toList) := by
  simp [openBrace, closeBrace]

/-- The characters of all methods are those of each of them in turn. -/
theorem toList_unlines_methodsLines (s : Selection) (c : ClassInfo) (methods : List MethodInfo) :
    (Text.unlines (methodsLines s c methods)).toList =
      methods.flatMap fun m => (Text.unlines (methodLines s (memberIndent s) c m)).toList := by
  induction methods with
  | nil => rfl
  | cons m rest ih =>
    rw [methodsLines_cons, Text.unlines_append, String.toList_append, ih, List.flatMap_cons]

/-- A method without a body has no brace. -/
theorem braceFree_of_not_hasBody (hc : NoBraces c) (hm : m ∈ c.methods) (hbody : ¬HasBody m) :
    BraceFree (Text.unlines (methodLines s (memberIndent s) c m)) := by
  have hname : m.name ≠ "<clinit>" := fun h => hbody (.inl h)
  have hcode : m.code = [] := not_not.mp fun h => hbody (.inr h)
  have hdeclaration : declarationLines s (memberIndent s) c m =
      [memberIndent s ++ methodHead c m ++ ";"] := by
    rw [declarationLines, if_neg hname, if_pos hcode]
  have hhead := (braceFree_memberIndent s).append (braceFree_methodHead hc hm)
  unfold methodLines
  rw [hdeclaration]
  exact .unlines (List.forall_mem_append.mpr ⟨braceFree_annotationLines hc hm,
    List.forall_mem_singleton.mpr (hhead.append (by decide))⟩)

/-- The braces of a method are at most those of its body. -/
theorem nested_methodLines (hc : NoBraces c) (hm : m ∈ c.methods) :
    Nested 1 (Text.unlines (methodLines s (memberIndent s) c m)).toList := by
  by_cases hbody : HasBody m
  · rw [unlines_of_hasBody s c hbody, toList_braced]
    exact .braced (braceFree_methodOpening hc hm) ((braceFree_methodInner s m).nested 0) (by decide)
  · exact (braceFree_of_not_hasBody hc hm hbody).nested 1

/-- The braces of methods are nested to depth one: a method has no block within its body. -/
theorem nested_methodsLines (hc : NoBraces c) {methods : List MethodInfo}
    (hmethods : methods ⊆ c.methods) :
    Nested 1 (Text.unlines (methodsLines s c methods)).toList := by
  rw [toList_unlines_methodsLines]
  exact .flatMap fun m hm => nested_methodLines hc (hmethods hm)

/-- The same if methods may be hidden. -/
theorem nested_showing_methodsLines (hc : NoBraces c) :
    Nested 1 (Text.unlines (s.showing .methods (methodsLines s c c.methods))).toList := by
  unfold Selection.showing
  split
  · exact nested_methodsLines hc (List.Subset.refl _)
  · exact (show BraceFree (Text.unlines []) by decide).nested 1

/-- The braces of all members are nested to depth one. -/
theorem nested_memberLines (hc : NoBraces c) :
    Nested 1 (Text.unlines (memberLines s c)).toList := by
  unfold memberLines
  rw [Text.unlines_append, String.toList_append]
  exact ((BraceFree.unlines (braceFree_fieldLines hc)).nested 1).append
    (nested_showing_methodsLines hc)

/-- So are those of all that stands in the body of a class. -/
theorem nested_classBody_inner (hc : NoBraces c) : Nested 1 (classBody s c).inner.toList := by
  unfold classBody
  rw [String.toList_append]
  exact ((show BraceFree "\n" by decide).nested 1).append (nested_memberLines hc)

/-- What precedes the body of a class has no braces. -/
theorem braceFree_classBody_before (hc : NoBraces c) : BraceFree (classBody s c).before :=
  (BraceFree.unlines (braceFree_preambleLines hc)).append
    ((braceFree_declaration hc).append (by decide))

/-- What follows the body of a class has no braces. -/
theorem braceFree_classBody_after : BraceFree (classBody s c).after :=
  show BraceFree "\n\n" by decide

/-- What precedes the methods has no braces, if the class itself is not shown. -/
theorem braceFree_beforeMethods (hc : NoBraces c) :
    BraceFree (Text.unlines (preambleLines s c ++ fieldLines s c)) :=
  .unlines (List.forall_mem_append.mpr ⟨braceFree_preambleLines hc, braceFree_fieldLines hc⟩)

/-- How deep braces go: two levels with the body of the class, one without. -/
def maxDepth (s : Selection) : Nat :=
  if s.shows .className then 2 else 1

/-- The braces of a listing are nested as deep as the selection allows. -/
theorem nested_render (hc : NoBraces c) :
    Nested (maxDepth s) (Writer.java.render s c).toList := by
  unfold maxDepth
  cases hname : s.shows .className with
  | true =>
    rw [render_of_className hname, Body.text, toList_braced]
    exact .braced (braceFree_classBody_before hc) (nested_classBody_inner hc)
      braceFree_classBody_after
  | false =>
    rw [render_of_no_className hname, String.toList_append, String.toList_append]
    exact (((braceFree_beforeMethods hc).nested 1).append (nested_showing_methodsLines hc)).append
      ((show BraceFree "\n" by decide).nested 1)

/-! ## Depth and bodies -/

/-- Where a brace is open in the text of methods, this is in the body of one of them. -/
theorem exists_method_of_depth_ne_zero (hc : NoBraces c) {methods : List MethodInfo}
    (hmethods : methods ⊆ c.methods) (hp : p <+: (Text.unlines (methodsLines s c methods)).toList)
    (hdepth : depth p ≠ 0) :
    ∃ earlier m later, methods = earlier ++ m :: later ∧ HasBody m ∧
      ∃ q, q <+: (methodInner s m).toList ∧
        p = (Text.unlines (methodsLines s c earlier) ++ methodOpening s c m).toList ++
          openBrace :: q := by
  induction methods generalizing p with
  | nil => exact absurd ((show BraceFree (Text.unlines []) by decide).depth_eq_zero hp) hdepth
  | cons m rest ih =>
    obtain ⟨hm, hrest⟩ := List.cons_subset.mp hmethods
    rw [methodsLines_cons, Text.unlines_append, String.toList_append] at hp
    rcases Text.prefix_append_cases hp with hfirst | ⟨q, hq, rfl⟩
    · -- The place is in the first method, which then has a body.
      have hbody : HasBody m := not_not.mp fun h =>
        hdepth ((braceFree_of_not_hasBody hc hm h).depth_eq_zero hfirst)
      rw [unlines_of_hasBody s c hbody, toList_braced] at hfirst
      obtain ⟨q, hq, rfl⟩ := Text.exists_prefix_of_depth_ne_zero (braceFree_methodOpening hc hm)
        ((braceFree_methodInner s m).depth_eq_zero List.prefix_rfl) (by decide) hfirst hdepth
      exact ⟨[], m, rest, rfl, hbody, q, hq, by simp [methodsLines, Text.unlines]⟩
    · have hclosed := (nested_methodLines (s := s) hc hm).closed
      rw [Text.depth_append, hclosed, zero_add] at hdepth
      obtain ⟨earlier, n, later, rfl, hbody, r, hr, rfl⟩ := ih hrest hq hdepth
      refine ⟨m :: earlier, n, later, rfl, hbody, r, hr, ?_⟩
      rw [methodsLines_cons, Text.unlines_append]
      simp only [String.toList_append, List.append_assoc]

/-- Where a brace is open in a listing without the name of the class, this is in a method. -/
theorem exists_body_of_no_className (hc : NoBraces c) (hname : s.shows .className = false)
    (hp : p <+: (Writer.java.render s c).toList) (hdepth : depth p ≠ 0) :
    ∃ b, IsBody s c b ∧ b.Reaches p := by
  have hbefore := braceFree_beforeMethods (s := s) hc
  rw [render_of_no_className hname, String.toList_append, String.toList_append,
    List.append_assoc] at hp
  rcases Text.prefix_append_cases hp with hq | ⟨q, hq, rfl⟩
  · exact absurd (hbefore.depth_eq_zero hq) hdepth
  rw [Text.depth_append, hbefore.depth_eq_zero List.prefix_rfl, zero_add] at hdepth
  rcases Text.prefix_append_cases hq with hr | ⟨r, hr, rfl⟩
  · cases hmethods : s.shows .methods with
    | true =>
      rw [Selection.showing_of_selected hmethods] at hr
      obtain ⟨earlier, m, later, hsplit, hbody, inner, hinner, rfl⟩ :=
        exists_method_of_depth_ne_zero hc (List.Subset.refl _) hr hdepth
      refine ⟨methodBody s c earlier m later, .ofMethod hmethods hsplit hbody, inner, hinner, ?_⟩
      rw [methodBody_before_of_no_className hname]
      simp only [String.toList_append, List.append_assoc]
    | false =>
      rw [Selection.showing_of_hidden hmethods] at hr
      exact absurd ((show BraceFree (Text.unlines []) by decide).depth_eq_zero hr) hdepth
  · have hlast := (show BraceFree "\n" by decide).depth_eq_zero hr
    rw [Text.depth_append, (nested_showing_methodsLines hc).closed, hlast] at hdepth
    exact absurd rfl hdepth

/-- Where a brace is open in a listing, this is in a body. -/
theorem exists_body_of_depth_ne_zero (hc : NoBraces c) (hp : p <+: (Writer.java.render s c).toList)
    (hdepth : depth p ≠ 0) : ∃ b, IsBody s c b ∧ b.Reaches p := by
  cases hname : s.shows .className with
  | true =>
    rw [render_of_className hname, Body.text, toList_braced] at hp
    exact ⟨classBody s c, .ofClass hname, Text.exists_prefix_of_depth_ne_zero
      (braceFree_classBody_before hc) (nested_classBody_inner hc).closed braceFree_classBody_after
      hp hdepth⟩
  | false => exact exists_body_of_no_className hc hname hp hdepth

/-- A body is one of the listing. -/
theorem IsBody.text_eq {b : Body} (h : IsBody s c b) : b.text = Writer.java.render s c := by
  cases h with
  | ofClass hname => exact (render_of_className hname).symm
  | ofMethod hmethods hsplit hbody => exact (render_of_split hmethods hsplit hbody).symm

/-- What stands in a body closes the braces that it opens, and no other ones. -/
theorem IsBody.nested_inner (hc : NoBraces c) {b : Body} (h : IsBody s c b) :
    Nested 1 b.inner.toList := by
  cases h with
  | ofClass hname => exact nested_classBody_inner hc
  | ofMethod hmethods hsplit hbody => exact (braceFree_methodInner s _).nested 1

/-- In a body its brace is open. -/
theorem IsBody.depth_pos (hc : NoBraces c) {b : Body} (h : IsBody s c b) (hp : b.Reaches p) :
    0 < depth p := by
  obtain ⟨q, hq, rfl⟩ := hp
  have hbefore : b.before.toList <+: (Writer.java.render s c).toList := by
    rw [← h.text_eq, Body.text, toList_braced]
    exact List.prefix_append _ _
  have houter := ((nested_render hc).within _ hbefore).1
  have hinner := ((h.nested_inner hc).within q hq).1
  rw [Text.depth_append, Text.depth_open]
  omega

/-- Braces are balanced in a Java listing: none is closed that is not open, all are closed in the
end, and they go at most two levels deep, or one where the name of the class is not shown. A brace
is open exactly in the bodies that the listing has. -/
theorem depth_eq_zero_iff (hc : NoBraces c) (s : Selection) :
    (∀ p, p <+: (Writer.java.render s c).toList →
        0 ≤ depth p ∧ depth p ≤ if s.shows .className then 2 else 1) ∧
      depth (Writer.java.render s c).toList = 0 ∧
      (∀ b, IsBody s c b → b.text = Writer.java.render s c) ∧
      ∀ p, p <+: (Writer.java.render s c).toList →
        (depth p = 0 ↔ ¬∃ b, IsBody s c b ∧ b.Reaches p) := by
  have hnested := nested_render (s := s) hc
  refine ⟨?_, hnested.closed, fun b hb => hb.text_eq, fun p hp => ⟨?_, ?_⟩⟩
  · intro p hp
    have hbound : (maxDepth s : Int) = if s.shows .className then 2 else 1 := by
      unfold maxDepth
      split <;> rfl
    exact hbound ▸ hnested.within p hp
  · rintro hzero ⟨b, hb, hreaches⟩
    exact absurd hzero (hb.depth_pos hc hreaches).ne'
  · intro hout
    by_contra hdepth
    exact hout (exists_body_of_depth_ne_zero hc hp hdepth)

/-- An abstract class with an initialiser, an abstract method and one that has code. -/
def lamp : ClassInfo where
  name := "app.Lamp"
  accessFlags := 0x401
  superclass := some "java.lang.Object"
  interfaces := ["app.Switch"]
  sourceFile := none
  annotations := []
  fields := [⟨"lit", "boolean", 0x2, []⟩]
  methods := [⟨"<clinit>", "void", [], 0x8, [], 0, []⟩,
    ⟨"level", "int", [], 0x401, [], 0, []⟩,
    ⟨"toggle", "void", ["int"], 0x1, [], 2, [0xe]⟩]

/-- With only its methods shown, the listing of the lamp is closed at its end, and right after the
opening of the initialiser it is inside a body. -/
theorem depth_eq_zero_iff_lamp :
    let methods := Selection.ofList [.methods]
    let initialiser := "\nstatic \x7b".toList
    NoBraces lamp ∧ depth (Writer.java.render methods lamp).toList = 0 ∧
      initialiser <+: (Writer.java.render methods lamp).toList ∧
      ∃ b, IsBody methods lamp b ∧ b.Reaches initialiser := by
  intro methods initialiser
  have hnames : NoBraces lamp := by
    constructor <;> decide
  have hprefix : initialiser <+: (Writer.java.render methods lamp).toList := by
    decide +kernel
  obtain ⟨-, hclosed, -, hbodies⟩ := depth_eq_zero_iff hnames methods
  refine ⟨hnames, hclosed, hprefix, ?_⟩
  by_contra hout
  exact absurd ((hbodies initialiser hprefix).mpr hout) (by decide)

end Depth

end JavaSource

end DexListing
