import DexListing.Dalvik.Descriptor
import DexListing.Proofs.Text.Joining

/-!
# Readable names of types

The descriptors that the format allows are those of the forms `Descriptor.Form`: any number of
dimensions, and a primitive type or a class as the element. The readable name of a descriptor is the
readable form of its parts (`Descriptor.name_text`). The first bracket of a readable name ends the
name of the element, so the dimensions and the element can be told from it; and element types have
one name only if they are the same, or if a class outside any package is spelled like the keyword of
a primitive type (`Descriptor.Element.readable_eq_iff`).
-/

set_option autoImplicit false

namespace DexListing.Descriptor

/-! ## The grammar of descriptors -/

/-- The primitive types, and the type of methods that return nothing. -/
inductive Primitive
  | void
  | boolean
  | byte
  | short
  | char
  | int
  | long
  | float
  | double
  deriving DecidableEq, Repr

/-- The letter that is the descriptor of a primitive type. -/
def Primitive.letter : Primitive → Char
  | void => 'V'
  | boolean => 'Z'
  | byte => 'B'
  | short => 'S'
  | char => 'C'
  | int => 'I'
  | long => 'J'
  | float => 'F'
  | double => 'D'

/-- A primitive type as it is written in programs. -/
def Primitive.keyword : Primitive → String
  | void => "void"
  | boolean => "boolean"
  | byte => "byte"
  | short => "short"
  | char => "char"
  | int => "int"
  | long => "long"
  | float => "float"
  | double => "double"

/-- A text that may stand between the slashes of a class descriptor. -/
structure IsSegment (s : String) : Prop where
  ne_empty : s ≠ ""
  no_dot : Text.holds s '.' = false
  no_slash : Text.holds s '/' = false
  no_semicolon : Text.holds s ';' = false
  no_bracket : Text.holds s '[' = false

instance (s : String) : Decidable (IsSegment s) :=
  decidable_of_iff (s ≠ "" ∧ Text.holds s '.' = false ∧ Text.holds s '/' = false ∧
      Text.holds s ';' = false ∧ Text.holds s '[' = false)
    ⟨fun ⟨hempty, hdot, hslash, hsemicolon, hbracket⟩ =>
        ⟨hempty, hdot, hslash, hsemicolon, hbracket⟩,
      fun h => ⟨h.ne_empty, h.no_dot, h.no_slash, h.no_semicolon, h.no_bracket⟩⟩

/-- The name of a class by its segments: the packages from the outermost one on, and the simple
name. -/
@[ext]
structure QualifiedName where
  segments : List String
  ne_nil : segments ≠ []
  isSegment : ∀ s ∈ segments, IsSegment s

/-- The class of texts. -/
def QualifiedName.javaLangString : QualifiedName where
  segments := ["java", "lang", "String"]
  ne_nil := by decide
  isSegment := by decide

/-- The class outside any package that is spelled like the keyword of a primitive type. -/
def QualifiedName.ofKeyword (type : Primitive) : QualifiedName where
  segments := [type.keyword]
  ne_nil := List.cons_ne_nil _ _
  isSegment := by cases type <;> decide

/-- The type of the elements of an array, or of a value that is no array. -/
inductive Element
  | primitive (type : Primitive)
  | ofClass (name : QualifiedName)

/-- A type that the format has a descriptor for. -/
@[ext]
structure Form where
  dimensions : Nat
  element : Element

/-- The descriptor of an element type. -/
def Element.text : Element → String
  | primitive type => String.singleton type.letter
  | ofClass name => "L" ++ Text.joined "/" name.segments ++ ";"

/-- The descriptor of a type. -/
def Form.text (f : Form) : String :=
  String.join (List.replicate f.dimensions "[") ++ f.element.text

/-- An element type as it is written in programs. -/
def Element.readable : Element → String
  | primitive type => type.keyword
  | ofClass name => Text.joined "." name.segments

/-- A type as it is written in programs. -/
def Form.readable (f : Form) : String :=
  f.element.readable ++ String.join (List.replicate f.dimensions "[]")

/-- The one is a primitive type, and the other is a class outside any package whose name is the
keyword of that type. -/
def Element.IsKeywordOf (e e' : Element) : Prop :=
  ∃ (type : Primitive) (name : QualifiedName),
    e = .primitive type ∧ e' = .ofClass name ∧ name.segments = [type.keyword]

/-- The descriptor of a class type, or of an array of one, by its readable name. -/
def ofClassName (readable : String) : String :=
  let className := readable.toList.takeWhile (· ≠ '[')
  String.ofList (List.replicate (readable.toList.count '[') '[' ++
    ('L' :: className.map (fun c => if c = '.' then '/' else c) ++ [';']))

/-! ## Reading a descriptor -/

/-- The characters of a text that is repeated. -/
theorem toList_join_replicate (n : Nat) (s : String) :
    (String.join (List.replicate n s)).toList = (List.replicate n s.toList).flatten := by
  simp [String.toList_join, List.flatMap]

/-- Texts that are joined with one character are joined with another one once the first is replaced
by it, if the texts do not hold the first. -/
theorem map_replace_joined (c c' : Char) {separator separator' : String}
    (hseparator : separator.toList = [c]) (hseparator' : separator'.toList = [c'])
    {texts : List String} (htexts : ∀ t ∈ texts, Text.holds t c = false) :
    (Text.joined separator texts).toList.map (fun x => if x = c then c' else x) =
      (Text.joined separator' texts).toList := by
  have hsame : ∀ t ∈ texts, t.toList.map (fun x => if x = c then c' else x) = t.toList := by
    intro t ht
    refine (List.map_congr_left fun x hx => ?_).trans (List.map_id _)
    exact if_neg fun (heq : x = c) => Text.holds_eq_false_iff.mp (htexts t ht) (heq ▸ hx)
  cases texts with
  | nil => rfl
  | cons text rest =>
    unfold Text.joined
    rw [String.toList_intercalate, String.toList_intercalate, hseparator, hseparator',
      List.map_cons, Text.intercalate_cons, Text.intercalate_cons, List.map_append,
      hsame text List.mem_cons_self, List.map_flatMap, List.flatMap_map, List.flatMap_map]
    congr 1
    apply List.flatMap_congr
    intro t ht
    rw [List.map_append, hsame t (List.mem_cons_of_mem _ ht)]
    simp

/-- The descriptor of a primitive type is its letter. -/
theorem toList_text_primitive (type : Primitive) :
    (Element.primitive type).text.toList = [type.letter] := by
  simp [Element.text]

/-- The descriptor of a class is its segments with slashes between them, in `L` and `;`. -/
theorem toList_text_ofClass (name : QualifiedName) :
    (Element.ofClass name).text.toList =
      'L' :: ((Text.joined "/" name.segments).toList ++ [';']) := by
  simp [Element.text]

/-- The descriptor of an element type is read as such. -/
theorem elementName_text (e : Element) : elementName e.text.toList = e.readable.toList := by
  cases e with
  | primitive type => cases type <;> decide
  | ofClass name =>
    have hclass : className? (Element.ofClass name).text.toList =
        some (Text.joined "/" name.segments).toList := by
      rw [toList_text_ofClass, className?, List.getLast?_concat, if_pos rfl, List.dropLast_concat]
    unfold elementName
    rw [hclass]
    exact map_replace_joined '/' '.' rfl rfl fun s hs => (name.isSegment s hs).no_slash

/-- The descriptor of an element type does not begin with a bracket. -/
theorem head?_text (e : Element) : ∀ c ∈ e.text.toList.head?, decide (c = '[') = false := by
  cases e with
  | primitive type =>
    rw [toList_text_primitive]
    rintro c ⟨⟩
    cases type <;> decide
  | ofClass name =>
    rw [toList_text_ofClass]
    rintro c ⟨⟩
    decide

/-- The descriptor of a type is a bracket for each dimension and that of its element. -/
theorem toList_text (f : Form) :
    f.text.toList = List.replicate f.dimensions '[' ++ f.element.text.toList := by
  rw [Form.text, String.toList_append, toList_join_replicate]
  simp

/-- The readable form of a type is that of its element and a pair of brackets for each dimension. -/
theorem toList_readable (f : Form) :
    f.readable.toList =
      f.element.readable.toList ++ (List.replicate f.dimensions ['[', ']']).flatten := by
  rw [Form.readable, String.toList_append, toList_join_replicate]
  rfl

/-- The readable name of a descriptor is what its parts are in readable form. -/
theorem name_text (f : Form) : name f.text = f.readable := by
  have hbrackets : (f.text.toList.takeWhile (· = '[')).length = f.dimensions := by
    rw [toList_text, Text.takeWhile_append_of_cut (by simp) (head?_text f.element),
      List.length_replicate]
  apply String.toList_inj.mp
  rw [name, String.toList_ofList, nameChars, hbrackets, toList_readable, toList_text,
    List.drop_left' List.length_replicate, elementName_text]

/-! ## Telling types from their readable names -/

/-- Keywords hold no dots and brackets. -/
theorem holds_keyword (type : Primitive) :
    Text.holds type.keyword '.' = false ∧ Text.holds type.keyword '[' = false := by
  cases type <;> decide

/-- Primitive types have different keywords. -/
theorem keyword_injective : Function.Injective Primitive.keyword := by
  intro type type' h
  cases type <;> cases type' <;> first | rfl | exact absurd h (by decide)

/-- A keyword has no dots, so it is all there is of a class name that is spelled like it. -/
theorem keyword_eq_joined_iff (type : Primitive) (name : QualifiedName) :
    type.keyword = Text.joined "." name.segments ↔ name.segments = [type.keyword] := by
  constructor
  · intro h
    have hpieces : Text.pieces '.' (Text.joined "." name.segments) = name.segments :=
      Text.pieces_joined rfl name.ne_nil fun s hs => (name.isSegment s hs).no_dot
    rw [← hpieces, ← h]
    cases type <;> decide
  · intro h
    rw [h]
    rfl

namespace Element

/-- The characters of the readable name of an element type are all before any bracket. -/
theorem ne_bracket_of_mem_readable (e : Element) :
    ∀ c ∈ e.readable.toList, decide (c ≠ '[') = true := by
  have hbracket : Text.holds e.readable '[' = false := by
    cases e with
    | primitive type => exact (holds_keyword type).2
    | ofClass name =>
      exact Text.holds_joined_eq_false (by decide) fun s hs => (name.isSegment s hs).no_bracket
  exact fun c hc => decide_eq_true fun heq => Text.holds_eq_false_iff.mp hbracket (heq ▸ hc)

/-- Element types have the same readable name if they are the same, or if one is a class spelled
like the other one. -/
theorem readable_eq_iff (e e' : Element) :
    e.readable = e'.readable ↔ e = e' ∨ e.IsKeywordOf e' ∨ e'.IsKeywordOf e := by
  constructor
  · intro h
    cases e with
    | primitive type =>
      cases e' with
      | primitive type' => exact .inl (congrArg _ (keyword_injective h))
      | ofClass name' =>
        exact .inr (.inl ⟨type, name', rfl, rfl, (keyword_eq_joined_iff type name').mp h⟩)
    | ofClass name =>
      cases e' with
      | primitive type' =>
        exact .inr (.inr ⟨type', name, rfl, rfl, (keyword_eq_joined_iff type' name).mp h.symm⟩)
      | ofClass name' =>
        have hne : ∀ name : QualifiedName, ∀ s ∈ name.segments,
            s ≠ "" ∧ Text.holds s '.' = false := fun name s hs =>
          ⟨(name.isSegment s hs).ne_empty, (name.isSegment s hs).no_dot⟩
        have hsegments : name.segments = name'.segments :=
          Text.joined_inj rfl (hne name) (hne name') h
        exact .inl (congrArg _ (QualifiedName.ext hsegments))
  · rintro (rfl | ⟨type, name, rfl, rfl, hname⟩ | ⟨type, name, rfl, rfl, hname⟩)
    · rfl
    · exact (keyword_eq_joined_iff type name).mpr hname
    · exact ((keyword_eq_joined_iff type name).mpr hname).symm

end Element

/-- The brackets after a readable name begin with a bracket, if there are any. -/
theorem head?_brackets (dimensions : Nat) :
    ∀ c ∈ (List.replicate dimensions ['[', ']']).flatten.head?, decide (c ≠ '[') = false := by
  cases dimensions with
  | zero => exact nofun
  | succ n =>
    rintro c ⟨⟩
    decide

/-- A readable name is cut at its first bracket, so it tells the dimensions and the name of the
element. -/
theorem readable_eq_iff (f g : Form) :
    f.readable = g.readable ↔
      f.dimensions = g.dimensions ∧ f.element.readable = g.element.readable := by
  constructor
  · intro h
    have hlists := congrArg String.toList h
    rw [toList_readable, toList_readable] at hlists
    obtain ⟨helement, hbrackets⟩ := Text.append_inj_of_cut (p := fun c => decide (c ≠ '['))
      f.element.ne_bracket_of_mem_readable (head?_brackets _)
      g.element.ne_bracket_of_mem_readable (head?_brackets _) hlists
    have hcount := congrArg (List.count '[') hbrackets
    exact ⟨by simpa [List.count_flatten] using hcount, String.toList_inj.mp helement⟩
  · rintro ⟨hdimensions, helement⟩
    rw [Form.readable, Form.readable, hdimensions, helement]

/-- The descriptor of a class type comes back from its readable name. -/
theorem ofClassName_readable (dimensions : Nat) (name : QualifiedName) :
    ofClassName (Form.readable ⟨dimensions, .ofClass name⟩) =
      Form.text ⟨dimensions, .ofClass name⟩ := by
  have hname : ∀ c ∈ (Text.joined "." name.segments).toList, decide (c ≠ '[') = true :=
    (Element.ofClass name).ne_bracket_of_mem_readable
  have hnone : '[' ∉ (Text.joined "." name.segments).toList := fun h =>
    absurd (hname _ h) (by decide)
  have hreadable : (Form.readable ⟨dimensions, .ofClass name⟩).toList =
      (Text.joined "." name.segments).toList ++ (List.replicate dimensions ['[', ']']).flatten :=
    toList_readable _
  have hcount : (Form.readable ⟨dimensions, .ofClass name⟩).toList.count '[' = dimensions := by
    rw [hreadable, List.count_append, List.count_eq_zero.mpr hnone]
    simp [List.count_flatten]
  have hslashes : (Text.joined "." name.segments).toList.map (fun c => if c = '.' then '/' else c) =
      (Text.joined "/" name.segments).toList :=
    map_replace_joined '.' '/' rfl rfl fun s hs => (name.isSegment s hs).no_dot
  apply String.toList_inj.mp
  rw [ofClassName, String.toList_ofList, hcount, hreadable,
    Text.takeWhile_append_of_cut hname (head?_brackets dimensions), hslashes, toList_text,
    toList_text_ofClass]
  rfl

/-- A descriptor has one form only. -/
theorem text_injective : Function.Injective Form.text := by
  intro f g h
  have hreadable : f.readable = g.readable := by rw [← name_text, ← name_text, h]
  obtain ⟨hdimensions, helement⟩ := (readable_eq_iff f g).mp hreadable
  have htext : f.element.text = g.element.text := by
    have hlists := congrArg String.toList h
    rw [toList_text, toList_text, hdimensions] at hlists
    exact String.toList_inj.mp (List.append_cancel_left hlists)
  -- A letter is not a text that begins with `L` and goes on.
  have hletter : ∀ {e e' : Element}, e.IsKeywordOf e' → e.text ≠ e'.text := by
    rintro _ _ ⟨type, name, rfl, rfl, -⟩ heq
    have hlists := congrArg (List.length ∘ String.toList) heq
    rw [Function.comp_apply, Function.comp_apply, toList_text_ofClass] at hlists
    simp [Element.text] at hlists
  rcases (Element.readable_eq_iff _ _).mp helement with hsame | hkeyword | hkeyword
  · exact Form.ext hdimensions hsame
  · exact absurd htext (hletter hkeyword)
  · exact absurd htext.symm (hletter hkeyword)

/-- Readable names are faithful to descriptors. Every descriptor of the format has one form. Two of
them have the same readable name exactly if they are the same or, with as many dimensions, one is of
a primitive type and the other one is of a class outside any package that is spelled like its
keyword. The readable name of a class type is made of the segments of the class with dots between
them and a pair of brackets for each dimension, and the descriptor comes back from it. -/
theorem name_faithful :
    Function.Injective Form.text ∧
    (∀ f g : Form, name f.text = name g.text ↔
      f = g ∨ f.dimensions = g.dimensions ∧
        (f.element.IsKeywordOf g.element ∨ g.element.IsKeywordOf f.element)) ∧
    (∀ dimensions type, name (Form.text ⟨dimensions, .primitive type⟩) =
      type.keyword ++ String.join (List.replicate dimensions "[]")) ∧
    ∀ dimensions (className : QualifiedName),
      let descriptor := Form.text ⟨dimensions, .ofClass className⟩
      name descriptor = Text.joined "." className.segments ++
          String.join (List.replicate dimensions "[]") ∧
        ofClassName (name descriptor) = descriptor := by
  refine ⟨text_injective, ?_, fun _ _ => name_text _, ?_⟩
  · intro f g
    rw [name_text, name_text, readable_eq_iff, Element.readable_eq_iff]
    constructor
    · rintro ⟨hdimensions, hsame | hkeyword⟩
      · exact .inl (Form.ext hdimensions hsame)
      · exact .inr ⟨hdimensions, hkeyword⟩
    · rintro (rfl | ⟨hdimensions, hkeyword⟩)
      · exact ⟨rfl, .inl rfl⟩
      · exact ⟨hdimensions, .inr hkeyword⟩
  · intro dimensions className descriptor
    have hname : name descriptor = Form.readable ⟨dimensions, .ofClass className⟩ := name_text _
    exact ⟨hname, by rw [hname, ofClassName_readable]⟩

/-- An array of a class has its name and its descriptor back from it, and two arrays cannot be told
apart by their names. -/
theorem name_faithful_javaLangString :
    name "[Ljava/lang/String;" = "java.lang.String[]" ∧
      ofClassName (name "[Ljava/lang/String;") = "[Ljava/lang/String;" ∧
      name "[[Lint;" = name "[[I" := by
  obtain ⟨-, hsame, -, hclass⟩ := name_faithful
  have htext : Form.text ⟨1, .ofClass .javaLangString⟩ = "[Ljava/lang/String;" := by decide
  have hkeyword : Form.text ⟨2, .ofClass (.ofKeyword .int)⟩ = "[[Lint;" := by decide
  have hprimitive : Form.text ⟨2, .primitive .int⟩ = "[[I" := by decide
  obtain ⟨hname, hback⟩ := hclass 1 .javaLangString
  rw [htext] at hname hback
  refine ⟨hname.trans (by decide), hback, ?_⟩
  rw [← hkeyword, ← hprimitive]
  exact (hsame _ _).mpr (.inr ⟨rfl, .inr ⟨.int, .ofKeyword .int, rfl, rfl, rfl⟩⟩)

end DexListing.Descriptor
