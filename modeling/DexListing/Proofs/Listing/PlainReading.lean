import Mathlib.Data.List.Nodup
import DexListing.Listing.Writer
import DexListing.Proofs.Listing.CodeDumps

/-!
# Reading plain listings

The plain listing with all parts loses nothing that it shows: two classes have the same listing
exactly if they agree in everything that is shown of them (`Plain.SameClass`). This takes names that
can be told from what stands around them, so they must not be empty nor hold white space, commas or
parentheses (`Plain.Readable`).

What kind of line a line is can be seen from how it begins (`Plain.mark`). The lines of a class, and
those of a method, come in sections of different kinds, so the sections can be told from the lines
(`Plain.sections_inj`); and within a line the words can be told apart (`Plain.joined_inj`).
-/

set_option autoImplicit false

namespace DexListing

/-! ## Flags -/

/-- Sets of flags that agree on some of them. -/
def AccessFlags.AgreeOn (shown : List AccessFlag) (a b : AccessFlags) : Prop :=
  ∀ flag ∈ shown, a.has flag = b.has flag

namespace AccessFlags

/-- A word is among the keywords of flags if the table has it for a flag that is set. -/
theorem mem_keywords {flags : AccessFlags} {table : KeywordTable} {word : String} :
    word ∈ flags.keywords table ↔ ∃ entry ∈ table, flags.has entry.1 = true ∧ entry.2 = word := by
  simp [keywords, and_assoc]

/-- Sets of flags have the same keywords exactly if they agree on the flags of the table, provided
that each keyword stands for one flag. -/
theorem keywords_eq_iff {table : KeywordTable} (hnodup : (table.map Prod.snd).Nodup)
    {a b : AccessFlags} :
    a.keywords table = b.keywords table ↔ AgreeOn (table.map Prod.fst) a b := by
  constructor
  · intro h flag hflag
    obtain ⟨entry, hentry, rfl⟩ := List.mem_map.mp hflag
    have hword : ∀ flags : AccessFlags, entry.2 ∈ flags.keywords table ↔
        flags.has entry.1 = true := by
      intro flags
      rw [mem_keywords]
      constructor
      · rintro ⟨other, hother, hhas, hsame⟩
        rwa [List.inj_on_of_nodup_map hnodup hother hentry hsame] at hhas
      · intro hhas
        exact ⟨entry, hentry, hhas, rfl⟩
    rw [Bool.eq_iff_iff, ← hword a, ← hword b, h]
  · intro h
    have hfilter : table.filter (fun entry => a.has entry.1) =
        table.filter fun entry => b.has entry.1 :=
      List.filter_congr fun entry hentry => h entry.1 (List.mem_map_of_mem hentry)
    exact congrArg (List.map Prod.snd) hfilter

end AccessFlags

namespace Plain

/-- The flags that the listing shows of a class. -/
def classFlags : List AccessFlag :=
  [.isPublic, .isPrivate, .isProtected, .isStatic, .isFinal, .isAbstract, .isInterface, .isEnum]

/-- The flags that the listing shows of a field. -/
def fieldFlags : List AccessFlag :=
  [.isPublic, .isPrivate, .isProtected, .isStatic, .isFinal, .isVolatile, .isTransient,
    .isSynthetic]

/-- The flags that the listing shows of a method. -/
def methodFlags : List AccessFlag :=
  [.isPublic, .isPrivate, .isProtected, .isStatic, .isFinal, .isSynchronized, .isNative,
    .isAbstract, .isStrict]

/-- The words of a class, those of its kind among them. -/
def classTable : KeywordTable := classKeywords ++ [(.isInterface, "interface"), (.isEnum, "enum")]

/-- The words of a field. -/
def fieldTable : KeywordTable := fieldKeywords ++ [(.isSynthetic, "synthetic")]

/-- The words of the flags of a class are keywords of one table. -/
theorem classWords_eq (flags : AccessFlags) : classWords flags = flags.keywords classTable := by
  unfold classWords classTable AccessFlags.keywords
  rw [List.filter_append, List.map_append, List.append_assoc]
  cases hi : flags.has .isInterface <;> cases he : flags.has .isEnum <;> simp [hi, he]

/-- The line of a field is its directive, the keywords, the type and the name, one blank apart. -/
theorem fieldLine_eq (f : FieldInfo) : fieldLine f =
    Text.joined " " (".field" :: f.accessFlags.keywords fieldTable ++ [f.typeName, f.name]) := by
  unfold fieldLine fieldTable AccessFlags.keywords
  rw [List.filter_append, List.map_append]
  cases hs : f.accessFlags.has .isSynthetic <;> simp [hs]

/-- The words of a class tell exactly its flags that have a keyword. -/
theorem classWords_eq_iff {a b : AccessFlags} :
    classWords a = classWords b ↔ AccessFlags.AgreeOn classFlags a b := by
  rw [classWords_eq, classWords_eq, AccessFlags.keywords_eq_iff (by decide)]
  exact Iff.rfl

/-- The words of a field tell exactly its flags that have a keyword. -/
theorem fieldWords_eq_iff {a b : AccessFlags} :
    a.keywords fieldTable = b.keywords fieldTable ↔ AccessFlags.AgreeOn fieldFlags a b :=
  AccessFlags.keywords_eq_iff (by decide)

/-- The words of a method tell exactly its flags that have a keyword. -/
theorem methodWords_eq_iff {a b : AccessFlags} :
    a.keywords methodKeywords = b.keywords methodKeywords ↔ AccessFlags.AgreeOn methodFlags a b :=
  AccessFlags.keywords_eq_iff (by decide)

/-! ## Lines by their kind -/

/-- How a line begins, which tells what kind of line it is: an annotation by its sign, and any other
line by what stands before its first blank. -/
def mark (line : String) : List Char :=
  match line.toList with
  | '@' :: _ => ['@']
  | cs => cs.takeWhile (· ≠ ' ')

/-- Sections of lines, each with its kind of line. -/
abbrev Sections : List (List Char) → List (List String) → Prop :=
  List.Forall₂ fun kind lines => ∀ line ∈ lines, mark line = kind

/-- The first line of some sections and of what comes after them. -/
theorem Sections.mark_head {marks : List (List Char)} {parts : List (List String)}
    (hparts : Sections marks parts) {rest : List String} :
    ∀ line ∈ (parts.flatten ++ rest).head?, mark line ∈ marks ∨ line ∈ rest.head? := by
  induction hparts with
  | nil => exact fun line hline => Or.inr hline
  | @cons kind lines marks parts hlines _ ih =>
    intro line hline
    cases lines with
    | nil => exact (ih line hline).imp_left (List.mem_cons_of_mem kind)
    | cons first lines =>
      obtain rfl : first = line := Option.some.inj hline
      exact Or.inl (hlines first List.mem_cons_self ▸ List.mem_cons_self)

/-- Two listings have the same sections, if these are of distinct kinds and nothing of these kinds
comes directly after them. -/
theorem sections_inj {marks : List (List Char)} (hnodup : marks.Nodup)
    {parts others : List (List String)} {rest rest' : List String}
    (hparts : Sections marks parts) (hothers : Sections marks others)
    (hrest : ∀ line ∈ rest.head?, mark line ∉ marks)
    (hrest' : ∀ line ∈ rest'.head?, mark line ∉ marks)
    (h : parts.flatten ++ rest = others.flatten ++ rest') : parts = others ∧ rest = rest' := by
  induction hparts generalizing others with
  | nil =>
    cases hothers
    exact ⟨rfl, h⟩
  | @cons kind lines marks parts hlines hparts ih =>
    cases hothers with
    | @cons _ lines' _ others hlines' hothers =>
      obtain ⟨hkind, hnodup⟩ := List.nodup_cons.mp hnodup
      have hbefore : ∀ {lines : List String}, (∀ line ∈ lines, mark line = kind) →
          ∀ line ∈ lines, decide (mark line = kind) = true :=
        fun hlines line hline => decide_eq_true (hlines line hline)
      have hafter : ∀ {parts : List (List String)} {rest : List String}, Sections marks parts →
          (∀ line ∈ rest.head?, mark line ∉ kind :: marks) →
          ∀ line ∈ (parts.flatten ++ rest).head?, decide (mark line = kind) = false := by
        intro parts rest hparts hrest line hline
        apply decide_eq_false
        rintro rfl
        rcases hparts.mark_head line hline with hmark | hline
        · exact hkind hmark
        · exact hrest line hline List.mem_cons_self
      rw [List.flatten_cons, List.flatten_cons, List.append_assoc, List.append_assoc] at h
      obtain ⟨rfl, hmore⟩ := Text.append_inj_of_cut (hbefore hlines) (hafter hparts hrest)
        (hbefore hlines') (hafter hothers hrest') h
      obtain ⟨rfl, rfl⟩ := ih hnodup hothers
        (fun line hline hmem => hrest line hline (List.mem_cons_of_mem kind hmem))
        (fun line hline hmem => hrest' line hline (List.mem_cons_of_mem kind hmem)) hmore
      exact ⟨rfl, rfl⟩

/-- A line that begins with a word and a blank. -/
theorem mark_eq {line : String} {word : List Char}
    (hline : ∃ after, line.toList = word ++ ' ' :: after) (hblank : ' ' ∉ word)
    (hsign : word.head? ≠ some '@') : mark line = word := by
  obtain ⟨after, hline⟩ := hline
  have htake : (word ++ ' ' :: after).takeWhile (· ≠ ' ') = word := by
    have hword : ∀ c ∈ word, decide (c ≠ ' ') = true :=
      fun c hc => decide_eq_true fun heq => hblank (heq ▸ hc)
    rw [List.takeWhile_append_of_pos hword]
    simp
  unfold mark
  rw [hline]
  split
  · next rest hrest =>
    cases word with
    | nil => exact absurd (List.cons.inj hrest).1 (by decide)
    | cons c word => exact absurd (congrArg some (List.cons.inj hrest).1) hsign
  · exact htake

/-- A line of words is of the kind of the first one. -/
theorem mark_joined {word : String} {words : List String} (hwords : words ≠ [])
    (hblank : ' ' ∉ word.toList) (hsign : word.toList.head? ≠ some '@') :
    mark (Text.joined " " (word :: words)) = word.toList := by
  refine mark_eq ⟨(Text.joined " " words).toList, ?_⟩ hblank hsign
  rw [Text.joined_cons " " word hwords, String.toList_append, String.toList_append,
    List.append_assoc]
  rfl

/-! ## Words -/

/-- The character can stand in a name that can be told from what stands around it. -/
def inWord (c : Char) : Bool :=
  !(Text.isSpace c || [',', '(', ')'].contains c)

/-- A name that can be told from what stands around it. -/
def IsWord (s : String) : Prop :=
  s ≠ "" ∧ ∀ c ∈ s.toList, inWord c = true

-- Decided by a run through the characters of the name, not through all characters there are.
instance (s : String) : Decidable (IsWord s) :=
  decidable_of_iff (s ≠ "" ∧ s.toList.all inWord = true) (and_congr_right' List.all_eq_true)

/-- A word does not hold a character that is in no word. -/
theorem IsWord.holds_eq_false {s : String} (hs : IsWord s) {c : Char} (hc : inWord c = false) :
    Text.holds s c = false := by
  rw [Text.holds_eq_false_iff]
  intro hmem
  exact Bool.false_ne_true (hc.symm.trans (hs.2 c hmem))

/-- Keywords are words if all in their table are. -/
theorem isWord_of_mem_keywords {table : KeywordTable}
    (htable : ∀ word ∈ table.map Prod.snd, IsWord word) {flags : AccessFlags} :
    ∀ word ∈ flags.keywords table, IsWord word := by
  intro word hword
  obtain ⟨entry, hentry, -, rfl⟩ := AccessFlags.mem_keywords.mp hword
  exact htable entry.2 (List.mem_map_of_mem hentry)

/-- Lines of words come apart again. -/
theorem joined_inj {words others : List String} (hwords : ∀ w ∈ words, IsWord w)
    (hothers : ∀ w ∈ others, IsWord w)
    (h : Text.joined " " words = Text.joined " " others) : words = others :=
  Text.joined_inj (show " ".toList = ' ' :: [] from rfl)
    (fun w hw => ⟨(hwords w hw).1, (hwords w hw).holds_eq_false (by decide)⟩)
    (fun w hw => ⟨(hothers w hw).1, (hothers w hw).holds_eq_false (by decide)⟩) h

/-- Lines of the same directive have the same keywords and the same names, if equally many names
stand at their end. -/
theorem directive_inj {directive : String} (hdirective : IsWord directive)
    {words words' names names' : List String} (hwords : ∀ w ∈ words ++ names, IsWord w)
    (hwords' : ∀ w ∈ words' ++ names', IsWord w) (hlength : names.length = names'.length)
    (h : Text.joined " " (directive :: words ++ names) =
      Text.joined " " (directive :: words' ++ names')) : words = words' ∧ names = names' := by
  have hline : ∀ {ws : List String}, (∀ w ∈ ws, IsWord w) → ∀ w ∈ directive :: ws, IsWord w :=
    fun hws => List.forall_mem_cons.mpr ⟨hdirective, hws⟩
  have hlist := joined_inj (hline hwords) (hline hwords') h
  exact List.append_inj' (List.cons.inj hlist).2 hlength

/-! ## The lines of the parts of a class -/

/-- The lines of annotations tell their names. -/
theorem annotationLines_inj {names others : List String} :
    annotationLines names = annotationLines others ↔ names = others :=
  (List.map_injective_iff.mpr fun _ _ => (String.append_right_inj "@").mp).eq_iff

/-- A directive for a text that is not empty tells whether there is one, and which. -/
theorem optionalLine_inj (line : String → String) (hline : Function.Injective line)
    {text other : Option String} (htext : ∀ t ∈ text, t ≠ "") (hother : ∀ t ∈ other, t ≠ "") :
    optionalLine text line = optionalLine other line ↔ text = other := by
  cases text with
  | none =>
    cases other with
    | none => simp
    | some t => simp [optionalLine, hother t rfl]
  | some t =>
    cases other with
    | none => simp [optionalLine, htext t rfl]
    | some u => simp [optionalLine, htext t rfl, hother u rfl, hline.eq_iff]

/-- The flags and the name of a class are listed as words. -/
theorem isWord_class {c : ClassInfo} (hc : IsWord c.name) :
    ∀ w ∈ classWords c.accessFlags ++ [c.name], IsWord w := by
  intro w hw
  rw [classWords_eq] at hw
  rcases List.mem_append.mp hw with hw | hw
  · exact isWord_of_mem_keywords (by decide) w hw
  · exact List.mem_singleton.mp hw ▸ hc

/-- The line of a class tells its name and the flags that have a keyword. -/
theorem classLine_eq_iff {c d : ClassInfo} (hc : IsWord c.name) (hd : IsWord d.name) :
    classLine c = classLine d ↔
      c.name = d.name ∧ AccessFlags.AgreeOn classFlags c.accessFlags d.accessFlags := by
  rw [← classWords_eq_iff]
  constructor
  · intro h
    obtain ⟨hflags, hname⟩ := directive_inj (by decide) (isWord_class hc) (isWord_class hd) rfl h
    exact ⟨List.singleton_inj.mp hname, hflags⟩
  · rintro ⟨hname, hflags⟩
    unfold classLine
    rw [hname, hflags]

/-- Fields that the listing shows alike. -/
structure SameField (f g : FieldInfo) : Prop where
  name : f.name = g.name
  typeName : f.typeName = g.typeName
  flags : AccessFlags.AgreeOn fieldFlags f.accessFlags g.accessFlags

/-- The flags, the type and the name of a field are listed as words. -/
theorem isWord_field {f : FieldInfo} (hf : IsWord f.typeName ∧ IsWord f.name) :
    ∀ w ∈ f.accessFlags.keywords fieldTable ++ [f.typeName, f.name], IsWord w := by
  intro w hw
  rcases List.mem_append.mp hw with hw | hw
  · exact isWord_of_mem_keywords (by decide) w hw
  · rcases List.mem_pair.mp hw with rfl | rfl
    · exact hf.1
    · exact hf.2

/-- The line of a field tells all of it that is listed. -/
theorem fieldLine_eq_iff {f g : FieldInfo} (hf : IsWord f.typeName ∧ IsWord f.name)
    (hg : IsWord g.typeName ∧ IsWord g.name) : fieldLine f = fieldLine g ↔ SameField f g := by
  rw [fieldLine_eq, fieldLine_eq]
  constructor
  · intro h
    obtain ⟨hflags, hnames⟩ := directive_inj (by decide) (isWord_field hf) (isWord_field hg) rfl h
    obtain ⟨htype, hname⟩ := List.cons.inj hnames
    exact ⟨List.singleton_inj.mp hname, htype, fieldWords_eq_iff.mp hflags⟩
  · rintro ⟨hname, htype, hflags⟩
    rw [hname, htype, fieldWords_eq_iff.mpr hflags]

/-- The names of a method can be told from what stands around them. -/
structure ReadableMethod (m : MethodInfo) : Prop where
  name : IsWord m.name
  returnType : IsWord m.returnType
  parameters : ∀ p ∈ m.parameters, IsWord p
  annotations : ∀ a ∈ m.annotations, IsWord a

/-- The line that opens a method: words, and the parameters in parentheses. -/
theorem methodLine_eq (m : MethodInfo) : methodLine m =
    Text.joined " "
        (".method" :: m.accessFlags.keywords methodKeywords ++ [m.returnType, m.name]) ++
      ("(" ++ Text.joined ", " m.parameters ++ ")") := by
  unfold methodLine
  rw [← Text.joined_concat_concat, ← Text.joined_concat_append]
  simp only [String.append_assoc]

/-- The flags, the type and the name of a method are listed as words. -/
theorem ReadableMethod.isWord {m : MethodInfo} (hm : ReadableMethod m) :
    ∀ w ∈ m.accessFlags.keywords methodKeywords ++ [m.returnType, m.name], IsWord w := by
  intro w hw
  rcases List.mem_append.mp hw with hw | hw
  · exact isWord_of_mem_keywords (by decide) w hw
  · rcases List.mem_pair.mp hw with rfl | rfl
    · exact hm.returnType
    · exact hm.name

/-- The line of a method tells its name, its types and the flags that have a keyword. -/
theorem methodLine_eq_iff {m n : MethodInfo} (hm : ReadableMethod m) (hn : ReadableMethod n) :
    methodLine m = methodLine n ↔ m.name = n.name ∧ m.returnType = n.returnType ∧
      m.parameters = n.parameters ∧
      AccessFlags.AgreeOn methodFlags m.accessFlags n.accessFlags := by
  rw [methodLine_eq, methodLine_eq]
  constructor
  · intro h
    have hopen : ∀ {m : MethodInfo}, ReadableMethod m →
        '(' ∉ (Text.joined " " (".method" :: m.accessFlags.keywords methodKeywords ++
          [m.returnType, m.name])).toList := by
      intro m hm
      rw [← Text.holds_eq_false_iff]
      refine Text.holds_joined_eq_false (by decide) (List.forall_mem_cons.mpr ⟨by decide, ?_⟩)
      exact fun w hw => (hm.isWord w hw).holds_eq_false (by decide)
    have hlists := congrArg String.toList h
    simp only [String.toList_append, show "(".toList = ['('] from rfl,
      List.singleton_append] at hlists
    obtain ⟨hwords, hparameters⟩ := Text.append_cons_inj (hopen hm) (hopen hn) hlists
    obtain ⟨hflags, hnames⟩ := directive_inj (by decide) hm.isWord hn.isWord rfl
      (String.toList_inj.mp hwords)
    obtain ⟨hreturn, hname⟩ := List.cons.inj hnames
    refine ⟨List.singleton_inj.mp hname, hreturn, ?_, methodWords_eq_iff.mp hflags⟩
    have hcomma : ∀ {names : List String}, (∀ p ∈ names, IsWord p) →
        ∀ p ∈ names, p ≠ "" ∧ Text.holds p ',' = false :=
      fun hnames p hp => ⟨(hnames p hp).1, (hnames p hp).holds_eq_false (by decide)⟩
    exact Text.joined_inj (show ", ".toList = ',' :: [' '] from rfl) (hcomma hm.parameters)
      (hcomma hn.parameters) (String.toList_inj.mp (List.append_cancel_right hparameters))
  · rintro ⟨hname, hreturn, hparameters, hflags⟩
    rw [hname, hreturn, hparameters, methodWords_eq_iff.mpr hflags]

/-- The code is shown completely, and the registers of a method that has code. -/
theorem codeLines_eq_iff {m n : MethodInfo} :
    codeLines m = codeLines n ↔
      m.code = n.code ∧ (m.code ≠ [] → m.registers = n.registers) := by
  have hlines : ∀ {units others : List Nat},
      (CodeDump.lines units).map ("    " ++ ·) = (CodeDump.lines others).map ("    " ++ ·) ↔
        units = others := by
    intro units others
    rw [(List.map_injective_iff.mpr fun _ _ => (String.append_right_inj "    ").mp).eq_iff]
    exact CodeDump.linesFrom_inj
  have hnumber : ("    .registers " ++ toString m.registers =
      "    .registers " ++ toString n.registers) ↔ m.registers = n.registers := by
    rw [String.append_right_inj]
    constructor
    · intro h
      rw [Nat.toString_eq_ofList_toDigits, Nat.toString_eq_ofList_toDigits] at h
      have hvalue := congrArg (Nat.ofDigitChars 10 · 0) (String.ofList_injective h)
      simpa only [Nat.ofDigitChars_ten_toDigits] using hvalue
    · rintro h
      rw [h]
  unfold codeLines
  by_cases hm : m.code = []
  · by_cases hn : n.code = []
    · simp [hm, hn]
    · simp [hm, hn, Ne.symm hn]
  · by_cases hn : n.code = []
    · simp [hm, hn]
    · rw [if_neg hm, if_neg hn, List.cons_eq_cons, hlines, hnumber]
      exact ⟨fun h => ⟨h.2, fun _ => h.1⟩, fun h => ⟨h.2 hm, h.1⟩⟩

/-! ## Methods -/

/-- Methods that the listing shows alike. Registers are shown only with code. -/
structure SameMethod (m n : MethodInfo) : Prop where
  name : m.name = n.name
  returnType : m.returnType = n.returnType
  parameters : m.parameters = n.parameters
  flags : AccessFlags.AgreeOn methodFlags m.accessFlags n.accessFlags
  annotations : m.annotations = n.annotations
  code : m.code = n.code
  registers : m.code ≠ [] → m.registers = n.registers

/-- The selection of everything. -/
abbrev everything : Selection := Selection.ofList DisplayOption.all

/-- If all parts are shown, nothing is left out. -/
theorem showing_everything (part : DisplayOption) (lines : List String) :
    everything.showing part lines = lines := by
  cases part <;> rfl

/-- The sections of a method before its end. -/
def methodSections (m : MethodInfo) : List (List String) :=
  [annotationLines m.annotations, [methodLine m], codeLines m]

/-- The kinds of their lines; lines of code begin with blanks. -/
def methodMarks : List (List Char) := ["@".toList, ".method".toList, []]

/-- A method is listed as its sections between a blank line and the line that ends it. -/
theorem methodLines_eq (m : MethodInfo) :
    methodLines everything m = "" :: (methodSections m).flatten ++ [".end method"] := by
  unfold methodLines methodSections
  rw [showing_everything, showing_everything]
  simp

/-- The lines of annotations are told by their at sign. -/
theorem mark_annotationLines (names : List String) :
    ∀ line ∈ annotationLines names, mark line = "@".toList := by
  intro line hline
  obtain ⟨name, -, rfl⟩ := List.mem_map.mp hline
  unfold mark
  rw [String.toList_append]
  rfl

/-- The sections of a method have a mark each, so they can be told apart. -/
theorem sections_method (m : MethodInfo) : Sections methodMarks (methodSections m) := by
  refine .cons (mark_annotationLines m.annotations) (.cons ?_ (.cons ?_ .nil))
  · intro line hline
    rw [List.mem_singleton.mp hline]
    exact mark_joined (by simp) (by decide) (by decide)
  · intro line hline
    have hindented : ∃ text, line = "    " ++ text := by
      unfold codeLines at hline
      split at hline
      · exact nomatch hline
      · rcases List.mem_cons.mp hline with rfl | hline
        · exact ⟨".registers " ++ toString m.registers, by rw [← String.append_assoc]; rfl⟩
        · obtain ⟨text, -, rfl⟩ := List.mem_map.mp hline
          exact ⟨text, rfl⟩
    obtain ⟨text, rfl⟩ := hindented
    exact mark_eq ⟨_, by rw [String.toList_append]; rfl⟩ (by simp) (by simp)

/-- A method can be told from its lines, whatever comes after them. -/
theorem methodLines_append_eq_iff {m n : MethodInfo} (hm : ReadableMethod m)
    (hn : ReadableMethod n) {rest rest' : List String} :
    methodLines everything m ++ rest = methodLines everything n ++ rest' ↔
      SameMethod m n ∧ rest = rest' := by
  rw [methodLines_eq, methodLines_eq]
  constructor
  · intro h
    have hend : ∀ rest : List String,
        ∀ line ∈ (".end method" :: rest).head?, mark line ∉ methodMarks := by
      intro rest line hline
      rw [← Option.some.inj hline]
      decide
    simp only [List.cons_append, List.append_assoc, List.cons.injEq, true_and] at h
    obtain ⟨hparts, hrest⟩ := sections_inj (by decide) (sections_method m) (sections_method n)
      (hend _) (hend _) h
    simp only [methodSections, List.cons.injEq, and_true] at hparts
    obtain ⟨hannotations, hline, hcode⟩ := hparts
    obtain ⟨hname, hreturn, hparameters, hflags⟩ := (methodLine_eq_iff hm hn).mp hline
    obtain ⟨hcode, hregisters⟩ := codeLines_eq_iff.mp hcode
    exact ⟨⟨hname, hreturn, hparameters, hflags, annotationLines_inj.mp hannotations, hcode,
      hregisters⟩, (List.cons.inj hrest).2⟩
  · rintro ⟨hsame, rfl⟩
    have hparts : methodSections m = methodSections n := by
      unfold methodSections
      rw [hsame.annotations, codeLines_eq_iff.mpr ⟨hsame.code, hsame.registers⟩,
        (methodLine_eq_iff hm hn).mpr
          ⟨hsame.name, hsame.returnType, hsame.parameters, hsame.flags⟩]
    rw [hparts]

/-- The methods of a class can be told from their lines. -/
theorem methods_eq_iff {methods others : List MethodInfo}
    (hmethods : ∀ m ∈ methods, ReadableMethod m) (hothers : ∀ m ∈ others, ReadableMethod m) :
    methods.flatMap (methodLines everything) ++ [""] =
        others.flatMap (methodLines everything) ++ [""] ↔
      List.Forall₂ SameMethod methods others := by
  have hlonger : ∀ (m : MethodInfo) (rest : List String),
      methodLines everything m ++ rest ≠ [""] := by
    intro m rest h
    rw [methodLines_eq, methodSections] at h
    simp at h
  induction methods generalizing others with
  | nil =>
    cases others with
    | nil => exact iff_of_true rfl .nil
    | cons n others =>
      rw [List.flatMap_cons, List.append_assoc]
      exact iff_of_false (hlonger n _).symm nofun
  | cons m methods ih =>
    cases others with
    | nil =>
      rw [List.flatMap_cons, List.append_assoc]
      exact iff_of_false (hlonger m _) nofun
    | cons n others =>
      obtain ⟨hm, hmethods⟩ := List.forall_mem_cons.mp hmethods
      obtain ⟨hn, hothers⟩ := List.forall_mem_cons.mp hothers
      rw [List.flatMap_cons, List.flatMap_cons, List.append_assoc, List.append_assoc,
        methodLines_append_eq_iff hm hn, List.forall₂_cons]
      exact and_congr_right' (ih hmethods hothers)

/-- What comes after the fields of a class begins with an empty line. -/
theorem head_methods (methods : List MethodInfo) :
    ∀ line ∈ (methods.flatMap (methodLines everything) ++ [""]).head?, line = "" := by
  intro line hline
  cases methods with
  | nil => exact (Option.some.inj hline).symm
  | cons m methods =>
    rw [List.flatMap_cons, methodLines_eq] at hline
    exact (Option.some.inj hline).symm

/-! ## Classes -/

/-- The names of a class and its members can be told from what stands around them. A source file
may have any name on one line. -/
structure Readable (c : ClassInfo) : Prop where
  name : IsWord c.name
  superclass : ∀ s ∈ c.superclass, IsWord s
  interfaces : ∀ i ∈ c.interfaces, IsWord i
  sourceFile : ∀ s ∈ c.sourceFile, s ≠ "" ∧ Text.holds s '\n' = false
  annotations : ∀ a ∈ c.annotations, IsWord a
  fields : ∀ f ∈ c.fields, IsWord f.typeName ∧ IsWord f.name
  methods : ∀ m ∈ c.methods, ReadableMethod m

/-- Classes that the listing shows alike. -/
structure SameClass (c d : ClassInfo) : Prop where
  name : c.name = d.name
  flags : AccessFlags.AgreeOn classFlags c.accessFlags d.accessFlags
  superclass : c.superclass = d.superclass
  interfaces : c.interfaces = d.interfaces
  sourceFile : c.sourceFile = d.sourceFile
  annotations : c.annotations = d.annotations
  fields : List.Forall₂ SameField c.fields d.fields
  methods : List.Forall₂ SameMethod c.methods d.methods

/-- The sections of a class before its methods. -/
def classSections (c : ClassInfo) : List (List String) :=
  [annotationLines c.annotations, [classLine c], optionalLine c.superclass (".super " ++ ·),
    c.interfaces.map (".implements " ++ ·),
    optionalLine c.sourceFile (fun file => ".source \"" ++ file ++ "\""), c.fields.map fieldLine]

/-- The kinds of their lines. -/
def classMarks : List (List Char) :=
  ["@", ".class", ".super", ".implements", ".source", ".field"].map String.toList

/-- A class is listed as its sections, its methods, and a blank line. -/
theorem lines_eq (c : ClassInfo) : lines everything c =
    (classSections c).flatten ++ (c.methods.flatMap (methodLines everything) ++ [""]) := by
  unfold lines detailLines classSections
  simp only [showing_everything]
  simp

/-- A line that may be left out has its mark if it is there. -/
theorem mark_optionalLine {text : Option String} {line : String → String} {kind : List Char}
    (hline : ∀ t, mark (line t) = kind) : ∀ l ∈ optionalLine text line, mark l = kind := by
  intro l hl
  unfold optionalLine at hl
  split at hl
  · exact absurd hl List.not_mem_nil
  · split at hl
    · exact absurd hl List.not_mem_nil
    · rw [List.mem_singleton.mp hl]
      exact hline _

/-- The sections of a class have a mark each, so they can be told apart. -/
theorem sections_class (c : ClassInfo) : Sections classMarks (classSections c) := by
  have hdirective : ∀ (word : String) (after : List Char) {directive : String},
      directive.toList = word.toList ++ ' ' :: after → ' ' ∉ word.toList →
      word.toList.head? ≠ some '@' → ∀ text, mark (directive ++ text) = word.toList := by
    intro word after directive hlist hblank hsign text
    refine mark_eq ⟨after ++ text.toList, ?_⟩ hblank hsign
    rw [String.toList_append, hlist, List.append_assoc]
    rfl
  refine .cons (mark_annotationLines c.annotations)
    (.cons ?_ (.cons ?_ (.cons ?_ (.cons ?_ (.cons ?_ .nil)))))
  · intro line hline
    rw [List.mem_singleton.mp hline]
    exact mark_joined (by simp) (by decide) (by decide)
  · exact mark_optionalLine (hdirective ".super" [] rfl (by decide) (by decide))
  · intro line hline
    obtain ⟨name, -, rfl⟩ := List.mem_map.mp hline
    exact hdirective ".implements" [] rfl (by decide) (by decide) name
  · refine mark_optionalLine fun file => ?_
    rw [String.append_assoc]
    exact hdirective ".source" ['"'] rfl (by decide) (by decide) _
  · intro line hline
    obtain ⟨f, -, rfl⟩ := List.mem_map.mp hline
    exact mark_joined (by simp) (by decide) (by decide)

/-- The fields of a class can be told from their lines. -/
theorem fields_eq_iff {fields others : List FieldInfo}
    (hfields : ∀ f ∈ fields, IsWord f.typeName ∧ IsWord f.name)
    (hothers : ∀ f ∈ others, IsWord f.typeName ∧ IsWord f.name) :
    fields.map fieldLine = others.map fieldLine ↔ List.Forall₂ SameField fields others := by
  induction fields generalizing others with
  | nil => cases others <;> simp
  | cons f fields ih =>
    cases others with
    | nil => simp
    | cons g others =>
      obtain ⟨hf, hfields⟩ := List.forall_mem_cons.mp hfields
      obtain ⟨hg, hothers⟩ := List.forall_mem_cons.mp hothers
      rw [List.map_cons, List.map_cons, List.cons_eq_cons, fieldLine_eq_iff hf hg,
        List.forall₂_cons]
      exact and_congr_right' (ih hfields hothers)

/-- The lines of two classes are the same exactly if the classes are shown alike. -/
theorem lines_eq_iff {c d : ClassInfo} (hc : Readable c) (hd : Readable d) :
    lines everything c = lines everything d ↔ SameClass c d := by
  have hsuper := optionalLine_inj (".super " ++ ·)
    (fun _ _ => (String.append_right_inj ".super ").mp)
    (fun s hs => (hc.superclass s hs).1) (fun s hs => (hd.superclass s hs).1)
  have hsource := optionalLine_inj (fun file => ".source \"" ++ file ++ "\"")
    (fun _ _ h => (String.append_right_inj _).mp ((String.append_left_inj "\"").mp h))
    (fun s hs => (hc.sourceFile s hs).1) (fun s hs => (hd.sourceFile s hs).1)
  have hinterfaces : c.interfaces.map (".implements " ++ ·) =
      d.interfaces.map (".implements " ++ ·) ↔ c.interfaces = d.interfaces :=
    (List.map_injective_iff.mpr fun _ _ => (String.append_right_inj ".implements ").mp).eq_iff
  have hparts : classSections c = classSections d ↔
      c.annotations = d.annotations ∧
        (c.name = d.name ∧ AccessFlags.AgreeOn classFlags c.accessFlags d.accessFlags) ∧
        c.superclass = d.superclass ∧ c.interfaces = d.interfaces ∧
        c.sourceFile = d.sourceFile ∧ List.Forall₂ SameField c.fields d.fields := by
    simp only [classSections, List.cons.injEq, and_true, annotationLines_inj,
      classLine_eq_iff hc.name hd.name, hsuper, hinterfaces, hsource,
      fields_eq_iff hc.fields hd.fields]
  rw [lines_eq, lines_eq]
  constructor
  · intro h
    have hempty : ∀ c : ClassInfo, ∀ line ∈
        (c.methods.flatMap (methodLines everything) ++ [""]).head?, mark line ∉ classMarks := by
      intro c line hline
      rw [head_methods c.methods line hline]
      decide
    obtain ⟨hsections, hmethods⟩ := sections_inj (by decide) (sections_class c) (sections_class d)
      (hempty c) (hempty d) h
    obtain ⟨hannotations, ⟨hname, hflags⟩, hsuper, hinterfaces, hsource, hfields⟩ :=
      hparts.mp hsections
    exact ⟨hname, hflags, hsuper, hinterfaces, hsource, hannotations, hfields,
      (methods_eq_iff hc.methods hd.methods).mp hmethods⟩
  · intro h
    rw [hparts.mpr ⟨h.annotations, ⟨h.name, h.flags⟩, h.superclass, h.interfaces, h.sourceFile,
      h.fields⟩, (methods_eq_iff hc.methods hd.methods).mpr h.methods]

/-! ## Lines of the text -/

/-- A word does not go over the end of a line. -/
theorem IsWord.oneLine {s : String} (hs : IsWord s) : Text.holds s '\n' = false :=
  hs.holds_eq_false (by decide)

/-- A line of words is one line. -/
theorem oneLine_joined {directive : String} (hdirective : IsWord directive) {words : List String}
    (hwords : ∀ w ∈ words, IsWord w) :
    Text.holds (Text.joined " " (directive :: words)) '\n' = false :=
  Text.holds_joined_eq_false (by decide)
    (List.forall_mem_cons.mpr ⟨hdirective.oneLine, fun w hw => (hwords w hw).oneLine⟩)

/-- The lines of annotations are one line each. -/
theorem oneLine_annotationLines {names : List String} (hnames : ∀ a ∈ names, IsWord a) :
    ∀ line ∈ annotationLines names, Text.holds line '\n' = false := by
  intro line hline
  obtain ⟨name, hname, rfl⟩ := List.mem_map.mp hline
  rw [Text.holds_append, (hnames name hname).oneLine]
  rfl

/-- A line that may be left out is one line if it is there. -/
theorem oneLine_optionalLine {text : Option String} {line : String → String}
    (htext : ∀ s ∈ text, Text.holds (line s) '\n' = false) :
    ∀ l ∈ optionalLine text line, Text.holds l '\n' = false := by
  intro l hl
  unfold optionalLine at hl
  split at hl
  · exact absurd hl List.not_mem_nil
  · next t =>
    split at hl
    · exact absurd hl List.not_mem_nil
    · rw [List.mem_singleton.mp hl]
      exact htext t rfl

/-- The lines of code are one line each. -/
theorem oneLine_codeLines (m : MethodInfo) :
    ∀ line ∈ codeLines m, Text.holds line '\n' = false := by
  intro line hline
  unfold codeLines at hline
  split at hline
  · exact nomatch hline
  · rcases List.mem_cons.mp hline with rfl | hline
    · rw [Text.holds_append, Text.holds_numeral (by decide)]
      rfl
    · obtain ⟨text, htext, rfl⟩ := List.mem_map.mp hline
      rw [Text.holds_append, CodeDump.holds_of_mem_linesFrom (by decide) (by decide) text htext]
      rfl

/-- The lines of a readable method are one line each. -/
theorem oneLine_methodLines {m : MethodInfo} (hm : ReadableMethod m) :
    ∀ line ∈ methodLines everything m, Text.holds line '\n' = false := by
  have hopening : Text.holds (methodLine m) '\n' = false := by
    have hparameters : Text.holds (Text.joined ", " m.parameters) '\n' = false :=
      Text.holds_joined_eq_false (by decide) fun p hp => (hm.parameters p hp).oneLine
    rw [methodLine_eq, Text.holds_append, Text.holds_append, Text.holds_append, hparameters,
      List.cons_append, oneLine_joined (by decide) hm.isWord]
    rfl
  unfold methodLines
  simp only [showing_everything, List.forall_mem_append, List.forall_mem_cons]
  exact ⟨⟨⟨⟨rfl, oneLine_annotationLines hm.annotations⟩, hopening, List.forall_mem_nil _⟩,
    oneLine_codeLines m⟩, rfl, List.forall_mem_nil _⟩

/-- The lines of a readable class are one line each, so the text can be cut into them again. -/
theorem oneLine_lines {c : ClassInfo} (hc : Readable c) :
    ∀ line ∈ lines everything c, Text.holds line '\n' = false := by
  have hclass : Text.holds (classLine c) '\n' = false :=
    oneLine_joined (by decide) (isWord_class hc.name)
  have hdetails : ∀ line ∈ detailLines c, Text.holds line '\n' = false := by
    simp only [detailLines, List.forall_mem_append, List.forall_mem_map]
    refine ⟨⟨oneLine_optionalLine fun s hs => ?_, fun i hi => ?_⟩,
      oneLine_optionalLine fun s hs => ?_⟩
    · rw [Text.holds_append, (hc.superclass s hs).oneLine]
      rfl
    · rw [Text.holds_append, (hc.interfaces i hi).oneLine]
      rfl
    · rw [Text.holds_append, Text.holds_append, (hc.sourceFile s hs).2]
      rfl
  have hfields : ∀ line ∈ c.fields.map fieldLine, Text.holds line '\n' = false := by
    intro line hline
    obtain ⟨f, hf, rfl⟩ := List.mem_map.mp hline
    rw [fieldLine_eq]
    exact oneLine_joined (by decide) (isWord_field (hc.fields f hf))
  have hmethods : ∀ line ∈ c.methods.flatMap (methodLines everything),
      Text.holds line '\n' = false := by
    intro line hline
    obtain ⟨m, hm, hline⟩ := List.mem_flatMap.mp hline
    exact oneLine_methodLines (hc.methods m hm) line hline
  unfold lines
  simp only [showing_everything, List.forall_mem_append, List.forall_mem_cons]
  exact ⟨⟨⟨⟨⟨oneLine_annotationLines hc.annotations, hclass, List.forall_mem_nil _⟩, hdetails⟩,
    hfields⟩, hmethods⟩, rfl, List.forall_mem_nil _⟩

/-- The listing of a class with all its parts shows exactly what it says of the class: two classes
have the same text just if they are shown alike. -/
theorem render_eq_iff_sameClass {c d : ClassInfo} (hc : Readable c) (hd : Readable d) :
    Writer.plain.render (Selection.ofList DisplayOption.all) c =
        Writer.plain.render (Selection.ofList DisplayOption.all) d ↔
      SameClass c d := by
  rw [← lines_eq_iff hc hd]
  constructor
  · exact Text.unlines_inj (oneLine_lines hc) (oneLine_lines hd)
  · exact fun h => congrArg Text.unlines h

/-- A class with a field and a method without code. -/
def shape : ClassInfo where
  name := "geo.Shape"
  accessFlags := 0x401
  superclass := some "java.lang.Object"
  interfaces := ["java.io.Serializable"]
  sourceFile := some "Shape of things.java"
  annotations := []
  fields := [⟨"origin", "geo.Point[]", 0x2, []⟩]
  methods := [⟨"area", "double", ["int", "long"], 0x401, ["Pure"], 0, []⟩]

/-- The class, with annotations of its field, registers of its method and one more flag. None of
these is shown. -/
def annotatedShape : ClassInfo :=
  { shape with
    accessFlags := 0x2401
    fields := [⟨"origin", "geo.Point[]", 0x2, ["NonNull"]⟩]
    methods := [⟨"area", "double", ["int", "long"], 0x401, ["Pure"], 7, []⟩] }

/-- The class and its annotated form are listed alike just if they are shown alike. -/
theorem render_eq_iff_sameClass_shape : Readable shape ∧ Readable annotatedShape ∧
    (Writer.plain.render (Selection.ofList DisplayOption.all) shape =
        Writer.plain.render (Selection.ofList DisplayOption.all) annotatedShape ↔
      SameClass shape annotatedShape) := by
  have hshape : Readable shape :=
    ⟨by decide, by decide, by decide, by decide, by decide, by decide,
      List.forall_mem_singleton.mpr ⟨by decide, by decide, by decide, by decide⟩⟩
  have hannotated : Readable annotatedShape :=
    ⟨by decide, by decide, by decide, by decide, by decide, by decide,
      List.forall_mem_singleton.mpr ⟨by decide, by decide, by decide, by decide⟩⟩
  exact ⟨hshape, hannotated, render_eq_iff_sameClass hshape hannotated⟩

end Plain

end DexListing
