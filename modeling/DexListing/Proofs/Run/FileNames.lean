import DexListing.Proofs.File.Walks
import DexListing.Proofs.Text.Joining
import DexListing.Run.Router
import Mathlib.Data.List.Basic

/-!
# The names of class files

The parts of a class name hold no dot, so none of them stays in a directory or goes up. If they
hold no slash either, each one is a single name in a path (`Router.isName_of_mem_fileParts`), and
the path name of the file of a class is that of the output directory with these names after it
(`Router.pathIn_eq`). A path name that is written as text and read again is the same path name
(`PathName.ofText_text_ofText`).
-/

set_option autoImplicit false

namespace DexListing

namespace Text

/-- A piece does not hold the character that the text was cut at. -/
theorem holds_eq_false_of_mem_pieces {separator : Char} {s part : String}
    (h : part ∈ pieces separator s) : holds part separator = false := by
  have hlists : ∀ (cs piece : List Char), piece ∈ cs.splitOn separator → separator ∉ piece := by
    intro cs
    induction cs with
    | nil => simp
    | cons c cs ih =>
      intro piece hpiece
      rw [List.splitOn_cons_eq_if_modifyHead] at hpiece
      obtain ⟨first, more, hsplit⟩ := List.exists_cons_of_ne_nil (List.splitOn_ne_nil separator cs)
      split at hpiece
      · rcases List.mem_cons.mp hpiece with rfl | hrest
        · exact List.not_mem_nil
        · exact ih piece hrest
      · next hne =>
        rw [hsplit, List.modifyHead_cons] at hpiece
        rcases List.mem_cons.mp hpiece with rfl | hrest
        · have hfirst := ih first (hsplit ▸ List.mem_cons_self)
          intro hmem
          rcases List.mem_cons.mp hmem with rfl | hmem
          · exact hne (beq_self_eq_true _)
          · exact hfirst hmem
        · exact ih piece (hsplit ▸ List.mem_cons_of_mem first hrest)
  obtain ⟨piece, hpiece, rfl⟩ := List.mem_map.mp h
  simp [holds, hlists _ _ hpiece]

/-- A segment is a piece that is not empty. -/
theorem mem_segments {separator : Char} {s part : String} :
    part ∈ segments separator s ↔ part ∈ pieces separator s ∧ part ≠ "" := by
  simp [segments]

/-- A text that does not hold the character is its own only piece. -/
theorem pieces_of_holds_eq_false {separator : Char} {s : String}
    (h : holds s separator = false) : pieces separator s = [s] := by
  have hnot : separator ∉ s.toList := by simpa [holds] using h
  simp [pieces, List.splitOn_eq_singleton hnot]

/-- A list that is joined from lists by one value has no other values than they have. -/
theorem mem_intercalate_singleton {α : Type} {a separator : α} (hne : a ≠ separator)
    (pieces : List (List α)) :
    a ∈ [separator].intercalate pieces ↔ ∃ piece ∈ pieces, a ∈ piece := by
  induction pieces with
  | nil => simp
  | cons piece rest ih =>
    cases rest with
    | nil => simp
    | cons next rest =>
      rw [List.intercalate_cons_cons, List.mem_append, List.mem_append, List.mem_singleton, ih,
        List.exists_mem_cons_iff]
      simp [hne]

/-- A joined text holds what the texts hold. -/
theorem holds_joined {c : Char} (hc : c ≠ '/') (texts : List String) :
    holds (joined "/" texts) c = true ↔ ∃ text ∈ texts, holds text c = true := by
  have hmem := mem_intercalate_singleton hc (texts.map String.toList)
  unfold holds joined
  rw [String.toList_intercalate, List.contains_iff_mem]
  simpa using hmem

/-- A text holds what its segments hold, besides the character that it is cut at. -/
theorem holds_iff_segments {c separator : Char} (hc : c ≠ separator) (s : String) :
    holds s c = true ↔ ∃ part ∈ segments separator s, holds part c = true := by
  have hmem := mem_intercalate_singleton hc (s.toList.splitOn separator)
  rw [List.intercalate_splitOn] at hmem
  have hpieces : holds s c = true ↔ ∃ part ∈ pieces separator s, holds part c = true := by
    simpa [holds, pieces] using hmem
  rw [hpieces]
  constructor
  · rintro ⟨part, hpart, hholds⟩
    refine ⟨part, mem_segments.mpr ⟨hpart, ?_⟩, hholds⟩
    rintro rfl
    exact Bool.false_ne_true hholds
  · rintro ⟨part, hpart, hholds⟩
    exact ⟨part, (mem_segments.mp hpart).1, hholds⟩

end Text

/-! ## Names in path names -/

/-- A text without a dot that is not empty is a name, and so is one with anything after it. -/
theorem IsName.append_of_no_dot {part : String} (hne : part ≠ "")
    (hdot : Text.holds part '.' = false) (more : String) : IsName (part ++ more) := by
  obtain ⟨c, cs, hcs⟩ := List.exists_cons_of_ne_nil (String.toList_eq_nil_iff.not.mpr hne)
  have hc : c ≠ '.' := by
    intro heq
    simp [Text.holds, hcs, heq] at hdot
  have hhead : (part ++ more).toList = c :: (cs ++ more.toList) := by
    rw [String.toList_append, hcs, List.cons_append]
  refine ⟨?_, ?_⟩
  · rintro (heq | heq)
    · rw [heq, String.toList_empty] at hhead
      cases hhead
    · rw [heq] at hhead
      exact hc (List.cons.inj hhead).1.symm
  · intro heq
    rw [heq] at hhead
    exact hc (List.cons.inj hhead).1.symm

namespace PathName

/-- The text of a path name has no zero character if none of its parts has. -/
theorem hasNul_eq_false_iff (p : PathName) :
    p.hasNul = false ↔ ∀ part ∈ p.parts, Text.holds part '\x00' = false := by
  have hslash : '\x00' ≠ '/' := by decide
  have hjoined : Text.holds (Text.joined "/" p.parts) '\x00' = false ↔
      ∀ part ∈ p.parts, Text.holds part '\x00' = false := by
    simp only [Bool.eq_false_iff, ne_eq, Text.holds_joined hslash, not_exists, not_and]
  unfold hasNul text
  rw [← hjoined]
  cases p.root with
  | relative =>
    dsimp only
    by_cases hparts : p.parts = []
    · rw [if_pos hparts, hparts]
      decide
    · rw [if_neg hparts]
  | slash =>
    dsimp only
    rw [Text.holds_append]
    simp [Text.holds]
  | twoSlashes =>
    dsimp only
    rw [Text.holds_append]
    simp [Text.holds]

/-- What does not begin with a slash is relative. -/
theorem rootOf_append {cs : List Char} (hne : cs ≠ []) (hslash : '/' ∉ cs) (more : List Char) :
    rootOf (cs ++ more) = .relative := by
  obtain ⟨c, rest, rfl⟩ := List.exists_cons_of_ne_nil hne
  have hc : c ≠ '/' := fun heq => hslash (heq ▸ List.mem_cons_self)
  simp [rootOf, hc]

/-- A name without a slash is a relative path name with one part. -/
theorem ofText_of_isName {name : String} (hname : IsName name)
    (hslash : Text.holds name '/' = false) : ofText name = ⟨.relative, [name]⟩ := by
  have hempty : name ≠ "" := fun h => hname.1 (Or.inl h)
  have hdot : name ≠ "." := fun h => hname.1 (Or.inr h)
  have hparts : partsOf name = [name] := by
    simp [partsOf, Text.segments, Text.pieces_of_holds_eq_false hslash, hempty, hdot]
  have hroot : rootOf name.toList = .relative := by
    rw [← List.append_nil name.toList]
    exact rootOf_append (String.toList_eq_nil_iff.not.mpr hempty)
      (Text.holds_eq_false_iff.mp hslash) []
  rw [ofText, hparts, hroot]

/-- A part of a path name: it is not empty, not a dot, and holds no slash. -/
structure IsPart (part : String) : Prop where
  ne_empty : part ≠ ""
  ne_dot : part ≠ "."
  no_slash : Text.holds part '/' = false

/-- What a text is cut into are parts of path names. -/
theorem isPart_of_mem_partsOf {text part : String} (h : part ∈ partsOf text) : IsPart part := by
  simp only [partsOf, List.mem_filter, ne_eq, decide_not, Bool.not_eq_true',
    decide_eq_false_iff_not] at h
  obtain ⟨hsegment, hdot⟩ := h
  obtain ⟨hpiece, hne⟩ := Text.mem_segments.mp hsegment
  exact ⟨hne, hdot, Text.holds_eq_false_of_mem_pieces hpiece⟩

/-- Parts that are joined come apart again. -/
theorem partsOf_joined {parts : List String} (hparts : ∀ part ∈ parts, IsPart part) :
    partsOf (Text.joined "/" parts) = parts := by
  cases hnil : parts with
  | nil => decide
  | cons part rest =>
    rw [← hnil]
    have hpieces : Text.pieces '/' (Text.joined "/" parts) = parts :=
      Text.pieces_joined rfl (by simp [hnil]) fun part hpart => (hparts part hpart).no_slash
    rw [partsOf, Text.segments, hpieces, List.filter_filter, List.filter_eq_self]
    intro part hpart
    simp [(hparts part hpart).ne_empty, (hparts part hpart).ne_dot]

/-- A slash comes between the parts of two texts. -/
theorem partsOf_append_slash (s t : String) :
    partsOf (s ++ "/" ++ t) = partsOf s ++ partsOf t := by
  unfold partsOf Text.segments
  rw [Text.pieces_append rfl, List.filter_append, List.filter_append]

/-- A slash before a text adds no part. -/
theorem partsOf_slash (text : String) : partsOf ("/" ++ text) = partsOf text :=
  calc partsOf ("/" ++ text)
      = partsOf "" ++ partsOf text := by rw [← partsOf_append_slash, String.empty_append]
    _ = partsOf text := rfl

/-- Parts that are joined do not begin with a slash. -/
theorem takeWhile_joined {parts : List String} (hparts : ∀ part ∈ parts, IsPart part) :
    (Text.joined "/" parts).toList.takeWhile (· = '/') = [] := by
  cases parts with
  | nil => decide
  | cons part rest =>
    obtain ⟨hne, -, hslash⟩ := hparts part List.mem_cons_self
    obtain ⟨c, cs, hcs⟩ := List.exists_cons_of_ne_nil (String.toList_eq_nil_iff.not.mpr hne)
    have hc : c ≠ '/' := by
      rintro rfl
      simp [Text.holds, hcs] at hslash
    have hhead : ∃ more, (Text.joined "/" (part :: rest)).toList = c :: more := by
      unfold Text.joined
      rw [String.toList_intercalate, List.map_cons, hcs]
      cases rest with
      | nil => exact ⟨cs, by simp⟩
      | cons next rest => exact ⟨_, by rw [List.map_cons, List.intercalate_cons_cons]; rfl⟩
    obtain ⟨more, hmore⟩ := hhead
    rw [hmore, List.takeWhile_cons_of_neg (by simpa using hc)]

/-- They are read as the parts of a relative path name. -/
theorem ofText_joined {parts : List String} (hparts : ∀ part ∈ parts, IsPart part) :
    ofText (Text.joined "/" parts) = ⟨.relative, parts⟩ := by
  unfold ofText
  rw [partsOf_joined hparts, rootOf, takeWhile_joined hparts]
  rfl

/-- The text of a path name that is read from a text reads the same. -/
theorem ofText_text_ofText (text : String) : ofText (ofText text).text = ofText text := by
  have hparts : ∀ part ∈ partsOf text, IsPart part := fun part hpart => isPart_of_mem_partsOf hpart
  have htake := takeWhile_joined hparts
  have hjoined := partsOf_joined hparts
  unfold ofText PathName.text
  dsimp only
  cases rootOf text.toList with
  | relative =>
    dsimp only
    by_cases hnil : partsOf text = []
    · rw [if_pos hnil, hnil]
      decide
    · rw [if_neg hnil, hjoined]
      simp [rootOf, htake]
  | slash =>
    dsimp only
    rw [partsOf_slash, hjoined, String.toList_append]
    simp [rootOf, htake]
  | twoSlashes =>
    dsimp only
    rw [show "//" ++ Text.joined "/" (partsOf text) =
      "/" ++ ("/" ++ Text.joined "/" (partsOf text)) from by rw [← String.append_assoc]; rfl]
    rw [partsOf_slash, partsOf_slash, hjoined, String.toList_append, String.toList_append]
    simp [rootOf, htake]

/-- A path name joined with names has them after its own parts. -/
theorem joinAll_names (p : PathName) {names : List String} (hnames : ∀ name ∈ names, IsName name)
    (hslash : ∀ name ∈ names, Text.holds name '/' = false) :
    p.joinAll names = ⟨p.root, p.parts ++ names⟩ := by
  induction names generalizing p with
  | nil => simp [joinAll]
  | cons name rest ih =>
    have hjoin : p.join name = ⟨p.root, p.parts ++ [name]⟩ := by
      unfold join
      rw [ofText_of_isName (hnames name List.mem_cons_self) (hslash name List.mem_cons_self)]
      rfl
    have hrest := ih (p.join name) (fun n hn => hnames n (List.mem_cons_of_mem name hn))
      (fun n hn => hslash n (List.mem_cons_of_mem name hn))
    rw [hjoin, List.append_assoc] at hrest
    change (p.join name).joinAll rest = _
    rw [hjoin]
    exact hrest

end PathName

/-! ## Extensions -/

namespace PathName

/-- What stands after the last dot is the extension, if there is something on both sides of it. -/
theorem suffixOf_append {base extension : List Char} (hbase : base ≠ []) (hextension : extension ≠ [])
    (hdot : '.' ∉ extension) : suffixOf (base ++ '.' :: extension) = '.' :: extension := by
  have htail : ((base ++ '.' :: extension).reverse.takeWhile (· ≠ '.')).reverse = extension := by
    have hnot : ∀ c ∈ extension.reverse, decide (c ≠ '.') = true := by
      intro c hc
      have hne : c ≠ '.' := by
        rintro rfl
        exact hdot (List.mem_reverse.mp hc)
      exact decide_eq_true hne
    rw [List.reverse_append, List.reverse_cons, List.append_assoc,
      List.takeWhile_append_of_pos hnot]
    simp
  have hlength : ¬(base ++ '.' :: extension).length ≤ extension.length + 1 := by
    have := List.length_pos_iff.mpr hbase
    simp only [List.length_append, List.length_cons]
    omega
  unfold suffixOf
  dsimp only
  rw [htail, if_neg (not_or.mpr ⟨hextension, hlength⟩)]

end PathName

/-! ## The parts of the file of a class -/

namespace Router

/-- A part of a file is a part of its class name, or the last one with the extension. -/
theorem mem_fileParts {extension name : String} {parts : List String}
    (h : name ∈ fileParts extension parts) :
    ∃ part ∈ parts, name = part ∨ name = part ++ extension := by
  induction parts with
  | nil => exact nomatch h
  | cons part rest ih =>
    cases rest with
    | nil =>
      obtain rfl := List.mem_singleton.mp h
      exact ⟨part, List.mem_cons_self, Or.inr rfl⟩
    | cons next rest =>
      rcases List.mem_cons.mp h with rfl | hrest
      · exact ⟨_, List.mem_cons_self, Or.inl rfl⟩
      · obtain ⟨other, hother, heq⟩ := ih hrest
        exact ⟨other, List.mem_cons_of_mem part hother, heq⟩

/-- Every part of a class name begins a part of its file. -/
theorem exists_mem_fileParts (extension : String) {part : String} {parts : List String}
    (h : part ∈ parts) : ∃ name ∈ fileParts extension parts, ∃ more, name = part ++ more := by
  induction parts with
  | nil => exact nomatch h
  | cons first rest ih =>
    cases rest with
    | nil =>
      obtain rfl := List.mem_singleton.mp h
      exact ⟨_, List.mem_singleton_self _, extension, rfl⟩
    | cons next rest =>
      rcases List.mem_cons.mp h with rfl | hrest
      · exact ⟨part, List.mem_cons_self, "", String.append_empty.symm⟩
      · obtain ⟨name, hname, hbegins⟩ := ih hrest
        exact ⟨name, List.mem_cons_of_mem first hname, hbegins⟩

/-- A class name with parts has a file with parts. -/
theorem fileParts_ne_nil {extension : String} {parts : List String} (h : parts ≠ []) :
    fileParts extension parts ≠ [] := by
  cases parts with
  | nil => exact absurd rfl h
  | cons part rest =>
    cases rest with
    | nil => exact List.cons_ne_nil _ _
    | cons next rest => exact List.cons_ne_nil _ _

/-- The last part has the extension after it. -/
theorem fileParts_eq {extension : String} {parts : List String} (hne : parts ≠ []) :
    fileParts extension parts = parts.dropLast ++ [parts.getLast hne ++ extension] := by
  induction parts with
  | nil => exact absurd rfl hne
  | cons part rest ih =>
    cases rest with
    | nil => rfl
    | cons next rest => exact congrArg (part :: ·) (ih (List.cons_ne_nil _ _))

/-- The parts of the file of a class are names. -/
theorem isName_of_mem_fileParts {extension className name : String}
    (h : name ∈ fileParts extension (Text.segments '.' className)) : IsName name := by
  obtain ⟨part, hpart, heq⟩ := mem_fileParts h
  obtain ⟨hpiece, hne⟩ := Text.mem_segments.mp hpart
  have hdot := Text.holds_eq_false_of_mem_pieces hpiece
  rcases heq with rfl | rfl
  · have := IsName.append_of_no_dot hne hdot ""
    rwa [String.append_empty] at this
  · exact IsName.append_of_no_dot hne hdot extension

/-- A character that is neither in a class name nor in the extension is in no part of the file. -/
theorem holds_of_mem_fileParts {c : Char} (hc : c ≠ '.') {extension className : String}
    (hextension : Text.holds extension c = false) (hclass : Text.holds className c = false)
    {name : String} (h : name ∈ fileParts extension (Text.segments '.' className)) :
    Text.holds name c = false := by
  have hparts : ∀ part ∈ Text.segments '.' className, Text.holds part c = false := by
    intro part hpart
    rw [Bool.eq_false_iff]
    intro hholds
    rw [(Text.holds_iff_segments hc className).mpr ⟨part, hpart, hholds⟩] at hclass
    exact nomatch hclass
  obtain ⟨part, hpart, rfl | rfl⟩ := mem_fileParts h
  · exact hparts name hpart
  · rw [Text.holds_append, hparts part hpart, hextension]
    rfl

/-- The path name of the file of a class without slashes is that of the directory with the parts
of the file after it. -/
theorem pathIn_eq {r : Router} (hextension : Text.holds r.extension '/' = false)
    (directory : PathName) {className : String}
    (hslash : (Text.segments '.' className).any (fun part => Text.holds part '/') = false) :
    r.pathIn directory (Text.segments '.' className) =
      ⟨directory.root, directory.parts ++ fileParts r.extension (Text.segments '.' className)⟩ := by
  apply PathName.joinAll_names
  · intro name hname
    exact isName_of_mem_fileParts hname
  · intro name hname
    obtain ⟨part, hpart, heq⟩ := mem_fileParts hname
    have hnot : Text.holds part '/' = false := by
      rw [List.any_eq_false] at hslash
      simpa using hslash part hpart
    rcases heq with rfl | rfl
    · exact hnot
    · rw [Text.holds_append, hnot, hextension]
      rfl

/-- A class has a path name if its real path lies below that of the directory. -/
theorem pathFor_of_realPath {r : Router} {h : Host} {D : PathName} {root location : Location}
    {className : String} (hdir : r.directory = some D) (hparts : Text.segments '.' className ≠ [])
    (hslash : ((Text.segments '.' className).any fun part => Text.holds part '/') = false)
    (hroot : h.realPath D = .ok root)
    (hreal : h.realPath (r.pathIn D (Text.segments '.' className)) = .ok location)
    (hbelow : root <+: location) :
    r.pathFor h className = .ok (r.pathIn D (Text.segments '.' className)) := by
  unfold pathFor
  rw [hdir]
  dsimp only
  rw [if_neg (by simp [hparts, hslash]), hroot, hreal]
  exact if_pos (List.isPrefixOf_iff_prefix.mpr hbelow)

/-- What is known of a class that has a path name: the path name is made of the segments of its
name, and it leads to where the output directory is or further down. -/
theorem of_pathFor_eq_ok {r : Router} {h : Host} {D path : PathName} {className : String}
    (hdir : r.directory = some D) (hpath : r.pathFor h className = .ok path) :
    Text.segments '.' className ≠ [] ∧
      ((Text.segments '.' className).any fun part => Text.holds part '/') = false ∧
      path = r.pathIn D (Text.segments '.' className) ∧
      ∃ root location, h.realPath D = .ok root ∧ h.realPath path = .ok location ∧
        root <+: location := by
  unfold pathFor at hpath
  rw [hdir] at hpath
  dsimp only at hpath
  split at hpath
  · exact nomatch hpath
  · next hparts =>
    obtain ⟨hsegments, hslash⟩ := not_or.mp hparts
    split at hpath
    · exact nomatch hpath
    · next root hroot =>
      split at hpath
      · exact nomatch hpath
      · next location hreal =>
        split at hpath
        · next hprefix =>
          obtain rfl := Except.ok.inj hpath
          exact ⟨hsegments, Bool.eq_false_iff.mpr hslash, rfl, root, location, hroot, hreal,
            List.isPrefixOf_iff_prefix.mp hprefix⟩
        · exact nomatch hpath

end Router

end DexListing
