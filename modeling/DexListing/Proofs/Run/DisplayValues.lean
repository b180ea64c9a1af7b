import DexListing.Proofs.Listing.DisplayLists
import DexListing.Proofs.Run.Rerun

/-!
# Display options in a command line

What a command line selects is the name of each class and what the elements of all its display
values name (`Scan.selection_of_feedAll`). So the order of the elements, their number, their
spelling and the options that they are given in do not matter (`Scan.feedAll_of_sameDisplay`), and no
token takes anything out of the selection again (`Scan.feedAll_within`).
-/

set_option autoImplicit false

namespace DexListing

/-- The other selection shows every part that this one shows. -/
def Selection.Within (s t : Selection) : Prop :=
  ∀ part, s.shows part = true → t.shows part = true

/-- What display values select whose elements all name something. -/
theorem Selection.shows_shownBy {values : List String}
    (hnamed : ∀ e ∈ elements values, IsNamed e) (part : DisplayOption) :
    (shownBy values).shows part = true ↔
      part = .className ∨ ∃ e ∈ elements values, Names e part := by
  have hvalue : ∀ value ∈ values, ∃ s, parse value = .ok s ∧
      (s.shows part = true ↔ ∃ e ∈ Text.pieces ',' value, Names e part) := by
    intro value hmem
    obtain ⟨s, hs, hshows⟩ := exists_ofElements fun e he =>
      hnamed e (List.mem_flatMap.mpr ⟨value, hmem, he⟩)
    exact ⟨s, hs, hshows part⟩
  unfold shownBy
  rw [Bool.or_eq_true, beq_iff_eq, List.any_eq_true]
  refine or_congr Iff.rfl ?_
  constructor
  · rintro ⟨value, hmem, hshown⟩
    obtain ⟨s, hs, hshows⟩ := hvalue value hmem
    rw [hs] at hshown
    obtain ⟨e, he, hnames⟩ := hshows.mp hshown
    exact ⟨e, List.mem_flatMap.mpr ⟨value, hmem, he⟩, hnames⟩
  · rintro ⟨e, he, hnames⟩
    obtain ⟨value, hmem, hpiece⟩ := List.mem_flatMap.mp he
    obtain ⟨s, hs, hshows⟩ := hvalue value hmem
    refine ⟨value, hmem, ?_⟩
    rw [hs]
    exact hshows.mpr ⟨e, hpiece, hnames⟩

/-! ## Selections grow -/

namespace Scan

variable {registry : Registry} {host : Host} {scan scan' : Scan}

/-- No option takes anything from the selection. -/
theorem applyOption_within {option : OptionName} {value : String}
    (h : applyOption registry host scan option value = .ok scan') :
    scan.selection.Within scan'.selection := by
  intro part hpart
  unfold applyOption at h
  cases option with
  | pattern | level =>
    obtain rfl := Except.ok.inj h
    exact hpart
  | display =>
    dsimp only at h
    split at h
    · cases h
    · obtain rfl := Except.ok.inj h
      exact Selection.shows_union.mpr (Or.inl hpart)
  | directory =>
    dsimp only at h
    split at h
    · cases h
    · cases h
    · obtain rfl := Except.ok.inj h
      exact hpart
  | writer =>
    dsimp only at h
    split at h
    · cases h
    · obtain rfl := Except.ok.inj h
      exact hpart

/-- An input does not change the selection. -/
theorem addInput_selection (scan : Scan) (session : Session) (token : String) :
    (addInput scan session token).2.1.selection = scan.selection := by
  unfold addInput
  split
  · split <;> rfl
  · rfl
  · rfl

/-- One token takes nothing out of the selection. -/
theorem feed_within (registry : Registry) (scan : Scan) (session : Session) (token : String) :
    scan.selection.Within (feed registry scan session token).2.1.selection := by
  intro part hpart
  unfold feed
  split
  · dsimp only
    split
    · exact hpart
    · next happlied => exact applyOption_within happlied part hpart
  · split
    · split <;> exact hpart
    · rw [addInput_selection]
      exact hpart

/-- Any tokens leave in the selection what is in it, whether they can be scanned or not. -/
theorem feedAll_within (registry : Registry) (scan : Scan) (session : Session)
    (tokens : List String) :
    scan.selection.Within (feedAll registry scan session tokens).2.1.selection := by
  induction tokens generalizing scan session with
  | nil => exact fun part hpart => hpart
  | cons token rest ih =>
    intro part hpart
    have hfed := feed_within registry scan session token part hpart
    rw [feedAll]
    rcases hfeed : feed registry scan session token with ⟨outcome, next, session'⟩
    rw [hfeed] at hfed
    cases outcome with
    | error f => exact hfed
    | ok => exact ih next session' part hfed

/-- Nor do the tokens that follow other ones. -/
theorem feedAll_within_append (registry : Registry) (scan : Scan) (session : Session)
    (tokens more : List String) :
    (feedAll registry scan session tokens).2.1.selection.Within
      (feedAll registry scan session (tokens ++ more)).2.1.selection := by
  rw [feedAll_append]
  rcases feedAll registry scan session tokens with ⟨outcome, next, session'⟩
  cases outcome with
  | error f => exact fun part hpart => hpart
  | ok => exact feedAll_within registry next session' more

end Scan

/-! ## Arguments without the values of an option -/

namespace Argument

/-- The argument gives no value to the option. -/
def isBeside (option : OptionName) (argument : Argument) : Bool :=
  (argument.valueOf? option).isNone

variable {option : OptionName} {argument : Argument}

/-- What gives a value to an option is that option with the value. -/
theorem eq_option_of_not_isBeside (h : ¬argument.isBeside option = true) :
    ∃ value, argument = .option option.text value := by
  cases argument with
  | input token => exact absurd rfl h
  | option name value =>
    unfold isBeside valueOf? at h
    dsimp only at h
    split at h
    · next hname => exact ⟨value, hname ▸ rfl⟩
    · exact absurd rfl h

/-- The values of an option do not count for what the arguments after them find. -/
theorem stages_isBeside (option : OptionName) (host : Host) (items : List Argument) :
    stages host (items.filter (isBeside option)) =
      (stages host items).filter fun stage => stage.2.isBeside option := by
  induction items generalizing host with
  | nil => rfl
  | cons argument rest ih =>
    rw [stages, List.filter_cons, List.filter_cons]
    dsimp only
    split
    · rw [stages, ih]
    · next hvalue =>
      obtain ⟨value, rfl⟩ := eq_option_of_not_isBeside hvalue
      exact ih host

end Argument

namespace Arguments

variable {registry : Registry} {host : Host} {a a' : Arguments} {option : OptionName}

/-- The arguments that give no value to an option, in order. -/
def beside (a : Arguments) (option : OptionName) : List Argument :=
  a.items.filter (Argument.isBeside option)

/-- Other options have their values from the other arguments. -/
theorem values_beside {other : OptionName} (hne : other ≠ option) :
    (a.beside option).filterMap (·.valueOf? other) = a.values other := by
  unfold beside values
  rw [List.filterMap_filter]
  refine List.filterMap_congr fun argument _ => ?_
  split
  · rfl
  · next hvalue =>
    obtain ⟨value, rfl⟩ := Argument.eq_option_of_not_isBeside hvalue
    have htext : ¬option.text = other.text := fun h => hne (OptionName.text_inj.mp h).symm
    exact (if_neg htext).symm

/-- So do the entries. -/
theorem entries_beside (host : Host) :
    (Argument.stages host (a.beside option)).filterMap (fun stage => stage.2.entryOn stage.1) =
      a.entries host := by
  unfold beside entries
  rw [Argument.stages_isBeside, List.filterMap_filter]
  refine List.filterMap_congr fun stage _ => ?_
  split
  · rfl
  · next hvalue =>
    obtain ⟨value, hstage⟩ := Argument.eq_option_of_not_isBeside hvalue
    rw [hstage]
    rfl

/-- An argument is one of the others, or it gives a value to the option. -/
theorem mem_beside_or (option : OptionName) {argument : Argument} (h : argument ∈ a.items) :
    argument ∈ a.beside option ∨
      ∃ value ∈ a.values option, argument = .option option.text value := by
  by_cases hvalue : argument.isBeside option = true
  · exact Or.inl (List.mem_filter.mpr ⟨h, hvalue⟩)
  · obtain ⟨value, rfl⟩ := Argument.eq_option_of_not_isBeside hvalue
    exact Or.inr ⟨value, List.mem_filterMap.mpr ⟨_, h, if_pos rfl⟩, rfl⟩

/-! ## The same elements -/

/-- The arguments are the same but for the display values, and these have the same elements. -/
structure SameDisplay (a a' : Arguments) : Prop where
  others : a.beside .display = a'.beside .display
  unfinished : a.unfinished = a'.unfinished
  elements : Selection.SameElements (Selection.elements (a.values .display))
    (Selection.elements (a'.values .display))

/-- A display value is good if its elements all name something. -/
theorem takes_display_iff {value : String} :
    OptionName.display.Takes registry host value ↔
      ∀ e ∈ Text.pieces ',' value, Selection.IsNamed e := by
  unfold OptionName.Takes Selection.parse
  constructor
  · rintro ⟨s, hs⟩
    exact (Selection.ofElements_eq_ok_iff.mp hs).1
  · intro hnamed
    obtain ⟨s, hs, -⟩ := Selection.exists_ofElements hnamed
    exact ⟨s, hs⟩

/-- If all options take their values, the elements of the display values all name something. -/
theorem isNamed_of_takes
    (hoptions : ∀ name value, Argument.option name value ∈ a.items →
      ∃ option : OptionName, option.text = name ∧ option.Takes registry host value) :
    ∀ e ∈ Selection.elements (a.values .display), Selection.IsNamed e := by
  intro e he
  obtain ⟨value, hvalue, hpiece⟩ := List.mem_flatMap.mp he
  obtain ⟨option, htext, htakes⟩ := hoptions _ _ (mem_items_of_mem_values hvalue)
  rw [OptionName.text_inj.mp htext] at htakes
  exact takes_display_iff.mp htakes e hpiece

namespace SameDisplay

variable (h : SameDisplay a a')

include h

/-- Other options have the same values. -/
theorem values_eq {other : OptionName} (hne : other ≠ .display) :
    a.values other = a'.values other := by
  rw [← values_beside hne, h.others, values_beside hne]

/-- Other options have the same last value. -/
theorem last?_eq {other : OptionName} (hne : other ≠ .display) :
    a.last? other = a'.last? other := by
  unfold last?
  rw [h.values_eq hne]

/-- The inputs are the same. -/
theorem entries_eq (host : Host) : a.entries host = a'.entries host := by
  rw [← entries_beside, h.others, entries_beside]

/-- If no argument fails on its own here, none does there. -/
theorem scanFault?_eq_none (hnone : a.scanFault? registry host host = none) :
    a'.scanFault? registry host host = none := by
  obtain ⟨hoptions, hinputs, hname⟩ := (scanFault?_eq_none_iff registry host a).mp hnone
  refine (scanFault?_eq_none_iff registry host a').mpr ⟨?_, ?_, ?_⟩
  · intro name value hmem
    rcases mem_beside_or .display hmem with hbeside | ⟨value', hvalue, hargument⟩
    · rw [← h.others] at hbeside
      exact hoptions name value (List.mem_of_mem_filter hbeside)
    · obtain ⟨rfl, rfl⟩ := Argument.option.inj hargument
      have hnamed := h.elements.forall_isNamed (isNamed_of_takes hoptions)
      exact ⟨.display, rfl, takes_display_iff.mpr fun e he =>
        hnamed e (List.mem_flatMap.mpr ⟨value, hvalue, he⟩)⟩
  · intro stage hstage f hf
    by_cases hbeside : stage.2.isBeside .display = true
    · have hmem : stage ∈ Argument.stages host (a'.beside .display) := by
        unfold Arguments.beside
        rw [Argument.stages_isBeside]
        exact List.mem_filter.mpr ⟨hstage, hbeside⟩
      rw [← h.others, Arguments.beside, Argument.stages_isBeside] at hmem
      exact hinputs stage (List.mem_of_mem_filter hmem) f hf
    · obtain ⟨value, hargument⟩ := Argument.eq_option_of_not_isBeside hbeside
      rw [hargument] at hf
      exact nomatch hf
  · rw [← h.unfinished]
    exact hname

/-- What has been gathered is the same. -/
theorem gathered_eq (hnone : a.scanFault? registry host host = none) (entries : List InputEntry) :
    Scan.gathered registry a.items entries = Scan.gathered registry a'.items entries := by
  have hnamed := isNamed_of_takes ((scanFault?_eq_none_iff registry host a).mp hnone).1
  have hselection : Selection.shownBy ((Arguments.mk a.items none).values .display) =
      Selection.shownBy ((Arguments.mk a'.items none).values .display) := by
    refine Selection.eq_of_shows_iff fun part => ?_
    change (Selection.shownBy (a.values .display)).shows part = true ↔
      (Selection.shownBy (a'.values .display)).shows part = true
    rw [Selection.shows_shownBy hnamed,
      Selection.shows_shownBy (h.elements.forall_isNamed hnamed), h.elements.exists_names_iff]
  have hlast : ∀ other, other ≠ OptionName.display →
      (Arguments.mk a.items none).last? other = (Arguments.mk a'.items none).last? other :=
    fun other hne => h.last?_eq hne
  unfold Scan.gathered config
  simp only [hlast, hselection, ne_eq, reduceCtorEq, not_false_eq_true]

end SameDisplay

end Arguments

/-! ## Scanning display values -/

namespace Scan

variable {registry : Registry} {host : Host} {tokens tokens' : List String} {scan : Scan}

/-- A scan from the beginning ends well if no argument fails on its own, and then it has gathered
them all. -/
theorem exists_feedAll_eq_ok_iff :
    (∃ s, feedAll registry start (Session.start host) tokens = (.ok (), scan, s)) ↔
      (Arguments.ofTokens tokens).scanFault? registry host host = none ∧
        scan = { gathered registry (Arguments.ofTokens tokens).items
            ((Arguments.ofTokens tokens).entries host) with
          pending := (Arguments.ofTokens tokens).unfinished.bind OptionName.ofText? } := by
  obtain ⟨hfails, hgathers⟩ :=
    feedAll_gathered registry host tokens (Session.start host) [] [] [] (Session.tracks_start host)
  rw [start_eq_gathered registry]
  rcases hfeed : feedAll registry (gathered registry [] []) (Session.start host) tokens with
    ⟨outcome, last, session⟩
  rw [hfeed] at hfails hgathers
  cases hfault : (Arguments.ofTokens tokens).scanFault? registry host host with
  | some f =>
    obtain rfl : outcome = .error f := hfails f hfault
    simp
  | none =>
    obtain ⟨hok, hlast⟩ := hgathers hfault
    obtain rfl : outcome = .ok () := hok
    obtain rfl : last = _ := hlast
    simp [eq_comm]

/-- What a scan selects: the name of each class, and what the elements of the display values
name. -/
theorem selection_of_feedAll {s : Session}
    (h : feedAll registry start (Session.start host) tokens = (.ok (), scan, s))
    (part : DisplayOption) :
    scan.selection.shows part = true ↔ part = .className ∨
      ∃ e ∈ Selection.elements ((Arguments.ofTokens tokens).values .display),
        Selection.Names e part := by
  obtain ⟨hnone, rfl⟩ := exists_feedAll_eq_ok_iff.mp ⟨s, h⟩
  exact Selection.shows_shownBy (Arguments.isNamed_of_takes
    ((Arguments.scanFault?_eq_none_iff registry host _).mp hnone).1) part

/-- The order, number and spelling of the elements of display values and the options that they are
given in make no difference. -/
theorem feedAll_of_sameDisplay
    (hsame : (Arguments.ofTokens tokens).SameDisplay (Arguments.ofTokens tokens'))
    (h : ∃ s, feedAll registry start (Session.start host) tokens = (.ok (), scan, s)) :
    ∃ s, feedAll registry start (Session.start host) tokens' = (.ok (), scan, s) := by
  obtain ⟨hnone, hscan⟩ := exists_feedAll_eq_ok_iff.mp h
  refine exists_feedAll_eq_ok_iff.mpr ⟨hsame.scanFault?_eq_none hnone, ?_⟩
  rw [hscan, hsame.gathered_eq hnone, hsame.entries_eq, hsame.unfinished]

/-- The selection of a configuration is the one that has been scanned. -/
theorem exists_feedAll_of_parse {config : Config} {entries : List InputEntry}
    (h : (parse registry (Session.start host) tokens).1 = .ok (config, entries)) :
    ∃ scan s, feedAll registry start (Session.start host) tokens = (.ok (), scan, s) ∧
      config.selection = scan.selection := by
  rw [parse_eq_failure?] at h
  split at h
  · exact nomatch h
  · next hnone =>
    obtain ⟨s, hs⟩ := exists_feedAll_eq_ok_iff.mpr ⟨(Option.or_eq_none_iff.mp hnone).1, rfl⟩
    obtain ⟨rfl, -⟩ := Prod.mk.inj (Except.ok.inj h)
    exact ⟨_, s, hs, rfl⟩

/-- Display options add up, however they are written. Two lists with a comma between them select
the union of what they select, and the first element that names nothing is what is wrong with a
list. What a scan selects, and the configuration with it, is the name of each class and what the
elements of the display values name. So nothing changes when these are put in another order, grouped
into other options, repeated or spelled in another way; and whatever tokens are scanned, the
selection does not lose a part. -/
theorem display_accumulates (registry : Registry) (host : Host) :
    (∀ a b, Selection.parse (a ++ "," ++ b) =
      match Selection.parse a with
      | .error unknown => .error unknown
      | .ok s =>
        match Selection.parse b with
        | .error unknown => .error unknown
        | .ok t => .ok (s.union t)) ∧
    (∀ value s, Selection.parse value = .ok s ↔
      (∀ e ∈ Text.pieces ',' value, Selection.IsNamed e) ∧
        ∀ part, s.shows part = true ↔ ∃ e ∈ Text.pieces ',' value, Selection.Names e part) ∧
    (∀ value unknown, Selection.parse value = .error unknown ↔ ∃ before after,
      Text.pieces ',' value = before ++ unknown :: after ∧
        (∀ e ∈ before, Selection.IsNamed e) ∧ ¬Selection.IsNamed unknown) ∧
    (∀ tokens scan s, feedAll registry start (Session.start host) tokens = (.ok (), scan, s) →
      ∀ part, scan.selection.shows part = true ↔ part = .className ∨
        ∃ e ∈ Selection.elements ((Arguments.ofTokens tokens).values .display),
          Selection.Names e part) ∧
    (∀ tokens config entries,
      (parse registry (Session.start host) tokens).1 = .ok (config, entries) →
        ∃ scan s, feedAll registry start (Session.start host) tokens = (.ok (), scan, s) ∧
          config.selection = scan.selection) ∧
    (∀ tokens tokens' scan,
      (Arguments.ofTokens tokens).SameDisplay (Arguments.ofTokens tokens') →
      (∃ s, feedAll registry start (Session.start host) tokens = (.ok (), scan, s)) →
        ∃ s, feedAll registry start (Session.start host) tokens' = (.ok (), scan, s)) ∧
    (∀ groups : List (List String),
      (∀ group ∈ groups, group ≠ [] ∧ ∀ e ∈ group, Text.holds e ',' = false) →
        Selection.elements (groups.map (Text.joined ",")) = groups.flatten) ∧
    ∀ scan session tokens more,
      (feedAll registry scan session tokens).2.1.selection.Within
        (feedAll registry scan session (tokens ++ more)).2.1.selection :=
  ⟨Selection.parse_comma, fun _ _ => Selection.ofElements_eq_ok_iff,
    fun _ _ => Selection.ofElements_eq_error_iff, fun _ _ _ => selection_of_feedAll,
    fun _ _ _ => exists_feedAll_of_parse, fun _ _ _ => feedAll_of_sameDisplay,
    fun _ => Selection.elements_joined, feedAll_within_append registry⟩

/-- Elements given together and one by one, spelled otherwise and repeated, come to the same
selection. -/
theorem display_accumulates_regrouped :
    let tokens := ["-d", "methods,FIELDS"]
    let tokens' := ["-d", "fields ", "-d", "\tMethods,fields"]
    ∃ scan s s', feedAll .standard start (Session.start .withPackage) tokens = (.ok (), scan, s) ∧
      feedAll .standard start (Session.start .withPackage) tokens' = (.ok (), scan, s') ∧
      scan.selection.shows .fields = true ∧ scan.selection.shows .opcodes = false := by
  intro tokens tokens'
  obtain ⟨-, -, -, -, -, hsame, -, -⟩ := display_accumulates .standard .withPackage
  have hparsed : ∃ s, Selection.parse "methods,FIELDS" = .ok s ∧ s.shows .fields = true ∧
      s.shows .opcodes = false := ⟨_, rfl, rfl, rfl⟩
  obtain ⟨s, hs, hfields, hopcodes⟩ := hparsed
  have happlied : applyOption .standard .withPackage start .display "methods,FIELDS" =
      .ok { start with selection := start.selection.union s } := by
    unfold applyOption
    dsimp only
    rw [hs]
  have hfed : feedAll .standard start (Session.start .withPackage) tokens =
      (.ok (), { start with selection := start.selection.union s }, .start .withPackage) := by
    rw [feedAll, feed_dashed rfl _ (by decide),
      show OptionName.ofText? "-d" = some .display by decide]
    dsimp only
    rw [feedAll, feed_value rfl, Session.host_start, happlied]
    rfl
  have hsmall : "FIELDS".toLower = "fields".toLower ∧ "methods".toLower = "Methods".toLower := by
    constructor <;> exact String.toList_inj.mp (by simp only [Text.toList_toLower]; decide)
  have hspaced : Text.Respells "FIELDS" "fields " :=
    ⟨"", "", "", " ", "FIELDS", "fields", by decide, by decide, by decide, by decide, hsmall.1,
      rfl, rfl⟩
  have hmethods : Text.Respells "methods" "\tMethods" :=
    ⟨"", "", "\t", "", "methods", "Methods", by decide, by decide, by decide, by decide, hsmall.2,
      rfl, rfl⟩
  have hself : Text.Respells "FIELDS" "fields" :=
    ⟨"", "", "", "", "FIELDS", "fields", by decide, by decide, by decide, by decide, hsmall.1,
      rfl, rfl⟩
  have helements : Selection.SameElements ["methods", "FIELDS"]
      ["fields ", "\tMethods", "fields"] :=
    { left := by simp [hmethods, hspaced]
      right := by simp [hmethods.symm, hspaced.symm, hself.symm] }
  obtain ⟨s', hs'⟩ := hsame tokens tokens' _ ⟨by decide, by decide, helements⟩ ⟨_, hfed⟩
  exact ⟨_, _, s', hfed, hs', Selection.shows_union.mpr (Or.inr hfields), hopcodes⟩

end Scan

end DexListing
