import DexListing.Proofs.Run.FileNames
import DexListing.Proofs.Run.Grammar
import DexListing.Proofs.Run.Temporaries

/-!
# Scanning follows the grammar

The scan takes one token at a time and keeps what it has gathered. Between two arguments this is a
function of the arguments so far and of their entries (`Scan.gathered`): that one argument keeps it
so is shown for options (`Scan.applyOption_gathered`) and for inputs (`Scan.addInput_gathered`), and
by induction on the tokens it follows for all of them (`Scan.feedAll_gathered`). A directory that an
option names is looked up in the middle of the scan, when temporary files may have been made, and
once more at its end; new files do not matter for that, so it is as if it were looked up at the
beginning. The end of the scan then makes the configuration that the arguments ask for, or fails as
the grammar says (`Scan.parse_eq_grammar`).
-/

set_option autoImplicit false

namespace DexListing

/-! ## Inputs -/

namespace Session

variable (s : Session) (token : String)

/-- Looking for a file does not depend on what a session has done before. -/
theorem existingFile_start : (start s.host).existingFile token = s.existingFile token := by
  unfold existingFile
  rw [host_start]

/-- Nor does looking into an archive. -/
theorem findContainer_start (path : PathName) :
    (start s.host).findContainer token path = s.findContainer token path := by
  unfold findContainer
  rw [host_start]

/-- Nor does resolving a container. -/
theorem resolveContainer_start :
    (start s.host).resolveContainer token = s.resolveContainer token := by
  unfold resolveContainer
  rw [existingFile_start]

/-- What is extracted from an archive depends on the host of a session only. -/
theorem extractArchive_eq_start :
    (s.extractArchive token).1 = ((start s.host).extractArchive token).1 ∧
      (s.extractArchive token).2.host = ((start s.host).extractArchive token).2.host := by
  unfold extractArchive
  rw [existingFile_start]
  cases s.existingFile token with
  | error f => exact ⟨rfl, rfl⟩
  | ok path =>
    dsimp only
    rw [findContainer_start]
    cases s.findContainer token path with
    | error f => exact ⟨rfl, rfl⟩
    | ok found =>
      obtain ⟨archive, earlier, member⟩ := found
      dsimp only
      unfold createTemporary
      rw [host_start]
      cases s.host.makeTemporary with
      | error e => exact ⟨rfl, rfl⟩
      | ok made =>
        obtain ⟨temporary, host⟩ := made
        dsimp only
        cases archive.extract earlier member with
        | error fault => exact ⟨rfl, rfl⟩
        | ok content =>
          dsimp only
          cases host.storeContent temporary content with
          | error e => exact ⟨rfl, rfl⟩
          | ok host => exact ⟨rfl, rfl⟩

/-- What an argument resolves to depends on the host of a session only. -/
theorem resolve_eq_start :
    (s.resolve token).1 = ((start s.host).resolve token).1 ∧
      (s.resolve token).2.host = ((start s.host).resolve token).2.host := by
  unfold resolve
  rw [resolveContainer_start]
  dsimp only
  by_cases hcontainer : (PathName.ofText token).hasExtension containerExtensions
  · simp only [if_pos hcontainer, host_start, and_self]
  · by_cases harchive : (PathName.ofText token).hasExtension archiveExtensions
    · simp only [if_neg hcontainer, if_pos harchive]
      obtain ⟨hresult, hhost⟩ := s.extractArchive_eq_start token
      exact ⟨congrArg (Except.map some) hresult, hhost⟩
    · simp only [if_neg hcontainer, if_neg harchive]
      exact ⟨trivial, rfl⟩

end Session

/-! ## Selections -/

/-- The default selection with none joined to it. -/
theorem Selection.shownBy_nil : shownBy [] = default := rfl

/-- One more value joins its selection. -/
theorem Selection.shownBy_concat (values : List String) {value : String} {selection : Selection}
    (h : parse value = .ok selection) :
    shownBy (values ++ [value]) = (shownBy values).union selection := by
  unfold shownBy union
  congr 1
  funext option
  simp [h, Bool.or_assoc]

/-! ## What a scan has gathered -/

/-- Options are told by their spelling. -/
theorem OptionName.text_inj {option other : OptionName} :
    option.text = other.text ↔ option = other := by
  constructor
  · intro h
    have hoption := ofText?_eq_some_iff.mpr h
    rw [ofText?_eq_some_iff.mpr rfl] at hoption
    exact (Option.some.inj hoption).symm
  · rintro rfl
    rfl

namespace Arguments

/-- One more argument is the last one to give a value to its option. -/
@[simp] theorem values_concat (items : List Argument) (unfinished : Option String) (argument : Argument)
    (option : OptionName) :
    (Arguments.mk (items ++ [argument]) unfinished).values option =
      (Arguments.mk items unfinished).values option ++ (argument.valueOf? option).toList := by
  unfold values
  rw [List.filterMap_append]
  cases h : argument.valueOf? option <;> simp [h]

/-- The last value of an option is that of the last argument, if it gives one. -/
@[simp] theorem last?_concat (items : List Argument) (unfinished : Option String) (argument : Argument)
    (option : OptionName) :
    (Arguments.mk (items ++ [argument]) unfinished).last? option =
      (argument.valueOf? option).or ((Arguments.mk items unfinished).last? option) := by
  unfold last?
  rw [values_concat, List.getLast?_append]
  cases argument.valueOf? option <;> rfl

end Arguments

namespace Scan

/-- What a scan has gathered between two arguments: `items` are the arguments so far, `entries` what
they resolved to. -/
def gathered (registry : Registry) (items : List Argument) (entries : List InputEntry) : Scan :=
  let a : Arguments := ⟨items, none⟩
  { pending := none
    classPattern := a.last? .pattern
    selection := Selection.shownBy (a.values .display)
    outputDirectory := (a.config registry).outputDirectory
    writerId := (a.config registry).writerId
    logLevel := (a.last? .level).map Text.strip
    entries }

/-- At the start nothing has been gathered. -/
theorem start_eq_gathered (registry : Registry) : start = gathered registry [] [] := by
  unfold start gathered
  rw [← Selection.shownBy_nil]
  rfl

variable {registry : Registry} {first : Host} {items : List Argument} {entries : List InputEntry}

/-- An option whose value is good is gathered as one more argument; any other one fails as the
grammar says. -/
theorem applyOption_gathered {host : Host}
    (hdirs : ∀ p, host.isDirectory p = first.isDirectory p) (option : OptionName) (value : String) :
    applyOption registry host (gathered registry items entries) option value =
      match option.fault? registry first value with
      | some f => .error f
      | none => .ok (gathered registry (items ++ [.option option.text value]) entries) := by
  have hvalue : ∀ other, (Argument.option option.text value).valueOf? other =
      if option = other then some value else none := by
    intro other
    simp only [Argument.valueOf?, OptionName.text_inj]
  cases option with
  | pattern =>
    unfold applyOption OptionName.fault?
    simp [gathered, Arguments.config, hvalue]
  | display =>
    unfold applyOption OptionName.fault?
    cases h : Selection.parse value with
    | error element => rfl
    | ok selection =>
      simp [gathered, Arguments.config, hvalue, Selection.shownBy_concat _ h]
  | directory =>
    unfold applyOption OptionName.fault?
    dsimp only
    rw [hdirs]
    cases first.isDirectory (PathName.ofText (Text.strip value)) with
    | error e => rfl
    | ok there =>
      cases there with
      | false => rfl
      | true =>
        simp [gathered, Arguments.config, hvalue]
  | writer =>
    unfold applyOption OptionName.fault?
    cases h : registry.canonicalName? value with
    | none => rfl
    | some name =>
      simp [gathered, Arguments.config, hvalue, h]
  | level =>
    unfold applyOption OptionName.fault?
    simp [gathered, Arguments.config, hvalue]

/-- An input adds its entry, if there is one. -/
theorem addInput_gathered (registry : Registry) (first : Host) (items : List Argument)
    (entries : List InputEntry) (session : Session) (token : String) :
    (addInput (gathered registry items entries) session token).2.2.host =
        ((Argument.input token).resolve session.host).2 ∧
      (∀ f, (Argument.input token).fault? registry first session.host = some f →
        (addInput (gathered registry items entries) session token).1 = .error f) ∧
      ((Argument.input token).fault? registry first session.host = none →
        (addInput (gathered registry items entries) session token).1 = .ok () ∧
        (addInput (gathered registry items entries) session token).2.1 =
          gathered registry (items ++ [.input token])
            (entries ++ ((Argument.input token).entryOn session.host).toList)) := by
  have hgathered : ∀ more, gathered registry (items ++ [.input token]) more =
      { gathered registry items entries with entries := more } := by
    intro more
    simp [gathered, Arguments.config, Argument.valueOf?]
  obtain ⟨hresult, hhost⟩ := session.resolve_eq_start token
  unfold Argument.fault? Argument.entryOn Argument.resolve
  dsimp only
  rw [← hresult, ← hhost]
  unfold addInput
  rcases session.resolve token with ⟨result, after⟩
  cases result with
  | error f =>
    dsimp only
    by_cases hinput : f.isA .input
    · rw [if_pos hinput, if_pos hinput]
      refine ⟨rfl, fun _ hf => (nomatch hf), fun _ => ⟨rfl, ?_⟩⟩
      rw [hgathered]
      simp [gathered]
    · rw [if_neg hinput, if_neg hinput]
      refine ⟨rfl, ?_, fun hnone => (nomatch hnone)⟩
      intro f' hf
      rw [← Option.some.inj hf]
  | ok entry =>
    dsimp only
    cases entry with
    | none =>
      refine ⟨rfl, fun _ hf => (nomatch hf), fun _ => ⟨rfl, ?_⟩⟩
      rw [hgathered]
      simp [gathered]
    | some entry =>
      refine ⟨rfl, fun _ hf => (nomatch hf), fun _ => ⟨rfl, ?_⟩⟩
      rw [hgathered]
      simp [gathered]

/-! ## All arguments -/

section Feeding

variable {scan : Scan}

/-- A dashed token is taken for an option, if there is one of its name. -/
theorem feed_dashed (hpending : scan.pending = none) (session : Session) {token : String}
    (hdashed : isDashed token = true) :
    feed registry scan session token =
      match OptionName.ofText? token with
      | none => (.error (.configuration (.unsupportedArgument token)), scan, session)
      | some option => (.ok (), { scan with pending := some option }, session) := by
  have hhead : token.toList.head? = some '-' := by simpa [isDashed] using hdashed
  unfold feed
  rw [hpending]
  cases OptionName.ofText? token with
  | none => exact if_pos hhead
  | some option => exact if_pos hhead

/-- The token after an option is its value. -/
theorem feed_value (hpending : scan.pending = none) (session : Session) (option : OptionName)
    (value : String) :
    feed registry { scan with pending := some option } session value =
      match applyOption registry session.host scan option value with
      | .error f => (.error f, scan, session)
      | .ok scan => (.ok (), scan, session) := by
  have hsame : { scan with pending := none } = scan := by rw [← hpending]
  cases h : applyOption registry session.host scan option value with
  | error f => simp only [feed, hsame, h]
  | ok next => simp only [feed, hsame, h]

/-- Any other token is an input. -/
theorem feed_input (hpending : scan.pending = none) (session : Session) {token : String}
    (hdashed : ¬isDashed token = true) :
    feed registry scan session token = addInput scan session token := by
  unfold feed
  rw [hpending]
  exact if_neg (by simpa [isDashed] using hdashed)

end Feeding

/-- Tokens are scanned from where the ones before them have brought the scan. -/
theorem feedAll_append (registry : Registry) (scan : Scan) (session : Session)
    (tokens more : List String) :
    feedAll registry scan session (tokens ++ more) =
      match feedAll registry scan session tokens with
      | (.error f, scan, session) => (.error f, scan, session)
      | (.ok (), scan, session) => feedAll registry scan session more := by
  induction tokens generalizing scan session with
  | nil => rfl
  | cons token rest ih =>
    rw [List.cons_append, feedAll, feedAll]
    rcases feed registry scan session token with ⟨outcome, next, session'⟩
    cases outcome with
    | error f => rfl
    | ok => exact ih next session'

/-- An option with its value. -/
theorem feedAll_option {session : Session}
    (hdirs : ∀ p, session.host.isDirectory p = first.isDirectory p) {name : String}
    (hdashed : isDashed name = true) (value : String) (rest : List String) :
    feedAll registry (gathered registry items entries) session (name :: value :: rest) =
      match (Argument.option name value).fault? registry first session.host with
      | some f =>
        (.error f, gathered registry items entries, session)
      | none =>
        feedAll registry (gathered registry (items ++ [.option name value]) entries) session
          rest := by
  unfold Argument.fault?
  dsimp only
  rw [feedAll, feed_dashed rfl session hdashed]
  cases hname : OptionName.ofText? name with
  | none => rfl
  | some option =>
    obtain rfl := OptionName.ofText?_eq_some_iff.mp hname
    dsimp only
    rw [feedAll, feed_value rfl, applyOption_gathered hdirs]
    cases option.fault? registry first value with
    | some f => rfl
    | none => rfl

/-- A scan of tokens goes as the grammar says, whatever has been gathered before them and whatever
temporary files have been made. -/
def AsGrammar (registry : Registry) (first : Host) (tokens : List String) : Prop :=
  ∀ (session : Session) (locations : List Location) (items : List Argument)
    (entries : List InputEntry), Session.Tracks first session locations →
      (∀ f, (Arguments.ofTokens tokens).scanFault? registry session.host first = some f →
        (feedAll registry (gathered registry items entries) session tokens).1 = .error f) ∧
      ((Arguments.ofTokens tokens).scanFault? registry session.host first = none →
        (feedAll registry (gathered registry items entries) session tokens).1 = .ok () ∧
        (feedAll registry (gathered registry items entries) session tokens).2.1 =
          { gathered registry (items ++ (Arguments.ofTokens tokens).items)
              (entries ++ (Arguments.ofTokens tokens).entries session.host) with
            pending := (Arguments.ofTokens tokens).unfinished.bind OptionName.ofText? })

/-- Without tokens the scan is that of the grammar. -/
theorem asGrammar_nil (registry : Registry) (first : Host) : AsGrammar registry first [] := by
  intro session locations items entries _
  refine ⟨fun f hf => (nomatch hf), fun _ => ⟨rfl, ?_⟩⟩
  rw [show Arguments.ofTokens [] = ⟨[], none⟩ from rfl]
  simp [feedAll, gathered, Arguments.entries, Argument.stages]

/-- The option at the end that lacks a value. -/
theorem asGrammar_unfinished {name : String} (hdashed : isDashed name = true) :
    AsGrammar registry first [name] := by
  intro session locations items entries _
  have htokens : Arguments.ofTokens [name] = ⟨[], some name⟩ := by
    rw [Arguments.ofTokens, if_pos hdashed]
  rw [htokens, feedAll, feed_dashed rfl session hdashed]
  cases hname : OptionName.ofText? name with
  | none =>
    constructor
    · intro f hf
      simp [Arguments.scanFault?, Arguments.nameFault?, Argument.stages, hname] at hf
      rw [← hf]
    · intro hnone
      simp [Arguments.scanFault?, Arguments.nameFault?, Argument.stages, hname] at hnone
  | some option =>
    constructor
    · intro f hf
      simp [Arguments.scanFault?, Arguments.nameFault?, Argument.stages, hname] at hf
    · intro _
      refine ⟨rfl, ?_⟩
      simp [feedAll, Arguments.entries, Argument.stages, hname]

/-- So it is with an option and its value before tokens for which it is. -/
theorem asGrammar_option {name value : String} {rest : List String}
    (hdashed : isDashed name = true) (hrest : AsGrammar registry first rest) :
    AsGrammar registry first (name :: value :: rest) := by
  intro session locations items entries hsession
  have hdirs := Host.isDirectory_of_gainsFiles hsession.workingDirectory hsession.gainsFiles
  rw [Arguments.ofTokens_option hdashed, Arguments.scanFault?_cons,
    feedAll_option hdirs hdashed]
  cases (Argument.option name value).fault? registry first session.host with
  | some f =>
    constructor
    · intro f' hf
      rw [← Option.some.inj hf]
    · intro hnone
      cases hnone
  | none =>
    obtain ⟨hfails, hgathers⟩ :=
      hrest session locations (items ++ [.option name value]) entries hsession
    refine ⟨hfails, ?_⟩
    intro hnone
    obtain ⟨hok, hscan⟩ := hgathers hnone
    refine ⟨hok, ?_⟩
    dsimp only
    rw [hscan, Arguments.entries_cons, List.append_assoc]
    rfl

/-- So it is with an input before tokens for which it is. -/
theorem asGrammar_input {token : String} {rest : List String} (hdashed : ¬isDashed token = true)
    (hrest : AsGrammar registry first rest) : AsGrammar registry first (token :: rest) := by
  intro session locations items entries hsession
  obtain ⟨hhost, hfailed, hadded⟩ := addInput_gathered registry first items entries session token
  obtain ⟨locations', hnext⟩ := hsession.addInput (gathered registry items entries) token
  rw [Arguments.ofTokens_input hdashed, Arguments.scanFault?_cons, feedAll,
    feed_input rfl session hdashed]
  rcases hadd : addInput (gathered registry items entries) session token with
    ⟨outcome, scan, next⟩
  rw [hadd] at hhost hfailed hadded hnext
  cases hfault : (Argument.input token).fault? registry first session.host with
  | some f =>
    constructor
    · intro f' hf
      obtain rfl : outcome = .error f := hfailed f hfault
      rw [← Option.some.inj hf]
    · intro hnone
      cases hnone
  | none =>
    obtain ⟨rfl, rfl⟩ := hadded hfault
    obtain ⟨hfails, hgathers⟩ := hrest next locations' (items ++ [.input token])
      (entries ++ ((Argument.input token).entryOn session.host).toList) hnext
    rw [show next.host = _ from hhost] at hfails hgathers
    refine ⟨hfails, ?_⟩
    intro hnone
    obtain ⟨hok, hscan⟩ := hgathers hnone
    refine ⟨hok, ?_⟩
    dsimp only
    rw [hscan, Arguments.entries_cons, List.append_assoc, List.append_assoc]
    rfl

/-- All tokens are scanned as the grammar says, by induction along the grammar. -/
theorem feedAll_gathered (registry : Registry) (first : Host) (tokens : List String) :
    AsGrammar registry first tokens := by
  induction tokens using Arguments.ofTokens.induct with
  | case1 => exact asGrammar_nil registry first
  | case2 name hdashed => exact asGrammar_unfinished hdashed
  | case3 token hdashed => exact asGrammar_input hdashed (asGrammar_nil registry first)
  | case4 name value rest hdashed ih => exact asGrammar_option hdashed ih
  | case5 token next rest hdashed ih => exact asGrammar_input hdashed ih

end Scan

/-! ## The settings at the end of a scan -/

/-- A selection is that of the list of its parts. -/
theorem Selection.ofList_toList (s : Selection) : ofList s.toList = s := by
  obtain ⟨shows⟩ := s
  unfold ofList toList
  congr 1
  funext option
  have hmem : option ∈ DisplayOption.all := by cases option <;> decide
  rw [Bool.eq_iff_iff, List.contains_iff_mem, List.mem_filter]
  exact ⟨fun h => h.2, fun h => ⟨hmem, h⟩⟩

namespace Config

/-- A pattern that is given must not be empty, and one that is not given is for all classes. -/
theorem checkPattern_map (value? : Option String) :
    checkPattern (value?.map .text) =
      if value? = some "" then .error .emptyPattern else .ok (value?.getD "*") := by
  cases value? with
  | none => rfl
  | some value => simp [checkPattern]

/-- The names of parts are read back. -/
theorem checkOptions_names (options : List DisplayOption) :
    checkOptions ((options.map DisplayOption.name).map .text) = .ok options := by
  induction options with
  | nil => rfl
  | cons option rest ih =>
    have hname : DisplayOption.ofName? option.name = some option := by cases option <;> decide
    simp only [List.map_cons, checkOptions, hname]
    rw [ih]

/-- The names of selected parts select these parts again. -/
theorem checkSelection_names (s : Selection) :
    checkSelection (some (.list (s.names.map .text))) = .ok s := by
  unfold checkSelection Selection.names
  dsimp only
  rw [checkOptions_names]
  exact congrArg Except.ok s.ofList_toList

/-- A directory that is there is still there when its path name has been written as text. -/
theorem checkDirectory_map {host : Host} {path? : Option PathName}
    (hthere : ∀ path, path? = some path →
      PathName.ofText path.text = path ∧ host.isDirectory path = .ok true) :
    checkDirectory host (path?.map fun path => .text path.text) = .ok (.ok path?) := by
  cases path? with
  | none => rfl
  | some path =>
    obtain ⟨htext, hdirectory⟩ := hthere path rfl
    rw [Option.map_some]
    unfold checkDirectory
    dsimp only
    rw [htext, hdirectory]
    rfl

/-- Any name of a writer passes; it is looked up later. -/
theorem checkWriter_map (name? : Option String) : checkWriter (name?.map .text) = .ok name? := by
  cases name? <;> rfl

end Config

namespace Scan

variable {registry : Registry} {host first : Host}

/-- The configuration is built from what has been gathered unless the pattern or the level is at
fault, in this order. -/
theorem build_gathered (registry : Registry) {a : Arguments}
    (hthere : ∀ value, a.last? .directory = some value →
      host.isDirectory (PathName.ofText (Text.strip value)) = .ok true)
    (entries : List InputEntry) :
    Config.build host (gathered registry a.items entries).settings =
      match a.patternFault?.or a.levelFault? with
      | some f => .error f
      | none => .ok (a.config registry) := by
  have hdirectory : Config.checkDirectory host
      (gathered registry a.items entries).settings.outputDirectory =
        .ok (.ok (a.config registry).outputDirectory) := by
    apply Config.checkDirectory_map
    intro path hpath
    obtain ⟨value, hvalue, rfl⟩ := Option.map_eq_some_iff.mp hpath
    exact ⟨PathName.ofText_text_ofText _, hthere value hvalue⟩
  unfold Config.build
  rw [hdirectory]
  dsimp only
  have hpattern : Config.checkPattern (gathered registry a.items entries).settings.classPattern =
      if a.last? .pattern = some "" then .error .emptyPattern
      else .ok (a.config registry).classPattern := Config.checkPattern_map (a.last? .pattern)
  have hselection : Config.checkSelection
      (gathered registry a.items entries).settings.displayOptions =
        .ok (a.config registry).selection := Config.checkSelection_names _
  have hwriter : Config.checkWriter (gathered registry a.items entries).settings.writerId =
      .ok (a.config registry).writerId := Config.checkWriter_map _
  have hlevel : Config.checkLevel (gathered registry a.items entries).settings.logLevel =
      Config.checkLevel (((a.last? .level).map Text.strip).map .text) := rfl
  unfold Config.assemble Arguments.patternFault?
  rw [hpattern, hselection, hwriter, hlevel]
  by_cases hempty : a.last? .pattern = some ""
  · rw [if_pos hempty, if_pos hempty]
    rfl
  · rw [if_neg hempty, if_neg hempty]
    unfold Arguments.levelFault? Config.checkLevel Arguments.config
    cases a.last? .level with
    | none => rfl
    | some value =>
      dsimp only [Option.map_some, Option.bind_some]
      cases LogLevel.ofText? (Text.strip value) <;> rfl

/-- The end of a scan, when no argument has failed. -/
theorem finish_gathered {a : Arguments}
    (hthere : ∀ value, a.last? .directory = some value →
      host.isDirectory (PathName.ofText (Text.strip value)) = .ok true)
    (hname : ∀ name, a.unfinished = some name → OptionName.ofText? name ≠ none) :
    finish { gathered registry a.items (a.entries first) with
        pending := a.unfinished.bind OptionName.ofText? } host =
      match a.endFault? first with
      | some f => .error f
      | none => .ok (a.config registry, a.entries first) := by
  unfold finish Arguments.endFault?
  cases hunfinished : a.unfinished with
  | some name =>
    cases hoption : OptionName.ofText? name with
    | none => exact absurd hoption (hname name hunfinished)
    | some option =>
      obtain rfl := OptionName.ofText?_eq_some_iff.mp hoption
      rw [Option.bind_some, hoption]
      rfl
  | none =>
    have hbuild := build_gathered registry hthere (a.entries first)
    dsimp only [Option.bind_none, settings] at hbuild ⊢
    rw [hbuild]
    cases a.patternFault? with
    | some f => rfl
    | none =>
      cases a.levelFault? with
      | some f => rfl
      | none =>
        by_cases hnil : a.entries first = []
        · simp [gathered, hnil]
        · simp [gathered, hnil]

/-- What a scan gives, as a function of the arguments. -/
theorem parse_eq_failure? (registry : Registry) (host : Host) (tokens : List String) :
    (parse registry (Session.start host) tokens).1 =
      match (Arguments.ofTokens tokens).failure? registry host with
      | some f => .error f
      | none =>
        .ok ((Arguments.ofTokens tokens).config registry,
          (Arguments.ofTokens tokens).entries host) := by
  obtain ⟨hfails, hgathers⟩ :=
    feedAll_gathered registry host tokens (Session.start host) [] [] [] (Session.tracks_start host)
  obtain ⟨locations, hlast⟩ :=
    (Session.tracks_start host).feedAll registry (gathered registry [] []) tokens
  have hdirs := Host.isDirectory_of_gainsFiles hlast.workingDirectory hlast.gainsFiles
  unfold parse Arguments.failure?
  rw [start_eq_gathered registry]
  rcases hfeed : feedAll registry (gathered registry [] []) (Session.start host) tokens with
    ⟨outcome, scan, session⟩
  rw [hfeed] at hfails hgathers hdirs
  cases hfault : (Arguments.ofTokens tokens).scanFault? registry host host with
  | some f =>
    obtain rfl : outcome = .error f := hfails f hfault
    rfl
  | none =>
    obtain ⟨hok, hscan⟩ := hgathers hfault
    obtain rfl : outcome = .ok () := hok
    obtain rfl : scan = _ := hscan
    obtain ⟨hoptions, -, hname⟩ := (Arguments.scanFault?_eq_none_iff registry host _).mp hfault
    dsimp only
    rw [Option.none_or]
    apply finish_gathered _ hname
    intro value hvalue
    -- The directory was there at the beginning, and new files do not change that.
    rw [hdirs]
    obtain ⟨option, htext, htakes⟩ := hoptions _ _ (Arguments.mem_items_of_last? hvalue)
    rw [OptionName.text_inj.mp htext] at htakes
    exact htakes

/-- Scanning arguments computes what the grammar says. The scan succeeds when nothing is wrong with
the arguments; then it gives the configuration that they ask for and the entries of their inputs in
order. Otherwise it fails: with the failure of the leftmost argument that fails on its own, else for
want of a value, else for the pattern, else for the level, else for want of inputs. -/
theorem parse_eq_grammar (registry : Registry) (host : Host) (tokens : List String) :
    ((∃ result, (parse registry (Session.start host) tokens).1 = .ok result) ↔
      (Arguments.ofTokens tokens).Sound registry host) ∧
    (parse registry (Session.start host) tokens).1 =
      match (Arguments.ofTokens tokens).failure? registry host with
      | some f => .error f
      | none =>
        .ok ((Arguments.ofTokens tokens).config registry,
          (Arguments.ofTokens tokens).entries host) := by
  have hparse := parse_eq_failure? registry host tokens
  refine ⟨?_, hparse⟩
  rw [hparse, ← Arguments.failure?_eq_none_iff]
  cases (Arguments.ofTokens tokens).failure? registry host <;> simp

end Scan

end DexListing
