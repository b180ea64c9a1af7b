import DexListing.Run.Scan

/-!
# The grammar of command lines

What arguments mean, without regard to how they are scanned. The tokens are cut into arguments: a
token that starts with a dash and the next one are an option with its value, any other one is an
input (`Arguments.ofTokens`). The values of an option are then those of all arguments that name it.
Only inputs depend on each other, as each is resolved on the host that the ones before it leave
(`Argument.stages`). From this follow the configuration that arguments ask for
(`Arguments.config`), the failure that they end in, if any (`Arguments.failure?`), and when there is
none (`Arguments.failure?_eq_none_iff`).
-/

set_option autoImplicit false

namespace DexListing

/-- An argument: an option with its value, or an input. -/
inductive Argument
  | option (name value : String)
  | input (token : String)
  deriving DecidableEq, Repr

/-- The arguments of a command line in order, and the option at its end that lacks a value. -/
structure Arguments where
  items : List Argument
  unfinished : Option String
  deriving DecidableEq, Repr

/-- A token that names an option, or should. -/
def isDashed (token : String) : Bool :=
  token.toList.head? = some '-'

/-- The arguments that tokens make up: the token after an option is its value, whatever it looks
like. -/
def Arguments.ofTokens : List String → Arguments
  | [] => ⟨[], none⟩
  | [token] => if isDashed token then ⟨[], some token⟩ else ⟨[.input token], none⟩
  | token :: next :: rest =>
    if isDashed token then
      let others := ofTokens rest
      ⟨.option token next :: others.items, others.unfinished⟩
    else
      let others := ofTokens (next :: rest)
      ⟨.input token :: others.items, others.unfinished⟩

example : Arguments.ofTokens ["-c", "-d", "a.dex", "-w"] =
    ⟨[.option "-c" "-d", .input "a.dex"], some "-w"⟩ := by decide

/-! ## Single arguments -/

/-- What is wrong with a value of an option, whatever else is given. Patterns and levels are not
judged before the last one is known. -/
def OptionName.fault? (registry : Registry) (host : Host) (value : String) :
    OptionName → Option Failure
  | pattern | level => none
  | display =>
    match Selection.parse value with
    | .error element => some (.configuration (.unknownDisplay element))
    | .ok _ => none
  | directory =>
    match host.isDirectory (PathName.ofText (Text.strip value)) with
    | .error e => some (.file e)
    | .ok false => some (.configuration (.missingDirectory (Text.strip value)))
    | .ok true => none
  | writer =>
    match registry.canonicalName? value with
    | none => some (.configuration (.unknownWriter (Text.strip value)))
    | some _ => none

/-- A value is good for an option on its own. -/
def OptionName.Takes (registry : Registry) (host : Host) (value : String) : OptionName → Prop
  | pattern | level => True
  | display => ∃ selection, Selection.parse value = .ok selection
  | directory => host.isDirectory (PathName.ofText (Text.strip value)) = .ok true
  | writer => ∃ name, registry.canonicalName? value = some name

namespace Argument

/-- The value that an argument gives to an option. -/
def valueOf? (option : OptionName) : Argument → Option String
  | .option name value => if name = option.text then some value else none
  | .input _ => none

/-- What an argument resolves to on a host, and the host after that. -/
def resolve (host : Host) : Argument → Except Failure (Option InputEntry) × Host
  | .option _ _ => (.ok none, host)
  | .input token =>
    (((Session.start host).resolve token).1, ((Session.start host).resolve token).2.host)

/-- The entry of an argument on a host; none if it is passed over. -/
def entryOn (host : Host) (argument : Argument) : Option InputEntry :=
  match (argument.resolve host).1 with
  | .ok entry => entry
  | .error _ => none

/-- The failure of an argument that ends a scan. Directories are looked up on the host `first`,
inputs on the host `host`. -/
def fault? (registry : Registry) (first host : Host) : Argument → Option Failure
  | .option name value =>
    match OptionName.ofText? name with
    | none => some (.configuration (.unsupportedArgument name))
    | some known => known.fault? registry first value
  | .input token =>
    match ((Session.start host).resolve token).1 with
    | .error f => if f.isA .input then none else some f
    | .ok _ => none

/-- Arguments together with the hosts that they find when their turn comes. -/
def stages (host : Host) : List Argument → List (Host × Argument)
  | [] => []
  | argument :: rest => (host, argument) :: stages (argument.resolve host).2 rest

end Argument

/-- Selections joined to the default one. -/
def Selection.shownBy (values : List String) : Selection where
  shows option := option == .className || values.any fun value =>
    match Selection.parse value with
    | .ok selection => selection.shows option
    | .error _ => false

/-! ## All arguments -/

namespace Arguments

variable (registry : Registry) (host : Host) (a : Arguments)

/-- The values given to an option, in order. -/
def values (option : OptionName) : List String :=
  a.items.filterMap (·.valueOf? option)

/-- The value of an option that counts. -/
def last? (option : OptionName) : Option String :=
  (a.values option).getLast?

/-- The entries that the inputs resolve to, in order. -/
def entries : List InputEntry :=
  (Argument.stages host a.items).filterMap fun stage => stage.2.entryOn stage.1

/-- The configuration that the arguments ask for. -/
def config : Config where
  classPattern := (a.last? .pattern).getD "*"
  selection := Selection.shownBy (a.values .display)
  outputDirectory := (a.last? .directory).map fun value => PathName.ofText (Text.strip value)
  writerId := (a.last? .writer).bind registry.canonicalName?
  logLevel :=
    ((a.last? .level).bind fun value => LogLevel.ofText? (Text.strip value)).getD .warning

/-- The failure of an option at the end that lacks a value: its name may be wrong as well. -/
def nameFault? : Option Failure :=
  a.unfinished.bind fun name =>
    match OptionName.ofText? name with
    | none => some (.configuration (.unsupportedArgument name))
    | some _ => none

/-- The failure of the leftmost argument that fails. Directories are looked up on the host
`first`. -/
def scanFault? (first : Host) : Option Failure :=
  ((Argument.stages host a.items).findSome? fun stage => stage.2.fault? registry first stage.1).or
    a.nameFault?

/-- The pattern that counts must not be empty. -/
def patternFault? : Option Failure :=
  if a.last? .pattern = some "" then some (.configuration .emptyPattern) else none

/-- The level that counts must be one. -/
def levelFault? : Option Failure :=
  (a.last? .level).bind fun value =>
    match LogLevel.ofText? (Text.strip value) with
    | none => some (.configuration .unknownLevel)
    | some _ => none

/-- The failure that is only found after the last argument. -/
def endFault? : Option Failure :=
  (a.unfinished.map fun name => Failure.configuration (.missingValue name)).or <|
  a.patternFault?.or <| a.levelFault?.or <|
  if a.entries host = [] then some .noInputs else none

/-- The failure that the arguments end in. -/
def failure? : Option Failure :=
  (a.scanFault? registry host host).or (a.endFault? host)

/-- Arguments with which nothing is wrong. -/
structure Sound : Prop where
  options : ∀ name value, Argument.option name value ∈ a.items →
    ∃ option : OptionName, option.text = name ∧ option.Takes registry host value
  inputs : ∀ stage ∈ Argument.stages host a.items, ∀ f,
    (stage.2.resolve stage.1).1 = .error f → f.isA .input = true
  finished : a.unfinished = none
  pattern : a.last? .pattern ≠ some ""
  level : ∀ value, a.last? .level = some value →
    ∃ level, LogLevel.ofText? (Text.strip value) = some level
  entries : a.entries host ≠ []

end Arguments

namespace Arguments

/-! ## Grouping tokens -/

/-- An option takes the next token as its value, whatever that is. -/
theorem ofTokens_option {name : String} (hdashed : isDashed name = true) (value : String)
    (rest : List String) :
    ofTokens (name :: value :: rest) =
      ⟨.option name value :: (ofTokens rest).items, (ofTokens rest).unfinished⟩ := by
  rw [ofTokens, if_pos hdashed]

/-- A token that is no option is an input. -/
theorem ofTokens_input {token : String} (hdashed : ¬isDashed token = true) (rest : List String) :
    ofTokens (token :: rest) =
      ⟨.input token :: (ofTokens rest).items, (ofTokens rest).unfinished⟩ := by
  cases rest with
  | nil =>
    rw [show ofTokens [] = ⟨[], none⟩ from rfl, ofTokens]
    rw [if_neg hdashed]
  | cons next rest => rw [ofTokens, if_neg hdashed]

variable (registry : Registry) (host first : Host) (argument : Argument) (items : List Argument)
  (unfinished : Option String)

/-- The first argument fails, or one after it does. -/
theorem scanFault?_cons :
    (Arguments.mk (argument :: items) unfinished).scanFault? registry host first =
      (argument.fault? registry first host).or
        ((Arguments.mk items unfinished).scanFault? registry (argument.resolve host).2 first) := by
  unfold scanFault? nameFault?
  rw [Argument.stages, List.findSome?_cons]
  cases argument.fault? registry first host <;> rfl

/-- The entry of the first argument comes first, and the others are resolved on what it leaves. -/
theorem entries_cons :
    (Arguments.mk (argument :: items) unfinished).entries host =
      (argument.entryOn host).toList ++
        (Arguments.mk items unfinished).entries (argument.resolve host).2 := by
  unfold entries
  rw [Argument.stages, List.filterMap_cons]
  cases argument.entryOn host <;> rfl

end Arguments

/-! ## When nothing fails -/

/-- A token is an option if it is spelled like it. -/
theorem OptionName.ofText?_eq_some_iff {text : String} {option : OptionName} :
    OptionName.ofText? text = some option ↔ option.text = text := by
  constructor
  · intro h
    have hfound := List.find?_some h
    exact eq_of_beq hfound
  · rintro rfl
    cases option <;> decide

/-- An option has no fault if it takes its value. -/
theorem OptionName.fault?_eq_none_iff {registry : Registry} {host : Host} {value : String}
    {option : OptionName} :
    option.fault? registry host value = none ↔ option.Takes registry host value := by
  cases option with
  | pattern | level => exact ⟨fun _ => trivial, fun _ => rfl⟩
  | display =>
    unfold fault? Takes
    cases Selection.parse value <;> simp
  | directory =>
    unfold fault? Takes
    cases host.isDirectory (PathName.ofText (Text.strip value)) with
    | error e => simp
    | ok there => cases there <;> simp
  | writer =>
    unfold fault? Takes
    cases registry.canonicalName? value <;> simp

namespace Argument

variable {registry : Registry} {first host : Host}

/-- An option and its value have no fault if the option is known and takes the value. -/
theorem fault?_option_eq_none_iff {name value : String} :
    (Argument.option name value).fault? registry first host = none ↔
      ∃ option : OptionName, option.text = name ∧ option.Takes registry first value := by
  unfold fault?
  dsimp only
  cases h : OptionName.ofText? name with
  | none =>
    constructor
    · exact nofun
    · rintro ⟨option, hname, -⟩
      rw [OptionName.ofText?_eq_some_iff.mpr hname] at h
      exact nomatch h
  | some known =>
    have hname := OptionName.ofText?_eq_some_iff.mp h
    dsimp only
    rw [OptionName.fault?_eq_none_iff]
    constructor
    · intro htakes
      exact ⟨known, hname, htakes⟩
    · rintro ⟨other, hother, htakes⟩
      rw [OptionName.ofText?_eq_some_iff.mpr hother] at h
      exact Option.some.inj h ▸ htakes

/-- An input has no fault if it is resolved or only skipped. -/
theorem fault?_input_eq_none_iff {token : String} :
    (Argument.input token).fault? registry first host = none ↔
      ∀ f, ((Argument.input token).resolve host).1 = .error f → f.isA .input = true := by
  unfold fault? resolve
  dsimp only
  cases ((Session.start host).resolve token).1 with
  | error f => simp
  | ok entry => simp

end Argument

/-- The arguments stand in their stages in order. -/
theorem Argument.map_snd_stages (host : Host) (items : List Argument) :
    (Argument.stages host items).map Prod.snd = items := by
  induction items generalizing host with
  | nil => rfl
  | cons argument rest ih => rw [stages, List.map_cons, ih]

namespace Arguments

variable (registry : Registry) (host : Host) (a : Arguments)

/-- No argument fails on its own when every option takes its value and every input that fails is one
to be passed over. -/
theorem scanFault?_eq_none_iff :
    a.scanFault? registry host host = none ↔
      (∀ name value, Argument.option name value ∈ a.items →
        ∃ option : OptionName, option.text = name ∧ option.Takes registry host value) ∧
      (∀ stage ∈ Argument.stages host a.items, ∀ f,
        (stage.2.resolve stage.1).1 = .error f → f.isA .input = true) ∧
      ∀ name, a.unfinished = some name → OptionName.ofText? name ≠ none := by
  have hitems : (Argument.stages host a.items).findSome?
      (fun stage => stage.2.fault? registry host stage.1) = none ↔
      (∀ name value, Argument.option name value ∈ a.items →
        ∃ option : OptionName, option.text = name ∧ option.Takes registry host value) ∧
      ∀ stage ∈ Argument.stages host a.items, ∀ f,
        (stage.2.resolve stage.1).1 = .error f → f.isA .input = true := by
    rw [List.findSome?_eq_none_iff]
    constructor
    · intro hnone
      constructor
      · intro name value hmem
        rw [← Argument.map_snd_stages host a.items] at hmem
        obtain ⟨⟨found, argument⟩, hstage, rfl⟩ := List.mem_map.mp hmem
        exact Argument.fault?_option_eq_none_iff.mp (hnone _ hstage)
      · rintro ⟨found, argument⟩ hstage f hf
        cases argument with
        | option name value => exact nomatch hf
        | input token =>
          have hinput : (Argument.input token).fault? registry host found = none :=
            hnone (found, .input token) hstage
          exact Argument.fault?_input_eq_none_iff.mp hinput f hf
    · rintro ⟨hoptions, hinputs⟩ ⟨found, argument⟩ hstage
      cases argument with
      | option name value =>
        have hmem : Argument.option name value ∈ (Argument.stages host a.items).map Prod.snd :=
          List.mem_map.mpr ⟨_, hstage, rfl⟩
        rw [Argument.map_snd_stages] at hmem
        exact Argument.fault?_option_eq_none_iff.mpr (hoptions name value hmem)
      | input token => exact Argument.fault?_input_eq_none_iff.mpr (hinputs _ hstage)
  have hname : a.nameFault? = none ↔
      ∀ name, a.unfinished = some name → OptionName.ofText? name ≠ none := by
    unfold nameFault?
    cases a.unfinished with
    | none => simp
    | some name => cases h : OptionName.ofText? name <;> simp [h]
  unfold scanFault?
  rw [Option.or_eq_none_iff, hitems, hname, and_assoc]

/-- At the end there is no fault if no value is missing, the pattern and the log level are good, and
there is an input. -/
theorem endFault?_eq_none_iff :
    a.endFault? host = none ↔
      a.unfinished = none ∧ a.last? .pattern ≠ some "" ∧
      (∀ value, a.last? .level = some value →
        ∃ level, LogLevel.ofText? (Text.strip value) = some level) ∧
      a.entries host ≠ [] := by
  have hlevel : a.levelFault? = none ↔ ∀ value, a.last? .level = some value →
      ∃ level, LogLevel.ofText? (Text.strip value) = some level := by
    unfold levelFault?
    cases a.last? .level with
    | none => simp
    | some value => cases h : LogLevel.ofText? (Text.strip value) <;> simp [h]
  unfold endFault? patternFault?
  simp only [Option.or_eq_none_iff, hlevel, Option.map_eq_none_iff, ite_eq_right_iff, reduceCtorEq,
    imp_false, ne_eq]

/-- The arguments do not fail when nothing is wrong with them. -/
theorem failure?_eq_none_iff : a.failure? registry host = none ↔ a.Sound registry host := by
  unfold failure?
  rw [Option.or_eq_none_iff, scanFault?_eq_none_iff, endFault?_eq_none_iff]
  constructor
  · rintro ⟨⟨hoptions, hinputs, -⟩, hfinished, hpattern, hlevel, hentries⟩
    exact ⟨hoptions, hinputs, hfinished, hpattern, hlevel, hentries⟩
  · rintro ⟨hoptions, hinputs, hfinished, hpattern, hlevel, hentries⟩
    refine ⟨⟨hoptions, hinputs, ?_⟩, hfinished, hpattern, hlevel, hentries⟩
    intro name hname
    rw [hfinished] at hname
    exact nomatch hname

/-- The values of an option are given by arguments. -/
theorem mem_items_of_mem_values {a : Arguments} {option : OptionName} {value : String}
    (h : value ∈ a.values option) : Argument.option option.text value ∈ a.items := by
  obtain ⟨argument, hmem, hvalue⟩ := List.mem_filterMap.mp h
  cases argument with
  | input token => exact nomatch hvalue
  | option name given =>
    unfold Argument.valueOf? at hvalue
    dsimp only at hvalue
    split at hvalue
    · next hname =>
      rw [← hname, ← Option.some.inj hvalue]
      exact hmem
    · exact nomatch hvalue

/-- The value of an option that counts is given by one of the arguments. -/
theorem mem_items_of_last? {a : Arguments} {option : OptionName} {value : String}
    (h : a.last? option = some value) : Argument.option option.text value ∈ a.items :=
  mem_items_of_mem_values (List.mem_of_getLast? h)

end Arguments

end DexListing
