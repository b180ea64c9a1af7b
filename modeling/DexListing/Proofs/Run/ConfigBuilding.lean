import DexListing.Proofs.Run.Rerun

/-!
# Building configurations

Each field of the settings is good or at fault on its own (`Config.Field.fault?`), and the first
field at fault decides what is reported (`Config.build_eq`). That is so as long as the system can
tell whether there is an output directory. It cannot for a name that is too long, and then this
failure is all that comes of the settings, whatever else is wrong with them
(`Config.build_longDirectory`).

A configuration that has been built can be built again from its summary (`Config.build_summary`).
-/

set_option autoImplicit false

namespace DexListing

/-! ## Values of settings -/

namespace SettingValue

/-- The text that a value is. -/
def text? : SettingValue → Option String
  | .text value => some value
  | _ => none

/-- The part that a value names. -/
def part? (item : SettingValue) : Option DisplayOption :=
  item.text?.bind DisplayOption.ofName?

end SettingValue

/-- The configuration of settings without a fault. -/
def Settings.config (settings : Settings) : Config where
  classPattern := (settings.classPattern.bind SettingValue.text?).getD "*"
  selection :=
    match settings.displayOptions with
    | some (.list items) => Selection.ofList (items.filterMap SettingValue.part?)
    | _ => Selection.default
  outputDirectory := (settings.outputDirectory.bind SettingValue.text?).map PathName.ofText
  writerId := settings.writerId.bind SettingValue.text?
  logLevel := ((settings.logLevel.bind SettingValue.text?).bind LogLevel.ofText?).getD .warning

/-- The failure to tell whether the output directory is there. -/
def Settings.refusal? (settings : Settings) (host : Host) : Option FileError :=
  match settings.outputDirectory with
  | some (.text value) =>
    match host.isDirectory (.ofText value) with
    | .error e => some e
    | .ok _ => none
  | _ => none

namespace Config

/-! ## The fields -/

/-- The fields of a configuration. -/
inductive Field
  | classPattern
  | displayOptions
  | outputDirectory
  | writerId
  | logLevel
  deriving DecidableEq, Repr

/-- The fields in the order in which they count. -/
def Field.all : List Field :=
  [.classPattern, .displayOptions, .outputDirectory, .writerId, .logLevel]

/-- What is wrong with a field of the settings. The pattern is a text that is not empty, the display
options are a list of names of parts, the output directory is the path name of a directory or
null, the writer is a text or null, and the log level is the name of a level. Every field may be
left out. -/
def Field.fault? (host : Host) (settings : Settings) : Field → Option ConfigurationFault
  | .classPattern =>
    match settings.classPattern with
    | none => none
    | some (.text value) => if value = "" then some .emptyPattern else none
    | some _ => some .notText
  | .displayOptions =>
    match settings.displayOptions with
    | none => none
    | some (.list items) =>
      if items.all fun item => item.part?.isSome then none else some .notADisplayOption
    | some _ => some .notASet
  | .outputDirectory =>
    match settings.outputDirectory with
    | none | some .null => none
    | some (.text value) =>
      if host.isDirectory (.ofText value) = .ok true then none
      else some (.missingDirectory (PathName.ofText value).text)
    | some _ => some .notAPath
  | .writerId =>
    match settings.writerId with
    | none | some .null | some (.text _) => none
    | some _ => some .notText
  | .logLevel =>
    match settings.logLevel with
    | none => none
    | some (.text value) => if (LogLevel.ofText? value).isSome then none else some .unknownLevel
    | some _ => some .notText

/-- What is wrong with the first field at fault. -/
def firstFault? (host : Host) (settings : Settings) : Option ConfigurationFault :=
  Field.all.findSome? (Field.fault? host settings)

/-- A value, unless something is at fault. -/
def outcome {α : Type} (fault? : Option ConfigurationFault) (value : α) :
    Except ConfigurationFault α :=
  match fault? with
  | some fault => .error fault
  | none => .ok value

section Checks

variable (host : Host) (settings : Settings)

/-- The check of the pattern gives its fault, or else the value. -/
theorem checkPattern_eq : checkPattern settings.classPattern =
    outcome (Field.fault? host settings .classPattern) settings.config.classPattern := by
  unfold checkPattern Field.fault? Settings.config
  rcases settings.classPattern with _ | _ | value | _ | _
  · rfl
  · rfl
  · dsimp only
    split <;> rfl
  · rfl
  · rfl

/-- Display options pass if each of them is the name of a part. -/
theorem checkOptions_eq (items : List SettingValue) : checkOptions items =
    if items.all fun item => item.part?.isSome then .ok (items.filterMap SettingValue.part?)
    else .error .notADisplayOption := by
  induction items with
  | nil => rfl
  | cons item rest ih =>
    rw [List.all_cons, List.filterMap_cons]
    cases item with
    | null | list _ | other => rfl
    | text name =>
      have hpart : (SettingValue.text name).part? = DisplayOption.ofName? name := rfl
      rw [checkOptions, ih, hpart]
      cases DisplayOption.ofName? name with
      | none => rfl
      | some option =>
        cases rest.all fun item => item.part?.isSome <;> rfl

/-- The check of the display options gives their fault, or else the selection. -/
theorem checkSelection_eq : checkSelection settings.displayOptions =
    outcome (Field.fault? host settings .displayOptions) settings.config.selection := by
  unfold checkSelection Field.fault? Settings.config
  rcases settings.displayOptions with _ | _ | _ | items | _
  · rfl
  · rfl
  · rfl
  · dsimp only
    rw [checkOptions_eq]
    split <;> rfl
  · rfl

/-- The check of the directory fails with the system if that refuses the path name, and else gives
the fault or the value. -/
theorem checkDirectory_eq : checkDirectory host settings.outputDirectory =
    match settings.refusal? host with
    | some e => .error e
    | none => .ok
      (outcome (Field.fault? host settings .outputDirectory) settings.config.outputDirectory) := by
  unfold checkDirectory Settings.refusal? Field.fault? Settings.config
  rcases settings.outputDirectory with _ | _ | value | _ | _
  · rfl
  · rfl
  · dsimp only
    cases host.isDirectory (.ofText value) with
    | error e => rfl
    | ok there => cases there <;> rfl
  · rfl
  · rfl

/-- The check of the writer gives its fault, or else the value. -/
theorem checkWriter_eq : checkWriter settings.writerId =
    outcome (Field.fault? host settings .writerId) settings.config.writerId := by
  unfold checkWriter Field.fault? Settings.config
  rcases settings.writerId with _ | _ | _ | _ | _ <;> rfl

/-- The check of the log level gives its fault, or else the value. -/
theorem checkLevel_eq : checkLevel settings.logLevel =
    outcome (Field.fault? host settings .logLevel) settings.config.logLevel := by
  unfold checkLevel Field.fault? Settings.config
  rcases settings.logLevel with _ | _ | value | _ | _
  · rfl
  · rfl
  · dsimp only [Option.bind_some, SettingValue.text?]
    cases LogLevel.ofText? value <;> rfl
  · rfl
  · rfl

/-! ## Building -/

/-- The first field at fault is the first one in their order. -/
theorem assemble_eq : assemble settings
    (outcome (Field.fault? host settings .outputDirectory) settings.config.outputDirectory) =
      outcome (firstFault? host settings) settings.config := by
  unfold assemble firstFault? Field.all
  rw [checkPattern_eq host, checkSelection_eq host, checkWriter_eq host, checkLevel_eq host]
  simp only [List.findSome?_cons, List.findSome?_nil]
  cases Field.fault? host settings .classPattern with
  | some fault => rfl
  | none =>
    cases Field.fault? host settings .displayOptions with
    | some fault => rfl
    | none =>
      cases Field.fault? host settings .outputDirectory with
      | some fault => rfl
      | none =>
        cases Field.fault? host settings .writerId with
        | some fault => rfl
        | none => cases Field.fault? host settings .logLevel <;> rfl

/-- What comes of settings. -/
theorem build_eq : build host settings =
    match settings.refusal? host with
    | some e => .error (.file e)
    | none =>
      match firstFault? host settings with
      | some fault => .error (.configuration fault)
      | none => .ok settings.config := by
  unfold build
  rw [checkDirectory_eq]
  cases settings.refusal? host with
  | some e => rfl
  | none =>
    dsimp only
    rw [assemble_eq]
    cases firstFault? host settings <;> rfl

end Checks

section Built

variable {host : Host} {settings : Settings} {config : Config}

/-- A path name that the system refuses to look up is refused as a directory. -/
theorem refusal?_of_isDirectory {value : String} {e : FileError}
    (hvalue : settings.outputDirectory = some (.text value))
    (hrefused : host.isDirectory (.ofText value) = .error e) : settings.refusal? host = some e := by
  unfold Settings.refusal?
  rw [hvalue]
  dsimp only
  rw [hrefused]

/-- The system only cannot tell whether there is a directory if a name is too long. -/
theorem eq_nameTooLong_of_refusal? {e : FileError} (h : settings.refusal? host = some e) :
    ∃ value, settings.outputDirectory = some (.text value) ∧
      e = .refused .nameTooLong (.ofText value) ∧ host.MeetsLongName (.ofText value) := by
  unfold Settings.refusal? at h
  split at h
  · next value hvalue =>
    split at h
    · next hrefused =>
      obtain rfl := Option.some.inj h
      exact ⟨value, hvalue, Host.isDirectory_eq_error hrefused⟩
    · exact nomatch h
  · exact nomatch h

/-- What is built is the configuration of settings of which no field is at fault. -/
theorem eq_config_of_build (h : build host settings = .ok config) :
    config = settings.config ∧ ∀ field, Field.fault? host settings field = none := by
  have hall : ∀ field, field ∈ Field.all := by
    intro field
    cases field <;> decide
  rw [build_eq] at h
  split at h
  · exact nomatch h
  · split at h
    · exact nomatch h
    · next hnone =>
      exact ⟨(Except.ok.inj h).symm,
        fun field => List.findSome?_eq_none_iff.mp hnone field (hall field)⟩

/-- A configuration that is built has a pattern that is not empty. -/
theorem classPattern_ne_empty (h : build host settings = .ok config) :
    config.classPattern ≠ "" := by
  obtain ⟨rfl, hnone⟩ := eq_config_of_build h
  have hpattern := hnone .classPattern
  unfold Field.fault? at hpattern
  dsimp only at hpattern
  change (settings.classPattern.bind SettingValue.text?).getD "*" ≠ ""
  split at hpattern
  · next hnone =>
    rw [hnone]
    decide
  · next value hvalue =>
    rw [hvalue]
    rintro (hempty : value = "")
    exact nomatch (if_pos hempty).symm.trans hpattern
  · exact nomatch hpattern

/-- The output directory is there, and its path name reads the same when it is written as text. -/
theorem isDirectory_of_outputDirectory {D : PathName} (h : build host settings = .ok config)
    (hD : config.outputDirectory = some D) :
    PathName.ofText D.text = D ∧ host.isDirectory D = .ok true := by
  refine ⟨?_, isDirectory_of_build h hD⟩
  obtain ⟨rfl, -⟩ := eq_config_of_build h
  obtain ⟨value, -, rfl⟩ := Option.map_eq_some_iff.mp hD
  exact PathName.ofText_text_ofText value

/-- A configuration is built from its summary if its fields are good. -/
theorem build_summary (hpattern : config.classPattern ≠ "")
    (hdirectory : ∀ D, config.outputDirectory = some D →
      PathName.ofText D.text = D ∧ host.isDirectory D = .ok true) :
    build host config.summary = .ok config := by
  have hchecked : checkPattern config.summary.classPattern = .ok config.classPattern :=
    if_neg hpattern
  have hlooked : checkDirectory host config.summary.outputDirectory =
      .ok (.ok config.outputDirectory) := by
    unfold summary
    cases hD : config.outputDirectory with
    | none => rfl
    | some D =>
      have hmap := checkDirectory_map fun path heq => hdirectory path (hD.trans heq)
      exact hmap
  have hselection : checkSelection config.summary.displayOptions = .ok config.selection :=
    checkSelection_names config.selection
  have hwriter : checkWriter config.summary.writerId = .ok config.writerId := by
    unfold summary
    cases config.writerId <;> rfl
  have hlevel : checkLevel config.summary.logLevel = .ok config.logLevel := by
    have hname : LogLevel.ofText? config.logLevel.name = some config.logLevel := by
      cases config.logLevel <;> decide
    unfold summary checkLevel
    dsimp only
    rw [hname]
  unfold build assemble
  rw [hlooked]
  dsimp only
  rw [hchecked, hselection, hwriter, hlevel]
  rfl

end Built

/-- What settings are built to, whatever their values are and whatever files there are: to the fault
of the first field at fault, or to the configuration that they ask for if no field is. Its pattern
is not empty, its output directory is there, its level is one of five, and its summary is built to
the same configuration. Only if the system cannot tell whether the output directory is there, which
takes a name that is too long, do they come to this failure instead. -/
theorem build_outcome (host : Host) (settings : Settings) :
    (build host settings =
      match settings.refusal? host with
      | some e => .error (.file e)
      | none =>
        match firstFault? host settings with
        | some fault => .error (.configuration fault)
        | none => .ok settings.config) ∧
    (∀ e, settings.refusal? host = some e →
      ∃ value, settings.outputDirectory = some (.text value) ∧
        e = .refused .nameTooLong (.ofText value) ∧ host.MeetsLongName (.ofText value)) ∧
    ∀ config, build host settings = .ok config →
      config.classPattern ≠ "" ∧
        (∀ D, config.outputDirectory = some D → host.isDirectory D = .ok true) ∧
        config.logLevel.name ∈ ["DEBUG", "INFO", "WARNING", "ERROR", "CRITICAL"] ∧
        build host config.summary = .ok config := by
  refine ⟨build_eq host settings, fun _ => eq_nameTooLong_of_refusal?, fun config h => ?_⟩
  have hpattern := classPattern_ne_empty h
  have hdirectory := fun D => isDirectory_of_outputDirectory (D := D) h
  refine ⟨hpattern, fun D hD => (hdirectory D hD).2, ?_, build_summary hpattern hdirectory⟩
  cases config.logLevel <;> decide

/-- Settings with a value for each field. -/
theorem build_outcome_everyField :
    let settings : Settings := ⟨some (.text "a*"), some (.list [.text "fields"]),
      some (.text "out//"), some .null, some (.text "Info")⟩
    let config : Config := ⟨"a*", .ofList [.fields], some ⟨.relative, ["out"]⟩, none, .info⟩
    build .withContainer settings = .ok config ∧
      build .withContainer config.summary = .ok config := by
  intro settings config
  have hthere : Host.withContainer.isDirectory ⟨.relative, ["out"]⟩ = .ok true :=
    Host.isDirectory_eq_true_iff.mpr ⟨_, Host.place_out⟩
  have hpath : PathName.ofText "out//" = ⟨.relative, ["out"]⟩ := by decide
  obtain ⟨hbuild, -, hbuilt⟩ := build_outcome .withContainer settings
  have hrefusal : settings.refusal? .withContainer = none := by
    unfold Settings.refusal?
    dsimp only [settings]
    rw [hpath, hthere]
  have hfault : firstFault? .withContainer settings = none := by
    refine List.findSome?_eq_none_iff.mpr fun field _ => ?_
    cases field with
    | outputDirectory =>
      unfold Field.fault?
      dsimp only [settings]
      rw [hpath, hthere]
      rfl
    | classPattern | displayOptions | writerId | logLevel => rfl
  have hconfig : settings.config = config := by
    unfold Settings.config
    dsimp only [settings, Option.bind_some, SettingValue.text?, Option.map_some]
    rw [hpath]
    rfl
  rw [hrefusal, hfault, hconfig] at hbuild
  obtain ⟨-, -, -, hagain⟩ := hbuilt config hbuild
  exact ⟨hbuild, hagain⟩

/-- The pattern is the first field at fault, but all that is said is that the name of the directory
is too long. -/
theorem build_longDirectory :
    let host : Host := ⟨.empty, [], [], 0⟩
    let settings : Settings :=
      ⟨some (.text ""), none, some (.text longName), none, none⟩
    firstFault? host settings = some .emptyPattern ∧
      build host settings =
        .error (.file (.refused .nameTooLong ⟨.relative, [longName]⟩)) := by
  intro host settings
  have hslash : Text.holds longName '/' = false := holds_longName (by decide)
  have hname := PathName.ofText_of_isName isName_longName hslash
  have husable : PathName.Usable ⟨.relative, [] ++ [longName]⟩ := by
    refine ⟨(PathName.hasNul_eq_false_iff _).mpr fun part hpart => ?_, by decide +kernel⟩
    rw [List.mem_singleton.mp hpart]
    exact holds_longName (by decide)
  have hlong : maxNameBytes < longName.utf8ByteSize := by
    rw [size_longName]
    decide
  have hplain : PathName.IsPlain ⟨.relative, []⟩ := by decide
  have hnode := Host.node?_of_longName (h := host) FileTree.linkFree_empty hplain isName_longName
    hlong husable
  have hroot : host.tree.get? (host.start ⟨.relative, []⟩ ++ []) = some .directory := rfl
  rw [if_pos hroot, List.nil_append] at hnode
  have hrefused : host.isDirectory ⟨.relative, [longName]⟩ =
      .error (.refused .nameTooLong ⟨.relative, [longName]⟩) := by
    unfold Host.isDirectory
    rw [hnode, Except.map]
  rw [← hname] at hrefused
  have hrefusal := refusal?_of_isDirectory (show settings.outputDirectory = _ from rfl) hrefused
  refine ⟨rfl, ?_⟩
  rw [build_eq, hrefusal, hname]

end Config

end DexListing
