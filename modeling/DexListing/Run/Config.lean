import DexListing.Listing.Display
import DexListing.Run.Failure
import DexListing.Run.LogLevel

/-!
# Configurations

A configuration is built from settings, which may be of any shape. The first faulty setting in the
order of the fields decides what is reported; but a directory that the system refuses to look at
ends the building at once.
-/

set_option autoImplicit false

namespace DexListing

/-- The value of a setting. -/
inductive SettingValue
  | null
  | text (value : String)
  | list (items : List SettingValue)
  | other
  deriving Inhabited

/-- Settings by field; a field may be left out. -/
structure Settings where
  classPattern : Option SettingValue
  displayOptions : Option SettingValue
  outputDirectory : Option SettingValue
  writerId : Option SettingValue
  logLevel : Option SettingValue

/-- The configuration of a run. -/
structure Config where
  classPattern : String
  selection : Selection
  outputDirectory : Option PathName
  writerId : Option String
  logLevel : LogLevel

namespace Config

/-- The pattern, by default the one that every name matches. -/
def checkPattern : Option SettingValue → Except ConfigurationFault String
  | none => .ok "*"
  | some (.text value) => if value = "" then .error .emptyPattern else .ok value
  | some _ => .error .notText

/-- The display options of a list of names. -/
def checkOptions : List SettingValue → Except ConfigurationFault (List DisplayOption)
  | [] => .ok []
  | .text name :: rest =>
    match DisplayOption.ofName? name, checkOptions rest with
    | some option, .ok options => .ok (option :: options)
    | _, _ => .error .notADisplayOption
  | _ :: _ => .error .notADisplayOption

/-- The selection of parts. -/
def checkSelection : Option SettingValue → Except ConfigurationFault Selection
  | none => .ok Selection.default
  | some (.list items) => (checkOptions items).map Selection.ofList
  | some _ => .error .notASet

/-- The output directory, which must be there. -/
def checkDirectory (host : Host) :
    Option SettingValue → Except FileError (Except ConfigurationFault (Option PathName))
  | none | some .null => .ok (.ok none)
  | some (.text value) =>
    let path := PathName.ofText value
    (host.isDirectory path).map fun there =>
      if there then .ok (some path) else .error (.missingDirectory path.text)
  | some _ => .ok (.error .notAPath)

/-- The name of the writer, if one is asked for. -/
def checkWriter : Option SettingValue → Except ConfigurationFault (Option String)
  | none | some .null => .ok none
  | some (.text value) => .ok (some value)
  | some _ => .error .notText

/-- The log level. -/
def checkLevel : Option SettingValue → Except ConfigurationFault LogLevel
  | none => .ok .warning
  | some (.text value) =>
    match LogLevel.ofText? value with
    | some level => .ok level
    | none => .error .unknownLevel
  | some _ => .error .notText

/-- The configuration of the settings, the directory already looked at. -/
def assemble (settings : Settings)
    (directory : Except ConfigurationFault (Option PathName)) :
    Except ConfigurationFault Config := do
  let classPattern ← checkPattern settings.classPattern
  let selection ← checkSelection settings.displayOptions
  let outputDirectory ← directory
  let writerId ← checkWriter settings.writerId
  let logLevel ← checkLevel settings.logLevel
  return ⟨classPattern, selection, outputDirectory, writerId, logLevel⟩

/-- The configuration of the settings. -/
def build (host : Host) (settings : Settings) : Except Failure Config :=
  match checkDirectory host settings.outputDirectory with
  | .error e => .error (.file e)
  | .ok directory => (assemble settings directory).mapError .configuration

/-- The settings that a configuration amounts to. -/
def summary (c : Config) : Settings where
  classPattern := some (.text c.classPattern)
  displayOptions := some (.list (c.selection.names.map .text))
  outputDirectory := some ((c.outputDirectory.map fun path => .text path.text).getD .null)
  writerId := some ((c.writerId.map .text).getD .null)
  logLevel := some (.text c.logLevel.name)

end Config

end DexListing
