import DexListing.Listing.Writer
import DexListing.Run.Config
import DexListing.Run.Input

/-!
# Scanning arguments

Arguments are taken from left to right. One that starts with a dash names an option, and the next
one is its value, whatever it looks like. Every other argument is an input. Of an option that is
given more than once the last value counts, except that display options add up. An input that
cannot be used is reported and passed over.
-/

set_option autoImplicit false

namespace DexListing

/-- The options. -/
inductive OptionName
  | pattern
  | display
  | directory
  | writer
  | level
  deriving DecidableEq, Repr

/-- An option as it is written. -/
def OptionName.text : OptionName → String
  | pattern => "-c"
  | display => "-d"
  | directory => "-o"
  | writer => "-w"
  | level => "-l"

/-- All options. -/
def OptionName.all : List OptionName := [pattern, display, directory, writer, level]

/-- The option that is written in a way. -/
def OptionName.ofText? (text : String) : Option OptionName :=
  OptionName.all.find? fun option => option.text == text

/-- What has been gathered from the arguments so far; `pending` is the option that waits for its
value. -/
structure Scan where
  pending : Option OptionName
  classPattern : Option String
  selection : Selection
  outputDirectory : Option PathName
  writerId : Option String
  logLevel : Option String
  entries : List InputEntry

namespace Scan

/-- Nothing has been gathered. -/
def start : Scan where
  pending := none
  classPattern := none
  selection := Selection.default
  outputDirectory := none
  writerId := none
  logLevel := none
  entries := []

/-- Takes the value of an option. -/
def applyOption (registry : Registry) (host : Host) (scan : Scan) (option : OptionName)
    (value : String) : Except Failure Scan :=
  match option with
  | .pattern => .ok { scan with classPattern := some value }
  | .display =>
    match Selection.parse value with
    | .error element => .error (.configuration (.unknownDisplay element))
    | .ok selection => .ok { scan with selection := scan.selection.union selection }
  | .directory =>
    let directory := Text.strip value
    match host.isDirectory (PathName.ofText directory) with
    | .error e => .error (.file e)
    | .ok false => .error (.configuration (.missingDirectory directory))
    | .ok true => .ok { scan with outputDirectory := some (PathName.ofText directory) }
  | .writer =>
    match registry.canonicalName? value with
    | none => .error (.configuration (.unknownWriter (Text.strip value)))
    | some name => .ok { scan with writerId := some name }
  | .level => .ok { scan with logLevel := some (Text.strip value) }

/-- Takes an input. -/
def addInput (scan : Scan) (session : Session) (token : String) :
    Except Failure Unit × Scan × Session :=
  match session.resolve token with
  | (.error f, session) =>
    if f.isA .input then (.ok (), scan, session.report (.argumentSkipped f))
    else (.error f, scan, session)
  | (.ok none, session) => (.ok (), scan, session)
  | (.ok (some entry), session) =>
    (.ok (), { scan with entries := scan.entries ++ [entry] }, session)

/-- Takes one argument. A failing value leaves the scan as it was before its option. -/
def feed (registry : Registry) (scan : Scan) (session : Session) (token : String) :
    Except Failure Unit × Scan × Session :=
  match scan.pending with
  | some option =>
    let scan := { scan with pending := none }
    match applyOption registry session.host scan option token with
    | .error f => (.error f, scan, session)
    | .ok scan => (.ok (), scan, session)
  | none =>
    if token.toList.head? = some '-' then
      match OptionName.ofText? token with
      | none => (.error (.configuration (.unsupportedArgument token)), scan, session)
      | some option => (.ok (), { scan with pending := some option }, session)
    else addInput scan session token

/-- Takes arguments up to the first one that fails. -/
def feedAll (registry : Registry) (scan : Scan) (session : Session) :
    List String → Except Failure Unit × Scan × Session
  | [] => (.ok (), scan, session)
  | token :: rest =>
    match feed registry scan session token with
    | (.error f, scan, session) => (.error f, scan, session)
    | (.ok (), scan, session) => feedAll registry scan session rest

/-- The settings that have been gathered. -/
def settings (scan : Scan) : Settings where
  classPattern := scan.classPattern.map .text
  displayOptions := some (.list (scan.selection.names.map .text))
  outputDirectory := scan.outputDirectory.map fun path => .text path.text
  writerId := scan.writerId.map .text
  logLevel := scan.logLevel.map .text

/-- Ends the scan: no value may be missing, the configuration must be good, and there must be an
input. -/
def finish (scan : Scan) (host : Host) : Except Failure (Config × List InputEntry) :=
  match scan.pending with
  | some option => .error (.configuration (.missingValue option.text))
  | none =>
    match Config.build host scan.settings with
    | .error f => .error f
    | .ok config => if scan.entries = [] then .error .noInputs else .ok (config, scan.entries)

/-- Scans all arguments. -/
def parse (registry : Registry) (session : Session) (tokens : List String) :
    Except Failure (Config × List InputEntry) × Session :=
  match feedAll registry start session tokens with
  | (.error f, _, session) => (.error f, session)
  | (.ok (), scan, session) => (scan.finish session.host, session)

end Scan

end DexListing
