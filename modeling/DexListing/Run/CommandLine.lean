import DexListing.Run.Dump
import DexListing.Run.Scan
import DexListing.Text.Escape

/-!
# The command line

A run of the program: the arguments are scanned, and then the inputs are dumped. Until the
arguments are known only warnings and graver events are shown. A run that fails says why and ends
with status one; one without inputs shows how the program is used.

Left out are limits of the machine: a run does not get too deep in calls and does not run out of
memory.
-/

set_option autoImplicit false

namespace DexListing.CommandLine

/-- A line for the error output: an event of the log, or a message of the program itself. -/
inductive ErrorLine
  | logged (event : Event)
  | message (text : String)
  deriving DecidableEq, Repr

/-- What a run leaves behind. -/
structure Report where
  status : Nat
  output : String
  errorLines : List ErrorLine
  host : Host

/-- How the program is used; the table is padded to the width of a terminal. -/
def usage : String :=
  "Usage: dedex [options] <file.dex|file.apk> [file2.dex ... fileN.dex]\n\n" ++
    "  -c <pattern>                 Display only classes matching the pattern. * is  \n" ++
    "                               a wildcard                                       \n" ++
    "  -d <display[,display...]>    Options are Classes, Methods, Fields, Opcodes,   \n" ++
    "                               All                                              \n" ++
    "  -o <directory>               Write classes to individual files in the output  \n" ++
    "                               directory                                        \n" ++
    "  -w <writer>                  One of plaindex, java                            \n" ++
    "  -l <level>                   Log level: DEBUG, INFO, WARNING or ERROR         \n"

/-- The arguments without the first one that only ends the options of a command line. -/
def effectiveTokens (tokens : List String) : List String :=
  tokens.erase "--"

/-- The log lines of the events that a level lets through. -/
def logged (threshold : LogLevel) (events : List Event) : List ErrorLine :=
  (events.filter (·.reaches threshold)).map .logged

/-- The name of the writer that a configuration asks for, else the default one. -/
def writerName (registry : Registry) (config : Config) : String :=
  match config.writerId with
  | none => registry.defaultName
  | some name => if name = "" then registry.defaultName else name

/-- The messages of the program about a failure. -/
def failureLines (f : Failure) : List ErrorLine :=
  if f.isA .noInputs then []
  else
    let opening :=
      if f.isA .configuration then ""
      else if f.isA .any then "Error: "
      else "Unexpected error: "
    [.message (Text.withoutEscapes (opening ++ f.message))]

/-- What is put out about a failure. -/
def failureOutput (f : Failure) : String :=
  if f.isA .noInputs then usage else ""

/-- The report of a run that failed; `shown` are the log lines so far. -/
def failed (f : Failure) (output : String) (shown : List ErrorLine) (host : Host) : Report :=
  ⟨1, output ++ failureOutput f, shown ++ failureLines f, host⟩

/-- Dumps the inputs of a scanned command line; `shown` are the log lines so far. -/
def dump (registry : Registry) (config : Config) (entries : List InputEntry)
    (session : Session) (shown : List ErrorLine) : Report :=
  let name := writerName registry config
  match registry.writer? name with
  | none =>
    let session := session.cleanUp
    failed (.configuration (.unknownWriter (Text.strip name))) ""
      (shown ++ logged config.logLevel session.events) session.host
  | some writer =>
    let session := session.report (.usingWriter writer.title)
    match Dump.run config writer Host.openContainer session entries with
    | (outcome, _, d) =>
      let shown := shown ++ logged config.logLevel d.session.events
      match outcome with
      | .error f => failed f d.console shown d.session.host
      | .ok () => ⟨0, d.console, shown, d.session.host⟩

/-- A run with given arguments. -/
def run (registry : Registry) (host : Host) (tokens : List String) : Report :=
  match Scan.parse registry (Session.start host) tokens with
  | (.error f, session) =>
    let session := session.cleanUp
    failed f "" (logged .warning session.events) session.host
  | (.ok (config, entries), session) =>
    dump registry config entries session.forgetEvents
      (logged .warning session.events)

/-- A run of the program as it is called. -/
def execute (host : Host) (tokens : List String) : Report :=
  run Registry.standard host (effectiveTokens tokens)

/-- A line as it is written; `time` and `elapsed` are the texts of the times in it. -/
def ErrorLine.text (time elapsed : String) : ErrorLine → String
  | logged event =>
    time ++ " - " ++ event.source ++ " - " ++ event.level.name ++ " - " ++ event.message elapsed
  | message text => text

end DexListing.CommandLine
