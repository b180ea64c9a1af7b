import DexListing.Dalvik.ClassReader
import DexListing.Glob
import DexListing.Listing.Writer
import DexListing.Run.Config
import DexListing.Run.Input
import DexListing.Run.Router

/-!
# Dumping inputs

Every input is opened, and its classes are written one by one as far as their names match the
pattern. An input that cannot be read on is given up, what was written of it stays, and the next
input is taken. A class that would not be written where it belongs is passed over. Any other
failure ends the dump. In every case the temporary files are removed at the end.
-/

set_option autoImplicit false

namespace DexListing

/-- What became of one input. -/
structure InputResult where
  displayName : String
  classesSeen : Nat
  classesWritten : Nat
  error : Option Failure
  deriving DecidableEq, Repr

/-- The state of a dump: its router, its session and the text on the console. -/
structure Dump where
  router : Router
  session : Session
  console : String

namespace Dump

/-- How the container at a path name is opened. -/
abbrev Opener := Host → PathName → Except Failure Bytes

/-- The state after one more event. -/
def report (d : Dump) (e : Event) : Dump :=
  { d with session := d.session.report e }

/-- Events are only reported: the console and the host stay as they are. -/
theorem foldl_report (d : Dump) (events : List Event) :
    (events.foldl report d).console = d.console ∧
      (events.foldl report d).session.host = d.session.host := by
  induction events generalizing d with
  | nil => exact ⟨rfl, rfl⟩
  | cons e rest ih => exact ih (d.report e)

/-- Writes one class if its name matches; tells whether it was written. -/
def dumpClass (config : Config) (writer : Writer) (d : Dump) (c : ClassInfo) :
    Except Failure Bool × Dump :=
  if Glob.accepts config.classPattern c.name then
    let written := d.router.write d.session c.name ⟨writer.render config.selection c, none⟩
    let d := ⟨written.router, written.session, d.console ++ written.console⟩
    match written.outcome with
    | .ok () => (.ok true, d)
    | .error f =>
      if f.isA .unsafeOutput then (.ok false, d.report (.classSkipped f)) else (.error f, d)
  else (.ok false, d)

/-- Writes classes in order; counts those written. -/
def dumpClasses (config : Config) (writer : Writer) (d : Dump) :
    List ClassInfo → Except Failure Nat × Dump
  | [] => (.ok 0, d)
  | c :: rest =>
    match dumpClass config writer d c with
    | (.error f, d) => (.error f, d)
    | (.ok written, d) =>
      match dumpClasses config writer d rest with
      | (.error f, d) => (.error f, d)
      | (.ok count, d) => (.ok (count + if written then 1 else 0), d)

/-- Ends an input at a failure: one of the input itself becomes its result. -/
def giveUp (d : Dump) (displayName : String) (seen written : Nat) (f : Failure) :
    Except Failure InputResult × Dump :=
  if f.isA .input then
    (.ok ⟨displayName, seen, written, some f⟩, d.report (.inputSkipped displayName f))
  else (.error f, d)

/-- Writes the classes of a container. -/
def dumpContainer (config : Config) (writer : Writer) (d : Dump) (displayName : String)
    (container : Container) : Except Failure InputResult × Dump :=
  let header := container.header
  let d := d.report
    (.containerOpened header.version header.classes.count header.strings.count)
  let d := { d with router := d.router.beginInput displayName }
  let listing := container.classes
  match dumpClasses config writer d listing.classes with
  | (.error f, d) => (.error f, d)
  | (.ok written, d) =>
    match listing.stopped with
    | some e => d.giveUp displayName listing.classes.length written (.container e)
    | none => (.ok ⟨displayName, listing.classes.length, written, none⟩, d)

/-- Writes the classes of an input. -/
def dumpInput (config : Config) (writer : Writer) (opener : Opener) (d : Dump)
    (entry : InputEntry) : Except Failure InputResult × Dump :=
  let d := d.report (.inputStarted entry.displayName entry.path)
  match opener d.session.host entry.path with
  | .error f => d.giveUp entry.displayName 0 0 f
  | .ok data =>
    match Container.ofBytes data with
    | .error e => d.giveUp entry.displayName 0 0 (.container e)
    | .ok container => dumpContainer config writer d entry.displayName container

/-- Writes the classes of all inputs, up to the first failure that is not one of an input. -/
def dumpInputs (config : Config) (writer : Writer) (opener : Opener) (d : Dump) :
    List InputEntry → Except Failure Unit × List InputResult × Dump
  | [] => (.ok (), [], d)
  | entry :: rest =>
    match dumpInput config writer opener d entry with
    | (.error f, d) => (.error f, [], d)
    | (.ok result, d) =>
      match dumpInputs config writer opener d rest with
      | (outcome, results, d) => (outcome, result :: results, d)

/-- The failures of the inputs that were given up, with the names of the inputs. -/
def failures (results : List InputResult) : List (String × Failure) :=
  results.filterMap fun result => result.error.map fun f => (result.displayName, f)

/-- The number of classes written from all inputs. -/
def totalWritten : List InputResult → Nat
  | [] => 0
  | result :: rest => result.classesWritten + totalWritten rest

/-- What is reported at the end of a dump. -/
def summary (router : Router) (results : List InputResult) : List Event :=
  let failed := failures results
  .dumpFinished (totalWritten results) results.length failed.length ::
    (match router.directory with
      | none => []
      | some directory => [.filesWritten router.filesWritten directory]) ++
    failed.map fun failure => .skippedInput failure.1 failure.2

/-- The state before the first input. -/
def start (config : Config) (writer : Writer) (session : Session) : Dump :=
  ⟨.start writer.extension config.outputDirectory, session, ""⟩

/-- Dumps all inputs and removes the temporary files. Only a dump that comes to its end is summed
up. -/
def run (config : Config) (writer : Writer) (opener : Opener) (session : Session)
    (entries : List InputEntry) : Except Failure Unit × List InputResult × Dump :=
  match dumpInputs config writer opener (start config writer session) entries with
  | (outcome, results, d) =>
    let d := { d with session := d.session.cleanUp }
    match outcome with
    | .error f => (.error f, results, d)
    | .ok () => (.ok (), results, (summary d.router results).foldl report d)

end Dump

end DexListing
