import DexListing.Run.Failure
import DexListing.Run.LogLevel

/-!
# Events

What a run reports on its way, in order. Each event has a level, a source and a text; the text of
the summary needs the time that the run took.
-/

set_option autoImplicit false

namespace DexListing

/-- Something that happened in a run. -/
inductive Event
  | usingWriter (title : String)
  | containerOpened (version : String) (classes strings : Nat)
  | fileWritten (className : String) (path : PathName)
  | temporaryRemoved (path : PathName)
  | temporaryLeft (path : PathName) (error : FileError)
  | argumentIgnored (argument : String)
  | memberExtracted (argument : String) (path : PathName)
  | argumentSkipped (failure : Failure)
  | inputStarted (displayName : String) (path : PathName)
  | inputSkipped (displayName : String) (failure : Failure)
  | classSkipped (failure : Failure)
  | dumpFinished (classes inputs skipped : Nat)
  | filesWritten (count : Nat) (directory : PathName)
  | skippedInput (displayName : String) (failure : Failure)
  deriving DecidableEq, Repr

namespace Event

/-- The level of an event. -/
def level : Event → LogLevel
  | usingWriter _ | containerOpened _ _ _ | fileWritten _ _ | temporaryRemoved _
  | argumentIgnored _ => .debug
  | memberExtracted _ _ | inputStarted _ _ | dumpFinished _ _ _ | filesWritten _ _
  | skippedInput _ _ => .info
  | temporaryLeft _ _ | argumentSkipped _ | classSkipped _ => .warning
  | inputSkipped _ _ => .error

/-- The part of the program that reports an event. -/
def source : Event → String
  | usingWriter _ => "dedex.writers"
  | containerOpened _ _ _ => "dedex.dex"
  | fileWritten _ _ => "dedex.output"
  | temporaryRemoved _ | temporaryLeft _ _ | argumentIgnored _ | memberExtracted _ _ =>
    "dedex.file_manager"
  | argumentSkipped _ => "dedex.arguments"
  | inputStarted _ _ | inputSkipped _ _ | classSkipped _ | dumpFinished _ _ _ | filesWritten _ _
  | skippedInput _ _ => "dedex.dumper"

/-- What is said about an event; `elapsed` is the time in seconds that the run took. -/
def message (elapsed : String) : Event → String
  | usingWriter title => "Using writer " ++ title
  | containerOpened version classes strings =>
    s!"DEX version {version}: {classes} classes, {strings} strings"
  | fileWritten className path => "Wrote " ++ className ++ " to " ++ path.text
  | temporaryRemoved path => "Removed temporary file " ++ path.text
  | temporaryLeft path error =>
    "Failed to remove temporary file " ++ path.text ++ ": " ++ error.message
  | argumentIgnored argument => "Ignoring " ++ argument ++ ": unsupported file type"
  | memberExtracted argument path =>
    "Extracted " ++ archiveMember ++ " from " ++ argument ++ " to " ++ path.text
  | argumentSkipped failure => failure.message
  | inputStarted displayName path => "Processing " ++ displayName ++ " (" ++ path.text ++ ")"
  | inputSkipped displayName failure => "Skipping " ++ displayName ++ ": " ++ failure.message
  | classSkipped failure => "Skipping class: " ++ failure.message
  | dumpFinished classes inputs skipped =>
    s!"Dumped {classes} classes from {inputs} inputs in {elapsed}s ({skipped} skipped)"
  | filesWritten count directory => s!"Wrote {count} files under " ++ directory.text
  | skippedInput displayName failure => "  " ++ displayName ++ ": " ++ failure.message

/-- The event is at least as grave as a level. -/
def reaches (e : Event) (threshold : LogLevel) : Bool :=
  threshold.rank ≤ e.level.rank

end Event

end DexListing
