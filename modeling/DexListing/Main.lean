import DexListing.Run.CommandLine
import Std.Time

/-!
# The program

A run on the machine itself. The part of its file tree that the arguments lead to is taken down,
the command line is executed on that, and what changed is stored. Nothing is decided here.
-/

set_option autoImplicit false

namespace DexListing.Machine

/-- The path of a location. -/
def path (l : Location) : String := (Location.pathName l).text

/-- The location that a path from the root names. -/
def location (text : String) : Location := Text.segments '/' text

/-- The location that a path leads to once all links are followed, if it leads anywhere. -/
def realLocation? (text : String) : IO (Option Location) := do
  match ← (IO.FS.realPath text).toBaseIO with
  | .ok real => return some (location real.toString)
  | .error _ => return none

/-- The entry of a directory under a name. -/
def entry (directory : Location) (name : String) : IO.FS.DirEntry := ⟨path directory, name⟩

/-- What stands in a directory under a name; a link is not followed. The target of a link is taken
to be where it leads in the end, and a link that leads nowhere to be a loop. -/
def node? (directory : Location) (name : String) : IO (Option Node) := do
  let place := (entry directory name).path
  match ← place.symlinkMetadata.toBaseIO with
  | .error _ => return none
  | .ok found =>
    match found.type with
    | .dir => return some .directory
    | .file => return some (.file #[])
    | .symlink =>
      let target ← realLocation? place.toString
      return some (.link (path (target.getD (directory ++ [name]))))
    | .other => return none

/-- Takes down the nodes on the way that steps lead from a location. -/
partial def traceSteps (t : FileTree) (here : Location) : List String → IO FileTree
  | [] => return t
  | step :: rest => do
    if step = "" ∨ step = "." then traceSteps t here rest
    else if step = ".." then traceSteps t here.dropLast rest
    else
      let next := here ++ [step]
      match ← node? here step with
      | none => return t
      | some .directory => traceSteps (t.put next .directory) next rest
      | some (.file content) => return t.put next (.file content)
      | some (.link target) =>
        let t := t.put next (.link target)
        if target = path next then return t else traceSteps t [] (location target ++ rest)

/-- Takes down everything below a directory. -/
partial def traceBelow (t : FileTree) (directory : Location) : IO FileTree := do
  let mut t := t
  for found in ← (entry directory ".").path.readDir do
    let l := directory ++ [found.fileName]
    match ← node? directory found.fileName with
    | none => pure ()
    | some .directory => t ← traceBelow (t.put l .directory) l
    | some node => t := t.put l node
  return t

/-- Takes down the way that a path name leads. -/
def trace (h : Host) (p : PathName) : IO Host := do
  return { h with tree := ← traceSteps h.tree (h.start p) p.parts }

/-- Takes down the content of the file that a path name leads to. -/
def traceContent (h : Host) (p : PathName) : IO Host := do
  match h.place .target p with
  | .ok (.existing l (.file _)) => return h.put l (.file (← IO.FS.readBinFile (path l)).data)
  | _ => return h

/-- Takes down everything below the directory that a path name leads to. -/
def traceDirectory (h : Host) (p : PathName) : IO Host := do
  match h.place .target p with
  | .ok (.existing l .directory) => return { h with tree := ← traceBelow h.tree l }
  | _ => return h

/-- The arguments that may be output directories. -/
def directoryArguments : List String → List String
  | token :: value :: rest =>
    let values := directoryArguments (value :: rest)
    if token = OptionName.directory.text then Text.strip value :: values else values
  | _ => []

/-- The arguments that may be inputs. -/
def inputArguments (tokens : List String) : List String :=
  tokens.filter fun token =>
    (PathName.ofText token).hasExtension (containerExtensions ++ archiveExtensions)

/-- The location of the directory for temporary files. -/
def temporaryLocation : IO Location := do
  let directory := (← IO.getEnv "TMPDIR").getD "/tmp"
  return (← realLocation? directory).getD (location directory)

/-- The part of the machine that a run with given arguments looks at. -/
def takeDown (tokens : List String) : IO Host := do
  let workingDirectory := location (← IO.currentDir).toString
  let temporaryDirectory ← temporaryLocation
  let mut h : Host := ⟨FileTree.empty, workingDirectory, temporaryDirectory, 0⟩
  h ← trace h (Location.pathName workingDirectory)
  h ← trace h (Location.pathName temporaryDirectory)
  for token in directoryArguments tokens do
    let p := PathName.ofText token
    h ← traceDirectory (← trace h p) p
  for token in inputArguments tokens do
    let p := PathName.ofText token
    h ← traceContent (← trace h p) p
  return h

/-- Stores a change on the machine. A run makes no links. -/
def store (change : FileTree.Change) : IO Unit :=
  match change.node with
  | .directory => IO.FS.createDir (path change.location)
  | .file content => IO.FS.writeBinFile (path change.location) ⟨content⟩
  | .link _ => pure ()

/-- The present time as it stands in log lines. -/
def timeText : IO String := do
  return (← Std.Time.PlainDateTime.now).format "uuuu-MM-dd HH:mm:ss,SSS"

/-- A number of milliseconds in seconds with two places. -/
def secondsText (milliseconds : Nat) : String :=
  let hundredths := (milliseconds + 5) / 10
  let places := hundredths % 100
  s!"{hundredths / 100}." ++ (if places < 10 then "0" else "") ++ toString places

/-- A run with given arguments; gives its status. -/
def run (tokens : List String) : IO Nat := do
  let began ← IO.monoMsNow
  let host ← takeDown tokens
  let report := CommandLine.execute host tokens
  IO.print report.output
  for change in report.host.tree.changesSince host.tree do
    store change
  let time ← timeText
  let elapsed := secondsText ((← IO.monoMsNow) - began)
  for line in report.errorLines do
    IO.eprintln (line.text time elapsed)
  return report.status

end DexListing.Machine

/-- Lists the classes of the containers and archives that the arguments name. -/
def main (arguments : List String) : IO UInt32 := do
  try
    return (← DexListing.Machine.run arguments).toUInt32
  catch problem =>
    IO.eprintln ("Unexpected error: " ++ toString problem)
    return 1
