import DexListing.Run.Session

/-!
# Where classes are written

The text of a class goes to the console, or into a file of its own below an output directory. On
the console the first class of each input comes after a banner. In a directory the package of a
class becomes directories; a class whose file would not lie below the output directory gets none.
-/

set_option autoImplicit false

namespace DexListing

/-- The heading of an input: its name, underlined. -/
def banner (displayName : String) : String :=
  displayName ++ "\n" ++ String.ofList (List.replicate displayName.length '=') ++ "\n\n"

/-- The way of the texts of classes. -/
structure Router where
  extension : String
  directory : Option PathName
  displayName : Option String
  bannerWritten : Bool
  filesWritten : Nat

/-- A text to be written for a class; it may end in a failure after it has been written. -/
structure Block where
  text : String
  failure : Option Failure

/-- What writing a block leads to: how it ended, what was added to the console, and the state
after it. -/
structure Written where
  outcome : Except Failure Unit
  console : String
  router : Router
  session : Session

namespace Router

/-- A router that has not been used. -/
def start (extension : String) (directory : Option PathName) : Router :=
  ⟨extension, directory, none, false, 0⟩

/-- Starts a new input. -/
def beginInput (r : Router) (displayName : String) : Router :=
  { r with displayName := some displayName, bannerWritten := false }

/-- The parts of a class name, the extension on the last one. -/
def fileParts (extension : String) : List String → List String
  | [] => []
  | [last] => [last ++ extension]
  | part :: rest => part :: fileParts extension rest

/-- The path name of the file of a class below a directory. -/
def pathIn (r : Router) (directory : PathName) (parts : List String) : PathName :=
  directory.joinAll (fileParts r.extension parts)

/-- The path name of the file of a class. -/
def pathFor (r : Router) (host : Host) (className : String) : Except Failure PathName :=
  match r.directory with
  | none => .error .noOutputDirectory
  | some directory =>
    let parts := Text.segments '.' className
    if parts = [] ∨ (parts.any fun part => Text.holds part '/') then
      .error (.output (.unsafeName className))
    else
      let path := r.pathIn directory parts
      match host.realPath directory with
      | .error e => .error (.ofResolveError e)
      | .ok root =>
        match host.realPath path with
        | .error e => .error (.ofResolveError e)
        | .ok location =>
          if root.isPrefixOf location then .ok path
          else .error (.output (.outside className directory))

/-- How a block ends. -/
def Block.outcome (b : Block) : Except Failure Unit :=
  match b.failure with
  | some f => .error f
  | none => .ok ()

/-- Writes a block to the console, after the banner if it is the first one of its input. -/
def toConsole (r : Router) (session : Session) (block : Block) : Written :=
  match r.displayName, r.bannerWritten with
  | some name, false =>
    ⟨Block.outcome block, banner name ++ block.text, { r with bannerWritten := true }, session⟩
  | _, _ => ⟨Block.outcome block, block.text, r, session⟩

/-- Writes a block into the file at a path name, whose directories are made. -/
def toFile (r : Router) (session : Session) (className : String) (path : PathName)
    (block : Block) : Written :=
  match session.host.ensureDirectories path.parent with
  | (host, .error e) => ⟨.error (.file e), "", r, { session with host }⟩
  | (host, .ok ()) =>
    match host.storeContent path (Text.utf8OfText block.text).toArray with
    | .error e => ⟨.error (.file e), "", r, { session with host }⟩
    | .ok host =>
      match block.failure with
      | some f => ⟨.error f, "", r, { session with host }⟩
      | none =>
        ⟨.ok (), "", { r with filesWritten := r.filesWritten + 1 },
          { session with host }.report (.fileWritten className path)⟩

/-- Writes the block of a class to where it belongs. -/
def write (r : Router) (session : Session) (className : String) (block : Block) : Written :=
  match r.directory with
  | none => r.toConsole session block
  | some _ =>
    match r.pathFor session.host className with
    | .error f => ⟨.error f, "", r, session⟩
    | .ok path => r.toFile session className path block

end Router

end DexListing
