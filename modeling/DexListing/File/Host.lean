import DexListing.File.Lookup

/-!
# The host

The host of a run is a file tree with a working directory and a directory for temporary files.
The operations on files take path names as they are written.

A file is known by its location only: there are no hard links, and no owners, permissions or times.
The host refuses an operation for what is on the way of the path name, never because it is full, and
nobody else works on it during a run.
-/

set_option autoImplicit false

namespace DexListing

/-- The machine that a run works on; `drawn` counts the temporary names given out so far. -/
structure Host where
  tree : FileTree
  workingDirectory : Location
  temporaryDirectory : Location
  drawn : Nat

namespace Host

/-- The location that the steps of a path name start from. -/
def start (h : Host) (p : PathName) : Location :=
  if p.root = .relative then h.workingDirectory else []

/-- What a path name leads to. -/
def place (h : Host) (purpose : Purpose) (p : PathName) : Except FileError Place :=
  if p.hasNul then .error .embeddedNul
  else if p.text.utf8ByteSize ≥ maxPathBytes then .error (.refused .nameTooLong p)
  else
    match h.tree.walk purpose maxLinks (h.start p) p.parts with
    | .error fault => .error (.refused fault p)
    | .ok place => .ok place

/-- The failures that only say that there is nothing under a path name. -/
def saysAbsent : FileError → Bool
  | .embeddedNul => true
  | .refused fault _ => [.noEntry, .notDirectory, .tooManyLinks].contains fault

/-- The node that a path name leads to, if there is any; other failures stay failures. -/
def node? (h : Host) (p : PathName) : Except FileError (Option Node) :=
  match h.place .target p with
  | .ok (.existing _ node) => .ok (some node)
  | .ok (.vacant _) => .ok none
  | .error e => if saysAbsent e then .ok none else .error e

/-- The path name leads to a directory. -/
def isDirectory (h : Host) (p : PathName) : Except FileError Bool :=
  (h.node? p).map fun node => node == some .directory

/-- The path name leads to a file. -/
def isFile (h : Host) (p : PathName) : Except FileError Bool :=
  (h.node? p).map fun
    | some (.file _) => true
    | _ => false

/-- The content of the file that a path name leads to. -/
def contentOf (h : Host) (p : PathName) : Except FileError Bytes :=
  match h.place .target p with
  | .error e => .error e
  | .ok (.vacant _) => .error (.refused .noEntry p)
  | .ok (.existing _ (.file content)) => .ok content
  | .ok (.existing _ _) => .error (.refused .isDirectory p)

/-- The host with a node put at a location. -/
def put (h : Host) (l : Location) (n : Node) : Host :=
  { h with tree := h.tree.put l n }

/-- Writes a file: its content is replaced, and a file that is not there is made. -/
def storeContent (h : Host) (p : PathName) (content : Bytes) : Except FileError Host :=
  match h.place .writing p with
  | .error e => .error e
  | .ok (.vacant l) => .ok (h.put l (.file content))
  | .ok (.existing l (.file _)) => .ok (h.put l (.file content))
  | .ok (.existing _ _) => .error (.refused .isDirectory p)

/-- Makes a node where there is nothing yet, not even a link. -/
def makeNode (h : Host) (p : PathName) (n : Node) : Except FileError Host :=
  match h.place .entry p with
  | .error e => .error e
  | .ok (.vacant l) => .ok (h.put l n)
  | .ok (.existing _ _) => .error (.refused .alreadyExists p)

/-- Makes a directory. -/
def makeDirectory (h : Host) (p : PathName) : Except FileError Host :=
  h.makeNode p .directory

/-- Makes a symbolic link. -/
def makeLink (h : Host) (p : PathName) (target : String) : Except FileError Host :=
  h.makeNode p (.link target)

/-- After a failed attempt to make a directory: it is good if there is one all the same. -/
def acceptDirectory (h : Host) (p : PathName) (e : FileError) : Except FileError Unit :=
  match h.isDirectory p with
  | .error other => .error other
  | .ok true => .ok ()
  | .ok false => .error e

/-- Makes a directory that may be there already. -/
def ensureDirectory (h : Host) (p : PathName) : Host × Except FileError Unit :=
  match h.makeDirectory p with
  | .ok made => (made, .ok ())
  | .error (.refused .noEntry q) => (h, .error (.refused .noEntry q))
  | .error .embeddedNul => (h, .error .embeddedNul)
  | .error e => (h, h.acceptDirectory p e)

/-- Makes the directory with `depth` parts of a path name and those above it that are missing.
Directories made before a failure stay. -/
def ensureParts (h : Host) (root : PathRoot) (parts : List String) :
    (depth : Nat) → Host × Except FileError Unit
  | 0 => h.ensureDirectory ⟨root, parts.take 0⟩
  | depth + 1 =>
    let p : PathName := ⟨root, parts.take (depth + 1)⟩
    match h.ensureDirectory p with
    | (_, .error (.refused .noEntry _)) =>
      match h.ensureParts root parts depth with
      | (above, .error e) => (above, .error e)
      | (above, .ok ()) => above.ensureDirectory p
    | result => result

/-- Makes a directory and those above it that are missing. -/
def ensureDirectories (h : Host) (p : PathName) : Host × Except FileError Unit :=
  h.ensureParts p.root p.parts p.parts.length

/-- Removes a file or a link; that there is nothing to remove counts as done. -/
def unlink (h : Host) (p : PathName) : Except FileError Host :=
  match h.place .entry p with
  | .error (.refused .noEntry _) => .ok h
  | .error e => .error e
  | .ok (.vacant _) => .ok h
  | .ok (.existing _ .directory) => .error (.refused .isDirectory p)
  | .ok (.existing l _) => .ok { h with tree := h.tree.erase l }

/-- The name of the temporary file with a number. -/
def temporaryName (n : Nat) : String := s!"dedex-{n}.dex"

/-- The path name of the temporary file with a number. -/
def temporaryPath (h : Host) (n : Nat) : PathName :=
  ⟨.slash, h.temporaryDirectory ++ [temporaryName n]⟩

/-- The first number from the count on whose temporary name is not in use: among one more
candidate than the tree has nodes there always is one. -/
def freshNumber (h : Host) : Nat :=
  let candidates := (List.range (h.tree.size + 1)).map (h.drawn + ·)
  (candidates.find? fun n =>
    h.tree.get? (h.temporaryDirectory ++ [temporaryName n]) == none).getD h.drawn

/-- Makes an empty temporary file under a name that is not in use. -/
def makeTemporary (h : Host) : Except FileError (PathName × Host) :=
  let n := h.freshNumber
  let p := h.temporaryPath n
  match h.makeNode p (.file #[]) with
  | .error e => .error e
  | .ok made => .ok (p, { made with drawn := n + 1 })

end Host

end DexListing
