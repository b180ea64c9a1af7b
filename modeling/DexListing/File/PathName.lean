import DexListing.Text.Case
import DexListing.Text.Quoted
import DexListing.Text.Words

/-!
# Path names

A path name as it is written: whether it starts at the root, and its parts. Repeated and trailing
slashes and parts that are a single dot do not count; a part of two dots does.
-/

set_option autoImplicit false

namespace DexListing

/-- Where a path name starts: at the working directory, or at the root with one slash or with
exactly two. -/
inductive PathRoot
  | relative
  | slash
  | twoSlashes
  deriving DecidableEq, Repr

/-- A path name. -/
structure PathName where
  root : PathRoot
  parts : List String
  deriving DecidableEq, Repr

namespace PathName

/-- The parts of a written path name. -/
def partsOf (text : String) : List String :=
  (Text.segments '/' text).filter (· ≠ ".")

/-- Where a written path name starts. -/
def rootOf (text : List Char) : PathRoot :=
  match (text.takeWhile (· = '/')).length with
  | 0 => .relative
  | 2 => .twoSlashes
  | _ => .slash

/-- The path name that a text writes. -/
def ofText (text : String) : PathName :=
  ⟨rootOf text.toList, partsOf text⟩

/-- The path name as text; the empty relative one is a dot. -/
def text (p : PathName) : String :=
  match p.root with
  | .relative => if p.parts = [] then "." else Text.joined "/" p.parts
  | .slash => "/" ++ Text.joined "/" p.parts
  | .twoSlashes => "//" ++ Text.joined "/" p.parts

/-- The path name with the parts of a text after its own; a text that starts at the root replaces
it. -/
def join (p : PathName) (text : String) : PathName :=
  let q := ofText text
  if q.root = .relative then ⟨p.root, p.parts ++ q.parts⟩ else q

/-- The path name joined with one text after the other. -/
def joinAll (p : PathName) (texts : List String) : PathName :=
  texts.foldl join p

/-- The path name without its last part. -/
def parent (p : PathName) : PathName :=
  ⟨p.root, p.parts.dropLast⟩

/-- The last part; empty if there is none. -/
def name (p : PathName) : String :=
  p.parts.getLast?.getD ""

/-- The end of a name from its last dot on, unless that dot is its first or its last character. -/
def suffixOf (name : List Char) : List Char :=
  let extension := (name.reverse.takeWhile (· ≠ '.')).reverse
  if extension = [] ∨ name.length ≤ extension.length + 1 then [] else '.' :: extension

/-- The extension of the last part, with its dot; empty if there is none. -/
def suffix (p : PathName) : String :=
  String.ofList (suffixOf p.name.toList)

/-- The path name has one of the extensions; case does not matter. -/
def hasExtension (p : PathName) (extensions : List String) : Bool :=
  extensions.contains (Text.lower p.suffix)

/-- The text holds a zero character, so it names nothing. -/
def hasNul (p : PathName) : Bool :=
  Text.holds p.text '\x00'

end PathName

end DexListing
