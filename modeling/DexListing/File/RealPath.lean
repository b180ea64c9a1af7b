import DexListing.File.Host

/-!
# Real paths

The location that a path name stands for once all links on the way are resolved. Unlike following
a path, this also makes sense for what is not there: from the first name that leads to nothing on,
the rest is taken as it is written. A loop of links cannot be resolved; the part of the path that
leads into it is then taken as it is written.

To find out whether a name is that of a link, the system is asked about the path so far, as it is
written: without links, but from the working directory on if the path name is relative. This path
can be longer than the path name, and it can be too long for the system, which then sees no link.

Left out is that two slashes at the beginning of what is left after a loop are kept apart from one.
-/

set_option autoImplicit false

namespace DexListing

/-! ## Links of a tree -/

namespace FileTree

/-- The target of the link at a location, if there is one. -/
def linkTarget? (t : FileTree) (l : Location) : Option String :=
  match t.get? l with
  | some (.link target) => some target
  | _ => none

/-- The locations of all links. -/
def links (t : FileTree) : List Location :=
  ((t.nodes.map Prod.fst).filter fun l => (t.linkTarget? l).isSome).foldr List.insert []

/-- A link stands on the way to a location, or at it. -/
def crossesLink (t : FileTree) (l : Location) : Bool :=
  t.links.any fun link => link.isPrefixOf l

end FileTree

/-! ## Paths as they are written -/

/-- One step taken as it is written. -/
def writtenStep (here : Location) (step : String) : Location :=
  if step = "" ∨ step = "." then here
  else if step = ".." then here.dropLast
  else here ++ [step]

namespace PathName

/-- Where a path name starts, as a path name. -/
def base (p : PathName) : PathName :=
  ⟨if p.root = .relative then .relative else .slash, []⟩

/-- Where the target of a link starts whose directory has a path name. -/
def targetBase (here : PathName) (target : String) : PathName :=
  if target.toList.head? = some '/' then ⟨.slash, []⟩ else here

/-- The path name with a name after it. -/
def child (p : PathName) (name : String) : PathName :=
  ⟨p.root, p.parts ++ [name]⟩

/-- The path name one step up. A relative one may have to begin with steps up. -/
def up (p : PathName) : PathName :=
  if p.root = .relative ∧ (p.parts = [] ∨ p.name = "..") then p.child ".." else p.parent

/-- The path name with the steps after it that are left of a text. If the next one is empty, what
is left of the text begins with a slash, so it replaces the path name. -/
def withSteps (p : PathName) (steps : List String) : PathName :=
  match steps with
  | "" :: next :: rest => ⟨.slash, next :: rest⟩
  | _ => ⟨p.root, p.parts ++ steps⟩

end PathName

/-- The location as a path name. -/
def Location.pathName (l : Location) : PathName := ⟨.slash, l⟩

/-! ## Resolving -/

/-- How far a path could be resolved: to a path without links, or into a loop of links. -/
inductive Resolution
  | resolved (path : PathName)
  | looping (path : PathName)
  deriving DecidableEq, Repr

namespace Resolution

/-- What a path could be resolved to. -/
def path : Resolution → PathName
  | resolved p => p
  | looping p => p

/-- Resolves steps from a path. `look` gives the target of the link at a path name, and `active`
are the links whose resolution is under way; to meet one of them again is a loop. At most `depth`
links are resolved within each other. -/
def ofSteps (look : PathName → Option String) (depth : Nat) (active : List PathName)
    (here : PathName) (steps : List String) : Resolution :=
  match steps with
  | [] => .resolved here
  | step :: rest =>
    if step = "" ∨ step = "." then ofSteps look depth active here rest
    else if step = ".." then ofSteps look depth active here.up rest
    else
      match look (here.child step) with
      | none => ofSteps look depth active (here.child step) rest
      | some target =>
        if here.child step ∈ active then .looping ((here.child step).withSteps rest)
        else
          match depth with
          | 0 => .looping ((here.child step).withSteps rest)
          | depth + 1 =>
            match ofSteps look depth (here.child step :: active) (here.targetBase target)
                (linkSteps target) with
            | .resolved p => ofSteps look (depth + 1) active p rest
            | .looping p => .looping (p.withSteps rest)
termination_by (depth, steps.length)

end Resolution

namespace Host

/-- The location of a path name, taken as it is written. -/
def locate (h : Host) (p : PathName) : Location :=
  p.parts.foldl writtenStep (h.start p)

/-- The target of the link at a path name, if there is one. -/
def linkAt? (h : Host) (p : PathName) : Option String :=
  h.tree.linkTarget? (h.locate p)

/-- The target of the link that the system sees at a path name. It sees none if the path name or
its last part is too long. -/
def seenLink? (h : Host) (p : PathName) : Option String :=
  if p.text.utf8ByteSize < maxPathBytes ∧ p.name.utf8ByteSize ≤ maxNameBytes then h.linkAt? p
  else none

/-- How many links can be resolved within each other: the system sees a link under one path name
from the root, and under one from the working directory for every number of steps up that a path
name can begin with. -/
def maxDepth (h : Host) : Nat := maxPathBytes * h.tree.links.length

/-- How far a path name can be resolved if `look` gives the targets of links. -/
def resolution (h : Host) (look : PathName → Option String) (p : PathName) : Resolution :=
  .ofSteps look h.maxDepth [] p.base p.parts

end Host

/-- Why a path name has no real path. -/
inductive ResolveError
  | embeddedNul
  | loop (path : PathName)
  deriving DecidableEq, Repr

/-- The real path of a path name. If it still leads through links, because they were not seen or
form a loop, these must not be too many. -/
def Host.realPath (h : Host) (p : PathName) : Except ResolveError Location :=
  if p.hasNul then .error .embeddedNul
  else
    let l := h.locate (h.resolution h.seenLink? p).path
    if h.tree.crossesLink l then
      match h.place .target l.pathName with
      | .error (.refused .tooManyLinks q) => .error (.loop q)
      | _ => .ok l
    else .ok l

end DexListing
