import DexListing.File.Fault
import DexListing.File.Tree

/-!
# Following paths

How the system finds what a path leads to: step by step from a directory, following symbolic links
on the way. Links count against a limit, so that a loop ends in a failure. The last step may lead
to nothing; the place is then vacant. What a link at the last step means depends on what the path
is looked up for.
-/

set_option autoImplicit false

namespace DexListing

/-- The most links that one path may lead through. -/
def maxLinks : Nat := 40

/-- The most bytes that one name may have. -/
def maxNameBytes : Nat := 255

/-- The bytes that a whole path must stay below. -/
def maxPathBytes : Nat := 4096

/-- What a path is looked up for: the entry itself, even if it is a link, what the entry leads to,
or the file that is to be written. -/
inductive Purpose
  | entry
  | target
  | writing
  deriving DecidableEq, Repr

/-- What a path leads to. -/
inductive Place
  | existing (location : Location) (node : Node)
  | vacant (location : Location)

/-- The steps of a link's target; empty ones stand where slashes meet or end it. -/
def linkSteps (target : String) : List String :=
  Text.pieces '/' target

/-- Where the target of a link that stands in a directory starts. -/
def linkStart (here : Location) (target : String) : Location :=
  if target.toList.head? = some '/' then [] else here

/-- Follows the steps of a path from a location. A name with a slash after it is that of a
directory, so no file can be written under it, whatever is there. -/
def FileTree.walk (t : FileTree) (purpose : Purpose) (links : Nat) (here : Location)
    (steps : List String) : Except FileFault Place :=
  match steps with
  | [] =>
    match t.get? here with
    | some node => .ok (.existing here node)
    | none => .error .noEntry
  | step :: rest =>
    if t.get? here ≠ some .directory then .error .notDirectory
    else if step = "" ∨ step = "." then t.walk purpose links here rest
    else if step = ".." then t.walk purpose links here.dropLast rest
    else if purpose = .writing ∧ rest ≠ [] ∧ rest.all (· = "") then .error .isDirectory
    else if step.utf8ByteSize > maxNameBytes then .error .nameTooLong
    else
      match t.get? (here ++ [step]) with
      | none => if rest = [] then .ok (.vacant (here ++ [step])) else .error .noEntry
      | some (.link target) =>
        if rest = [] ∧ purpose = .entry then
          .ok (.existing (here ++ [step]) (.link target))
        else
          match links with
          | 0 => .error .tooManyLinks
          | links + 1 =>
            t.walk purpose links (linkStart here target) (linkSteps target ++ rest)
      | some _ => t.walk purpose links (here ++ [step]) rest
termination_by (links, steps.length)

end DexListing
