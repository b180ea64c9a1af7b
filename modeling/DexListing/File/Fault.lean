import DexListing.File.PathName

/-!
# Failing file operations

The reasons for which the system refuses an operation on files, and what is said about them.
-/

set_option autoImplicit false

namespace DexListing

/-- Why the system refuses an operation. -/
inductive FileFault
  | noEntry
  | alreadyExists
  | notDirectory
  | isDirectory
  | nameTooLong
  | tooManyLinks
  deriving DecidableEq, Repr

/-- The number of a reason. -/
def FileFault.number : FileFault → Nat
  | noEntry => 2
  | alreadyExists => 17
  | notDirectory => 20
  | isDirectory => 21
  | nameTooLong => 36
  | tooManyLinks => 40

/-- A reason in words. -/
def FileFault.description : FileFault → String
  | noEntry => "No such file or directory"
  | alreadyExists => "File exists"
  | notDirectory => "Not a directory"
  | isDirectory => "Is a directory"
  | nameTooLong => "File name too long"
  | tooManyLinks => "Too many levels of symbolic links"

/-- An operation that failed: its path name holds a zero character, or the system refused it. -/
inductive FileError
  | embeddedNul
  | refused (fault : FileFault) (path : PathName)
  deriving DecidableEq, Repr

/-- What is said about a failed operation. -/
def FileError.message : FileError → String
  | embeddedNul => "embedded null byte"
  | refused fault path =>
    s!"[Errno {fault.number}] {fault.description}: " ++ Text.quoted path.text

end DexListing
