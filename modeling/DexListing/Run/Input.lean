import DexListing.Run.Session

/-!
# Inputs

Turning an argument into an input: a container as it is, or the container in an archive, which is
extracted into a temporary file. The extension of the argument decides.
-/

set_option autoImplicit false

namespace DexListing

/-- A container that is ready to be opened, with the name under which it is shown. -/
structure InputEntry where
  path : PathName
  isTemporary : Bool
  displayName : String
  deriving DecidableEq, Repr

/-- The extensions of containers. -/
def containerExtensions : List String := [".dex"]

/-- The extensions of archives. -/
def archiveExtensions : List String := [".apk"]

namespace Session

/-- The path name of an argument, if a file is there. -/
def existingFile (s : Session) (argument : String) : Except Failure PathName :=
  let path := PathName.ofText argument
  match s.host.isFile path with
  | .error e => .error (.file e)
  | .ok false => .error (.inputMissing argument)
  | .ok true => .ok path

/-- The input of a container. -/
def resolveContainer (s : Session) (argument : String) : Except Failure InputEntry :=
  match s.existingFile argument with
  | .error f => .error f
  | .ok path => .ok ⟨path, false, path.name⟩

/-- The member that holds the container of an archive, together with the archive and the members
listed before it. -/
def findContainer (s : Session) (argument : String) (path : PathName) :
    Except Failure (Zip.Archive × List Zip.Member × Zip.Member) :=
  match s.host.contentOf path with
  | .error e => .error (.file e)
  | .ok data =>
    match Zip.Archive.ofBytes data with
    | .error (.unsupportedVersion version) => .error (.archiveVersion version)
    | .error (.invalidName part) => .error (.memberName part)
    | .error fault => .error (.invalidArchive argument fault)
    | .ok archive =>
      match Zip.findMember? archiveMember [] archive.members with
      | none => .error (.missingMember argument)
      | some found => .ok (archive, found)

/-- The failure of an extraction. An offset that is no offset, a name that is no text, and data that
are corrupt or not there are not counted as failed extractions. -/
def extractionFailure (argument : String) : Zip.MemberFault → Failure
  | .hugeOffset => .hugeOffset
  | .invalidName part => .memberName part
  | .content .missingData => .missingData
  | .content (.deflate fault) => .deflate fault
  | .content (.lzma fault) => .lzma fault
  | fault => .extraction argument (.member fault)

/-- Extracts the container of an archive into a temporary file. The content is written as a whole: if
it cannot be had, the file stays empty, and what could be had of it is not kept until the file is
removed. -/
def extractArchive (s : Session) (argument : String) : Except Failure InputEntry × Session :=
  match s.existingFile argument with
  | .error f => (.error f, s)
  | .ok path =>
    match s.findContainer argument path with
    | .error f => (.error f, s)
    | .ok (archive, earlier, member) =>
      match s.createTemporary with
      | (.error e, s) => (.error (.file e), s)
      | (.ok temporary, s) =>
        match archive.extract earlier member with
        | .error fault => (.error (extractionFailure argument fault), s)
        | .ok content =>
          match s.host.storeContent temporary content with
          | .error e => (.error (.extraction argument (.file e)), s)
          | .ok host =>
            (.ok ⟨temporary, true, path.name⟩,
              { s with host }.report (.memberExtracted argument temporary))

/-- The input of an argument; none if it is of neither kind. -/
def resolve (s : Session) (argument : String) : Except Failure (Option InputEntry) × Session :=
  let path := PathName.ofText argument
  if path.hasExtension containerExtensions then
    ((s.resolveContainer argument).map some, s)
  else if path.hasExtension archiveExtensions then
    match s.extractArchive argument with
    | (result, s) => (result.map some, s)
  else (.ok none, s.report (.argumentIgnored argument))

end Session

/-- The content of the container at a path name. -/
def Host.openContainer (h : Host) (path : PathName) : Except Failure Bytes :=
  match h.contentOf path with
  | .ok content => .ok content
  | .error .embeddedNul => .error (.file .embeddedNul)
  | .error (.refused .noEntry _) => .error (.inputMissing path.text)
  | .error e => .error (.inputUnreadable path e)

end DexListing
