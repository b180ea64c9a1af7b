import DexListing.Dalvik.Header
import DexListing.File.RealPath
import DexListing.Run.ErrorKind
import DexListing.Zip.Extract

/-!
# Failures of a run

Everything that can go wrong in a run, by cause. A failure of one of the kinds of the run can be
handled by kind; any other one comes from the system or from a library and ends the run.
-/

set_option autoImplicit false

namespace DexListing

/-- What is wrong with the options of a run or with their values. -/
inductive ConfigurationFault
  | emptyPattern
  | notText
  | notAPath
  | notASet
  | notADisplayOption
  | missingDirectory (directory : String)
  | unknownLevel
  | unknownWriter (name : String)
  | unknownDisplay (element : String)
  | unsupportedArgument (token : String)
  | missingValue (option : String)
  deriving DecidableEq, Repr

/-- What is said about a faulty configuration. -/
def ConfigurationFault.message : ConfigurationFault → String
  | emptyPattern => "Class pattern must not be empty"
  | notText => "Input should be a valid string"
  | notAPath => "Input is not a valid path for <class 'pathlib.Path'>"
  | notASet => "Input should be a valid frozenset"
  | notADisplayOption =>
    "Input should be 'class_name', 'class_annotations', 'class_details', " ++
      "'method_annotations', 'methods', 'fields' or 'opcodes'"
  | missingDirectory directory => "Directory doesn't exist " ++ directory
  | unknownLevel => "log_level must be one of DEBUG, INFO, WARNING, ERROR, CRITICAL"
  | unknownWriter name => "Writer " ++ name ++ " not found"
  | unknownDisplay element => "Unsupported display option " ++ element
  | unsupportedArgument token => "Unsupported argument " ++ token
  | missingValue option => "Missing value for option " ++ option

/-- Why the container in an archive cannot be put into a temporary file. -/
inductive ExtractionFault
  | member (fault : Zip.MemberFault)
  | file (error : FileError)
  deriving DecidableEq, Repr

/-- What is said about a failed extraction. -/
def ExtractionFault.message : ExtractionFault → String
  | member fault => fault.message
  | file error => error.message

/-- Why the file of a class would not be where it belongs. -/
inductive OutputFault
  | unsafeName (name : String)
  | outside (name : String) (directory : PathName)
  deriving DecidableEq, Repr

/-- What is said about a class that gets no file. -/
def OutputFault.message : OutputFault → String
  | unsafeName name => "Unsafe class name " ++ Text.quoted name
  | outside name directory =>
    "Class " ++ Text.quoted name ++ " resolves outside " ++ directory.text

/-- A failure of a run. -/
inductive Failure
  | configuration (fault : ConfigurationFault)
  | noInputs
  | inputMissing (argument : String)
  | inputUnreadable (path : PathName) (error : FileError)
  | invalidArchive (argument : String) (fault : Zip.ArchiveFault)
  | missingMember (argument : String)
  | container (error : ContainerError)
  | extraction (argument : String) (fault : ExtractionFault)
  | output (fault : OutputFault)
  | noOutputDirectory
  | pathLoop (path : PathName)
  | file (error : FileError)
  | archiveVersion (version : Nat)
  | memberName (part : Text.InvalidPart)
  | hugeOffset
  | missingData
  | deflate (fault : Zip.DeflateFault)
  | lzma (fault : Zip.LzmaFault)
  | rendering (message : String)
  deriving DecidableEq, Repr

/-- The name of the container in an archive. -/
def archiveMember : String := "classes.dex"

namespace Failure

/-- What is said about a failure. -/
def message : Failure → String
  | configuration fault => fault.message
  | noInputs => "No input files"
  | inputMissing argument => "Couldn't find file " ++ argument
  | inputUnreadable path error => "Couldn't open file " ++ path.text ++ ": " ++ error.message
  | invalidArchive argument fault => "Not a valid archive " ++ argument ++ ": " ++ fault.message
  | missingMember argument => "No " ++ archiveMember ++ " in " ++ argument
  | container error => error.message
  | extraction argument fault =>
    "Failed to extract " ++ archiveMember ++ " from " ++ argument ++ ": " ++ fault.message
  | output fault => fault.message
  | noOutputDirectory => "No output directory configured"
  | pathLoop path => "Symlink loop from " ++ Text.quoted path.text
  | file error => error.message
  | archiveVersion version => (Zip.ArchiveFault.unsupportedVersion version).message
  | memberName part => part.message
  | hugeOffset => Zip.MemberFault.hugeOffset.message
  | missingData => Zip.ContentFault.missingData.message
  | deflate fault => fault.message
  | lzma fault => fault.message
  | rendering message => message

/-- The kind of a failure; none if it is not one of the kinds of a run. -/
def kind? : Failure → Option ErrorKind
  | configuration (.unknownWriter _) => some .writerResolution
  | configuration _ => some .configuration
  | noInputs => some .noInputs
  | inputMissing _ | inputUnreadable _ _ | invalidArchive _ _ => some .inputNotFound
  | missingMember _ => some .missingMember
  | container (.format _) => some .containerFormat
  | extraction _ _ => some .extraction
  | output _ => some .unsafeOutput
  | container (.outside _) | noOutputDirectory | pathLoop _ | file _ | archiveVersion _
  | memberName _ | hugeOffset | missingData | deflate _ | lzma _ | rendering _ => none

/-- The failure is of a kind or of one below it. -/
def isA (f : Failure) (kind : ErrorKind) : Bool :=
  match f.kind? with
  | some k => k.lineage.contains kind
  | none => false

/-- The failure of a path name that has no real path. -/
def ofResolveError : ResolveError → Failure
  | .embeddedNul => .file .embeddedNul
  | .loop path => .pathLoop path

end Failure

end DexListing
