import DexListing.Dalvik.ClassInfo
import DexListing.Listing.CodeDump
import DexListing.Listing.Display

/-!
# The plain listing

An assembler-like form that stays close to the structure of the container: one directive a line.
Every line depends on the class and on whether the selection shows it, so a larger selection only
adds lines.
-/

set_option autoImplicit false

namespace DexListing.Plain

/-- One line for each annotation. -/
def annotationLines (names : List String) : List String :=
  names.map ("@" ++ ·)

/-- The words that come before the name of a class. -/
def classWords (flags : AccessFlags) : List String :=
  flags.keywords classKeywords ++
    (if flags.has .isInterface then ["interface"] else []) ++
    (if flags.has .isEnum then ["enum"] else [])

/-- The line that names the class. -/
def classLine (c : ClassInfo) : String :=
  Text.joined " " (".class" :: classWords c.accessFlags ++ [c.name])

/-- A directive for a text that may be missing; an empty one counts as missing. -/
def optionalLine (text : Option String) (line : String → String) : List String :=
  match text with
  | none => []
  | some t => if t = "" then [] else [line t]

/-- Superclass, interfaces and source file. -/
def detailLines (c : ClassInfo) : List String :=
  optionalLine c.superclass (".super " ++ ·) ++
    c.interfaces.map (".implements " ++ ·) ++
    optionalLine c.sourceFile fun file => ".source \"" ++ file ++ "\""

/-- The line of a field. -/
def fieldLine (f : FieldInfo) : String :=
  Text.joined " " (".field" :: f.accessFlags.keywords fieldKeywords ++
    (if f.accessFlags.has .isSynthetic then ["synthetic"] else []) ++ [f.typeName, f.name])

/-- The line that opens a method. -/
def methodLine (m : MethodInfo) : String :=
  Text.joined " " (".method" :: m.accessFlags.keywords methodKeywords ++
    [m.returnType ++ " " ++ m.name ++ "(" ++ Text.joined ", " m.parameters ++ ")"])

/-- The instructions of a method that has any. -/
def codeLines (m : MethodInfo) : List String :=
  if m.code = [] then []
  else ("    .registers " ++ toString m.registers) :: (CodeDump.lines m.code).map ("    " ++ ·)

/-- The lines of a method, after an empty one. -/
def methodLines (s : Selection) (m : MethodInfo) : List String :=
  "" :: s.showing .methodAnnotations (annotationLines m.annotations) ++ [methodLine m] ++
    s.showing .opcodes (codeLines m) ++ [".end method"]

/-- The lines of a class; an empty one ends it. -/
def lines (s : Selection) (c : ClassInfo) : List String :=
  s.showing .classAnnotations (annotationLines c.annotations) ++
    s.showing .className [classLine c] ++
    s.showing .classDetails (detailLines c) ++
    s.showing .fields (c.fields.map fieldLine) ++
    s.showing .methods (c.methods.flatMap (methodLines s)) ++ [""]

end DexListing.Plain
