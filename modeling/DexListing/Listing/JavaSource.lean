import DexListing.Dalvik.ClassInfo
import DexListing.Listing.CodeDump
import DexListing.Listing.Display

/-!
# The Java listing

Declarations as they would stand in Java source. The body of a method is its code as comments.
With the class header the members stand indented between its braces; without it they stand alone.
-/

set_option autoImplicit false

namespace DexListing.JavaSource

/-- One step of indentation. -/
def indentation : String := "    "

/-- The kinds of declarations of classes. -/
inductive Kind
  | annotationType
  | interfaceType
  | enumType
  | classType
  deriving DecidableEq, Repr

/-- The keyword of a kind. -/
def Kind.keyword : Kind → String
  | .annotationType => "@interface"
  | .interfaceType => "interface"
  | .enumType => "enum"
  | .classType => "class"

/-- The kind that the flags of a class make it. -/
def Kind.ofFlags (flags : AccessFlags) : Kind :=
  if flags.has .isAnnotationType then .annotationType
  else if flags.has .isInterface then .interfaceType
  else if flags.has .isEnum then .enumType
  else .classType

/-- The superclass of a class, unless it is the one that every class has. -/
def extended (c : ClassInfo) : List String :=
  match c.superclass with
  | none => []
  | some name => if name = "" ∨ name = "java.lang.Object" then [] else ["extends", name]

/-- The interfaces of a declaration; an interface extends them. -/
def implemented (kind : Kind) (c : ClassInfo) : List String :=
  if c.interfaces = [] then []
  else [if kind = .interfaceType then "extends" else "implements", Text.joined ", " c.interfaces]

/-- The modifiers of a declaration: only a class says that it is abstract. -/
def modifiers (kind : Kind) (flags : AccessFlags) : List String :=
  let words := flags.keywords classKeywords
  if kind = .classType then words else words.erase "abstract"

/-- The declaration of a class up to its opening brace. -/
def declaration (s : Selection) (c : ClassInfo) : String :=
  let kind := Kind.ofFlags c.accessFlags
  let supers :=
    if s.shows .classDetails then
      (if kind = .classType then extended c else []) ++ implemented kind c
    else []
  Text.joined " " (modifiers kind c.accessFlags ++ [kind.keyword, c.simpleName] ++ supers)

/-- The declaration of a field. -/
def fieldLine (indent : String) (f : FieldInfo) : String :=
  indent ++
    Text.joined " " (f.accessFlags.keywords fieldKeywords ++ [f.typeName, f.name]) ++ ";"

/-- The parameters of a method, numbered from a position on. -/
def parametersFrom (position : Nat) : List String → List String
  | [] => []
  | typeName :: rest =>
    (typeName ++ " arg" ++ toString position) :: parametersFrom (position + 1) rest

/-- The head of a method or constructor up to its parameters. -/
def methodHead (c : ClassInfo) (m : MethodInfo) : String :=
  Text.joined " " (m.accessFlags.keywords methodKeywords ++
      (if m.name = "<init>" then [c.simpleName] else [m.returnType, m.name])) ++
    "(" ++ Text.joined ", " (parametersFrom 0 m.parameters) ++ ")"

/-- The body of a method as comments. -/
def codeLines (indent : String) (m : MethodInfo) : List String :=
  (indent ++ indentation ++ "// registers: " ++ toString m.registers) ::
    (CodeDump.lines m.code).map fun line => indent ++ indentation ++ "// " ++ line

/-- The body of a method between braces; `head` is what stands before the opening one. -/
def bodyLines (s : Selection) (indent head : String) (m : MethodInfo) : List String :=
  (indent ++ head ++ " \x7b") :: s.showing .opcodes (codeLines indent m) ++ [indent ++ "\x7d"]

/-- The declaration of a method: the class initialiser and every method with code have a body. -/
def declarationLines (s : Selection) (indent : String) (c : ClassInfo) (m : MethodInfo) :
    List String :=
  if m.name = "<clinit>" then bodyLines s indent "static" m
  else if m.code = [] then [indent ++ methodHead c m ++ ";"]
  else bodyLines s indent (methodHead c m) m

/-- The lines of a method, after an empty one. -/
def methodLines (s : Selection) (indent : String) (c : ClassInfo) (m : MethodInfo) :
    List String :=
  "" :: s.showing .methodAnnotations (m.annotations.map fun name => indent ++ "@" ++ name) ++
    declarationLines s indent c m

/-- The package of a class that is in one, and an empty line. -/
def packageLines (c : ClassInfo) : List String :=
  if c.package = "" then [] else ["package " ++ c.package ++ ";", ""]

/-- The lines of a class; an empty one ends it. -/
def lines (s : Selection) (c : ClassInfo) : List String :=
  let indent := if s.shows .className then indentation else ""
  s.showing .classDetails (packageLines c) ++
    s.showing .classAnnotations (c.annotations.map ("@" ++ ·)) ++
    s.showing .className [declaration s c ++ " \x7b"] ++
    s.showing .fields (c.fields.map (fieldLine indent)) ++
    s.showing .methods (c.methods.flatMap (methodLines s indent c)) ++
    s.showing .className ["\x7d"] ++ [""]

end DexListing.JavaSource
