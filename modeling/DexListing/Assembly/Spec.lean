import DexListing.Dalvik.AccessFlags
import DexListing.Dalvik.Descriptor

/-!
# What a container is assembled from

The classes of a container with their members. Types are named as one writes them: a dotted class
name, or a descriptor, which stands for itself.
-/

set_option autoImplicit false

namespace DexListing

namespace Descriptor

/-- The characters are a descriptor: a class name between `L` and `;`, an array type, or the letter
of a primitive type. -/
def isDescriptor (cs : List Char) : Bool :=
  (cs.head? == some 'L' && cs.getLast? == some ';') || cs.head? == some '[' ||
    match cs with
    | [letter] => (primitiveKeyword? letter).isSome
    | _ => false

/-- The descriptor of a type by its name as it is written. -/
def ofName (name : String) : String :=
  if isDescriptor name.toList then name
  else String.ofList ('L' :: (name.toList.map fun c => if c = '.' then '/' else c) ++ [';'])

/-- What stands for a type in the short form of a prototype: class and array types are all one. -/
def shortForm (descriptor : String) : String :=
  match descriptor.toList.head? with
  | some 'L' => "L"
  | some '[' => "L"
  | _ => descriptor

end Descriptor

namespace Assembly

/-- A field that is asked for. -/
structure FieldSpec where
  name : String
  typeName : String
  accessFlags : AccessFlags
  deriving DecidableEq, Repr

/-- What makes up a prototype. -/
structure ProtoSpec where
  returnType : String
  parameters : List String
  deriving DecidableEq, Repr

/-- A method that is asked for; one without `code` has no code item, and its registers do not
count. -/
structure MethodSpec where
  name : String
  proto : ProtoSpec
  accessFlags : AccessFlags
  code : Option (List Nat)
  registers : Nat
  annotations : List String
  deriving DecidableEq, Repr

/-- A class that is asked for. A superclass or a source file that is empty is as good as none. -/
structure ClassSpec where
  name : String
  superclass : Option String
  accessFlags : AccessFlags
  interfaces : List String
  sourceFile : Option String
  fields : List FieldSpec
  methods : List MethodSpec
  annotations : List String
  deriving DecidableEq, Repr

/-- The field is kept among the static ones. -/
def FieldSpec.isStatic (f : FieldSpec) : Bool :=
  f.accessFlags.has .isStatic

/-- The short form of a prototype: the short forms of its types, that of the return type first. -/
def ProtoSpec.shorty (p : ProtoSpec) : String :=
  String.join ((p.returnType :: p.parameters).map fun name =>
    Descriptor.shortForm (Descriptor.ofName name))

/-- The superclass, if there is one. -/
def ClassSpec.superclass? (c : ClassSpec) : Option String :=
  c.superclass.filter (· ≠ "")

/-- The source file, if there is one. -/
def ClassSpec.sourceFile? (c : ClassSpec) : Option String :=
  c.sourceFile.filter (· ≠ "")

end Assembly

end DexListing
