import DexListing.Assembly.Spec

/-!
# Collecting classes

A builder collects what the classes of a container have in common: strings, types and prototypes,
each of them once and in the order of their first use, and the fields and the methods of all
classes. Where something has been put is its index.
-/

set_option autoImplicit false

namespace DexListing.Assembly

/-- A field in the table of all fields. -/
structure FieldId where
  owner : String
  typeName : String
  name : String
  deriving DecidableEq, Repr

/-- A method in the table of all methods. -/
structure MethodId where
  owner : String
  proto : ProtoSpec
  name : String
  deriving DecidableEq, Repr

/-- A class with the indices of its first field and its first method; the others follow. -/
structure PlacedClass where
  spec : ClassSpec
  firstField : Nat
  firstMethod : Nat
  deriving DecidableEq, Repr

/-- What has been collected; types are kept by their descriptors. -/
structure Builder where
  strings : List String
  types : List String
  protos : List ProtoSpec
  fields : List FieldId
  methods : List MethodId
  classes : List PlacedClass

namespace Builder

/-- Nothing has been collected. -/
def empty : Builder := ⟨[], [], [], [], [], []⟩

/-- The builder with a string. -/
def addString (b : Builder) (s : String) : Builder :=
  if s ∈ b.strings then b else { b with strings := b.strings ++ [s] }

/-- The builder with a type, given by its name. -/
def addType (b : Builder) (name : String) : Builder :=
  let descriptor := Descriptor.ofName name
  if descriptor ∈ b.types then b
  else
    let b := b.addString descriptor
    { b with types := b.types ++ [descriptor] }

/-- The builder with types, one after the other. -/
def addTypes (b : Builder) (names : List String) : Builder :=
  names.foldl addType b

/-- The builder with a prototype. -/
def addProto (b : Builder) (p : ProtoSpec) : Builder :=
  if p ∈ b.protos then b
  else
    let b := ((b.addString p.shorty).addType p.returnType).addTypes p.parameters
    { b with protos := b.protos ++ [p] }

/-- The builder with a field of a class. -/
def addField (owner : String) (b : Builder) (f : FieldSpec) : Builder :=
  let b := (b.addType f.typeName).addString f.name
  { b with fields := b.fields ++ [⟨owner, f.typeName, f.name⟩] }

/-- The builder with a method of a class. -/
def addMethod (owner : String) (b : Builder) (m : MethodSpec) : Builder :=
  let b := (b.addProto m.proto).addString m.name
  let b : Builder := { b with methods := b.methods ++ [⟨owner, m.proto, m.name⟩] }
  b.addTypes m.annotations

/-- The builder with everything that a class mentions besides its members. -/
def addHeading (b : Builder) (c : ClassSpec) : Builder :=
  let b := (b.addType c.name).addTypes (c.superclass?.toList ++ c.interfaces)
  (c.sourceFile?.toList.foldl addString b).addTypes c.annotations

/-- The builder with a class. -/
def addClass (b : Builder) (c : ClassSpec) : Builder :=
  let headed := b.addHeading c
  let b := c.methods.foldl (addMethod c.name) (c.fields.foldl (addField c.name) headed)
  { b with classes := b.classes ++ [⟨c, headed.fields.length, headed.methods.length⟩] }

/-- The builder with classes, one after the other. -/
def ofClasses (specs : List ClassSpec) : Builder :=
  specs.foldl addClass empty

/-- The index of a string. -/
def stringIndex (b : Builder) (s : String) : Nat :=
  b.strings.idxOf s

/-- The index of a type, given by its name. -/
def typeIndex (b : Builder) (name : String) : Nat :=
  b.types.idxOf (Descriptor.ofName name)

/-- The index of a prototype. -/
def protoIndex (b : Builder) (p : ProtoSpec) : Nat :=
  b.protos.idxOf p

end Builder

end DexListing.Assembly
