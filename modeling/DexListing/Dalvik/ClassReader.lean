import DexListing.Dalvik.Annotations

/-!
# Reading classes

A class definition names the class and points to its class data, where the members stand in four
groups: static fields, instance fields, direct methods, virtual methods. Within a group each
member's index is given as the difference to the one before, the first one from zero.
-/

set_option autoImplicit false

namespace DexListing

/-- The index that stands for an absent superclass or source file. -/
def noIndex : Nat := 0xFFFFFFFF

/-- A class definition as it is kept in its table. -/
structure ClassDef where
  classIndex : Nat
  accessFlags : AccessFlags
  superclassIndex : Nat
  interfacesOffset : Nat
  sourceFileIndex : Nat
  annotationsOffset : Nat
  dataOffset : Nat
  deriving DecidableEq, Repr

namespace Container

/-- The class definition with an index. -/
def classDef (c : Container) (index : Nat) : Except ContainerError ClassDef := do
  let offset := c.header.classes.offset + index * classDefSize
  c.require offset classDefSize
  return {
    classIndex := c.data.u4 offset
    accessFlags := c.data.u4 (offset + 4)
    superclassIndex := c.data.u4 (offset + 8)
    interfacesOffset := c.data.u4 (offset + 12)
    sourceFileIndex := c.data.u4 (offset + 16)
    annotationsOffset := c.data.u4 (offset + 20)
    dataOffset := c.data.u4 (offset + 24) }

/-- Reads `count` fields from an offset on, `last` being the index of the field before; gives the
offset after them. -/
def readFields (c : Container) (annotations : MemberAnnotations) :
    (count last offset : Nat) → Except ContainerError (List FieldInfo × Nat)
  | 0, _, offset => .ok ([], offset)
  | count + 1, last, offset => do
    let (difference, offset) ← c.leb128 offset
    let (accessFlags, offset) ← c.leb128 offset
    let index := last + difference
    let (name, typeName) ← c.fieldId index
    let (rest, offset) ← readFields c annotations count index offset
    return (⟨name, typeName, accessFlags, annotations.of index⟩ :: rest, offset)

/-- Reads `count` methods from an offset on, `last` being the index of the method before; gives
the offset after them. -/
def readMethods (c : Container) (annotations : MemberAnnotations) :
    (count last offset : Nat) → Except ContainerError (List MethodInfo × Nat)
  | 0, _, offset => .ok ([], offset)
  | count + 1, last, offset => do
    let (difference, offset) ← c.leb128 offset
    let (accessFlags, offset) ← c.leb128 offset
    let (codeOffset, offset) ← c.leb128 offset
    let index := last + difference
    let (name, protoIndex) ← c.methodId index
    let (returnType, parameters) ← c.proto protoIndex
    let (registers, code) ← c.code codeOffset
    let (rest, offset) ← readMethods c annotations count index offset
    return (⟨name, returnType, parameters, accessFlags, annotations.of index, registers, code⟩
      :: rest, offset)

/-- The fields and the methods in the class data at an offset. -/
def readMembers (c : Container) (annotations : AnnotationsDirectory) (offset : Nat) :
    Except ContainerError (List FieldInfo × List MethodInfo) := do
  let (staticCount, offset) ← c.leb128 offset
  let (instanceCount, offset) ← c.leb128 offset
  let (directCount, offset) ← c.leb128 offset
  let (virtualCount, offset) ← c.leb128 offset
  let (staticFields, offset) ← c.readFields annotations.ofFields staticCount 0 offset
  let (instanceFields, offset) ← c.readFields annotations.ofFields instanceCount 0 offset
  let (directMethods, offset) ← c.readMethods annotations.ofMethods directCount 0 offset
  let (virtualMethods, _) ← c.readMethods annotations.ofMethods virtualCount 0 offset
  return (staticFields ++ instanceFields, directMethods ++ virtualMethods)

/-- The class of a definition. -/
def resolveClass (c : Container) (d : ClassDef) : Except ContainerError ClassInfo := do
  let annotations ← c.annotationsDirectory d.annotationsOffset
  let name ← c.typeName d.classIndex
  let superclass ←
    if d.superclassIndex = noIndex then pure none else some <$> c.typeName d.superclassIndex
  let interfaces ← c.typeList d.interfacesOffset
  let sourceFile ←
    if d.sourceFileIndex = noIndex then pure none else some <$> c.string d.sourceFileIndex
  let (fields, methods) ←
    if d.dataOffset = 0 then pure ([], []) else c.readMembers annotations d.dataOffset
  return {
    name, accessFlags := d.accessFlags, superclass, interfaces, sourceFile
    annotations := annotations.ofClass, fields, methods }

/-- The class with an index. An item outside the container makes the class truncated; only its
definition itself is reported as it is. -/
def readClass (c : Container) (index : Nat) : Except ContainerError ClassInfo := do
  let d ← c.classDef index
  match c.resolveClass d with
  | .error (.outside read) => .error (.format (.truncatedClass index read))
  | result => result

/-- What reading the classes of a container in order gives: those before the first one that
cannot be read, and its error. -/
structure ClassListing where
  classes : List ClassInfo
  stopped : Option ContainerError

/-- Reads `count` classes from an index on, up to the first error. -/
def readClasses (c : Container) : (count index : Nat) → ClassListing
  | 0, _ => ⟨[], none⟩
  | count + 1, index =>
    match c.readClass index with
    | .error e => ⟨[], some e⟩
    | .ok info =>
      let rest := readClasses c count (index + 1)
      ⟨info :: rest.classes, rest.stopped⟩

/-- All classes of a container, up to the first error. -/
def classes (c : Container) : ClassListing :=
  c.readClasses c.header.classes.count 0

end Container

end DexListing
