import DexListing.Dalvik.ClassReader

/-!
# Reading through an access

What a reader of classes does to a container is of three kinds: it looks at bytes, it goes to an
entry of one of the tables, and it looks a string up. An `Access` says how each of these is done in
some monad, and the reader is written on top of it. Three accesses are of interest: one that keeps
nothing at all, one that keeps the strings it has worked out, and one that keeps a record of the
entries it has gone to.
-/

set_option autoImplicit false

namespace DexListing

/-- The tables of a container whose entries are referred to by index. -/
inductive TableName
  | strings
  | types
  | protos
  | fields
  | methods
  deriving DecidableEq, Repr

/-- The table with a name. -/
def Header.table (h : Header) : TableName → Table
  | .strings => h.strings
  | .types => h.types
  | .protos => h.protos
  | .fields => h.fields
  | .methods => h.methods

/-- The size of an entry of a table. -/
def TableName.entrySize : TableName → Nat
  | strings | types => 4
  | protos => 12
  | fields | methods => 8

/-- How a reader gets at a container. -/
structure Access (m : Type → Type) where
  /-- Looks at bytes. -/
  look : {α : Type} → Except ContainerError α → m α
  /-- Goes to the entry of a table with an index, and looks at bytes there. -/
  entry : {α : Type} → TableName → Nat → Except ContainerError α → m α
  /-- Looks up the string with an index. -/
  string : Nat → m String
  /-- Reports errors in another way. -/
  mapError : {α : Type} → (ContainerError → ContainerError) → m α → m α

namespace Access

variable {m : Type → Type} [Monad m]

/-! ## Strings and types -/

/-- The descriptor of the type with an index. -/
def typeDescriptor (a : Access m) (c : Container) (index : Nat) : m String := do
  a.string (← a.entry .types index (c.descriptorIndex index))

/-- The readable name of the type with an index. -/
def typeName (a : Access m) (c : Container) (index : Nat) : m String := do
  let descriptor ← a.typeDescriptor c index
  return Descriptor.name descriptor

/-- The names of `count` types whose indices are kept one after the other as two-byte numbers. -/
def typeNames (a : Access m) (c : Container) : (count offset : Nat) → m (List String)
  | 0, _ => return []
  | count + 1, offset => do
    let index ← a.look (c.u2 offset)
    let name ← a.typeName c index
    let rest ← typeNames a c count (offset + 2)
    return name :: rest

/-- The names in the type list at an offset; offset zero stands for the empty list. -/
def typeList (a : Access m) (c : Container) (offset : Nat) : m (List String) :=
  if offset = 0 then return []
  else do
    let count ← a.look (c.u4 offset)
    a.typeNames c count (offset + 4)

/-! ## Entries of the other tables -/

/-- The return type and the parameter types of the prototype with an index. -/
def proto (a : Access m) (c : Container) (index : Nat) : m (String × List String) := do
  let offset := c.header.protos.offset + index * 12
  a.entry .protos index (c.require offset 12)
  let returnType ← a.typeName c (c.data.u4 (offset + 4))
  let parameters ← a.typeList c (c.data.u4 (offset + 8))
  return (returnType, parameters)

/-- The name and the type of the field with an index. -/
def fieldId (a : Access m) (c : Container) (index : Nat) : m (String × String) := do
  let offset := c.header.fields.offset + index * 8
  a.entry .fields index (c.require offset 8)
  let name ← a.string (c.data.u4 (offset + 4))
  let typeName ← a.typeName c (c.data.u2 (offset + 2))
  return (name, typeName)

/-- The name of the method with an index and the index of its prototype. -/
def methodId (a : Access m) (c : Container) (index : Nat) : m (String × Nat) := do
  let offset := c.header.methods.offset + index * 8
  a.entry .methods index (c.require offset 8)
  let name ← a.string (c.data.u4 (offset + 4))
  return (name, c.data.u2 (offset + 2))

/-! ## Annotations -/

/-- The type names of `count` annotations whose offsets stand one after the other. -/
def setEntries (a : Access m) (c : Container) : (count offset : Nat) → m (List String)
  | 0, _ => return []
  | count + 1, offset => do
    let item ← a.look (c.u4 offset)
    let (typeIndex, _) ← a.look (c.leb128 (item + 1))
    let name ← a.typeName c typeIndex
    let rest ← setEntries a c count (offset + 4)
    return name :: rest

/-- The type names in the annotation set at an offset; offset zero stands for the empty set. -/
def annotationSet (a : Access m) (c : Container) (offset : Nat) : m (List String) :=
  if offset = 0 then return []
  else do
    let count ← a.look (c.u4 offset)
    a.setEntries c count (offset + 4)

/-- The entries for `count` members: pairs of an index and the type names of a set. -/
def memberAnnotations (a : Access m) (c : Container) :
    (count offset : Nat) → m (List (Nat × List String))
  | 0, _ => return []
  | count + 1, offset => do
    a.look (c.require offset 8)
    let names ← a.annotationSet c (c.data.u4 (offset + 4))
    let rest ← memberAnnotations a c count (offset + 8)
    return (c.data.u4 offset, names) :: rest

/-- The annotations directory at an offset; offset zero stands for an empty directory. -/
def annotationsDirectory (a : Access m) (c : Container) (offset : Nat) :
    m AnnotationsDirectory :=
  if offset = 0 then return ⟨[], ∅, ∅⟩
  else do
    a.look (c.require offset 16)
    let fieldCount := c.data.u4 (offset + 4)
    let methodCount := c.data.u4 (offset + 8)
    let ofFields ← a.memberAnnotations c fieldCount (offset + 16)
    let ofMethods ← a.memberAnnotations c methodCount (offset + 16 + 8 * fieldCount)
    let ofClass ← a.annotationSet c (c.data.u4 offset)
    return ⟨ofClass, .ofEntries ofFields, .ofEntries ofMethods⟩

/-! ## Classes -/

/-- Reads `count` fields from an offset on, `last` being the index of the field before; gives the
offset after them. -/
def readFields (a : Access m) (c : Container) (annotations : MemberAnnotations) :
    (count last offset : Nat) → m (List FieldInfo × Nat)
  | 0, _, offset => return ([], offset)
  | count + 1, last, offset => do
    let (difference, offset) ← a.look (c.leb128 offset)
    let (accessFlags, offset) ← a.look (c.leb128 offset)
    let index := last + difference
    let (name, typeName) ← a.fieldId c index
    let (rest, offset) ← readFields a c annotations count index offset
    return (⟨name, typeName, accessFlags, annotations.of index⟩ :: rest, offset)

/-- Reads `count` methods from an offset on, `last` being the index of the method before; gives
the offset after them. -/
def readMethods (a : Access m) (c : Container) (annotations : MemberAnnotations) :
    (count last offset : Nat) → m (List MethodInfo × Nat)
  | 0, _, offset => return ([], offset)
  | count + 1, last, offset => do
    let (difference, offset) ← a.look (c.leb128 offset)
    let (accessFlags, offset) ← a.look (c.leb128 offset)
    let (codeOffset, offset) ← a.look (c.leb128 offset)
    let index := last + difference
    let (name, protoIndex) ← a.methodId c index
    let (returnType, parameters) ← a.proto c protoIndex
    let (registers, code) ← a.look (c.code codeOffset)
    let (rest, offset) ← readMethods a c annotations count index offset
    return (⟨name, returnType, parameters, accessFlags, annotations.of index, registers, code⟩
      :: rest, offset)

/-- The fields and the methods in the class data at an offset. -/
def readMembers (a : Access m) (c : Container) (annotations : AnnotationsDirectory)
    (offset : Nat) : m (List FieldInfo × List MethodInfo) := do
  let (staticCount, offset) ← a.look (c.leb128 offset)
  let (instanceCount, offset) ← a.look (c.leb128 offset)
  let (directCount, offset) ← a.look (c.leb128 offset)
  let (virtualCount, offset) ← a.look (c.leb128 offset)
  let (staticFields, offset) ← a.readFields c annotations.ofFields staticCount 0 offset
  let (instanceFields, offset) ← a.readFields c annotations.ofFields instanceCount 0 offset
  let (directMethods, offset) ← a.readMethods c annotations.ofMethods directCount 0 offset
  let (virtualMethods, _) ← a.readMethods c annotations.ofMethods virtualCount 0 offset
  return (staticFields ++ instanceFields, directMethods ++ virtualMethods)

/-- The fields and the methods of a class whose data are at an offset; offset zero stands for a
class without members. -/
def members (a : Access m) (c : Container) (annotations : AnnotationsDirectory) (offset : Nat) :
    m (List FieldInfo × List MethodInfo) :=
  if offset = 0 then return ([], []) else a.readMembers c annotations offset

/-- What an index stands for, none if it is the one that stands for nothing. -/
def optional (index : Nat) (lookUp : m String) : m (Option String) :=
  if index = noIndex then return none else some <$> lookUp

/-- The class of a definition. -/
def resolveClass (a : Access m) (c : Container) (d : ClassDef) : m ClassInfo := do
  let annotations ← a.annotationsDirectory c d.annotationsOffset
  let name ← a.typeName c d.classIndex
  let superclass ← optional d.superclassIndex (a.typeName c d.superclassIndex)
  let interfaces ← a.typeList c d.interfacesOffset
  let sourceFile ← optional d.sourceFileIndex (a.string d.sourceFileIndex)
  let (fields, methods) ← a.members c annotations d.dataOffset
  return {
    name, accessFlags := d.accessFlags, superclass, interfaces, sourceFile
    annotations := annotations.ofClass, fields, methods }

/-- The error of a class with an index: an item outside the container makes the class
truncated. -/
def truncated (index : Nat) : ContainerError → ContainerError
  | .outside read => .format (.truncatedClass index read)
  | e => e

/-- The class with an index. -/
def readClass (a : Access m) (c : Container) (index : Nat) : m ClassInfo := do
  let d ← a.look (c.classDef index)
  a.mapError (truncated index) (a.resolveClass c d)

end Access

/-! ## Questions -/

/-- What a reader can be asked for. -/
inductive Question
  | string (index : Nat)
  | typeDescriptor (index : Nat)
  | typeName (index : Nat)
  | classAt (index : Nat)
  deriving DecidableEq, Repr

/-- What a reader answers if it does not fail. -/
inductive Answer
  | text (value : String)
  | info (value : ClassInfo)
  deriving DecidableEq, Repr

/-- The answer of a reader to a question. -/
def Access.answer {m : Type → Type} [Monad m] (a : Access m) (c : Container) :
    Question → m Answer
  | .string index => .text <$> a.string index
  | .typeDescriptor index => .text <$> a.typeDescriptor c index
  | .typeName index => .text <$> a.typeName c index
  | .classAt index => .info <$> a.readClass c index

/-- The answer of a container to a question. -/
def Container.answer (c : Container) : Question → Except ContainerError Answer
  | .string index => .text <$> c.string index
  | .typeDescriptor index => .text <$> c.typeDescriptor index
  | .typeName index => .text <$> c.typeName index
  | .classAt index => .info <$> c.readClass index

/-! ## An access that keeps nothing -/

/-- Every string is worked out whenever it is looked up. -/
def Access.plain (c : Container) : Access (Except ContainerError) where
  look x := x
  entry _ _ x := x
  string := c.toLayout.string
  mapError := Except.mapError

/-! ## An access with a cache -/

/-- The strings that have been worked out, by index. -/
abbrev StringCache := Std.TreeMap Nat String

/-- Reading with a cache. A step that fails keeps what it has put into the cache before. -/
abbrev CachedRead := ExceptT ContainerError (StateM StringCache)

/-- A step that leaves the cache alone. -/
def CachedRead.lift {α : Type} (x : Except ContainerError α) : CachedRead α :=
  fun cache => (x, cache)

/-- The string with an index: from the cache, or else from the container, and then into the
cache. -/
def CachedRead.string (c : Container) (index : Nat) : CachedRead String := fun cache =>
  match cache[index]? with
  | some value => (.ok value, cache)
  | none =>
    match c.toLayout.string index with
    | .error e => (.error e, cache)
    | .ok value => (.ok value, cache.insert index value)

/-- Every string is worked out when it is looked up for the first time. -/
def Access.cached (c : Container) : Access CachedRead where
  look := CachedRead.lift
  entry _ _ := CachedRead.lift
  string := CachedRead.string c
  mapError f x := fun cache =>
    match x cache with
    | (result, cache) => (result.mapError f, cache)

/-- The answers of one reader with a cache to questions one after the other, and its cache after
them. -/
def Container.askAll (c : Container) (cache : StringCache) :
    List Question → List (Except ContainerError Answer) × StringCache
  | [] => ([], cache)
  | question :: rest =>
    match (Access.cached c).answer c question cache with
    | (answer, cache) =>
      match c.askAll cache rest with
      | (answers, cache) => (answer :: answers, cache)

/-! ## An access with a record -/

/-- An entry of a table. -/
structure Reference where
  table : TableName
  index : Nat
  deriving DecidableEq, Repr

/-- Reading with a record of the entries gone to, the newest one first. -/
abbrev RecordedRead := ExceptT ContainerError (StateM (List Reference))

/-- Every entry gone to is recorded. -/
def Access.recorded (c : Container) : Access RecordedRead where
  look x := fun record => (x, record)
  entry table index x := fun record => (x, ⟨table, index⟩ :: record)
  string index := fun record => (c.toLayout.string index, ⟨.strings, index⟩ :: record)
  mapError f x := fun record =>
    match x record with
    | (result, record) => (result.mapError f, record)

end DexListing
