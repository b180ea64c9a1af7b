import DexListing.Assembly.Builder
import DexListing.Assembly.Piece
import DexListing.Dalvik.ClassReader
import DexListing.OrderedMap

/-!
# The data part of a container

Everything of variable size stands in the data part, where the tables refer to it by offset. It is
laid out from front to back: each item goes to the end, and what is laid out stays where it is. Items
made of words begin at a multiple of four.
-/

set_option autoImplicit false

namespace DexListing.Assembly

/-- The data part as far as it is laid out: where it starts, what is in it, and where the items of
annotations in it are, by the names of their types. -/
structure DataPart where
  start : Nat
  pieces : List Piece
  items : List (String × Nat)

/-- What an item that was laid out is referred to by, and the data part with it. -/
structure Laid (α : Type) where
  value : α
  data : DataPart

namespace DataPart

/-- The offset of what comes next. -/
def here (d : DataPart) : Nat :=
  d.start + Piece.totalSize d.pieces

/-- The data part with more pieces. -/
def put (d : DataPart) (pieces : List Piece) : DataPart :=
  { d with pieces := d.pieces ++ pieces }

/-- The data part filled up with zeros to a multiple of four. -/
def align (d : DataPart) : DataPart :=
  d.put (List.replicate ((4 - d.here % 4) % 4) (.byte 0))

/-- Pieces at the end of the data part. -/
def lay (d : DataPart) (pieces : List Piece) : Laid Nat :=
  ⟨d.here, d.put pieces⟩

/-- Items one after the other. -/
def layAll {α β : Type} (item : DataPart → α → Laid β) (d : DataPart) : List α → Laid (List β)
  | [] => ⟨[], d⟩
  | x :: rest =>
    let first := item d x
    let others := layAll item first.data rest
    ⟨first.value :: others.value, others.data⟩

/-- The data of a string: its length in characters, its bytes and a zero byte. -/
def string (d : DataPart) (s : String) : Laid Nat :=
  d.lay [.number s.length, .text s, .byte 0]

/-- A list of types; the empty list is not laid out. -/
def typeList (b : Builder) (d : DataPart) (names : List String) : Laid Nat :=
  if names = [] then ⟨0, d⟩
  else d.align.lay (.word names.length :: names.map fun name => .short (b.typeIndex name))

/-- The item of an annotation, unless there is one already: its visibility, its type and no
elements. -/
def annotationItem (b : Builder) (d : DataPart) (name : String) : DataPart :=
  if (OrderedMap.find? d.items name).isSome then d
  else
    { d.put [.byte 1, .number (b.typeIndex name), .number 0] with
      items := OrderedMap.put d.items name d.here }

/-- The offset of the item of an annotation. -/
def itemOffset (d : DataPart) (name : String) : Nat :=
  (OrderedMap.find? d.items name).getD 0

/-- A set of annotations; the empty set is not laid out. -/
def annotationSet (b : Builder) (d : DataPart) (names : List String) : Laid Nat :=
  if names = [] then ⟨0, d⟩
  else
    let d := (names.foldl (annotationItem b) d).align
    d.lay (.word names.length :: names.map fun name => .word (d.itemOffset name))

/-- The code of a method: registers, three empty counts, no debug information, and the units. -/
def codeItem (d : DataPart) (m : MethodSpec) : Laid Nat :=
  match m.code with
  | none => ⟨0, d⟩
  | some units =>
    d.align.lay ([.short m.registers, .short 0, .short 0, .short 0, .word 0, .word units.length] ++
      units.map .short)

/-- The annotations of a method, with the index of the method. -/
def methodSet (b : Builder) (d : DataPart) (m : MethodSpec × Nat) : Laid (Nat × Nat) :=
  let set := annotationSet b d m.1.annotations
  ⟨(m.2, set.value), set.data⟩

/-- The annotations directory of a class: the set of the class, no annotated fields, the sets of the
methods, no annotated parameters. It is not laid out if there are no annotations. -/
def directory (d : DataPart) (classSet : Nat) (methodSets : List (Nat × Nat)) : Laid Nat :=
  if classSet = 0 ∧ methodSets = [] then ⟨0, d⟩
  else
    d.align.lay ([.word classSet, .word 0, .word methodSets.length, .word 0] ++
      methodSets.flatMap fun entry => [.word entry.1, .word entry.2])

end DataPart

/-- The fields of a class with their indices. -/
def PlacedClass.fields (p : PlacedClass) : List (FieldSpec × Nat) :=
  p.spec.fields.zipIdx p.firstField

/-- The methods of a class with their indices. -/
def PlacedClass.methods (p : PlacedClass) : List (MethodSpec × Nat) :=
  p.spec.methods.zipIdx p.firstMethod

/-- The fields of one group in the class data, `last` being the index before. -/
def fieldPieces : (last : Nat) → List (FieldSpec × Nat) → List Piece
  | _, [] => []
  | last, (f, index) :: rest =>
    [.number (index - last), .number f.accessFlags] ++ fieldPieces index rest

/-- The methods in the class data with the offsets of their code, `last` being the index before. -/
def methodPieces : (last : Nat) → List ((MethodSpec × Nat) × Nat) → List Piece
  | _, [] => []
  | last, ((m, index), codeOffset) :: rest =>
    [.number (index - last), .number m.accessFlags, .number codeOffset] ++ methodPieces index rest

namespace DataPart

/-- The class data of a class: the sizes of the four groups of members, static fields, instance
fields, no direct methods, and the methods. It is not laid out if there are no members. -/
def classData (d : DataPart) (p : PlacedClass) (codeOffsets : List Nat) : Laid Nat :=
  if p.spec.fields = [] ∧ p.spec.methods = [] then ⟨0, d⟩
  else
    let staticFields := p.fields.filter (·.1.isStatic)
    let instanceFields := p.fields.filter (!·.1.isStatic)
    let methods := p.methods.zip codeOffsets
    d.lay ([.number staticFields.length, .number instanceFields.length, .number 0,
        .number methods.length] ++
      (fieldPieces 0 staticFields ++ (fieldPieces 0 instanceFields ++ methodPieces 0 methods)))

/-- Everything that a class refers to, and its definition. -/
def classItems (b : Builder) (d : DataPart) (p : PlacedClass) : Laid ClassDef :=
  let interfaces := d.typeList b p.spec.interfaces
  let codes := interfaces.data.layAll codeItem p.spec.methods
  let annotated := p.methods.filter fun m => m.1.annotations ≠ []
  let methodSets := codes.data.layAll (methodSet b) annotated
  let classSet := methodSets.data.annotationSet b p.spec.annotations
  let directory := classSet.data.directory classSet.value methodSets.value
  let members := directory.data.classData p codes.value
  { value := {
      classIndex := b.typeIndex p.spec.name
      accessFlags := p.spec.accessFlags
      superclassIndex := (p.spec.superclass?.map b.typeIndex).getD noIndex
      interfacesOffset := interfaces.value
      sourceFileIndex := (p.spec.sourceFile?.map b.stringIndex).getD noIndex
      annotationsOffset := directory.value
      dataOffset := members.value }
    data := members.data }

end DataPart

end DexListing.Assembly
