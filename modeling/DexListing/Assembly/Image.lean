import DexListing.Assembly.DataPart

/-!
# Assembling a container

A container consists of the header, the tables and the data part. What is in the data part has to be
laid out before the tables can refer to it, and where it starts follows from the sizes of the
tables.
-/

set_option autoImplicit false

namespace DexListing.Assembly

namespace Builder

/-- Where the table of types starts. The table of strings comes right after the header. -/
def typesOffset (b : Builder) : Nat := Header.size + 4 * b.strings.length

/-- Where the table of prototypes starts. -/
def protosOffset (b : Builder) : Nat := b.typesOffset + 4 * b.types.length

/-- Where the table of fields starts. -/
def fieldsOffset (b : Builder) : Nat := b.protosOffset + 12 * b.protos.length

/-- Where the table of methods starts. -/
def methodsOffset (b : Builder) : Nat := b.fieldsOffset + 8 * b.fields.length

/-- Where the table of class definitions starts. -/
def classesOffset (b : Builder) : Nat := b.methodsOffset + 8 * b.methods.length

/-- Where the data part starts. -/
def dataOffset (b : Builder) : Nat := b.classesOffset + classDefSize * b.classes.length

/-- The data of the strings. -/
def laidStrings (b : Builder) : Laid (List Nat) :=
  DataPart.layAll DataPart.string ⟨b.dataOffset, [], []⟩ b.strings

/-- After it the parameters of the prototypes. -/
def laidParameters (b : Builder) : Laid (List Nat) :=
  b.laidStrings.data.layAll (fun d p => d.typeList b p.parameters) b.protos

/-- After them everything that the classes refer to. -/
def laidClasses (b : Builder) : Laid (List ClassDef) :=
  b.laidParameters.data.layAll (DataPart.classItems b) b.classes

/-! ## Tables -/

/-- The entry of a prototype whose parameters are at an offset. -/
def protoEntry (b : Builder) (p : ProtoSpec × Nat) : List Piece :=
  [.word (b.stringIndex p.1.shorty), .word (b.typeIndex p.1.returnType), .word p.2]

/-- The entry of a field. -/
def fieldEntry (b : Builder) (f : FieldId) : List Piece :=
  [.short (b.typeIndex f.owner), .short (b.typeIndex f.typeName), .word (b.stringIndex f.name)]

/-- The entry of a method. -/
def methodEntry (b : Builder) (m : MethodId) : List Piece :=
  [.short (b.typeIndex m.owner), .short (b.protoIndex m.proto), .word (b.stringIndex m.name)]

/-- The entry of a class definition; there are no static values. -/
def classEntry (d : ClassDef) : List Piece :=
  [.word d.classIndex, .word d.accessFlags, .word d.superclassIndex, .word d.interfacesOffset,
    .word d.sourceFileIndex, .word d.annotationsOffset, .word d.dataOffset, .word 0]

/-- The tables one after the other. -/
def tables (b : Builder) : List Piece :=
  (b.laidStrings.value.flatMap fun offset => [.word offset]) ++
    ((b.types.flatMap fun descriptor => [.word (b.stringIndex descriptor)]) ++
      ((b.protos.zip b.laidParameters.value).flatMap b.protoEntry ++
        (b.fields.flatMap b.fieldEntry ++
          (b.methods.flatMap b.methodEntry ++ b.laidClasses.value.flatMap classEntry))))

/-! ## The container -/

/-- A table in the header; one without entries has no offset. -/
def tableWords (count offset : Nat) : List Piece :=
  [.word count, .word (if count = 0 then 0 else offset)]

/-- The header: the magic number with the version, neither checksum nor signature, the sizes of the
file and of the header, the mark of the byte order, no link data and no map, the tables and the data
part. -/
def header (b : Builder) (fileSize dataSize : Nat) : List Piece :=
  (magic ++ [0x30, 0x33, 0x35, 0]).map .byte ++ (.word 0 :: List.replicate 20 (.byte 0)) ++
    ([.word fileSize, .word Header.size, .word 0x12345678, .word 0, .word 0, .word 0] ++
      (tableWords b.strings.length Header.size ++ (tableWords b.types.length b.typesOffset ++
        (tableWords b.protos.length b.protosOffset ++ (tableWords b.fields.length b.fieldsOffset ++
          (tableWords b.methods.length b.methodsOffset ++
            (tableWords b.classes.length b.classesOffset ++
              [.word dataSize, .word b.dataOffset])))))))

/-- The pieces of the container. -/
def image (b : Builder) : List Piece :=
  let data := b.laidClasses.data.pieces
  let dataSize := Piece.totalSize data
  b.header (Header.size + Piece.totalSize b.tables + dataSize) dataSize ++ (b.tables ++ data)

/-- The bytes of the container, if all its sizes and offsets fit. -/
def build (b : Builder) : Option Bytes :=
  (Piece.allBytes? b.image).map List.toArray

end Builder

/-- The bytes of a container with given classes. -/
def assemble (specs : List ClassSpec) : Option Bytes :=
  (Builder.ofClasses specs).build

end DexListing.Assembly
