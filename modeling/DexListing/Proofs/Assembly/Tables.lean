import DexListing.Proofs.Assembly.Laying

/-!
# The header and the tables

The header of a container that has been built is accepted, and each table stands where the header
says. A table of the header without entries has no offset, so where a table stands is asked for only
when an entry of it is looked up.
-/

set_option autoImplicit false

namespace DexListing

open Assembly

variable {b : Builder} {data : Bytes}

/-! ## Sizes -/

namespace Assembly

/-- Entries of one size make a table of that size for each of them. -/
theorem Piece.totalSize_flatMap {α : Type} {pieces : α → List Piece} (size : Nat)
    (hsize : ∀ x, totalSize (pieces x) = size) (xs : List α) :
    totalSize (xs.flatMap pieces) = size * xs.length := by
  induction xs with
  | nil => rfl
  | cons x rest ih =>
    rw [List.flatMap_cons, totalSize_append, hsize, ih, List.length_cons, Nat.mul_succ,
      Nat.add_comm]

namespace Builder

/-- Every string is laid. -/
theorem length_laidStrings (b : Builder) : b.laidStrings.value.length = b.strings.length :=
  DataPart.length_layAll _ _

/-- The parameters of every prototype are laid. -/
theorem length_laidParameters (b : Builder) : b.laidParameters.value.length = b.protos.length :=
  DataPart.length_layAll _ _

/-- The items of every class are laid. -/
theorem length_laidClasses (b : Builder) : b.laidClasses.value.length = b.classes.length :=
  DataPart.length_layAll _ _

/-- The data part starts right after the tables. -/
theorem totalSize_tables (b : Builder) : Header.size + Piece.totalSize b.tables = b.dataOffset := by
  unfold tables
  simp only [Piece.totalSize_append]
  rw [Piece.totalSize_flatMap 4 fun _ => rfl,
    Piece.totalSize_flatMap 4 fun _ => rfl,
    Piece.totalSize_flatMap 12 fun _ => rfl,
    Piece.totalSize_flatMap 8 fun _ => rfl,
    Piece.totalSize_flatMap 8 fun _ => rfl,
    Piece.totalSize_flatMap 32 fun _ => rfl, length_laidStrings, length_laidClasses,
    List.length_zip, length_laidParameters, Nat.min_self]
  unfold dataOffset classesOffset methodsOffset fieldsOffset protosOffset typesOffset classDefSize
  omega

/-- The pieces of the header have its size. -/
theorem totalSize_header (b : Builder) (fileSize dataSize : Nat) :
    Piece.totalSize (b.header fileSize dataSize) = Header.size := by
  simp [header, tableWords, magic, Piece.totalSize, Piece.size, Header.size]

end Builder

end Assembly

/-! ## The header -/

/-- A table with so many entries at an offset; one without entries has no offset. -/
def Table.of (count offset : Nat) : Table := ⟨count, if count = 0 then 0 else offset⟩

/-- An entry of a table stands where the header leads to; there is no need to ask whether the table
has entries. -/
theorem Bytes.HasPieces.tableEntry {α : Type} {xs : List α} {pieces : α → List Piece}
    {offset count : Nat} (size : Nat) (h : data.HasPieces offset (xs.flatMap pieces))
    (hsize : ∀ x, Piece.totalSize (pieces x) = size) (hcount : xs.length = count)
    {i : Nat} {x : α} (hx : xs[i]? = some x) :
    data.HasPieces ((Table.of count offset).offset + i * size) (pieces x) := by
  have hlt := (List.getElem?_eq_some_iff.mp hx).1
  have hoffset : (Table.of count offset).offset = offset := if_neg (by omega)
  rw [hoffset]
  exact h.entry size hsize hx

/-- The header of what a builder builds. -/
def Assembly.Builder.builtHeader (b : Builder) : Header where
  version := versionText [0x30, 0x33, 0x35]
  strings := .of b.strings.length Header.size
  types := .of b.types.length b.typesOffset
  protos := .of b.protos.length b.protosOffset
  fields := .of b.fields.length b.fieldsOffset
  methods := .of b.methods.length b.methodsOffset
  classes := .of b.classes.length b.classesOffset

/-- Single bytes that stand somewhere. -/
theorem Bytes.HasPieces.bytes {offset : Nat} {bs : List UInt8} {rest : List Piece}
    (h : data.HasPieces offset (bs.map .byte ++ rest)) : data.Has offset bs := by
  induction bs generalizing offset with
  | nil => exact fun i b hb => nomatch hb
  | cons first bs ih =>
    obtain ⟨hfirst, hrest⟩ := h.byte
    intro i b hb
    cases i with
    | zero =>
      obtain rfl := Option.some.inj hb
      exact hfirst
    | succ i =>
      have hget := ih hrest i b hb
      rwa [Nat.add_assoc, Nat.add_comm 1] at hget

/-- A table of the header is read as it was written. -/
theorem Table.at_eq {count offset position : Nat} {rest : List Piece}
    (h : data.HasPieces position (Builder.tableWords count offset ++ rest)) :
    Table.at data position = .of count offset ∧ count < 0x100000000 ∧
      data.HasPieces (position + 8) rest := by
  obtain ⟨hcount, -, hafter⟩ := h.word
  obtain ⟨hoffset, -, hrest⟩ := hafter.word
  refine ⟨?_, h.word_lt, hrest⟩
  unfold Table.at Table.of
  rw [hcount, hoffset]

/-- What has been collected can be counted in the header. -/
structure Assembly.Builder.CountsFit (b : Builder) : Prop where
  strings : b.strings.length < 0x100000000
  types : b.types.length < 0x100000000
  fields : b.fields.length < 0x100000000
  methods : b.methods.length < 0x100000000

/-- The header of a container that has been built is accepted. -/
theorem Header.ofBytes_eq {fileSize dataSize : Nat}
    (h : data.HasPieces 0 (b.header fileSize dataSize)) (hsize : b.dataOffset ≤ data.size) :
    Header.ofBytes data = .ok b.builtHeader ∧ fileSize < 0x100000000 ∧ b.CountsFit := by
  obtain ⟨hfront, hwords⟩ := h.append
  obtain ⟨hmagic, hversion⟩ := hfront.bytes.append
  change data.HasPieces 32 _ at hwords
  have hmagicRead : data.range 0 4 = magic := hmagic.range_eq
  have hversionRead : data.range 4 7 = [0x30, 0x33, 0x35] :=
    (@Bytes.Has.append data 4 [0x30, 0x33, 0x35] [0] hversion).1.range_eq
  have hfileSize := hwords.word_lt
  obtain ⟨-, -, hwords⟩ := hwords.word
  obtain ⟨-, -, hwords⟩ := hwords.word
  obtain ⟨-, -, hwords⟩ := hwords.word
  obtain ⟨-, -, hwords⟩ := hwords.word
  obtain ⟨-, -, hwords⟩ := hwords.word
  obtain ⟨-, -, hwords⟩ := hwords.word
  obtain ⟨hstrings, hstringCount, hwords⟩ := Table.at_eq hwords
  obtain ⟨htypes, htypeCount, hwords⟩ := Table.at_eq hwords
  obtain ⟨hprotos, -, hwords⟩ := Table.at_eq hwords
  obtain ⟨hfields, hfieldCount, hwords⟩ := Table.at_eq hwords
  obtain ⟨hmethods, hmethodCount, hwords⟩ := Table.at_eq hwords
  obtain ⟨hclasses, -, hwords⟩ := Table.at_eq hwords
  refine ⟨?_, hfileSize, hstringCount, htypeCount, hfieldCount, hmethodCount⟩
  -- The header fits, and so does the table of class definitions, as the data part comes after it.
  have hlarge : ¬data.size < Header.size := by
    unfold Builder.dataOffset Builder.classesOffset Builder.methodsOffset Builder.fieldsOffset
      Builder.protosOffset Builder.typesOffset at hsize
    omega
  have htable : ¬b.builtHeader.classes.offset + b.builtHeader.classes.count * classDefSize >
      data.size := by
    unfold Builder.builtHeader Table.of
    unfold Builder.dataOffset at hsize
    dsimp only
    split
    · next hnone =>
      rw [hnone]
      omega
    · rw [Nat.mul_comm]
      omega
  unfold Header.ofBytes
  rw [hmagicRead, hversionRead, hstrings, htypes, hprotos, hfields, hmethods, hclasses, if_neg]
  · exact if_neg htable
  · simpa using hlarge

/-! ## The tables -/

/-- The tables and the data part of a builder stand in a byte string. -/
structure Assembly.Builder.StandsIn (b : Builder) (data : Bytes) : Prop extends CountsFit b where
  size : data.size < 0x100000000
  stringTable : data.HasPieces Header.size (b.laidStrings.value.flatMap fun offset => [.word offset])
  typeTable : data.HasPieces b.typesOffset
    (b.types.flatMap fun descriptor => [.word (b.stringIndex descriptor)])
  protoTable : data.HasPieces b.protosOffset
    ((b.protos.zip b.laidParameters.value).flatMap b.protoEntry)
  fieldTable : data.HasPieces b.fieldsOffset (b.fields.flatMap b.fieldEntry)
  methodTable : data.HasPieces b.methodsOffset (b.methods.flatMap b.methodEntry)
  classTable : data.HasPieces b.classesOffset (b.laidClasses.value.flatMap Builder.classEntry)
  dataPart : data.HasPieces b.dataOffset b.laidClasses.data.pieces

/-- The bytes of what has been built are its pieces, and nothing else. -/
theorem hasPieces_of_build (h : b.build = some data) :
    data.HasPieces 0 b.image ∧ data.size = Piece.totalSize b.image := by
  unfold Builder.build at h
  obtain ⟨bytes, hbytes, rfl⟩ := Option.map_eq_some_iff.mp h
  refine ⟨⟨bytes, hbytes, ?_⟩, Piece.length_of_allBytes? hbytes⟩
  intro i x hx
  rw [Nat.zero_add, List.getElem?_toArray, hx]

/-- What has been built has an accepted header, and everything is where the header says. -/
theorem ofBytes_of_build (h : b.build = some data) :
    Header.ofBytes data = .ok b.builtHeader ∧ b.StandsIn data := by
  obtain ⟨hpieces, hsize⟩ := hasPieces_of_build h
  unfold Builder.image at hpieces hsize
  dsimp only at hpieces hsize
  obtain ⟨hheader, hrest⟩ := hpieces.append
  rw [Builder.totalSize_header, Nat.zero_add] at hrest
  obtain ⟨htables, hdata⟩ := hrest.append
  rw [Builder.totalSize_tables] at hdata
  rw [Piece.totalSize_append, Piece.totalSize_append, Builder.totalSize_header, ← Nat.add_assoc]
    at hsize
  have hfits : b.dataOffset ≤ data.size := by
    rw [hsize, Builder.totalSize_tables]
    exact Nat.le_add_right _ _
  obtain ⟨haccepted, hfileSize, hcounts⟩ := Header.ofBytes_eq hheader hfits
  refine ⟨haccepted, ?_⟩
  obtain ⟨hstrings, htables⟩ := htables.append
  rw [Piece.totalSize_flatMap 4 fun _ => rfl, Builder.length_laidStrings] at htables
  obtain ⟨htypes, htables⟩ := htables.append
  rw [Piece.totalSize_flatMap 4 fun _ => rfl] at htables
  obtain ⟨hprotos, htables⟩ := htables.append
  rw [Piece.totalSize_flatMap 12 fun _ => rfl, List.length_zip,
    Builder.length_laidParameters, Nat.min_self] at htables
  obtain ⟨hfields, htables⟩ := htables.append
  rw [Piece.totalSize_flatMap 8 fun _ => rfl] at htables
  obtain ⟨hmethods, hclasses⟩ := htables.append
  rw [Piece.totalSize_flatMap 8 fun _ => rfl] at hclasses
  exact {
    toCountsFit := hcounts
    size := hsize ▸ hfileSize
    stringTable := hstrings
    typeTable := htypes
    protoTable := hprotos
    fieldTable := hfields
    methodTable := hmethods
    classTable := hclasses
    dataPart := hdata }

end DexListing
