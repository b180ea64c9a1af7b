import DexListing.Proofs.Assembly.Classes
import DexListing.Proofs.Assembly.Collecting
import DexListing.Proofs.Assembly.Tables

/-!
# Reading what has been assembled

A container that has been built is read as the classes that it was built from. The tables lead from
indices to offsets, and the offsets to what was laid out there; so the container finds the strings and
the types of the builder (`resolves`), then its members and prototypes (`carries`), and with these each
class (`classes_of_assemble`).
-/

set_option autoImplicit false

namespace DexListing

open Assembly

/-- The container that what has been built is read as. -/
def Assembly.Builder.reread (b : Builder) (data : Bytes) : Container :=
  .ofLayout ⟨data, b.builtHeader⟩

variable {b : Builder} {data : Bytes}

/-- Where two lists go together, each entry of the first one has its partner in the second. -/
theorem exists_getElem?_of_forall₂ {α β : Type} {P : α → β → Prop} {xs : List α} {ys : List β}
    (h : List.Forall₂ P xs ys) {i : Nat} {x : α} (hx : xs[i]? = some x) :
    ∃ y, ys[i]? = some y ∧ P x y := by
  obtain ⟨hi, rfl⟩ := List.getElem?_eq_some_iff.mp hx
  have hj : i < ys.length := h.length_eq ▸ hi
  exact ⟨_, List.getElem?_eq_getElem hj, h.get hi hj⟩

namespace Assembly.Builder

/-! ## The data part step by step -/

/-- Strings are laid on an empty data part. -/
theorem laidStrings_grows (b : Builder) :
    DataPart.Grows b ⟨b.dataOffset, [], []⟩ b.laidStrings.data :=
  DataPart.layAll_grows (DataPart.string_grows b) _ _

/-- Parameters are laid after the strings. -/
theorem laidParameters_grows (b : Builder) :
    DataPart.Grows b b.laidStrings.data b.laidParameters.data :=
  DataPart.layAll_grows (fun d (p : ProtoSpec) => DataPart.typeList_grows b d p.parameters) _ _

/-- The items of classes are laid after the parameters. -/
theorem laidClasses_grows (b : Builder) :
    DataPart.Grows b b.laidParameters.data b.laidClasses.data :=
  DataPart.layAll_grows (DataPart.classItems_grows b) _ _

/-- The data part comes after the header, so it does not start at the offset zero. -/
theorem sound_start (b : Builder) : DataPart.Sound b ⟨b.dataOffset, [], []⟩ where
  start := by
    rw [← totalSize_tables]
    exact Nat.lt_of_lt_of_le (by decide) (Nat.le_add_right Header.size _)
  items _ _ _ _ h := nomatch h

/-- What is laid stands in the container. -/
theorem StandsIn.held (h : b.StandsIn data) : b.laidClasses.data.HeldBy data := by
  have hstart := ((b.laidStrings_grows.trans b.laidParameters_grows).trans b.laidClasses_grows).start
  unfold DataPart.HeldBy
  rw [hstart]
  exact h.dataPart

/-! ## Strings and types -/

namespace StandsIn

variable (h : b.StandsIn data) (hclosed : b.Closed)

include h hclosed

/-- A string is found under its index. -/
theorem string_eq {s : String} (hs : s ∈ b.strings) :
    (b.reread data).string (b.stringIndex s) = .ok s := by
  have hheld := b.laidParameters_grows.held data (b.laidClasses_grows.held data h.held)
  have hlaid : List.Forall₂ (fun s offset => (b.reread data).stringAt offset = .ok s)
      b.strings b.laidStrings.value := by
    refine DataPart.layAll_forall₂ (DataPart.string_grows b) ?_ b.sound_start hheld
    intro d _ s hs hheld
    exact Layout.stringAt_of_pieces (hclosed.strings s hs) (Nat.lt_trans h.size (by decide))
      hheld.of_put.2
  obtain ⟨offset, hoffset, hread⟩ := exists_getElem?_of_forall₂ hlaid (List.getElem?_idxOf hs)
  have hlt : b.stringIndex s < b.strings.length := List.idxOf_lt_length_of_mem hs
  have hentry : (b.reread data).u4 ((b.reread data).header.strings.offset + b.stringIndex s * 4) =
      .ok offset :=
    Layout.u4_of_word (h.stringTable.tableEntry 4 (fun _ => rfl) b.length_laidStrings hoffset)
  calc (b.reread data).string (b.stringIndex s)
      = (b.reread data).u4 ((b.reread data).header.strings.offset + b.stringIndex s * 4) >>=
          (b.reread data).stringAt :=
        (Container.string_eq _ _).trans (Layout.string_of_lt hlt)
    _ = .ok s := by
        rw [hentry]
        exact hread

/-- A type is found under its index. -/
theorem typeName_eq {name : String} (hname : Descriptor.ofName name ∈ b.types) :
    (b.reread data).typeName (b.typeIndex name) = .ok (Descriptor.readable name) := by
  have hlt : b.typeIndex name < b.types.length := List.idxOf_lt_length_of_mem hname
  have hentry : (b.reread data).u4 ((b.reread data).header.types.offset + b.typeIndex name * 4) =
      .ok (b.stringIndex (Descriptor.ofName name)) :=
    Layout.u4_of_word (h.typeTable.tableEntry 4 (fun _ => rfl) rfl (List.getElem?_idxOf hname))
  have hindex : (b.reread data).descriptorIndex (b.typeIndex name) =
      .ok (b.stringIndex (Descriptor.ofName name)) :=
    (Layout.descriptorIndex_of_lt hlt).trans hentry
  have hstring := h.string_eq hclosed (hclosed.types _ hname)
  rw [Container.string_eq] at hstring
  rw [Container.typeName_eq]
  unfold Layout.typeName Layout.typeDescriptor
  rw [hindex]
  dsimp only [bind, Except.bind]
  rw [hstring]
  rfl

/-- The container that is read again resolves what the builder refers to. -/
theorem resolves : (b.reread data).Resolves b where
  size := h.size
  types := h.types
  string _ hs := h.string_eq hclosed hs
  typeName _ hname := h.typeName_eq hclosed hname

/-! ## Members and prototypes -/

/-- A field is found under its index. -/
theorem fieldId_eq {i : Nat} {f : FieldId} (hf : b.fields[i]? = some f) :
    (b.reread data).fieldId i = .ok (f.name, Descriptor.readable f.typeName) := by
  obtain ⟨htypeIn, hnameIn⟩ := hclosed.fields f (List.mem_of_getElem? hf)
  have hstring := h.string_eq hclosed hnameIn
  have htypeName := h.typeName_eq hclosed htypeIn
  have hentry := h.fieldTable.tableEntry 8 (fun _ => rfl) rfl hf
  change (b.reread data).data.HasPieces ((b.reread data).header.fields.offset + i * 8) _ at hentry
  unfold Container.fieldId
  dsimp only
  generalize (b.reread data).header.fields.offset + i * 8 = offset at hentry ⊢
  obtain ⟨-, -, hentry⟩ := hentry.short
  obtain ⟨htype, -, hentry⟩ := hentry.short
  obtain ⟨hname, hsize, -⟩ := hentry.word
  change (b.reread data).data.u4 (offset + 4) = _ at hname
  have hrequire : (b.reread data).require offset 8 = .ok () := Layout.require_of_le hsize
  simp only [hrequire, hname, htype, hstring, htypeName, bind, Except.bind]
  rfl

/-- A method is found under its index. -/
theorem methodId_eq {i : Nat} {m : MethodId} (hm : b.methods[i]? = some m) :
    (b.reread data).methodId i = .ok (m.name, b.protoIndex m.proto) := by
  have hstring := h.string_eq hclosed (hclosed.methods m (List.mem_of_getElem? hm)).2
  have hentry := h.methodTable.tableEntry 8 (fun _ => rfl) rfl hm
  change (b.reread data).data.HasPieces ((b.reread data).header.methods.offset + i * 8) _ at hentry
  unfold Container.methodId
  dsimp only
  generalize (b.reread data).header.methods.offset + i * 8 = offset at hentry ⊢
  obtain ⟨-, -, hentry⟩ := hentry.short
  obtain ⟨hproto, -, hentry⟩ := hentry.short
  obtain ⟨hname, hsize, -⟩ := hentry.word
  change (b.reread data).data.u4 (offset + 4) = _ at hname
  have hrequire : (b.reread data).require offset 8 = .ok () := Layout.require_of_le hsize
  simp only [hrequire, hname, hproto, hstring, bind, Except.bind]
  rfl

/-- A prototype is found under its index. -/
theorem proto_eq {p : ProtoSpec} (hp : p ∈ b.protos) :
    (b.reread data).proto (b.protoIndex p) =
      .ok (Descriptor.readable p.returnType, p.parameters.map Descriptor.readable) := by
  have hreturn := h.typeName_eq hclosed (hclosed.protos p hp _ List.mem_cons_self)
  have hheld := b.laidClasses_grows.held data h.held
  have hlaid : List.Forall₂ (fun (p : ProtoSpec) offset =>
      (b.reread data).typeList offset = .ok (p.parameters.map Descriptor.readable))
      b.protos b.laidParameters.value := by
    refine DataPart.layAll_forall₂ (fun d (p : ProtoSpec) => DataPart.typeList_grows b d p.parameters)
      ?_ (b.laidStrings_grows.sound b.sound_start) hheld
    intro d hd p hp hheld
    exact (h.resolves hclosed).typeList_eq
      (fun name hname => hclosed.protos p hp name (List.mem_cons_of_mem _ hname)) hd hheld
  obtain ⟨parameters, hparameters, hlist⟩ :=
    exists_getElem?_of_forall₂ hlaid (List.getElem?_idxOf hp)
  have hpair : (b.protos.zip b.laidParameters.value)[b.protoIndex p]? = some (p, parameters) :=
    List.getElem?_zip_eq_some.mpr ⟨List.getElem?_idxOf hp, hparameters⟩
  have hcount : (b.protos.zip b.laidParameters.value).length = b.protos.length := by
    rw [List.length_zip, length_laidParameters, Nat.min_self]
  have hentry := h.protoTable.tableEntry 12 (fun _ => rfl) hcount hpair
  change (b.reread data).data.HasPieces
    ((b.reread data).header.protos.offset + b.protoIndex p * 12) _ at hentry
  unfold Container.proto
  dsimp only
  generalize (b.reread data).header.protos.offset + b.protoIndex p * 12 = offset at hentry ⊢
  obtain ⟨-, -, hentry⟩ := hentry.word
  obtain ⟨htype, -, hentry⟩ := hentry.word
  obtain ⟨hoffset, hsize, -⟩ := hentry.word
  change (b.reread data).data.u4 (offset + 8) = _ at hoffset
  have hrequire : (b.reread data).require offset 12 = .ok () := Layout.require_of_le hsize
  simp only [hrequire, htype, hoffset, hreturn, hlist, bind, Except.bind]
  rfl

/-- The container that is read again carries the items of the builder. -/
theorem carries : (b.reread data).Carries b where
  toResolves := h.resolves hclosed
  stringCount := h.strings
  fieldCount := h.fields
  methodCount := h.methods
  field _ _ hf := h.fieldId_eq hclosed hf
  method _ _ hm := h.methodId_eq hclosed hm
  proto _ hp := h.proto_eq hclosed hp

end StandsIn

/-! ## Classes -/

namespace StandsIn

/-- A class definition is found under its index. -/
theorem classDef_eq (h : b.StandsIn data) {i : Nat} {d : ClassDef}
    (hd : b.laidClasses.value[i]? = some d) : (b.reread data).classDef i = .ok d := by
  have hentry := h.classTable.tableEntry 32 (fun _ => rfl) b.length_laidClasses hd
  change (b.reread data).data.HasPieces
    ((b.reread data).header.classes.offset + i * classDefSize) _ at hentry
  unfold Container.classDef
  dsimp only
  generalize (b.reread data).header.classes.offset + i * classDefSize = offset at hentry ⊢
  obtain ⟨hclass, -, hentry⟩ := hentry.word
  obtain ⟨hflags, -, hentry⟩ := hentry.word
  obtain ⟨hsuperclass, -, hentry⟩ := hentry.word
  obtain ⟨hinterfaces, -, hentry⟩ := hentry.word
  obtain ⟨hsourceFile, -, hentry⟩ := hentry.word
  obtain ⟨hannotations, -, hentry⟩ := hentry.word
  obtain ⟨hdata, -, hentry⟩ := hentry.word
  obtain ⟨-, hsize, -⟩ := hentry.word
  have hrequire : (b.reread data).require offset classDefSize = .ok () :=
    Layout.require_of_le hsize
  rw [hrequire, hclass]
  change Except.ok (ClassDef.mk _ _ _ _ _ _ _) = _
  congr

/-- Each class is read as it was asked for. -/
theorem readClass_eq (h : b.StandsIn data) (hclosed : b.Closed)
    (hflags : ∀ p ∈ b.classes, p.spec.FlagsFit) {i : Nat} {p : PlacedClass}
    (hp : b.classes[i]? = some p) : (b.reread data).readClass i = .ok p.spec.info := by
  have hsound := b.laidParameters_grows.sound (b.laidStrings_grows.sound b.sound_start)
  have hlaid : List.Forall₂ (fun (p : PlacedClass) d =>
      (b.reread data).resolveClass d = .ok p.spec.info) b.classes b.laidClasses.value := by
    refine DataPart.layAll_forall₂ (DataPart.classItems_grows b) ?_ hsound h.held
    intro d hd p hp hheld
    exact (h.carries hclosed).resolveClass_eq hclosed (hclosed.classes p hp) (hflags p hp) hd hheld
  obtain ⟨d, hd, hclass⟩ := exists_getElem?_of_forall₂ hlaid hp
  unfold Container.readClass
  rw [h.classDef_eq hd]
  dsimp only [bind, Except.bind]
  rw [hclass]

end StandsIn

end Assembly.Builder

/-- Where each of some classes is read, the listing holds all of them. -/
theorem Container.readClasses_eq {c : Container} {infos : List ClassInfo} {start : Nat}
    (h : ∀ (i : Nat) info, infos[i]? = some info → c.readClass (start + i) = .ok info) :
    c.readClasses infos.length start = ⟨infos, none⟩ := by
  induction infos generalizing start with
  | nil => rfl
  | cons info rest ih =>
    have hfirst := h 0 info rfl
    rw [Nat.add_zero] at hfirst
    have hrest : c.readClasses rest.length (start + 1) = ⟨rest, none⟩ := by
      apply ih
      intro i other hother
      rw [Nat.add_assoc, Nat.add_comm 1]
      exact h (i + 1) other hother
    rw [List.length_cons, readClasses, hfirst]
    dsimp only
    rw [hrest]

/-- Reading is the inverse of assembling: the bytes of a container that could be assembled are
accepted, and the classes in it are those that were asked for, in order and with nothing after them. -/
theorem classes_of_assemble {specs : List ClassSpec} (hbuilt : assemble specs = some data)
    (htexts : ∀ spec ∈ specs, ∀ s ∈ spec.texts, NulFree s)
    (hflags : ∀ spec ∈ specs, spec.FlagsFit) :
    ∃ c, Container.ofBytes data = .ok c ∧ c.classes = ⟨specs.map ClassSpec.info, none⟩ := by
  obtain ⟨hclosed, hspecs⟩ := Builder.closed_ofClasses htexts
  unfold assemble at hbuilt
  generalize Builder.ofClasses specs = b at hbuilt hclosed hspecs
  subst hspecs
  obtain ⟨haccepted, hstands⟩ := ofBytes_of_build hbuilt
  have hopened : Container.ofBytes data = .ok (b.reread data) := by
    unfold Container.ofBytes
    rw [haccepted]
    rfl
  have hfits : ∀ p ∈ b.classes, p.spec.FlagsFit :=
    fun p hp => hflags p.spec (List.mem_map_of_mem hp)
  have hread : ∀ (i : Nat) info, ((b.classes.map (·.spec)).map ClassSpec.info)[i]? = some info →
      (b.reread data).readClass (0 + i) = .ok info := by
    intro i info hinfo
    rw [List.map_map, List.getElem?_map] at hinfo
    obtain ⟨p, hp, rfl⟩ := Option.map_eq_some_iff.mp hinfo
    rw [Nat.zero_add]
    exact hstands.readClass_eq hclosed hfits hp
  have hclasses := Container.readClasses_eq hread
  rw [List.length_map, List.length_map] at hclasses
  exact ⟨b.reread data, hopened, hclasses⟩

/-- A class with members of each kind. -/
def squareClass : ClassSpec where
  name := "shapes.Square"
  superclass := some "java.lang.Object"
  accessFlags := 0x1
  interfaces := ["shapes.Shape"]
  sourceFile := some "Square.java"
  fields := [⟨"side", "I", 0x2⟩, ⟨"UNIT", "Lshapes/Square;", 0x8⟩]
  methods := [⟨"scale", ⟨"V", ["[J"]⟩, 0x1, some [0x12, 0x0E], 2, ["java.lang.Deprecated"]⟩,
    ⟨"area", ⟨"I", []⟩, 0x401, none, 1, []⟩]
  annotations := []

/-- The class can be assembled and is read back, its static field first. -/
theorem classes_of_assemble_square :
    ∃ data c, assemble [squareClass] = some data ∧ Container.ofBytes data = .ok c ∧
      c.classes = ⟨[{
        name := "shapes.Square"
        accessFlags := 0x1
        superclass := some "java.lang.Object"
        interfaces := ["shapes.Shape"]
        sourceFile := some "Square.java"
        annotations := []
        fields := [⟨"UNIT", "shapes.Square", 0x8, []⟩, ⟨"side", "int", 0x2, []⟩]
        methods := [⟨"scale", "void", ["long[]"], 0x1, ["java.lang.Deprecated"], 2, [0x12, 0x0E]⟩,
          ⟨"area", "int", [], 0x401, [], 0, []⟩] }], none⟩ := by
  have hsome : (assemble [squareClass]).isSome := by decide +kernel
  obtain ⟨data, hbuilt⟩ := Option.isSome_iff_exists.mp hsome
  have htexts : ∀ spec ∈ [squareClass], ∀ s ∈ spec.texts, NulFree s := by decide +kernel
  have hflags : ∀ spec ∈ [squareClass], spec.FlagsFit := by
    intro spec hspec
    obtain rfl := List.mem_singleton.mp hspec
    exact ⟨by decide, by decide⟩
  obtain ⟨c, hopened, hclasses⟩ := classes_of_assemble hbuilt htexts hflags
  exact ⟨data, c, hbuilt, hopened, hclasses⟩

end DexListing
