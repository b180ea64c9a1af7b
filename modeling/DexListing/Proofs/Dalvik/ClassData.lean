import DexListing.Proofs.Bytes.Numbers
import DexListing.Proofs.Dalvik.Truncation
import Mathlib.Algebra.GroupWithZero.Nat
import Mathlib.Data.List.Forall2

/-!
# Class data

Class data are numbers one after the other (`Layout.NumbersAt`): the sizes of four groups of
members, and then the members group by group (`ClassData.numbers`). Reading a class goes through
all of them, and gives each member from its own numbers (`Container.exists_classData`). The index of
a member is the sum of the differences in its group up to its own (`IsGroup`), and its annotations
are the last ones that the directory of the class assigns to that index among the fields or the
methods (`Container.Assigns`). `Container.members_of_readClass` says it of whole classes.
-/

set_option autoImplicit false

namespace DexListing

/-! ## Numbers one after the other -/

namespace Layout

variable {l : Layout} {offset next stop : Nat} {numbers more : List Nat}

/-- A number takes at least a byte and ends within the container. -/
theorem of_leb128 {n : Nat} (h : l.leb128 offset = .ok (n, stop)) :
    offset < stop ∧ stop ≤ l.data.size := by
  unfold leb128 at h
  split at h
  · exact nomatch h
  · next hread =>
    obtain rfl := Except.ok.inj h
    have hbounds := Leb128.of_readWithin hread
    exact ⟨hbounds.1, hbounds.2.1⟩

/-- Numbers stand one after the other from an offset on, and the last one ends at `stop`. -/
inductive NumbersAt (l : Layout) : (offset : Nat) → List Nat → (stop : Nat) → Prop
  | nil (offset : Nat) : NumbersAt l offset [] offset
  | cons {offset next stop n : Nat} {rest : List Nat} (head : l.leb128 offset = .ok (n, next))
      (tail : NumbersAt l next rest stop) : NumbersAt l offset (n :: rest) stop

namespace NumbersAt

/-- Numbers after numbers are numbers in a row. -/
theorem append (h : l.NumbersAt offset numbers next) (hmore : l.NumbersAt next more stop) :
    l.NumbersAt offset (numbers ++ more) stop := by
  induction h with
  | nil => exact hmore
  | cons head _ ih => exact .cons head (ih hmore)

/-- Numbers in a row can be taken apart anywhere. -/
theorem of_append (h : l.NumbersAt offset (numbers ++ more) stop) :
    ∃ next, l.NumbersAt offset numbers next ∧ l.NumbersAt next more stop := by
  induction numbers generalizing offset with
  | nil => exact ⟨offset, .nil offset, h⟩
  | cons n rest ih =>
    cases h with
    | cons head tail =>
      obtain ⟨next, hrest, hmore⟩ := ih tail
      exact ⟨next, .cons head hrest, hmore⟩

/-- Every number takes a byte. -/
theorem length_le (h : l.NumbersAt offset numbers stop) : offset + numbers.length ≤ stop := by
  induction h with
  | nil => exact Nat.le_refl _
  | cons head _ ih =>
    have hnext := (of_leb128 head).1
    rw [List.length_cons]
    omega

/-- Numbers that are there end within the bytes. -/
theorem stop_le_size (h : l.NumbersAt offset numbers stop) (hne : numbers ≠ []) :
    stop ≤ l.data.size := by
  induction h with
  | nil => exact absurd rfl hne
  | @cons _ next stop n rest head tail ih =>
    cases rest with
    | nil =>
      obtain ⟨⟩ := tail
      exact (of_leb128 head).2
    | cons m rest => exact ih (List.cons_ne_nil m rest)

end NumbersAt

end Layout

/-! ## Groups of members -/

/-- The numbers of a field. -/
structure FieldNumbers where
  difference : Nat
  accessFlags : Nat

/-- The numbers of a method. -/
structure MethodNumbers where
  difference : Nat
  accessFlags : Nat
  codeOffset : Nat

/-- The numbers of a field in the order in which they stand. -/
def FieldNumbers.toList (f : FieldNumbers) : List Nat := [f.difference, f.accessFlags]

/-- The numbers of a method in the order in which they stand. -/
def MethodNumbers.toList (m : MethodNumbers) : List Nat :=
  [m.difference, m.accessFlags, m.codeOffset]

/-- The members of a class in their groups, as numbers. -/
structure ClassData where
  staticFields : List FieldNumbers
  instanceFields : List FieldNumbers
  directMethods : List MethodNumbers
  virtualMethods : List MethodNumbers

/-- The sizes of the groups, which stand before the members. -/
def ClassData.counts (d : ClassData) : List Nat :=
  [d.staticFields.length, d.instanceFields.length, d.directMethods.length,
    d.virtualMethods.length]

/-- All numbers of class data in the order in which they stand. -/
def ClassData.numbers (d : ClassData) : List Nat :=
  d.counts ++ (d.staticFields.flatMap FieldNumbers.toList ++
    d.instanceFields.flatMap FieldNumbers.toList ++
    d.directMethods.flatMap MethodNumbers.toList ++ d.virtualMethods.flatMap MethodNumbers.toList)

/-- There are two numbers for a field and three for a method. -/
theorem ClassData.length_numbers (d : ClassData) :
    d.numbers.length = 4 + 2 * (d.staticFields.length + d.instanceFields.length) +
      3 * (d.directMethods.length + d.virtualMethods.length) := by
  have hfields : ∀ fields : List FieldNumbers,
      (fields.flatMap FieldNumbers.toList).length = 2 * fields.length := by
    intro fields
    induction fields with
    | nil => rfl
    | cons f rest ih =>
      rw [List.flatMap_cons, List.length_append, ih, List.length_cons, FieldNumbers.toList]
      exact Nat.add_comm 2 _
  have hmethods : ∀ methods : List MethodNumbers,
      (methods.flatMap MethodNumbers.toList).length = 3 * methods.length := by
    intro methods
    induction methods with
    | nil => rfl
    | cons m rest ih =>
      rw [List.flatMap_cons, List.length_append, ih, List.length_cons, MethodNumbers.toList]
      exact Nat.add_comm 3 _
  simp only [numbers, counts, List.length_append, List.length_cons, List.length_nil, hfields,
    hmethods]
  omega

/-- The members are those of a group: there are as many as in the group, and the index of each is
`last`, the index before the group, with the differences of the group up to its own added to it. -/
structure IsGroup {ν μ : Type} (difference : ν → Nat) (IsMember : Nat → ν → μ → Prop) (last : Nat)
    (group : List ν) (members : List μ) : Prop where
  length_eq : members.length = group.length
  isMember : ∀ i n m, group[i]? = some n → members[i]? = some m →
    IsMember (last + ((group.take (i + 1)).map difference).sum) n m

namespace IsGroup

variable {ν μ : Type} {difference : ν → Nat} {IsMember : Nat → ν → μ → Prop} {last : Nat}

/-- A group may be empty. -/
theorem nil : IsGroup difference IsMember last [] [] :=
  ⟨rfl, fun _ _ _ => nofun⟩

/-- The first member of a group goes by its own difference, and the others start from its index. -/
theorem cons {n : ν} {m : μ} {group : List ν} {members : List μ}
    (head : IsMember (last + difference n) n m)
    (tail : IsGroup difference IsMember (last + difference n) group members) :
    IsGroup difference IsMember last (n :: group) (m :: members) := by
  refine ⟨congrArg Nat.succ tail.length_eq, ?_⟩
  intro i n' m' hn hm
  cases i with
  | zero =>
    obtain rfl := Option.some.inj hn
    obtain rfl := Option.some.inj hm
    simpa using head
  | succ i =>
    have hrest := tail.isMember i n' m' hn hm
    rwa [List.take_succ_cons, List.map_cons, List.sum_cons, ← Nat.add_assoc]

end IsGroup

/-! ## Annotations of members -/

/-- Pairs of a member index and the offset of an annotation set, as they stand in a directory. -/
def Bytes.assignments (data : Bytes) (count offset : Nat) : List (Nat × Nat) :=
  (List.range count).map fun i => (data.u4 (offset + 8 * i), data.u4 (offset + 8 * i + 4))

/-- The first assignment is a pair of words, and the others follow after eight bytes. -/
theorem Bytes.assignments_succ (data : Bytes) (count offset : Nat) :
    data.assignments (count + 1) offset =
      (data.u4 offset, data.u4 (offset + 4)) :: data.assignments count (offset + 8) := by
  unfold assignments
  rw [List.range_succ_eq_map, List.map_cons, List.map_map]
  congr 1
  apply List.map_congr_left
  intro i _
  rw [Function.comp_apply, Nat.mul_succ, Nat.add_comm (8 * i) 8, ← Nat.add_assoc]

/-- What the annotations directory of a class assigns to its fields and to its methods. -/
structure Assignments where
  ofFields : List (Nat × Nat)
  ofMethods : List (Nat × Nat)
  deriving DecidableEq, Repr

namespace Container

variable {c : Container}

/-- The assignments in the directory at an offset: those to fields, and after them those to methods.
Offset zero stands for no directory. -/
def assignments (c : Container) (offset : Nat) : Assignments :=
  if offset = 0 then ⟨[], []⟩
  else
    let fieldCount := c.data.u4 (offset + 4)
    let methodCount := c.data.u4 (offset + 8)
    ⟨c.data.assignments fieldCount (offset + 16),
      c.data.assignments methodCount (offset + 16 + 8 * fieldCount)⟩

/-- What assignments give to a member with an index: the set that comes last for the index, or
nothing if there is none. -/
inductive Assigns (c : Container) (assigned : List (Nat × Nat)) (index : Nat) :
    List String → Prop
  | absent (habsent : index ∉ assigned.map Prod.fst) : Assigns c assigned index []
  | last (before after : List (Nat × Nat)) {setOffset : Nat} {names : List String}
      (hassigned : assigned = before ++ (index, setOffset) :: after)
      (hlast : index ∉ after.map Prod.fst) (hset : c.annotationSet setOffset = .ok names) :
      Assigns c assigned index names

/-- An assignment to another index makes no difference. -/
theorem Assigns.concat {assigned : List (Nat × Nat)} {index : Nat} {names : List String}
    (h : c.Assigns assigned index names) {other : Nat × Nat} (hother : other.1 ≠ index) :
    c.Assigns (assigned ++ [other]) index names := by
  cases h with
  | absent habsent =>
    apply Assigns.absent
    rw [List.map_append, List.mem_append]
    rintro (hmem | hmem)
    · exact habsent hmem
    · exact hother (List.mem_singleton.mp hmem).symm
  | last before after hassigned hlast hset =>
    refine .last before (after ++ [other]) ?_ ?_ hset
    · rw [hassigned, List.append_assoc, List.cons_append]
    · rw [List.map_append, List.mem_append]
      rintro (hmem | hmem)
      · exact hlast hmem
      · exact hother (List.mem_singleton.mp hmem).symm

/-- An entry has the index of an assignment and the names of its set. -/
def IsEntryOf (c : Container) (assignment : Nat × Nat) (entry : Nat × List String) : Prop :=
  entry.1 = assignment.1 ∧ c.annotationSet assignment.2 = .ok entry.2

/-- The entries that are read are those of the assignments, in order. -/
theorem forall₂_of_memberAnnotations {count offset : Nat} {entries : List (Nat × List String)}
    (h : c.memberAnnotations count offset = .ok entries) :
    List.Forall₂ c.IsEntryOf (c.data.assignments count offset) entries := by
  induction count generalizing offset entries with
  | zero =>
    obtain rfl := Except.ok.inj h
    exact .nil
  | succ count ih =>
    obtain ⟨-, -, h⟩ := exists_of_bind_eq_ok h
    obtain ⟨names, hnames, h⟩ := exists_of_bind_eq_ok h
    obtain ⟨rest, hrest, h⟩ := exists_of_bind_eq_ok h
    obtain rfl := Except.ok.inj h
    rw [Bytes.assignments_succ]
    exact .cons ⟨rfl, hnames⟩ (ih hrest)

/-- What is found for an index is what the assignments give to it. The induction is on the
assignments from the last one back. -/
theorem assigns_of_forall₂ {assigned : List (Nat × Nat)} {entries : List (Nat × List String)}
    (h : List.Forall₂ c.IsEntryOf assigned entries) (index : Nat) :
    c.Assigns assigned index ((MemberAnnotations.ofEntries entries).of index) := by
  have hback : ∀ {back : List (Nat × Nat)} {found : List (Nat × List String)},
      List.Forall₂ c.IsEntryOf back found →
        c.Assigns back.reverse index ((found.lookup index).getD []) := by
    intro back found hfound
    induction hfound with
    | nil => exact .absent nofun
    | @cons assignment entry back found hentry _ ih =>
      obtain ⟨setIndex, setOffset⟩ := assignment
      obtain ⟨entryIndex, names⟩ := entry
      obtain ⟨rfl, hset⟩ := hentry
      rw [List.reverse_cons, List.lookup_cons]
      by_cases hindex : index = entryIndex
      · subst hindex
        rw [beq_self_eq_true]
        exact .last _ [] rfl nofun hset
      · rw [beq_eq_false_iff_ne.mpr hindex]
        exact ih.concat (Ne.symm hindex)
  have hreversed := hback (List.forall₂_reverse_iff.mpr h)
  rwa [List.reverse_reverse, ← MemberAnnotations.of_ofEntries] at hreversed

/-- The directory that is read gives to members what its assignments give to them. -/
theorem assigns_of_annotationsDirectory {offset : Nat} {directory : AnnotationsDirectory}
    (h : c.annotationsDirectory offset = .ok directory) (index : Nat) :
    c.Assigns (c.assignments offset).ofFields index (directory.ofFields.of index) ∧
      c.Assigns (c.assignments offset).ofMethods index (directory.ofMethods.of index) := by
  unfold annotationsDirectory at h
  unfold assignments
  split at h
  · next hzero =>
    obtain rfl := Except.ok.inj h
    rw [if_pos hzero]
    exact ⟨assigns_of_forall₂ .nil index, assigns_of_forall₂ .nil index⟩
  · next hzero =>
    obtain ⟨-, -, h⟩ := exists_of_bind_eq_ok h
    obtain ⟨ofFields, hfields, h⟩ := exists_of_bind_eq_ok h
    obtain ⟨ofMethods, hmethods, h⟩ := exists_of_bind_eq_ok h
    obtain ⟨ofClass, -, h⟩ := exists_of_bind_eq_ok h
    obtain rfl := Except.ok.inj h
    rw [if_neg hzero]
    exact ⟨assigns_of_forall₂ (forall₂_of_memberAnnotations hfields) index,
      assigns_of_forall₂ (forall₂_of_memberAnnotations hmethods) index⟩

/-! ## Members from their numbers -/

/-- The field with an index, from its numbers and from what is assigned to fields. -/
structure IsField (c : Container) (assigned : List (Nat × Nat)) (index : Nat)
    (numbers : FieldNumbers) (f : FieldInfo) : Prop where
  id : c.fieldId index = .ok (f.name, f.typeName)
  accessFlags : f.accessFlags = numbers.accessFlags
  annotations : c.Assigns assigned index f.annotations

/-- The method with an index, from its numbers and from what is assigned to methods. -/
structure IsMethod (c : Container) (assigned : List (Nat × Nat)) (index : Nat)
    (numbers : MethodNumbers) (m : MethodInfo) : Prop where
  id : ∃ protoIndex, c.methodId index = .ok (m.name, protoIndex) ∧
    c.proto protoIndex = .ok (m.returnType, m.parameters)
  accessFlags : m.accessFlags = numbers.accessFlags
  code : c.code numbers.codeOffset = .ok (m.registers, m.code)
  annotations : c.Assigns assigned index m.annotations

variable {annotations : MemberAnnotations} {assigned : List (Nat × Nat)}

/-- Fields that are read are a group, whose numbers stand in a row. -/
theorem exists_of_readFields (hassigned : ∀ i, c.Assigns assigned i (annotations.of i))
    {count last offset stop : Nat} {fields : List FieldInfo}
    (h : c.readFields annotations count last offset = .ok (fields, stop)) :
    ∃ group : List FieldNumbers, group.length = count ∧
      c.NumbersAt offset (group.flatMap FieldNumbers.toList) stop ∧
      IsGroup FieldNumbers.difference (c.IsField assigned) last group fields := by
  induction count generalizing last offset fields with
  | zero =>
    obtain ⟨rfl, rfl⟩ := Prod.mk.inj (Except.ok.inj h)
    exact ⟨[], rfl, .nil _, .nil⟩
  | succ count ih =>
    obtain ⟨⟨difference, afterDifference⟩, hdifference, h⟩ := exists_of_bind_eq_ok h
    obtain ⟨⟨accessFlags, afterFlags⟩, hflags, h⟩ := exists_of_bind_eq_ok h
    obtain ⟨⟨name, typeName⟩, hid, h⟩ := exists_of_bind_eq_ok h
    obtain ⟨⟨rest, afterRest⟩, hrest, h⟩ := exists_of_bind_eq_ok h
    obtain ⟨rfl, rfl⟩ := Prod.mk.inj (Except.ok.inj h)
    obtain ⟨group, hlength, hnumbers, hgroup⟩ := ih hrest
    refine ⟨⟨difference, accessFlags⟩ :: group, congrArg Nat.succ hlength, ?_, ?_⟩
    · exact .cons hdifference (.cons hflags hnumbers)
    · exact .cons ⟨hid, rfl, hassigned _⟩ hgroup

/-- Methods that are read are a group, whose numbers stand in a row. -/
theorem exists_of_readMethods (hassigned : ∀ i, c.Assigns assigned i (annotations.of i))
    {count last offset stop : Nat} {methods : List MethodInfo}
    (h : c.readMethods annotations count last offset = .ok (methods, stop)) :
    ∃ group : List MethodNumbers, group.length = count ∧
      c.NumbersAt offset (group.flatMap MethodNumbers.toList) stop ∧
      IsGroup MethodNumbers.difference (c.IsMethod assigned) last group methods := by
  induction count generalizing last offset methods with
  | zero =>
    obtain ⟨rfl, rfl⟩ := Prod.mk.inj (Except.ok.inj h)
    exact ⟨[], rfl, .nil _, .nil⟩
  | succ count ih =>
    obtain ⟨⟨difference, afterDifference⟩, hdifference, h⟩ := exists_of_bind_eq_ok h
    obtain ⟨⟨accessFlags, afterFlags⟩, hflags, h⟩ := exists_of_bind_eq_ok h
    obtain ⟨⟨codeOffset, afterCode⟩, hcodeOffset, h⟩ := exists_of_bind_eq_ok h
    obtain ⟨⟨name, protoIndex⟩, hid, h⟩ := exists_of_bind_eq_ok h
    obtain ⟨⟨returnType, parameters⟩, hproto, h⟩ := exists_of_bind_eq_ok h
    obtain ⟨⟨registers, code⟩, hcode, h⟩ := exists_of_bind_eq_ok h
    obtain ⟨⟨rest, afterRest⟩, hrest, h⟩ := exists_of_bind_eq_ok h
    obtain ⟨rfl, rfl⟩ := Prod.mk.inj (Except.ok.inj h)
    obtain ⟨group, hlength, hnumbers, hgroup⟩ := ih hrest
    refine ⟨⟨difference, accessFlags, codeOffset⟩ :: group, congrArg Nat.succ hlength, ?_, ?_⟩
    · exact .cons hdifference (.cons hflags (.cons hcodeOffset hnumbers))
    · exact .cons ⟨⟨protoIndex, hid, hproto⟩, rfl, hcode, hassigned _⟩ hgroup

/-- Members are those of two groups, one after the other. Each group starts from index zero. -/
def AreGroups {ν μ : Type} (difference : ν → Nat) (IsMember : Nat → ν → μ → Prop)
    (first second : List ν) (members : List μ) : Prop :=
  ∃ ofFirst ofSecond, members = ofFirst ++ ofSecond ∧
    IsGroup difference IsMember 0 first ofFirst ∧ IsGroup difference IsMember 0 second ofSecond

/-- The members of two groups are as many as their numbers. -/
theorem AreGroups.length_eq {ν μ : Type} {difference : ν → Nat} {IsMember : Nat → ν → μ → Prop}
    {first second : List ν} {members : List μ}
    (h : AreGroups difference IsMember first second members) :
    members.length = first.length + second.length := by
  obtain ⟨ofFirst, ofSecond, rfl, hfirst, hsecond⟩ := h
  rw [List.length_append, hfirst.length_eq, hsecond.length_eq]

/-- The members that are read are those of class data at the offset. -/
theorem exists_classData {directory : AnnotationsDirectory} {assigned : Assignments}
    (hassigned : ∀ i, c.Assigns assigned.ofFields i (directory.ofFields.of i) ∧
      c.Assigns assigned.ofMethods i (directory.ofMethods.of i))
    {offset : Nat} {fields : List FieldInfo} {methods : List MethodInfo}
    (h : c.readMembers directory offset = .ok (fields, methods)) :
    ∃ (data : ClassData) (stop : Nat), c.NumbersAt offset data.numbers stop ∧
      AreGroups FieldNumbers.difference (c.IsField assigned.ofFields) data.staticFields
        data.instanceFields fields ∧
      AreGroups MethodNumbers.difference (c.IsMethod assigned.ofMethods) data.directMethods
        data.virtualMethods methods := by
  have hofFields := fun i => (hassigned i).1
  have hofMethods := fun i => (hassigned i).2
  obtain ⟨⟨staticCount, afterStatic⟩, hstatic, h⟩ := exists_of_bind_eq_ok h
  obtain ⟨⟨instanceCount, afterInstance⟩, hinstance, h⟩ := exists_of_bind_eq_ok h
  obtain ⟨⟨directCount, afterDirect⟩, hdirect, h⟩ := exists_of_bind_eq_ok h
  obtain ⟨⟨virtualCount, afterVirtual⟩, hvirtual, h⟩ := exists_of_bind_eq_ok h
  obtain ⟨⟨statics, afterStatics⟩, hstatics, h⟩ := exists_of_bind_eq_ok h
  obtain ⟨⟨instances, afterInstances⟩, hinstances, h⟩ := exists_of_bind_eq_ok h
  obtain ⟨⟨directs, afterDirects⟩, hdirects, h⟩ := exists_of_bind_eq_ok h
  obtain ⟨⟨virtuals, stop⟩, hvirtuals, h⟩ := exists_of_bind_eq_ok h
  obtain ⟨rfl, rfl⟩ := Prod.mk.inj (Except.ok.inj h)
  obtain ⟨staticGroup, rfl, hnumbersStatic, hisStatic⟩ := exists_of_readFields hofFields hstatics
  obtain ⟨instanceGroup, rfl, hnumbersInstance, hisInstance⟩ :=
    exists_of_readFields hofFields hinstances
  obtain ⟨directGroup, rfl, hnumbersDirect, hisDirect⟩ := exists_of_readMethods hofMethods hdirects
  obtain ⟨virtualGroup, rfl, hnumbersVirtual, hisVirtual⟩ :=
    exists_of_readMethods hofMethods hvirtuals
  have hcounts : c.NumbersAt offset [staticGroup.length, instanceGroup.length, directGroup.length,
      virtualGroup.length] afterVirtual :=
    .cons hstatic (.cons hinstance (.cons hdirect (.cons hvirtual (.nil _))))
  refine ⟨⟨staticGroup, instanceGroup, directGroup, virtualGroup⟩, stop, ?_, ?_, ?_⟩
  · exact hcounts.append
      (((hnumbersStatic.append hnumbersInstance).append hnumbersDirect).append hnumbersVirtual)
  · exact ⟨statics, instances, rfl, hisStatic, hisInstance⟩
  · exact ⟨directs, virtuals, rfl, hisDirect, hisVirtual⟩

/-! ## Classes -/

/-- What a class is put together from. -/
theorem exists_of_readClass {index : Nat} {info : ClassInfo} (h : c.readClass index = .ok info) :
    ∃ d directory, c.classDef index = .ok d ∧
      c.annotationsDirectory d.annotationsOffset = .ok directory ∧
      c.typeList d.interfacesOffset = .ok info.interfaces ∧
      info.annotations = directory.ofClass ∧
      (d.dataOffset = 0 → info.fields = [] ∧ info.methods = []) ∧
      (d.dataOffset ≠ 0 →
        c.readMembers directory d.dataOffset = .ok (info.fields, info.methods)) := by
  obtain ⟨d, hd, h⟩ := exists_of_bind_eq_ok h
  have hresolved : c.resolveClass d = .ok info := by
    split at h
    · exact nomatch h
    · exact h
  obtain ⟨directory, hdirectory, hresolved⟩ := exists_of_bind_eq_ok hresolved
  obtain ⟨name, -, hresolved⟩ := exists_of_bind_eq_ok hresolved
  obtain ⟨superclass, -, hresolved⟩ := exists_of_ite_bind_eq_ok hresolved
  obtain ⟨interfaces, hinterfaces, hresolved⟩ := exists_of_bind_eq_ok hresolved
  obtain ⟨sourceFile, -, hresolved⟩ := exists_of_ite_bind_eq_ok hresolved
  obtain ⟨⟨fields, methods⟩, hmembers, hresolved⟩ := exists_of_ite_bind_eq_ok hresolved
  obtain rfl := Except.ok.inj hresolved
  refine ⟨d, directory, hd, hdirectory, hinterfaces, rfl, ?_, ?_⟩
  · intro hzero
    rw [if_pos hzero] at hmembers
    exact Prod.mk.inj (Except.ok.inj hmembers.symm)
  · intro hdata
    rwa [if_neg hdata] at hmembers

/-- The members of a class that can be read. Without class data it has none. Otherwise its fields
are those of the two groups of fields in the class data, the static ones first, and its methods
those of the two groups of methods, the direct ones first: in each group there are as many as the
class data say, and the index of a member is the sum of the differences of this group up to its own.
The annotations of a field are the set that comes last for its index among what the directory of the
class assigns to fields, and those of a method the set that comes last for its index among what it
assigns to methods; without one there are none. -/
theorem members_of_readClass {index : Nat} {info : ClassInfo} (h : c.readClass index = .ok info) :
    ∃ d, c.classDef index = .ok d ∧
      (d.dataOffset = 0 → info.fields = [] ∧ info.methods = []) ∧
      (d.dataOffset ≠ 0 → ∃ (data : ClassData) (stop : Nat),
        c.NumbersAt d.dataOffset data.numbers stop ∧
        let assigned := c.assignments d.annotationsOffset
        AreGroups FieldNumbers.difference (c.IsField assigned.ofFields)
          data.staticFields data.instanceFields info.fields ∧
        AreGroups MethodNumbers.difference (c.IsMethod assigned.ofMethods)
          data.directMethods data.virtualMethods info.methods) := by
  obtain ⟨d, directory, hd, hdirectory, -, -, hnone, hsome⟩ := exists_of_readClass h
  refine ⟨d, hd, hnone, ?_⟩
  intro hdata
  exact exists_classData (assigns_of_annotationsDirectory hdirectory) (hsome hdata)

/-- A container with the class `A`. Of its two fields `f` and `g` the second one stands in both
groups of fields, and its directory assigns two sets to `g` and one to the method. -/
def annotatedMembers : Bytes :=
  (magic ++ [0x30, 0x33, 0x35, 0] ++ List.replicate 48 0
    ++ [5, 112, 3, 132, 1, 144, 2, 156, 1, 172, 1, 180, 0, 0].flatMap (Bytes.littleEndian 4)
    -- the tables: five strings, three types, a prototype, two fields, a method and the class
    ++ [290, 295, 298, 301, 306, 0, 3, 4, 0, 0, 0].flatMap (Bytes.littleEndian 4)
    ++ [0, 1, 0, 2, 0, 1].flatMap (Bytes.littleEndian 4)
    ++ [0, 1, noIndex, 0, noIndex, 212, 274, 0].flatMap (Bytes.littleEndian 4)
    -- the directory with its entries, the two sets and their items
    ++ [0, 2, 1, 0, 1, 252, 1, 260, 0, 252].flatMap (Bytes.littleEndian 4)
    ++ [1, 268, 1, 271].flatMap (Bytes.littleEndian 4) ++ [0, 1, 0, 0, 2, 0]
    -- the class data
    ++ [2, 1, 1, 1, 0, 8, 1, 8, 1, 0, 0, 1, 0, 0, 1, 0]
    ++ [3, 0x4C, 0x41, 0x3B, 0, 1, 0x66, 0, 1, 0x67, 0]
    ++ [3, 0x4C, 0x58, 0x3B, 0, 3, 0x4C, 0x59, 0x3B, 0]).toArray

/-- The header of `annotatedMembers`. -/
def annotatedMembersHeader : Header :=
  ⟨"035", ⟨5, 112⟩, ⟨3, 132⟩, ⟨1, 144⟩, ⟨2, 156⟩, ⟨1, 172⟩, ⟨1, 180⟩⟩

/-- The header of the container with annotated members. -/
theorem header_annotatedMembers :
    (Header.ofBytes annotatedMembers).toOption = some annotatedMembersHeader := by
  decide +kernel

/-- The class `A` as it is listed. -/
def annotatedClass : ClassInfo :=
  ⟨"A", 1, none, [], none, [],
    [⟨"f", "A", 8, []⟩, ⟨"g", "A", 8, ["Y"]⟩, ⟨"g", "A", 0, ["Y"]⟩],
    [⟨"f", "A", [], 1, ["X"], 0, []⟩, ⟨"f", "A", [], 1, ["X"], 0, []⟩]⟩

/-- Its class is read with all its members and annotations. -/
theorem readClass_annotatedMembers :
    (ofLayout ⟨annotatedMembers, annotatedMembersHeader⟩).readClass 0 = .ok annotatedClass :=
  eq_ok_of_toOption (by decide +kernel)

/-- The entry of its class tells where the annotations and the members are. -/
theorem classDef_annotatedMembers :
    (ofLayout ⟨annotatedMembers, annotatedMembersHeader⟩).classDef 0 =
      .ok ⟨0, 1, noIndex, 0, noIndex, 212, 274⟩ :=
  eq_ok_of_toOption (by decide +kernel)

/-- The members of its class are those of its groups, with the annotations that the directory
assigns to their indices. -/
theorem members_of_readClass_annotatedMembers :
    ∃ c, ofBytes annotatedMembers = .ok c ∧ c.readClass 0 = .ok annotatedClass ∧
      ∃ (d : ClassDef) (data : ClassData) (stop : Nat), c.classDef 0 = .ok d ∧
        c.NumbersAt d.dataOffset data.numbers stop ∧
        AreGroups FieldNumbers.difference (c.IsField [(1, 252), (1, 260)])
          data.staticFields data.instanceFields annotatedClass.fields ∧
        AreGroups MethodNumbers.difference (c.IsMethod [(0, 252)])
          data.directMethods data.virtualMethods annotatedClass.methods := by
  have hread := readClass_annotatedMembers
  refine ⟨_, ofBytes_of_header header_annotatedMembers, hread, ?_⟩
  obtain ⟨d, hd, -, hmembers⟩ := members_of_readClass hread
  obtain rfl := Except.ok.inj (classDef_annotatedMembers.symm.trans hd)
  obtain ⟨data, stop, hnumbers, hfields, hmethods⟩ := hmembers (by decide)
  have hassigned : (ofLayout ⟨annotatedMembers, annotatedMembersHeader⟩).assignments 212 =
      ⟨[(1, 252), (1, 260)], [(0, 252)]⟩ := by decide +kernel
  rw [hassigned] at hfields hmethods
  exact ⟨_, data, stop, hd, hnumbers, hfields, hmethods⟩

end Container

end DexListing
