import DexListing.Dalvik.ClassInfo
import DexListing.Dalvik.Layout
import DexListing.Memo

/-!
# Containers

A container is a layout whose strings and type names are remembered: many members may share one
long name. What is remembered is what the layout says.
-/

set_option autoImplicit false

namespace DexListing

/-- A layout together with memos of its strings and of its type names. -/
structure Container extends Layout where
  stringMemo : Memo (Except ContainerError String)
  typeNameMemo : Memo (Except ContainerError String)
  stringMemo_value : stringMemo.value = toLayout.string
  typeNameMemo_value : typeNameMemo.value = toLayout.typeName

namespace Container

/-- The container of a layout. -/
def ofLayout (l : Layout) : Container where
  toLayout := l
  stringMemo := .ofFunction l.string (l.entriesWithin l.header.strings)
  typeNameMemo := .ofFunction l.typeName (l.entriesWithin l.header.types)
  stringMemo_value := rfl
  typeNameMemo_value := rfl

/-- Accepts a byte string as a container. -/
def ofBytes (data : Bytes) : Except ContainerError Container :=
  match Header.ofBytes data with
  | .error fault => .error (.format fault)
  | .ok header => .ok (ofLayout ⟨data, header⟩)

/-- The string with an index. -/
def string (c : Container) (index : Nat) : Except ContainerError String :=
  c.stringMemo.get index

/-- A string is the one of the layout, whether or not it is remembered. -/
theorem string_eq (c : Container) (index : Nat) : c.string index = c.toLayout.string index := by
  rw [string, Memo.get_eq, c.stringMemo_value]

/-- The descriptor of the type with an index. -/
def typeDescriptor (c : Container) (index : Nat) : Except ContainerError String := do
  c.string (← c.descriptorIndex index)

/-- So is the descriptor of a type. -/
theorem typeDescriptor_eq (c : Container) (index : Nat) :
    c.typeDescriptor index = c.toLayout.typeDescriptor index := by
  simp only [typeDescriptor, Layout.typeDescriptor, string_eq]

/-- The readable name of the type with an index. -/
def typeName (c : Container) (index : Nat) : Except ContainerError String :=
  c.typeNameMemo.get index

/-- So is the readable name of a type. -/
theorem typeName_eq (c : Container) (index : Nat) :
    c.typeName index = c.toLayout.typeName index := by
  rw [typeName, Memo.get_eq, c.typeNameMemo_value]

/-- The names of `count` types whose indices are kept one after the other as two-byte numbers. -/
def typeNames (c : Container) : (count offset : Nat) → Except ContainerError (List String)
  | 0, _ => .ok []
  | count + 1, offset => do
    let index ← c.u2 offset
    let name ← c.typeName index
    let rest ← typeNames c count (offset + 2)
    return name :: rest

/-- The names in the type list at an offset; offset zero stands for the empty list. -/
def typeList (c : Container) (offset : Nat) : Except ContainerError (List String) := do
  if offset = 0 then return []
  let count ← c.u4 offset
  c.typeNames count (offset + 4)

/-- The return type and the parameter types of the prototype with an index. -/
def proto (c : Container) (index : Nat) : Except ContainerError (String × List String) := do
  let offset := c.header.protos.offset + index * 12
  c.require offset 12
  let returnType ← c.typeName (c.data.u4 (offset + 4))
  let parameters ← c.typeList (c.data.u4 (offset + 8))
  return (returnType, parameters)

/-- The name and the type of the field with an index. -/
def fieldId (c : Container) (index : Nat) : Except ContainerError (String × String) := do
  let offset := c.header.fields.offset + index * 8
  c.require offset 8
  let name ← c.string (c.data.u4 (offset + 4))
  let typeName ← c.typeName (c.data.u2 (offset + 2))
  return (name, typeName)

/-- The name of the method with an index and the index of its prototype. -/
def methodId (c : Container) (index : Nat) : Except ContainerError (String × Nat) := do
  let offset := c.header.methods.offset + index * 8
  c.require offset 8
  let name ← c.string (c.data.u4 (offset + 4))
  return (name, c.data.u2 (offset + 2))

/-- The number of registers and the instructions of the code item at an offset; offset zero
stands for no code. -/
def code (c : Container) (offset : Nat) : Except ContainerError (Nat × List Nat) := do
  if offset = 0 then return (0, [])
  c.require offset 16
  let count := c.data.u4 (offset + 12)
  c.require (offset + 16) (2 * count)
  return (c.data.u2 offset, (List.range count).map fun i => c.data.u2 (offset + 16 + 2 * i))

end Container

end DexListing
