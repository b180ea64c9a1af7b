import DexListing.Bytes.Basic
import Mathlib.Algebra.GroupWithZero.Nat

/-!
# Bytes that stand at an offset

What is read at an offset depends on the bytes that stand there (`Bytes.Has`). Numbers that were
written low byte first are read back by `u2` and `u4`, and a row of bytes that are not zero up to
the zero byte after it.
-/

set_option autoImplicit false

namespace DexListing

namespace Bytes

/-- These bytes stand at an offset of a byte string. -/
def Has (data : Bytes) (offset : Nat) (bytes : List UInt8) : Prop :=
  ∀ i b, bytes[i]? = some b → data[offset + i]? = some b

variable {data : Bytes} {offset : Nat}

/-- Bytes that stand somewhere can be taken apart. -/
theorem Has.append {xs ys : List UInt8} (h : data.Has offset (xs ++ ys)) :
    data.Has offset xs ∧ data.Has (offset + xs.length) ys := by
  constructor
  · intro i b hb
    apply h i b
    rw [List.getElem?_append_left (List.getElem?_eq_some_iff.mp hb).1, hb]
  · intro i b hb
    rw [Nat.add_assoc]
    apply h (xs.length + i) b
    rw [List.getElem?_append_right (Nat.le_add_right _ _), Nat.add_sub_cancel_left, hb]

/-- The first byte stands at the offset, and the others after it. -/
theorem Has.cons {b : UInt8} {rest : List UInt8} (h : data.Has offset (b :: rest)) :
    data[offset]? = some b ∧ data.Has (offset + 1) rest :=
  ⟨h 0 b rfl, (@Has.append data offset [b] rest h).2⟩

/-- No bytes stand anywhere. -/
theorem has_nil (data : Bytes) (offset : Nat) : data.Has offset [] := by
  intro i b hb
  exact nomatch hb

/-- A byte and the bytes after it stand in a row. -/
theorem has_cons {b : UInt8} {rest : List UInt8} (hb : data[offset]? = some b)
    (hrest : data.Has (offset + 1) rest) : data.Has offset (b :: rest) := by
  intro i b' hb'
  cases i with
  | zero => exact hb.trans hb'
  | succ i =>
    rw [Nat.add_comm i 1, ← Nat.add_assoc]
    exact hrest i b' hb'

/-- Bytes that stand somewhere stand there in any byte string that has the same bytes in that
place. -/
theorem Has.of_same {other : Bytes} {bytes : List UInt8} (h : data.Has offset bytes)
    (hsame : ∀ i, offset ≤ i → i < offset + bytes.length → other[i]? = data[i]?) :
    other.Has offset bytes := by
  intro i b hb
  obtain ⟨hi, -⟩ := List.getElem?_eq_some_iff.mp hb
  rw [hsame _ (Nat.le_add_right _ _) (Nat.add_lt_add_left hi offset)]
  exact h i b hb

/-- Bytes stand right after what comes before them. -/
theorem has_toArray (before bytes after : List UInt8) :
    Has (before ++ (bytes ++ after)).toArray before.length bytes := by
  intro i b hb
  rw [List.getElem?_toArray, List.getElem?_append_right (Nat.le_add_right _ _),
    Nat.add_sub_cancel_left, List.getElem?_append_left (List.getElem?_eq_some_iff.mp hb).1, hb]

/-- Bytes that stand somewhere end within the byte string. -/
theorem Has.le_size {bytes : List UInt8} (hne : bytes ≠ []) (h : data.Has offset bytes) :
    offset + bytes.length ≤ data.size := by
  have hpos : 0 < bytes.length := List.length_pos_iff.mpr hne
  have hlast : bytes[bytes.length - 1]? = some (bytes[bytes.length - 1]) :=
    List.getElem?_eq_getElem (by omega)
  obtain ⟨hlt, -⟩ := Array.getElem?_eq_some_iff.mp (h _ _ hlast)
  omega

/-! ## Numbers of a fixed size -/

/-- A byte that stands somewhere is read there. -/
theorem Has.u1_eq {b : UInt8} {rest : List UInt8} (h : data.Has offset (b :: rest)) :
    data.u1 offset = b.toNat := by
  unfold u1
  rw [Array.getD_eq_getD_getElem?, h.cons.1]
  rfl

/-- A number has as many bytes as it is given. -/
theorem length_littleEndian (count n : Nat) : (littleEndian count n).length = count := by
  induction count generalizing n with
  | zero => rfl
  | succ count ih => rw [littleEndian, List.length_cons, ih]

/-- The low byte of a number is read as such, and the rest of it stands after that. -/
theorem Has.littleEndian_succ {count n : Nat}
    (h : data.Has offset (littleEndian (count + 1) n)) :
    data.u1 offset = n % 0x100 ∧ data.Has (offset + 1) (littleEndian count (n / 0x100)) := by
  rw [littleEndian] at h
  refine ⟨?_, h.cons.2⟩
  rw [h.u1_eq, UInt8.toNat_ofNat']
  omega

/-- A number that stands somewhere is read as a half word, if it fits. -/
theorem Has.u2_eq {n : Nat} (h : data.Has offset (littleEndian 2 n)) (hn : n < 0x10000) :
    data.u2 offset = n := by
  obtain ⟨hlow, h⟩ := h.littleEndian_succ
  obtain ⟨hhigh, -⟩ := h.littleEndian_succ
  unfold u2
  rw [hlow, hhigh]
  omega

/-- A number that stands somewhere is read as a word, if it fits. -/
theorem Has.u4_eq {n : Nat} (h : data.Has offset (littleEndian 4 n)) (hn : n < 0x100000000) :
    data.u4 offset = n := by
  obtain ⟨h₀, h⟩ := h.littleEndian_succ
  obtain ⟨h₁, h⟩ := h.littleEndian_succ
  obtain ⟨h₂, h⟩ := h.littleEndian_succ
  obtain ⟨h₃, -⟩ := h.littleEndian_succ
  unfold u4 u2
  rw [h₀, h₁, h₂, h₃]
  omega

/-! ## Rows of bytes -/

/-- The range over which bytes stand consists of them. -/
theorem Has.range_eq {bytes : List UInt8} (h : data.Has offset bytes) :
    data.range offset (offset + bytes.length) = bytes := by
  apply List.ext_getElem?
  intro i
  unfold range
  rw [Array.getElem?_toList, Array.getElem?_extract]
  cases hb : bytes[i]? with
  | some b =>
    obtain ⟨hi, -⟩ := List.getElem?_eq_some_iff.mp hb
    obtain ⟨hsize, -⟩ := Array.getElem?_eq_some_iff.mp (h i b hb)
    rw [if_pos (by omega), h i b hb]
  | none =>
    have hi := List.getElem?_eq_none_iff.mp hb
    rw [if_neg (by omega)]

/-- The first zero byte after bytes that are not zero is the one that stands after them. -/
theorem Has.findZero?_eq {bytes : List UInt8} (h : data.Has offset (bytes ++ [0]))
    (hbytes : ∀ b ∈ bytes, b ≠ 0) : data.findZero? offset = some (offset + bytes.length) := by
  induction bytes generalizing offset with
  | nil =>
    obtain ⟨hlt, hzero⟩ := Array.getElem?_eq_some_iff.mp h.cons.1
    rw [findZero?, dif_pos hlt, if_pos hzero]
    rfl
  | cons b rest ih =>
    obtain ⟨hhead, hrest⟩ := h.cons
    obtain ⟨hlt, hb⟩ := Array.getElem?_eq_some_iff.mp hhead
    have hne : data[offset] ≠ 0 := hb ▸ hbytes b List.mem_cons_self
    rw [findZero?, dif_pos hlt, if_neg hne,
      ih hrest fun x hx => hbytes x (List.mem_cons_of_mem b hx), List.length_cons]
    congr 1
    omega

end Bytes

end DexListing
