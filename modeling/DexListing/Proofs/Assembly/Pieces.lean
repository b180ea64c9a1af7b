import DexListing.Assembly.Piece
import DexListing.Proofs.Dalvik.StringData

/-!
# Pieces that stand in a byte string

Where the pieces of a container stand in its bytes (`Bytes.HasPieces`), what was put into each of
them is read back: one lemma for each kind of piece, which also tells where the next piece stands.
-/

set_option autoImplicit false

namespace DexListing

open Assembly

namespace Assembly.Piece

/-- The sizes of pieces add up. -/
theorem totalSize_append (ps qs : List Piece) :
    totalSize (ps ++ qs) = totalSize ps + totalSize qs := by
  simp [totalSize]

/-- The size of the first piece is added to that of the others. -/
theorem totalSize_cons (p : Piece) (ps : List Piece) :
    totalSize (p :: ps) = p.size + totalSize ps := by
  simp [totalSize]

/-- A half word has bytes if it is in range, the lowest first. -/
theorem bytes?_short {n : Nat} {bytes : List UInt8} (h : (short n).bytes? = some bytes) :
    n < 0x10000 ∧ bytes = Bytes.littleEndian 2 n := by
  rw [bytes?] at h
  split at h
  · next hn => exact ⟨hn, (Option.some.inj h).symm⟩
  · exact nomatch h

/-- A word has bytes if it is in range, the lowest first. -/
theorem bytes?_word {n : Nat} {bytes : List UInt8} (h : (word n).bytes? = some bytes) :
    n < 0x100000000 ∧ bytes = Bytes.littleEndian 4 n := by
  rw [bytes?] at h
  split at h
  · next hn => exact ⟨hn, (Option.some.inj h).symm⟩
  · exact nomatch h

/-- The bytes of a piece are as many as its size says. -/
theorem length_of_bytes? {p : Piece} {bytes : List UInt8} (h : p.bytes? = some bytes) :
    bytes.length = p.size := by
  cases p with
  | byte b =>
    obtain rfl := Option.some.inj h
    rfl
  | short n =>
    obtain ⟨-, rfl⟩ := bytes?_short h
    exact Bytes.length_littleEndian 2 n
  | word n =>
    obtain ⟨-, rfl⟩ := bytes?_word h
    exact Bytes.length_littleEndian 4 n
  | number n =>
    obtain rfl := Option.some.inj h
    rfl
  | text s =>
    obtain rfl := Option.some.inj h
    rfl

/-- Pieces have bytes if the first one and the others have. -/
theorem allBytes?_cons {p : Piece} {rest : List Piece} {bytes : List UInt8}
    (h : allBytes? (p :: rest) = some bytes) :
    ∃ first more, p.bytes? = some first ∧ allBytes? rest = some more ∧ bytes = first ++ more := by
  rw [allBytes?] at h
  cases hfirst : p.bytes? with
  | none =>
    rw [hfirst] at h
    exact nomatch h
  | some first =>
    cases hmore : allBytes? rest with
    | none =>
      rw [hfirst, hmore] at h
      exact nomatch h
    | some more =>
      rw [hfirst, hmore] at h
      exact ⟨first, more, rfl, rfl, (Option.some.inj h).symm⟩

/-- Pieces have as many bytes as their sizes say. -/
theorem length_of_allBytes? {ps : List Piece} {bytes : List UInt8}
    (h : allBytes? ps = some bytes) : bytes.length = totalSize ps := by
  induction ps generalizing bytes with
  | nil =>
    obtain rfl := Option.some.inj h
    rfl
  | cons p rest ih =>
    obtain ⟨first, more, hfirst, hmore, rfl⟩ := allBytes?_cons h
    rw [List.length_append, length_of_bytes? hfirst, ih hmore, totalSize_cons]

end Assembly.Piece

/-- These pieces stand at an offset of a byte string. -/
def Bytes.HasPieces (data : Bytes) (offset : Nat) (pieces : List Piece) : Prop :=
  ∃ bytes, Piece.allBytes? pieces = some bytes ∧ data.Has offset bytes

namespace Bytes.HasPieces

variable {data : Bytes} {offset : Nat} {rest : List Piece}

/-- The first piece, and where the others stand. -/
theorem cons {p : Piece} (h : data.HasPieces offset (p :: rest)) :
    ∃ bytes, p.bytes? = some bytes ∧ data.Has offset bytes ∧
      data.HasPieces (offset + p.size) rest := by
  obtain ⟨bytes, hbytes, hhas⟩ := h
  obtain ⟨first, more, hfirst, hmore, rfl⟩ := Piece.allBytes?_cons hbytes
  obtain ⟨hhead, htail⟩ := hhas.append
  rw [Piece.length_of_bytes? hfirst] at htail
  exact ⟨first, hfirst, hhead, more, hmore, htail⟩

/-- Some of the pieces, and where the others stand. -/
theorem append {ps qs : List Piece} (h : data.HasPieces offset (ps ++ qs)) :
    data.HasPieces offset ps ∧ data.HasPieces (offset + Piece.totalSize ps) qs := by
  induction ps generalizing offset with
  | nil => exact ⟨⟨[], rfl, fun i b hb => nomatch hb⟩, h⟩
  | cons p ps ih =>
    obtain ⟨bytes, hbytes, hhas⟩ := h
    obtain ⟨first, more, hfirst, hmore, rfl⟩ := Piece.allBytes?_cons hbytes
    obtain ⟨hhead, htail⟩ := hhas.append
    obtain ⟨⟨middle, hmiddle, hfront⟩, hback⟩ := ih ⟨more, hmore, htail⟩
    rw [Piece.length_of_bytes? hfirst] at hback
    rw [Piece.totalSize_cons, ← Nat.add_assoc]
    refine ⟨⟨first ++ middle, ?_, ?_⟩, hback⟩
    · rw [Piece.allBytes?, hfirst, hmiddle]
      rfl
    · intro i b hb
      by_cases hi : i < first.length
      · rw [List.getElem?_append_left hi] at hb
        exact hhead i b hb
      · rw [List.getElem?_append_right (Nat.le_of_not_lt hi)] at hb
        have hget := hfront _ b hb
        rwa [show offset + first.length + (i - first.length) = offset + i by omega] at hget

/-! ## Reading the first piece -/

/-- A byte of a row of pieces is at its offset, and the others follow. -/
theorem byte {b : UInt8} (h : data.HasPieces offset (.byte b :: rest)) :
    data[offset]? = some b ∧ data.HasPieces (offset + 1) rest := by
  obtain ⟨bytes, hbytes, hhas, hrest⟩ := h.cons
  obtain rfl := Option.some.inj hbytes
  exact ⟨hhas.cons.1, hrest⟩

/-- A half word of a row of pieces can be read at its offset, and the others follow. -/
theorem short {n : Nat} (h : data.HasPieces offset (.short n :: rest)) :
    data.u2 offset = n ∧ offset + 2 ≤ data.size ∧ data.HasPieces (offset + 2) rest := by
  obtain ⟨bytes, hbytes, hhas, hrest⟩ := h.cons
  obtain ⟨hn, rfl⟩ := Piece.bytes?_short hbytes
  have hsize : offset + (littleEndian 2 n).length ≤ data.size :=
    hhas.le_size (List.cons_ne_nil _ _)
  rw [length_littleEndian] at hsize
  exact ⟨hhas.u2_eq hn, hsize, hrest⟩

/-- A word of a row of pieces can be read at its offset, and the others follow. -/
theorem word {n : Nat} (h : data.HasPieces offset (.word n :: rest)) :
    data.u4 offset = n ∧ offset + 4 ≤ data.size ∧ data.HasPieces (offset + 4) rest := by
  obtain ⟨bytes, hbytes, hhas, hrest⟩ := h.cons
  obtain ⟨hn, rfl⟩ := Piece.bytes?_word hbytes
  have hsize : offset + (littleEndian 4 n).length ≤ data.size :=
    hhas.le_size (List.cons_ne_nil _ _)
  rw [length_littleEndian] at hsize
  exact ⟨hhas.u4_eq hn, hsize, hrest⟩

/-- A word that stands somewhere fits its size. -/
theorem word_lt {n : Nat} (h : data.HasPieces offset (.word n :: rest)) : n < 0x100000000 := by
  obtain ⟨bytes, hbytes, -, -⟩ := h.cons
  exact (Piece.bytes?_word hbytes).1

/-- A number of variable length can be read at its offset, and the others follow where it ends. -/
theorem number {n : Nat} (hn : n < 0x40000000000)
    (h : data.HasPieces offset (.number n :: rest)) :
    ∃ next, Leb128.read data offset = .ok (n, next) ∧ data.HasPieces next rest := by
  obtain ⟨bytes, hbytes, hhas, hrest⟩ := h.cons
  obtain rfl := Option.some.inj hbytes
  exact ⟨_, Leb128.read_of_has hn hhas, hrest⟩

/-- A text of a row of pieces has its bytes at its offset, and the others follow. -/
theorem text {s : String} (h : data.HasPieces offset (.text s :: rest)) :
    data.Has offset (Text.utf8OfText s) ∧
      data.HasPieces (offset + (Text.utf8OfText s).length) rest := by
  obtain ⟨bytes, hbytes, hhas, hrest⟩ := h.cons
  obtain rfl := Option.some.inj hbytes
  exact ⟨hhas, hrest⟩

/-- The entry with an index in a table whose entries all have one size. -/
theorem entry {α : Type} {xs : List α} {pieces : α → List Piece} (size : Nat)
    (h : data.HasPieces offset (xs.flatMap pieces)) (hsize : ∀ x, Piece.totalSize (pieces x) = size)
    {i : Nat} {x : α} (hx : xs[i]? = some x) :
    data.HasPieces (offset + i * size) (pieces x) := by
  induction xs generalizing offset i with
  | nil => exact nomatch hx
  | cons y ys ih =>
    obtain ⟨hfirst, hothers⟩ := h.append
    cases i with
    | zero =>
      obtain rfl := Option.some.inj hx
      rwa [Nat.zero_mul]
    | succ i =>
      have hentry := ih hothers hx
      rwa [hsize, Nat.add_assoc, Nat.add_comm size, ← Nat.succ_mul] at hentry

end Bytes.HasPieces

/-! ## Reading from a container -/

namespace Layout

variable {l : Layout} {offset : Nat} {rest : List Piece}

/-- The reader finds a word that has been put down. -/
theorem u4_of_word {n : Nat} (h : l.data.HasPieces offset (.word n :: rest)) :
    l.u4 offset = .ok n := by
  obtain ⟨bytes, hbytes, hhas, -⟩ := h.cons
  obtain ⟨hn, rfl⟩ := Piece.bytes?_word hbytes
  exact u4_of_has hn hhas

/-- The reader finds a half word that has been put down. -/
theorem u2_of_short {n : Nat} (h : l.data.HasPieces offset (.short n :: rest)) :
    l.u2 offset = .ok n := by
  obtain ⟨hread, hsize, -⟩ := h.short
  unfold u2
  rw [require_of_le hsize, hread]
  rfl

/-- The reader finds a number that has been put down, and goes on after it. -/
theorem leb128_of_number {n : Nat} (hn : n < 0x40000000000)
    (h : l.data.HasPieces offset (.number n :: rest)) :
    ∃ next, l.leb128 offset = .ok (n, next) ∧ l.data.HasPieces next rest := by
  obtain ⟨next, hread, hrest⟩ := h.number hn
  refine ⟨next, ?_, hrest⟩
  unfold leb128
  rw [hread]

/-- A string of the table is read by way of its entry. -/
theorem string_of_lt {index : Nat} (h : index < l.header.strings.count) :
    l.string index = l.u4 (l.header.strings.offset + index * 4) >>= l.stringAt := by
  unfold string
  dsimp only
  rw [if_neg (Nat.not_le_of_lt h)]

/-- The place of a descriptor is read from the entry of its type. -/
theorem descriptorIndex_of_lt {index : Nat} (h : index < l.header.types.count) :
    l.descriptorIndex index = l.u4 (l.header.types.offset + index * 4) := by
  unfold descriptorIndex
  dsimp only
  rw [if_neg (Nat.not_le_of_lt h)]

/-- The data of a string without the zero character gives the string back. -/
theorem stringAt_of_pieces {s : String} (hnul : '\x00' ∉ s.toList)
    (hsize : l.data.size < 0x40000000000)
    (h : l.data.HasPieces offset [.number s.length, .text s, .byte 0]) :
    l.stringAt offset = .ok s := by
  -- The length stands in front of at least as many bytes, so it is small.
  have hlength : s.length < 0x40000000000 := by
    obtain ⟨_, -, -, hrest⟩ := h.cons
    obtain ⟨htext, hend⟩ := hrest.text
    obtain ⟨hlt, -⟩ := Array.getElem?_eq_some_iff.mp hend.byte.1
    have hle := Text.length_le_length_utf8OfText s
    omega
  obtain ⟨start, hread, hrest⟩ := leb128_of_number hlength h
  have hterminated : l.data.Has start (Text.utf8OfText s ++ [0]) := by
    obtain ⟨bytes, hall, hhas⟩ := hrest
    obtain ⟨first, more, hfirst, hmore, rfl⟩ := Piece.allBytes?_cons hall
    obtain rfl := Option.some.inj hfirst
    obtain rfl := Option.some.inj hmore
    exact hhas
  rw [← Text.escapedUtf8_eq hnul] at hterminated
  rw [stringAt_of_readsAs (readsAs_escapedUtf8 s) hread hterminated, String.ofList_toList]

end Layout

end DexListing
