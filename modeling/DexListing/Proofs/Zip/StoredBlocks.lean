import DexListing.Proofs.Bytes.Standing
import DexListing.Proofs.Zip.Inflation

/-!
# Stored blocks

A stored block is a header in a byte of its own, the length of a piece, once as it is and once
complemented, and the piece. Pieces in stored blocks are deflated bytes that hold the pieces one
after the other (`deflates_storedBlocks`), so every content has a deflated form
(`exists_deflates`).
-/

set_option autoImplicit false

namespace DexListing.Zip

/-- A piece of less than `0x10000` bytes in a stored block. -/
def storedBlock (isLast : Bool) (piece : List UInt8) : List UInt8 :=
  (if isLast then 1 else 0) :: (Bytes.littleEndian 2 piece.length ++
    (Bytes.littleEndian 2 (0xFFFF - piece.length) ++ piece))

/-- Pieces in a stored block each, and an empty block as the last one. -/
def storedBlocks : List (List UInt8) → List UInt8
  | [] => storedBlock true []
  | piece :: rest => storedBlock false piece ++ storedBlocks rest

variable {data output : Bytes} {offset : Nat} {isLast : Bool} {piece : List UInt8}

/-- A bit of a byte that is there. -/
theorem bit_of_getElem? {b : UInt8} (hb : data[offset]? = some b) {i : Nat} (hi : i < 8) :
    bit data (8 * offset + i) = .ok (b.toNat >>> i % 2, 8 * offset + i + 1) := by
  have hbyte : (8 * offset + i) / 8 = offset := by omega
  have hplace : (8 * offset + i) % 8 = i := by omega
  unfold bit
  rw [hbyte, hplace, hb]

/-- A stored block has five bytes before its content. -/
theorem length_storedBlock (isLast : Bool) (piece : List UInt8) :
    (storedBlock isLast piece).length = piece.length + 5 := by
  simp only [storedBlock, List.length_cons, List.length_append, Bytes.length_littleEndian]
  omega

/-- The header of a stored block is read back. -/
theorem readHeader_storedBlock (hpiece : piece.length < 0x10000)
    (h : data.Has offset (storedBlock isLast piece)) :
    readHeader data (8 * offset) = .ok (isLast, .stored piece.length, 8 * (offset + 5)) := by
  obtain ⟨hfirst, hlengths⟩ := h.cons
  have hsize := h.le_size (by unfold storedBlock; exact List.cons_ne_nil _ _)
  rw [length_storedBlock] at hsize
  obtain ⟨hlength, hrest⟩ := hlengths.append
  rw [Bytes.length_littleEndian] at hrest
  have hbits : bits data 3 (8 * offset) = .ok (if isLast then 1 else 0, 8 * offset + 3) := by
    have hbit (i : Nat) (hi : i < 8) := bit_of_getElem? hfirst hi
    unfold bits bits bits bits
    rw [← Nat.add_zero (8 * offset), hbit 0 (by decide)]
    dsimp only [bind, Except.bind]
    rw [hbit 1 (by decide)]
    dsimp only
    rw [hbit 2 (by decide)]
    cases isLast <;> rfl
  have hstart : (8 * offset + 3 + 7) / 8 = offset + 1 := by omega
  have hstored : readStoredLength data (8 * offset + 3) = .ok (piece.length, 8 * (offset + 5)) := by
    unfold readStoredLength
    dsimp only
    rw [hstart, if_neg (by omega), hlength.u2_eq hpiece, hrest.append.1.u2_eq (by omega),
      if_neg (by omega)]
  unfold readHeader
  rw [hbits]
  dsimp only [bind, Except.bind]
  cases isLast <;> simp only [hstored] <;> rfl

namespace Inflater

/-- A stored block puts out its piece. -/
theorem Yields.of_storedBlock {content : Bytes} (hpiece : piece.length < 0x10000)
    (h : data.Has offset (storedBlock isLast piece))
    (hrest : Yields data content
      ⟨8 * (offset + (piece.length + 5)), isLast, .header, output ++ piece.toArray⟩) :
    Yields data content ⟨8 * offset, false, .header, output⟩ := by
  have hsize := h.le_size (by unfold storedBlock; exact List.cons_ne_nil _ _)
  rw [length_storedBlock] at hsize
  refine .step (step_of_moves (.header (readHeader_storedBlock hpiece h))) ?_
  by_cases hnone : piece = []
  · subst hnone
    exact .step (step_of_moves .endStored) hrest
  · have hpos := List.length_pos_iff.mpr hnone
    have hstart : 8 * (offset + 5) / 8 = offset + 5 := by omega
    have hcount : min (allowed none output.size piece.length)
        (data.size - 8 * (offset + 5) / 8) = piece.length := by
      change min piece.length _ = _
      omega
    have hcopied : data.extract (offset + 5) (offset + 5 + piece.length) = piece.toArray := by
      have hrange := (h.cons.2.append.2.append.2).range_eq
      rw [Bytes.length_littleEndian, Bytes.length_littleEndian] at hrange
      exact congrArg List.toArray hrange
    have hnext : offset + 5 + piece.length = offset + (piece.length + 5) := by omega
    refine .step (step_of_moves (.store hcount hpos)) ?_
    rw [hstart, hcopied, Nat.sub_self, hnext]
    exact .step (step_of_moves .endStored) hrest

/-- Stored blocks yield their contents one after the other. -/
theorem yields_storedBlocks {pieces : List (List UInt8)}
    (hpieces : ∀ piece ∈ pieces, piece.length < 0x10000)
    (h : data.Has offset (storedBlocks pieces)) :
    Yields data (output ++ pieces.flatten.toArray) ⟨8 * offset, false, .header, output⟩ := by
  induction pieces generalizing offset output with
  | nil =>
    refine .of_storedBlock (by decide) h (.step rfl (.done rfl ?_))
    rfl
  | cons piece rest ih =>
    obtain ⟨hblock, hblocks⟩ := h.append
    rw [length_storedBlock] at hblocks
    refine .of_storedBlock (hpieces piece List.mem_cons_self) hblock ?_
    have hall : output ++ (piece :: rest).flatten.toArray =
        output ++ piece.toArray ++ rest.flatten.toArray := by
      rw [List.flatten_cons, Array.append_assoc, List.append_toArray piece]
    rw [hall]
    exact ih (fun other hother => hpieces other (List.mem_cons_of_mem piece hother)) hblocks

end Inflater

/-- Pieces in stored blocks are held one after the other. -/
theorem deflates_storedBlocks {pieces : List (List UInt8)}
    (hpieces : ∀ piece ∈ pieces, piece.length < 0x10000) :
    Deflates (storedBlocks pieces).toArray pieces.flatten.toArray := by
  have hstands : Bytes.Has (storedBlocks pieces).toArray 0 (storedBlocks pieces) := by
    intro i b hb
    rw [Nat.zero_add, List.getElem?_toArray, hb]
  have hyields := @Inflater.yields_storedBlocks _ #[] 0 pieces hpieces hstands
  rwa [Array.empty_append] at hyields

/-- Every content has a deflated form. -/
theorem exists_deflates (content : Bytes) : ∃ data, Deflates data content := by
  have hbytes : ∀ piece ∈ content.toList.map fun b => [b], piece.length < 0x10000 := by
    intro piece hpiece
    obtain ⟨b, -, rfl⟩ := List.mem_map.mp hpiece
    rw [List.length_singleton]
    decide
  have hall : (content.toList.map fun b => [b]).flatten.toArray = content := by
    rw [← List.flatMap_def, List.flatMap_singleton']
  exact ⟨_, hall ▸ deflates_storedBlocks hbytes⟩

end DexListing.Zip
