import DexListing.Proofs.Bytes.Extension
import DexListing.Zip.Inflate

/-!
# Reading from the bytes that are there

An inflater that has been given only the first of its bytes reads from these. Such a read either
runs out of bits, or it gives what the same read from all bytes gives, and then it does not go back
(`Foretells`). That holds of a bit, of a number of bits, of a code word, and so on up to the header
of a block (`foretells_readHeader`) and the item of a coded block (`foretells_readItem`).
-/

set_option autoImplicit false

namespace DexListing.Zip

/-- A read at a position, from a part of the bytes and from the whole of them: the one from the part
runs out of bits, or both give the same. What is read says which position comes after it; that one
is not before the first. -/
def Foretells {α : Type} (after : α → Nat) (position : Nat) (part whole : Except Stop α) : Prop :=
  part = .error .outOfBits ∨ part = whole ∧ ∀ value, part = .ok value → position ≤ after value

namespace Foretells

variable {α β : Type} {after : α → Nat} {afterNext : β → Nat} {position : Nat}

/-- A result that is reached in time foretells itself. -/
theorem ok (value : α) (h : position ≤ after value) :
    Foretells after position (.ok value) (.ok value) := by
  refine Or.inr ⟨rfl, ?_⟩
  intro value' heq
  rw [← Except.ok.inj heq]
  exact h

/-- A stop foretells itself. -/
theorem error (stop : Stop) : Foretells after position (.error stop) (.error stop) :=
  Or.inr ⟨rfl, fun _ => nofun⟩

/-- What is foretold from a position on is foretold from an earlier one on. -/
theorem mono {earlier : Nat} {part whole : Except Stop α} (hle : earlier ≤ position)
    (h : Foretells after position part whole) : Foretells after earlier part whole := by
  rcases h with hshort | ⟨hsame, hafter⟩
  · exact Or.inl hshort
  · exact Or.inr ⟨hsame, fun value heq => Nat.le_trans hle (hafter value heq)⟩

/-- One read after the other. -/
theorem bind {part whole : Except Stop α} {f g : α → Except Stop β}
    (h : Foretells after position part whole)
    (hthen : ∀ value, Foretells afterNext (after value) (f value) (g value)) :
    Foretells afterNext position (part >>= f) (whole >>= g) := by
  rcases h with rfl | ⟨rfl, hafter⟩
  · exact Or.inl rfl
  · cases part with
    | error stop => exact .error stop
    | ok value => exact (hthen value).mono (hafter value rfl)

/-- A read after a computation that reads nothing. -/
theorem bind_same {x : Except Stop α} {f g : α → Except Stop β}
    (hthen : ∀ value, Foretells afterNext position (f value) (g value)) :
    Foretells afterNext position (x >>= f) (x >>= g) := by
  cases x with
  | error stop => exact .error stop
  | ok value => exact hthen value

/-- Of two alternatives the one that is taken. -/
theorem ite {c : Prop} [Decidable c] {part whole other otherWhole : Except Stop α}
    (h : Foretells after position part whole)
    (hother : Foretells after position other otherWhole) :
    Foretells after position (if c then part else other) (if c then whole else otherWhole) := by
  split
  · exact h
  · exact hother

/-- A read that succeeds with all bytes and fails with a part of them has run out of bits. -/
theorem runs_out (read : Bytes → Except Stop α) {part data : Bytes} {value : α} {stop : Stop}
    (hstart : data.StartsWith part) (h : Foretells after position (read part) (read data))
    (hwhole : read data = .ok value) (hpart : read part = .error stop) :
    stop = .outOfBits ∧ part.size < data.size := by
  constructor
  · rcases h with hshort | ⟨hsame, -⟩
    · exact Except.error.inj (hpart.symm.trans hshort)
    · exact nomatch hpart.symm.trans (hsame.trans hwhole)
  · refine Nat.lt_of_not_le fun hsize => ?_
    rw [hstart.eq_of_size_le hsize, hwhole] at hpart
    exact nomatch hpart

end Foretells

variable {data part : Bytes}

/-! ## Bits and code words -/

/-- A bit is one position long. -/
theorem foretells_bit (h : data.StartsWith part) (position : Nat) :
    Foretells Prod.snd (position + 1) (bit part position) (bit data position) := by
  unfold bit
  cases hb : part[position / 8]? with
  | none => exact Or.inl rfl
  | some b =>
    rw [h _ b hb]
    exact .ok _ (Nat.le_refl _)

/-- Bits that are not none end after the position. -/
theorem foretells_bits_succ (h : data.StartsWith part) (count position : Nat) :
    Foretells Prod.snd (position + 1) (bits part (count + 1) position)
      (bits data (count + 1) position) := by
  induction count generalizing position with
  | zero => exact (foretells_bit h position).bind fun read => .ok _ (Nat.le_refl read.2)
  | succ count ih =>
    unfold bits
    refine (foretells_bit h position).bind fun low => ?_
    exact ((ih low.2).mono (Nat.le_succ _)).bind fun high => .ok _ (Nat.le_refl high.2)

/-- Bits are read alike from part of the data and from all of them. -/
theorem foretells_bits (h : data.StartsWith part) (count position : Nat) :
    Foretells Prod.snd position (bits part count position) (bits data count position) := by
  cases count with
  | zero => exact .ok (0, position) (Nat.le_refl position)
  | succ count => exact (foretells_bits_succ h count position).mono (Nat.le_succ position)

/-- A code word. -/
theorem foretells_decodeFrom (h : data.StartsWith part) (symbols : Array Nat) (counts : List Nat)
    (code first index position : Nat) :
    Foretells Prod.snd position
      (PrefixCode.decodeFrom symbols part counts code first index position)
      (PrefixCode.decodeFrom symbols data counts code first index position) := by
  induction counts generalizing code first index position with
  | nil => exact .ok (none, position) (Nat.le_refl position)
  | cons count counts ih =>
    unfold PrefixCode.decodeFrom
    refine ((foretells_bit h position).mono (Nat.le_succ position)).bind fun read => ?_
    exact .ite (.ok _ (Nat.le_refl read.2)) (ih _ _ _ read.2)

/-- So is a symbol of a code. -/
theorem foretells_decode (h : data.StartsWith part) (code : PrefixCode) (position : Nat) :
    Foretells Prod.snd position (code.decode part position) (code.decode data position) :=
  foretells_decodeFrom h code.symbols code.counts 0 0 0 position

/-- A code word takes a bit if there are code words at all. -/
theorem foretells_decode_succ (h : data.StartsWith part) {code : PrefixCode}
    (hcounts : code.counts ≠ []) (position : Nat) :
    Foretells Prod.snd (position + 1) (code.decode part position) (code.decode data position) := by
  unfold PrefixCode.decode
  cases hlist : code.counts with
  | nil => exact absurd hlist hcounts
  | cons count counts =>
    unfold PrefixCode.decodeFrom
    refine (foretells_bit h position).bind fun read => ?_
    exact .ite (.ok _ (Nat.le_refl read.2)) (foretells_decodeFrom h _ counts _ _ _ read.2)

/-- So is a length or a distance with its extra bits. -/
theorem foretells_extended (h : data.StartsWith part) (rule : Nat × Nat) (position : Nat) :
    Foretells Prod.snd position (extended part rule position) (extended data rule position) :=
  (foretells_bits h rule.2 position).bind fun extra => .ok _ (Nat.le_refl extra.2)

/-! ## The codes of a block -/

/-- So are the lengths that are written in three bits each. -/
theorem foretells_readTriples (h : data.StartsWith part) (count position : Nat) :
    Foretells Prod.snd position (readTriples part count position)
      (readTriples data count position) := by
  induction count generalizing position with
  | zero => exact .ok ([], position) (Nat.le_refl position)
  | succ count ih =>
    unfold readTriples
    refine (foretells_bits h 3 position).bind fun value => ?_
    exact (ih value.2).bind fun rest => .ok _ (Nat.le_refl rest.2)

/-- So are the lengths of the code words of a block. -/
theorem foretells_readLengths (h : data.StartsWith part) (code : PrefixCode)
    (wanted limit position : Nat) (lengths : List Nat) :
    Foretells Prod.snd position (readLengths part code wanted limit position lengths)
      (readLengths data code wanted limit position lengths) := by
  induction limit generalizing position lengths with
  | zero => exact .ok _ (Nat.le_refl position)
  | succ limit ih =>
    unfold readLengths
    refine .ite (.ok _ (Nat.le_refl position)) ?_
    refine (foretells_decode h code position).bind fun (symbol, next) => ?_
    dsimp only
    generalize symbol.getD 0 = length
    split
    · refine (foretells_bits h 2 next).bind fun (extra, last) => ?_
      cases lengths with
      | nil => exact .error _
      | cons length rest => exact .ite (.error _) (ih last _)
    · exact (foretells_bits h 3 next).bind fun (extra, last) => .ite (.error _) (ih last _)
    · exact (foretells_bits h 7 next).bind fun (extra, last) => .ite (.error _) (ih last _)
    · exact ih next _

/-- So are the codes of a block. -/
theorem foretells_readCodes (h : data.StartsWith part) (position : Nat) :
    Foretells Prod.snd position (readCodes part position) (readCodes data position) := by
  unfold readCodes
  refine (foretells_bits h 14 position).bind fun (counts, next) => ?_
  refine .ite (.error _) ?_
  refine (foretells_readTriples h _ next).bind fun (triples, next) => ?_
  refine .bind_same fun code => ?_
  refine (foretells_readLengths h code _ _ next []).bind fun (lengths, last) => ?_
  refine .ite (.error _) ?_
  refine .ite (.error _) ?_
  exact .ite (.error _) (.ok _ (Nat.le_refl last))

/-! ## Headers and items -/

/-- So is the length of a stored block. -/
theorem foretells_readStoredLength (h : data.StartsWith part) (position : Nat) :
    Foretells Prod.snd position (readStoredLength part position)
      (readStoredLength data position) := by
  have hsize := h.size_le
  unfold readStoredLength
  dsimp only
  by_cases hshort : (position + 7) / 8 + 4 > part.size
  · rw [if_pos hshort]
    exact Or.inl rfl
  · rw [if_neg hshort, if_neg (show ¬(position + 7) / 8 + 4 > data.size by omega),
      h.u2_eq (by omega), h.u2_eq (by omega)]
    exact .ite (.error _) (.ok _ (show position ≤ 8 * ((position + 7) / 8 + 4) by omega))

/-- The header of a block takes a bit. -/
theorem foretells_readHeader (h : data.StartsWith part) (position : Nat) :
    Foretells (fun read => read.2.2) (position + 1) (readHeader part position)
      (readHeader data position) := by
  unfold readHeader
  refine (foretells_bits_succ h 2 position).bind fun (header, next) => ?_
  dsimp only
  generalize header / 2 = kind
  split
  · exact (foretells_readStoredLength h next).bind fun length => .ok _ (Nat.le_refl length.2)
  · exact .ok _ (Nat.le_refl next)
  · exact (foretells_readCodes h next).bind fun codes => .ok _ (Nat.le_refl codes.2)
  · exact .error _

/-- So is the distance of a copy. -/
theorem foretells_readDistance (h : data.StartsWith part) (code : PrefixCode) (position : Nat) :
    Foretells Prod.snd position (readDistance part code position)
      (readDistance data code position) := by
  unfold readDistance
  refine (foretells_decode h code position).bind fun (symbol, next) => ?_
  dsimp only
  cases symbol.bind (distanceRules[·]?) with
  | none => exact .error _
  | some rule => exact foretells_extended h rule next

/-- The item of a coded block takes a bit: without code words there is none. -/
theorem foretells_readItem (h : data.StartsWith part) (codes : BlockCodes) (position : Nat) :
    Foretells Prod.snd (position + 1) (readItem part codes position)
      (readItem data codes position) := by
  unfold readItem
  by_cases hnone : codes.literals.counts = []
  · unfold PrefixCode.decode
    rw [hnone]
    exact .error _
  · refine (foretells_decode_succ h hnone position).bind fun (symbol, next) => ?_
    cases symbol with
    | none => exact .error _
    | some symbol =>
      refine .ite (.ok _ (Nat.le_refl next)) (.ite (.ok _ (Nat.le_refl next)) ?_)
      cases lengthRules[symbol - 257]? with
      | none => exact .error _
      | some rule =>
        refine (foretells_extended h rule next).bind fun (length, next) => ?_
        exact (foretells_readDistance h codes.distances next).bind fun distance =>
          .ok _ (Nat.le_refl distance.2)

/-! ## The end of the bits -/

/-- At the end of the data the bits have run out. -/
theorem bit_of_le {position : Nat} (hend : 8 * data.size ≤ position) :
    bit data position = .error .outOfBits := by
  unfold bit
  rw [Array.getElem?_eq_none (by omega)]

/-- A header is read from bits that are there, and takes some of them. -/
theorem lt_of_readHeader {position next : Nat} {isLast : Bool} {phase : Phase}
    (hread : readHeader data position = .ok (isLast, phase, next)) :
    position < next ∧ position < 8 * data.size := by
  constructor
  · rcases foretells_readHeader (.refl data) position with hshort | ⟨-, hafter⟩
    · exact nomatch hread.symm.trans hshort
    · exact hafter _ hread
  · refine Nat.lt_of_not_le fun hend => ?_
    unfold readHeader bits at hread
    rw [bit_of_le hend] at hread
    exact nomatch hread

/-- An item is read from bits that are there, and takes some of them. -/
theorem lt_of_readItem {codes : BlockCodes} {position next : Nat} {phase : Phase}
    (hread : readItem data codes position = .ok (phase, next)) :
    position < next ∧ position < 8 * data.size := by
  constructor
  · rcases foretells_readItem (.refl data) codes position with hshort | ⟨-, hafter⟩
    · exact nomatch hread.symm.trans hshort
    · exact hafter _ hread
  · refine Nat.lt_of_not_le fun hend => ?_
    unfold readItem PrefixCode.decode at hread
    cases hcounts : codes.literals.counts with
    | nil =>
      rw [hcounts] at hread
      exact nomatch hread
    | cons count counts =>
      rw [hcounts] at hread
      unfold PrefixCode.decodeFrom at hread
      rw [bit_of_le hend] at hread
      exact nomatch hread

end DexListing.Zip
