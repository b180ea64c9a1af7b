import DexListing.Zip.Bzip2

/-!
# The limits of a bzip2 decoder

Three readers of bzip2 streams go on until they are told to stop: those of a length, of a sorted
column and of the blocks. They have a limit of rounds, so that they end whatever the data are. Every
round takes at least a bit, and there are fewer bits than rounds. So it is not a limit that ends a
reader: with any greater one it comes to the same (`readLength_add`, `readColumn_add`, `decode_eq`).
-/

set_option autoImplicit false

namespace DexListing.Zip.Bzip2

variable {α β : Type} {data : Bytes} {position : Nat}

/-! ## Bits that are taken -/

/-- A reader at a position within the data. If it succeeds, it has gone on by at least `least` bits,
and what it has read says where within the data it has come to. -/
def Takes (data : Bytes) (least position : Nat) (after : α → Nat) (x : Except Halt α) : Prop :=
  position ≤ 8 * data.size →
    ∀ value, x = .ok value → position + least ≤ after value ∧ after value ≤ 8 * data.size

namespace Takes

variable {least more : Nat} {after : α → Nat} {afterNext : β → Nat} {x : Except Halt α}
  {f : α → Except Halt β}

/-- What is there without reading takes nothing. -/
theorem ok {value : α} (h : after value = position) : Takes data 0 position after (.ok value) := by
  intro hposition found heq
  rw [← Except.ok.inj heq, h]
  exact ⟨Nat.le_refl _, hposition⟩

/-- Nothing is asked of a reader that halts. -/
theorem error (halt : Halt) : Takes data least position after (.error halt : Except Halt α) :=
  fun _ _ heq => by cases heq

/-- A reader that takes some bits takes fewer of them. -/
theorem weaken (h : Takes data least position after x) (hle : more ≤ least) :
    Takes data more position after x := by
  intro hposition value heq
  obtain ⟨hleast, hwithin⟩ := h hposition value heq
  exact ⟨by omega, hwithin⟩

/-- Of two readers one after the other, one may be asked for a part of the bits only. -/
theorem bind {first : Nat} (h : Takes data first position after x)
    (hthen : ∀ value, Takes data more (after value) afterNext (f value))
    (hsum : least ≤ first + more) : Takes data least position afterNext (x >>= f) := by
  intro hposition value heq
  cases x with
  | error halt => cases heq
  | ok taken =>
    obtain ⟨hfirst, hwithin⟩ := h hposition taken rfl
    obtain ⟨hmore, hend⟩ := hthen taken hwithin value heq
    exact ⟨by omega, hend⟩

/-- The first of two readers may take all the bits that are asked for. -/
theorem bind_left (h : Takes data least position after x)
    (hthen : ∀ value, Takes data 0 (after value) afterNext (f value)) :
    Takes data least position afterNext (x >>= f) :=
  h.bind hthen (Nat.le_refl least)

/-- So may the second. -/
theorem bind_right {first : Nat} (h : Takes data first position after x)
    (hthen : ∀ value, Takes data least (after value) afterNext (f value)) :
    Takes data least position afterNext (x >>= f) :=
  h.bind hthen (Nat.le_add_left least first)

/-- What comes after a reader has to be the same only for what it can read. -/
theorem bind_congr {g : α → Except Halt β} (h : Takes data least position after x)
    (hposition : position ≤ 8 * data.size)
    (heq : ∀ value, position + least ≤ after value → after value ≤ 8 * data.size →
      f value = g value) : x >>= f = x >>= g := by
  cases x with
  | error halt => rfl
  | ok value =>
    obtain ⟨hleast, hwithin⟩ := h hposition value rfl
    exact heq value hleast hwithin

/-- Of two alternatives the one that is chosen. -/
theorem ite {c : Prop} [Decidable c] {y : Except Halt α} (hx : Takes data least position after x)
    (hy : Takes data least position after y) :
    Takes data least position after (if c then x else y) := by
  split
  · exact hx
  · exact hy

end Takes

/-- Reading goes on after what has been read. -/
theorem read_bind (x : Except Stop α) (f : α → Except Stop β) :
    read (x >>= f) = read x >>= fun a => read (f a) := by
  cases x with
  | error stop => rfl
  | ok a => rfl

/-- A bit is taken. -/
theorem takes_bit (data : Bytes) (position : Nat) :
    Takes data 1 position Prod.snd (read (bit data position)) := by
  intro _ value heq
  unfold bit at heq
  split at heq
  · exact nomatch heq
  · next b hb =>
    have hwithin : position / 8 < data.size := (Array.getElem?_eq_some_iff.mp hb).1
    rw [← Except.ok.inj heq]
    dsimp only
    omega

/-- A number takes as many bits as it has. -/
theorem takes_numberAfter (count value position : Nat) :
    Takes data count position Prod.snd (numberAfter data count value position) := by
  induction count generalizing value position with
  | zero => exact .ok rfl
  | succ count ih =>
    have hsum : count + 1 ≤ 1 + count := Nat.le_of_eq (Nat.add_comm count 1)
    exact (takes_bit data position).bind (fun (b, next) => ih (2 * value + b) next) hsum

/-- So does a number that starts anew. -/
theorem takes_number (count position : Nat) :
    Takes data count position Prod.snd (number data count position) :=
  takes_numberAfter count 0 position

/-- Bytes that must be there are looked for in the data. -/
theorem takes_expect (bytes : List Nat) (position : Nat) :
    Takes data 0 position id (expect data bytes position) := by
  induction bytes generalizing position with
  | nil => exact .ok rfl
  | cons b rest ih =>
    refine (takes_number 8 position).bind_right fun (found, next) => ?_
    exact .ite (ih next) (.error _)

/-! ## Code words -/

/-- A length takes the bit that ends it. -/
theorem takes_readLength (limit length position : Nat) :
    Takes data 1 position Prod.snd (readLength data limit length position) := by
  induction limit generalizing length position with
  | zero => exact .error _
  | succ limit ih =>
    unfold readLength
    dsimp only
    refine .ite (.error _) ?_
    refine (takes_number 1 position).bind_left fun (b, next) => ?_
    refine .ite (.ok rfl) ?_
    refine (takes_number 1 next).bind_right fun (down, next) => ?_
    exact Takes.weaken (ih _ next) (Nat.zero_le 1)

/-- Lengths of code words are read in the data. -/
theorem takes_readLengths (count length position : Nat) :
    Takes data 0 position Prod.snd (readLengths data count length position) := by
  induction count generalizing length position with
  | zero => exact .ok rfl
  | succ count ih =>
    unfold readLengths
    refine (takes_readLength _ length position).bind_right fun (length, next) => ?_
    refine (ih length next).bind_right fun (rest, next) => ?_
    exact .ok rfl

/-- Codes are read in the data. -/
theorem takes_readCodes (symbols count position : Nat) :
    Takes data 0 position Prod.snd (readCodes data symbols count position) := by
  induction count generalizing position with
  | zero => exact .ok rfl
  | succ count ih =>
    unfold readCodes
    refine (takes_number 5 position).bind_right fun (length, next) => ?_
    refine (takes_readLengths symbols length next).bind_right fun (lengths, next) => ?_
    refine (ih next).bind_right fun (rest, next) => ?_
    exact .ok rfl

/-- A number that is written as bits up to a zero is read in the data. -/
theorem takes_readUnary (room position : Nat) :
    Takes data 0 position Prod.snd (readUnary data room position) := by
  induction room generalizing position with
  | zero =>
    unfold readUnary
    refine (takes_number 1 position).bind_right fun (b, next) => ?_
    exact .ite (.ok rfl) (.error _)
  | succ room ih =>
    unfold readUnary
    refine (takes_number 1 position).bind_right fun (b, next) => ?_
    refine .ite (.ok rfl) ?_
    refine (ih next).bind_right fun (rest, next) => ?_
    exact .ok rfl

/-- So are several of them. -/
theorem takes_readPlaces (room count position : Nat) :
    Takes data 0 position Prod.snd (readPlaces data room count position) := by
  induction count generalizing position with
  | zero => exact .ok rfl
  | succ count ih =>
    unfold readPlaces
    refine (takes_readUnary room position).bind_right fun (place, next) => ?_
    refine (ih next).bind_right fun (rest, next) => ?_
    exact .ok rfl

/-- The codes of a block and their turns are read in the data. -/
theorem takes_readTurns (symbols position : Nat) :
    Takes data 0 position Prod.snd (readTurns data symbols position) := by
  unfold readTurns
  refine (takes_number 3 position).bind_right fun (count, next) => ?_
  dsimp only
  refine .ite (.error _) ?_
  refine (takes_number 15 next).bind_right fun (turns, next) => ?_
  dsimp only
  refine .ite (.error _) ?_
  refine (takes_readPlaces (count - 1) turns next).bind_right fun (places, next) => ?_
  refine (takes_readCodes symbols count next).bind_right fun (codes, next) => ?_
  exact .ok rfl

/-- The bytes that occur in a block are read in the data. -/
theorem takes_readBytesIn (ranges : Nat) (places : List Nat) (position : Nat) :
    Takes data 0 position Prod.snd (readBytesIn data ranges places position) := by
  induction places generalizing position with
  | nil => exact .ok rfl
  | cons i rest ih =>
    unfold readBytesIn
    dsimp only
    split
    · refine (takes_number 16 position).bind_right fun (inRange, next) => ?_
      refine (ih next).bind_right fun (more, next) => ?_
      exact .ok rfl
    · refine (ih position).bind_right fun (more, next) => ?_
      exact .ok rfl

/-- A symbol takes at least a bit, unless there are no code words. -/
theorem takes_decodeFrom (symbols : Array Nat) (counts : List Nat)
    (code first index position : Nat) :
    Takes data (min 1 counts.length) position Prod.snd
      (read (PrefixCode.decodeFrom symbols data counts code first index position)) := by
  induction counts generalizing code first index position with
  | nil => exact .ok rfl
  | cons count counts ih =>
    unfold PrefixCode.decodeFrom
    rw [read_bind]
    refine Takes.weaken ?_ (Nat.min_le_left 1 _)
    refine (takes_bit data position).bind_left fun (b, next) => ?_
    dsimp only
    split
    · exact .ok rfl
    · exact Takes.weaken (ih _ _ _ next) (Nat.zero_le _)

/-- So does the symbol of the code word at a position. -/
theorem takes_decode (code : PrefixCode) (position : Nat) :
    Takes data (min 1 code.counts.length) position Prod.snd (read (code.decode data position)) :=
  takes_decodeFrom code.symbols code.counts 0 0 0 position

/-! ## The sorted column -/

/-- The sorted column is read in the data. -/
theorem takes_readColumn (turns : Array PrefixCode) (last capacity limit index : Nat) (c : Column)
    (position : Nat) :
    Takes data 0 position Prod.snd
      (readColumn data turns last capacity limit index c position) := by
  induction limit generalizing index c position with
  | zero => exact .error _
  | succ limit ih =>
    unfold readColumn
    split
    · exact .error _
    · next code _ =>
      refine (takes_decode code position).bind_right fun (symbol, next) => ?_
      dsimp only
      split
      · refine .ite (.ite (.error _) (ih _ _ next)) (.ite (.error _) ?_)
        refine .ite (.ok rfl) (.ite (.error _) ?_)
        split
        · exact .error _
        · exact ih _ _ next
      · exact .error _

/-- A block takes at least the bits of its checksum. -/
theorem takes_readBlock (level position : Nat) :
    Takes data 32 position (fun value => value.2.2) (readBlock data level position) := by
  unfold readBlock
  refine (takes_number 32 position).bind_left fun (recorded, next) => ?_
  refine (takes_number 1 next).bind_right fun (isDisturbed, next) => ?_
  refine (takes_number 24 next).bind_right fun (origin, next) => ?_
  dsimp only
  refine .ite (.error _) ?_
  refine (takes_number 16 next).bind_right fun (ranges, next) => ?_
  refine (takes_readBytesIn ranges _ next).bind_right fun (used, next) => ?_
  dsimp only
  refine .ite (.error _) ?_
  refine (takes_readTurns _ next).bind_right fun (turns, next) => ?_
  refine (takes_readColumn turns _ _ _ _ _ next).bind_right fun (column, next) => ?_
  dsimp only
  refine .ite (.error _) ?_
  split
  · exact .error _
  · exact .ite (.ok rfl) (.error _)

/-- The mark before a block is in the data. -/
theorem takes_readMark (position : Nat) :
    Takes data 0 position Prod.snd (readMark data position) := by
  unfold readMark
  refine (takes_number 8 position).bind_right fun (first, next) => ?_
  refine .ite ?_ (.ite ?_ (.error _))
  · exact (takes_expect _ next).bind_right fun _ => .ok rfl
  · exact (takes_expect _ next).bind_right fun _ => .ok rfl

/-- The header of a stream is in the data. -/
theorem takes_readLevel : Takes data 0 0 Prod.snd (readLevel data) := by
  unfold readLevel
  refine (takes_expect _ 0).bind_right fun start => ?_
  refine (takes_number 8 start).bind_right fun (digit, next) => ?_
  exact .ite (.error _) (.ok rfl)

/-! ## Limits -/

/-- A length comes to the same with a greater limit, if the limit is greater than the number of bits
that are left. -/
theorem readLength_add {limit : Nat} (more length : Nat) {position : Nat}
    (hposition : position ≤ 8 * data.size) (hlimit : 8 * data.size < position + limit) :
    readLength data (limit + more) length position = readLength data limit length position := by
  induction limit generalizing length position with
  | zero => omega
  | succ limit ih =>
    rw [Nat.add_right_comm]
    unfold readLength
    dsimp only
    split
    · rfl
    · refine (takes_number 1 position).bind_congr hposition fun (b, next) htaken hwithin => ?_
      dsimp only at htaken hwithin ⊢
      split
      · rfl
      · refine (takes_number 1 next).bind_congr hwithin fun (down, after) hmore hend => ?_
        dsimp only at hmore hend
        exact ih _ hend (by omega)

/-- So does a sorted column. -/
theorem readColumn_add {limit : Nat} (more : Nat) (turns : Array PrefixCode)
    (last capacity index : Nat) (c : Column) {position : Nat}
    (hposition : position ≤ 8 * data.size) (hlimit : 8 * data.size < position + limit) :
    readColumn data turns last capacity (limit + more) index c position =
      readColumn data turns last capacity limit index c position := by
  induction limit generalizing index c position with
  | zero => omega
  | succ limit ih =>
    rw [Nat.add_right_comm]
    unfold readColumn
    split
    · rfl
    · next code _ =>
      by_cases hcounts : code.counts = []
      · -- Without code words there is no symbol to go on with.
        unfold PrefixCode.decode
        rw [hcounts]
        rfl
      · have hlength : min 1 code.counts.length = 1 :=
          Nat.min_eq_left (List.length_pos_iff.mpr hcounts)
        refine (takes_decode code position).bind_congr hposition
          fun (symbol, next) htaken hwithin => ?_
        dsimp only at htaken hwithin ⊢
        rw [hlength] at htaken
        simp only [ih _ _ hwithin (by omega)]

/-- The blocks of a stream come to the same with a greater limit, if the limit is greater than the
number of bytes that are left. -/
theorem decodeBlocks_add {limit : Nat} (more level : Nat) (sum : UInt32) {position : Nat}
    (output : Bytes) (hposition : position ≤ 8 * data.size)
    (hlimit : 8 * data.size < position + 8 * limit) :
    decodeBlocks data level (limit + more) sum position output =
      decodeBlocks data level limit sum position output := by
  induction limit generalizing sum position output with
  | zero => omega
  | succ limit ih =>
    rw [Nat.add_right_comm]
    unfold decodeBlocks
    split
    · rfl
    · rfl
    · next start hmark =>
      obtain ⟨hstart, hwithin⟩ := takes_readMark position hposition _ hmark
      dsimp only at hstart hwithin
      split
      · rfl
      · next content block after hblock =>
        obtain ⟨htaken, hend⟩ := takes_readBlock level start hwithin _ hblock
        dsimp only at htaken hend
        exact ih _ _ hend (by omega)

/-- A stream is decoded as with any greater limit: it is not the limit that ends it. -/
theorem decode_eq (given : Bytes) (more : Nat) :
    decode given =
      match readLevel (given.map reversedByte) with
      | .error halt => halt.decoded #[]
      | .ok (level, position) =>
        decodeBlocks (given.map reversedByte) level ((given.map reversedByte).size + 1 + more) 0
          position #[] := by
  unfold decode
  dsimp only
  cases hlevel : readLevel (given.map reversedByte) with
  | error halt => rfl
  | ok start =>
    obtain ⟨-, hwithin⟩ := takes_readLevel (Nat.zero_le _) start hlevel
    exact (decodeBlocks_add more start.1 0 #[] hwithin (by omega)).symm

end DexListing.Zip.Bzip2
