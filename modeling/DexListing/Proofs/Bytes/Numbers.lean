import DexListing.Bytes.Leb128
import DexListing.Proofs.Bytes.Standing

/-!
# Reading numbers in LEB128 form

Bytes in the form of a number carry seven bits each, and all but the last say that another one
follows (`Leb128.HasForm`); together they stand for a number (`Leb128.value`). What a read gives is
told by the bytes at its offset (`Leb128.readWithin_eq_iff`): a number in this form, or a row of
bytes that all say that another one follows, up to the end of the byte string or up to the most
bytes that may be read. So a number is read back wherever it was written, and of a byte string with
a number in it nothing but the bytes of that number matters (`Leb128.read_in_place`). A number may
take one byte more than 32 bits need, and no bit is dropped, so that a read can give up to 42 bits
(`Leb128.read_bounds`).
-/

set_option autoImplicit false

namespace DexListing.Leb128

variable {data : Bytes} {limit offset n stop : Nat} {b : UInt8} {bytes run : List UInt8}

/-! ## The form of a number -/

/-- Bytes in the form of one number that takes no more than `limit` bytes, whatever its value: all
but the last have their high bit set. -/
inductive HasForm : (limit : Nat) → List UInt8 → Prop
  | last {limit : Nat} {b : UInt8} (hb : b.toNat < 0x80) : HasForm (limit + 1) [b]
  | cons {limit : Nat} {b : UInt8} {rest : List UInt8} (hb : 0x80 ≤ b.toNat)
      (hrest : HasForm limit rest) : HasForm (limit + 1) (b :: rest)

/-- A written form has a last byte. -/
theorem HasForm.length_pos (h : HasForm limit bytes) : 0 < bytes.length := by
  cases h <;> exact Nat.succ_pos _

/-- A written form is no longer than it may be. -/
theorem HasForm.length_le (h : HasForm limit bytes) : bytes.length ≤ limit := by
  induction h with
  | last => exact Nat.succ_le_succ (Nat.zero_le _)
  | cons _ _ ih => exact Nat.succ_le_succ ih

/-- Each of the bytes says that another one follows. -/
def Continues (bytes : List UInt8) : Prop :=
  ∀ b ∈ bytes, 0x80 ≤ b.toNat

/-- No byte is a run that goes on. -/
theorem continues_nil : Continues [] := fun _ => nofun

/-- A run goes on if its first byte does and the others do. -/
theorem continues_cons : Continues (b :: run) ↔ 0x80 ≤ b.toNat ∧ Continues run :=
  List.forall_mem_cons

/-- The number whose groups of seven bits are in the bytes, the lowest group first. -/
def value : List UInt8 → Nat
  | [] => 0
  | b :: rest => b.toNat % 0x80 + 0x80 * value rest

/-- The value of the higher bytes counts more by one factor for each of the lower ones. -/
theorem value_append (low high : List UInt8) :
    value (low ++ high) = value low + 0x80 ^ low.length * value high := by
  induction low with
  | nil => rw [List.nil_append, value, List.length_nil, Nat.pow_zero, Nat.one_mul, Nat.zero_add]
  | cons b low ih =>
    rw [List.cons_append, value, ih, value, List.length_cons, Nat.pow_succ', Nat.mul_add,
      Nat.mul_assoc, Nat.add_assoc]

/-- Each byte gives seven bits. -/
theorem value_lt (bytes : List UInt8) : value bytes < 0x80 ^ bytes.length := by
  induction bytes with
  | nil => exact Nat.one_pos
  | cons b rest ih =>
    rw [value, List.length_cons, Nat.pow_succ]
    omega

/-- Of more than four bytes only the lowest four bits of the fifth belong to 32 bits. -/
theorem value_lt_iff (bytes : List UInt8) :
    value bytes < 2 ^ 32 ↔ value (bytes.drop 4) < 0x10 := by
  have hsplit : value bytes = value (bytes.take 4) + 0x80 ^ 4 * value (bytes.drop 4) := by
    by_cases hlength : 4 ≤ bytes.length
    · have happend := value_append (bytes.take 4) (bytes.drop 4)
      rwa [List.take_append_drop, List.length_take_of_le hlength] at happend
    · rw [List.take_of_length_le (by omega), List.drop_eq_nil_of_le (by omega), value]
      omega
  have hlow : value (bytes.take 4) < 0x80 ^ 4 :=
    Nat.lt_of_lt_of_le (value_lt _) (Nat.pow_le_pow_right (by decide) (List.length_take_le _ _))
  omega

/-- A number below 256 is the value of its byte. -/
theorem toNat_byte {n : Nat} (hn : n < 0x100) : (UInt8.ofNat n).toNat = n := by
  rw [UInt8.toNat_ofNat']
  omega

/-- A number with no more than seven bits for each byte is written in that many bytes. -/
theorem hasForm_encode (hn : n < 0x80 ^ (limit + 1)) : HasForm (limit + 1) (encode n) := by
  induction limit generalizing n with
  | zero =>
    rw [encode, if_pos (by omega)]
    exact .last (by rw [toNat_byte (by omega)]; omega)
  | succ limit ih =>
    rw [encode]
    split
    · exact .last (by rw [toNat_byte (by omega)]; omega)
    · refine .cons (by rw [toNat_byte (by omega)]; omega) (ih ?_)
      rw [Nat.pow_succ] at hn
      exact Nat.div_lt_of_lt_mul (by rwa [Nat.mul_comm])

/-- A number is what it is written as. -/
theorem value_encode (n : Nat) : value (encode n) = n := by
  fun_induction encode n with
  | case1 n hn =>
    rw [value, value, toNat_byte (by omega)]
    omega
  | case2 n hn ih =>
    rw [value, ih, toNat_byte (by omega)]
    omega

/-! ## One byte more -/

/-- Where there is no byte, the number is cut short. -/
theorem readWithin_of_none (h : data[offset]? = none) (limit : Nat) :
    readWithin data (limit + 1) offset = .error .truncated := by
  rw [readWithin, h]

/-- A byte without the highest bit is the whole number. -/
theorem readWithin_of_last (h : data[offset]? = some b) (hb : b.toNat < 0x80) (limit : Nat) :
    readWithin data (limit + 1) offset = .ok (b.toNat, offset + 1) := by
  rw [readWithin, h]
  exact if_pos hb

/-- A byte with the highest bit is the lowest part of the number, and the rest follows. -/
theorem readWithin_of_more (h : data[offset]? = some b) (hb : 0x80 ≤ b.toNat) (limit : Nat) :
    readWithin data (limit + 1) offset =
      (readWithin data limit (offset + 1)).map fun high =>
        (b.toNat % 0x80 + 0x80 * high.1, high.2) := by
  rw [readWithin, h]
  dsimp only
  rw [if_neg (Nat.not_lt.mpr hb)]
  cases readWithin data limit (offset + 1) <;> rfl

/-! ## What is found -/

/-- What someone finds at an offset who may read so many bytes: a number, or a row of bytes that all
say that another one follows, where there is no other one or no other one may be read. -/
inductive Finds (data : Bytes) (limit offset : Nat) : Except Fault (Nat × Nat) → Prop
  | number {bytes : List UInt8} (hform : HasForm limit bytes) (hhas : data.Has offset bytes) :
      Finds data limit offset (.ok (value bytes, offset + bytes.length))
  | truncated {run : List UInt8} (hrun : Continues run) (hhas : data.Has offset run)
      (hlength : run.length < limit) (hend : data[offset + run.length]? = none) :
      Finds data limit offset (.error .truncated)
  | tooLong {run : List UInt8} (hrun : Continues run) (hhas : data.Has offset run)
      (hlength : run.length = limit) : Finds data limit offset (.error .tooLong)

/-- What is found from a byte on that says that another one follows. -/
theorem Finds.more {r : Except Fault (Nat × Nat)} (h : data[offset]? = some b)
    (hb : 0x80 ≤ b.toNat) (hrest : Finds data limit (offset + 1) r) :
    Finds data (limit + 1) offset
      (r.map fun high => (b.toNat % 0x80 + 0x80 * high.1, high.2)) := by
  cases hrest with
  | @number bytes hform hhas =>
    have hfinds := Finds.number (hform.cons hb) (Bytes.has_cons h hhas)
    rwa [value, List.length_cons, ← Nat.add_assoc, Nat.add_right_comm] at hfinds
  | @truncated run hrun hhas hlength hend =>
    refine .truncated (continues_cons.mpr ⟨hb, hrun⟩) (Bytes.has_cons h hhas)
      (Nat.succ_lt_succ hlength) ?_
    rwa [List.length_cons, ← Nat.add_assoc, Nat.add_right_comm]
  | @tooLong run hrun hhas hlength =>
    exact .tooLong (continues_cons.mpr ⟨hb, hrun⟩) (Bytes.has_cons h hhas)
      (congrArg (· + 1) hlength)

/-- A read gives something that is found. -/
theorem finds_readWithin (data : Bytes) (limit offset : Nat) :
    Finds data limit offset (readWithin data limit offset) := by
  induction limit generalizing offset with
  | zero => exact .tooLong continues_nil (Bytes.has_nil data offset) rfl
  | succ limit ih =>
    cases hbyte : data[offset]? with
    | none =>
      rw [readWithin_of_none hbyte]
      exact .truncated continues_nil (Bytes.has_nil data offset) (Nat.succ_pos limit) hbyte
    | some b =>
      by_cases hb : b.toNat < 0x80
      · rw [readWithin_of_last hbyte hb]
        have hfinds : Finds data (limit + 1) offset _ :=
          .number (.last hb) (Bytes.has_cons hbyte (Bytes.has_nil data _))
        rwa [value, value, Nat.mul_zero, Nat.add_zero, Nat.mod_eq_of_lt hb] at hfinds
      · rw [readWithin_of_more hbyte (Nat.not_lt.mp hb)]
        exact (ih (offset + 1)).more hbyte (Nat.not_lt.mp hb)

/-- Bytes in the form of a number are read as that number, and no byte after them is. -/
theorem readWithin_of_hasForm (hform : HasForm limit bytes) (h : data.Has offset bytes) :
    readWithin data limit offset = .ok (value bytes, offset + bytes.length) := by
  induction hform generalizing offset with
  | last hb =>
    rw [readWithin_of_last h.cons.1 hb, value, value, Nat.mod_eq_of_lt hb]
    rfl
  | cons hb _ ih =>
    obtain ⟨hhead, hrest⟩ := h.cons
    rw [readWithin_of_more hhead hb, ih hrest, value, List.length_cons, ← Nat.add_assoc,
      Nat.add_right_comm]
    rfl

/-- A read goes on behind bytes that say that another one follows. -/
theorem readWithin_of_continues (hrun : Continues run) (h : data.Has offset run) (more : Nat) :
    readWithin data (run.length + more) offset =
      (readWithin data more (offset + run.length)).map fun high =>
        (value run + 0x80 ^ run.length * high.1, high.2) := by
  induction run generalizing offset with
  | nil =>
    rw [List.length_nil, Nat.zero_add, Nat.add_zero]
    cases readWithin data more offset <;> simp [Except.map, value]
  | cons b run ih =>
    obtain ⟨hb, hrun⟩ := continues_cons.mp hrun
    obtain ⟨hhead, hrest⟩ := h.cons
    rw [List.length_cons, Nat.add_right_comm, readWithin_of_more hhead hb, ih hrun hrest,
      Nat.add_right_comm offset 1, ← Nat.add_assoc]
    cases readWithin data more (offset + run.length + 1) with
    | error fault => rfl
    | ok high =>
      simp only [Except.map, value]
      rw [Nat.pow_succ', Nat.mul_add, Nat.mul_assoc, Nat.add_assoc]

/-- What a read gives is what is found. -/
theorem readWithin_eq_iff {r : Except Fault (Nat × Nat)} :
    readWithin data limit offset = r ↔ Finds data limit offset r := by
  constructor
  · rintro rfl
    exact finds_readWithin data limit offset
  · intro h
    cases h with
    | number hform hhas => exact readWithin_of_hasForm hform hhas
    | @truncated run hrun hhas hlength hend =>
      obtain ⟨more, rfl⟩ := Nat.exists_eq_add_of_lt hlength
      rw [Nat.add_assoc, readWithin_of_continues hrun hhas, readWithin_of_none hend]
      rfl
    | tooLong hrun hhas hlength =>
      have hread := readWithin_of_continues hrun hhas 0
      rwa [Nat.add_zero, hlength] at hread

/-- The bytes that a number has been read from. -/
theorem exists_of_readWithin (h : readWithin data limit offset = .ok (n, stop)) :
    ∃ bytes, HasForm limit bytes ∧ data.Has offset bytes ∧ value bytes = n ∧
      offset + bytes.length = stop := by
  cases readWithin_eq_iff.mp h with
  | number hform hhas => exact ⟨_, hform, hhas, rfl, rfl⟩

/-- A number that is read ends within the bytes, and takes at least one byte and no more than it
may. -/
theorem of_readWithin (h : readWithin data limit offset = .ok (n, stop)) :
    offset < stop ∧ stop ≤ data.size ∧ stop ≤ offset + limit := by
  obtain ⟨bytes, hform, hhas, -, rfl⟩ := exists_of_readWithin h
  have hpos := hform.length_pos
  have hlimit := hform.length_le
  have hsize := hhas.le_size (List.length_pos_iff.mp hpos)
  omega

/-- A number of at most 42 bits is read back, with the offset after it. -/
theorem read_of_has {n : Nat} (hn : n < 0x40000000000) (h : data.Has offset (encode n)) :
    read data offset = .ok (n, offset + (encode n).length) := by
  have hform : HasForm 6 (encode n) := hasForm_encode hn
  have hread := readWithin_of_hasForm hform h
  rwa [value_encode] at hread

/-! ## The bytes that are looked at -/

/-- Reads a number as `readWithin` does, where `byte?` is how a byte is looked at. -/
def readThrough {m : Type → Type} [Monad m] (byte? : Nat → m (Option UInt8)) :
    (limit offset : Nat) → m (Except Fault (Nat × Nat))
  | 0, _ => return .error .tooLong
  | limit + 1, offset => do
    match ← byte? offset with
    | none => return .error .truncated
    | some b =>
      if b.toNat < 0x80 then return .ok (b.toNat, offset + 1)
      else
        let high ← readThrough byte? limit (offset + 1)
        return high.map fun high => (b.toNat % 0x80 + 0x80 * high.1, high.2)

/-- Looks at a byte and takes down its offset, after those taken down before. -/
def recordedByte (data : Bytes) (offset : Nat) : StateM (List Nat) (Option UInt8) :=
  fun record => (data[offset]?, record ++ [offset])

/-- What is looked at in two steps is recorded one after the other. -/
theorem bind_record {α β : Type} (look : StateM (List Nat) α) (f : α → StateM (List Nat) β)
    (record : List Nat) : (look >>= f) record = f (look record).1 (look record).2 :=
  rfl

/-- Where there is no byte, the place where it should be has been looked at. -/
theorem readThrough_of_none (h : data[offset]? = none) (record : List Nat) :
    readThrough (recordedByte data) (limit + 1) offset record =
      (.error .truncated, record ++ [offset]) := by
  rw [readThrough, bind_record, recordedByte, h]
  rfl

/-- For the last byte of a number only its own place is looked at. -/
theorem readThrough_of_last (h : data[offset]? = some b) (hb : b.toNat < 0x80)
    (record : List Nat) :
    readThrough (recordedByte data) (limit + 1) offset record =
      (.ok (b.toNat, offset + 1), record ++ [offset]) := by
  rw [readThrough, bind_record, recordedByte, h]
  dsimp only
  rw [if_pos hb]
  rfl

/-- A byte that goes on is looked at before the bytes after it. -/
theorem readThrough_of_more (h : data[offset]? = some b) (hb : 0x80 ≤ b.toNat)
    (record : List Nat) :
    readThrough (recordedByte data) (limit + 1) offset record =
      let high := readThrough (recordedByte data) limit (offset + 1) (record ++ [offset])
      (high.1.map fun high => (b.toNat % 0x80 + 0x80 * high.1, high.2), high.2) := by
  rw [readThrough, bind_record, recordedByte, h]
  dsimp only
  rw [if_neg (Nat.not_lt.mpr hb)]
  rfl

/-- With a record kept, what is read is the same, and the bytes are looked at one after the other
from the offset on. The induction is on the bytes that may still be read, with any record so far. -/
theorem readThrough_recordedByte (data : Bytes) (limit offset : Nat) :
    ∃ count, (∀ record, readThrough (recordedByte data) limit offset record =
        (readWithin data limit offset, record ++ List.range' offset count)) ∧
      ∀ n stop, readWithin data limit offset = .ok (n, stop) → stop = offset + count := by
  induction limit generalizing offset with
  | zero =>
    refine ⟨0, fun record => ?_, fun _ _ => nofun⟩
    rw [List.range'_zero, List.append_nil]
    rfl
  | succ limit ih =>
    cases hbyte : data[offset]? with
    | none =>
      rw [readWithin_of_none hbyte]
      exact ⟨1, readThrough_of_none hbyte, fun _ _ => nofun⟩
    | some b =>
      by_cases hb : b.toNat < 0x80
      · rw [readWithin_of_last hbyte hb]
        refine ⟨1, readThrough_of_last hbyte hb, fun n stop h => ?_⟩
        exact (Prod.mk.inj (Except.ok.inj h)).2.symm
      · obtain ⟨count, hrun, hcount⟩ := ih (offset + 1)
        rw [readWithin_of_more hbyte (Nat.not_lt.mp hb)]
        refine ⟨count + 1, fun record => ?_, fun n stop h => ?_⟩
        · rw [List.range'_succ, List.append_cons, readThrough_of_more hbyte (Nat.not_lt.mp hb),
            hrun]
        · cases hrest : readWithin data limit (offset + 1) with
          | error fault =>
            rw [hrest] at h
            exact nomatch h
          | ok high =>
            rw [hrest] at h
            obtain ⟨-, rfl⟩ := Prod.mk.inj (Except.ok.inj h)
            rw [hcount high.1 high.2 hrest, Nat.add_assoc, Nat.add_comm 1]

/-! ## Reads in a byte string -/

/-- A number below 2^32 is read back, whatever bytes stand before and after it. Whatever the bytes
are, a read fails, or it gives a number that ends behind the offset and within the bytes. Then it has
looked at the bytes from the offset up to that end, one after the other, and at no other ones, and it
gives the same in every byte string that has the same bytes there. -/
theorem read_in_place :
    (∀ (n : Nat) (before after : List UInt8), n < 2 ^ 32 →
      read (before ++ (encode n ++ after)).toArray before.length =
        .ok (n, before.length + (encode n).length)) ∧
    ∀ (data : Bytes) (offset : Nat),
      (∃ fault, read data offset = .error fault) ∨
      ∃ n stop, read data offset = .ok (n, stop) ∧ offset < stop ∧ stop ≤ data.size ∧
        readThrough (recordedByte data) maxBytes offset [] =
          (.ok (n, stop), List.range' offset (stop - offset)) ∧
        ∀ other : Bytes, (∀ i, offset ≤ i → i < stop → other[i]? = data[i]?) →
          read other offset = .ok (n, stop) := by
  refine ⟨fun n before after hn => ?_, fun data offset => ?_⟩
  · exact read_of_has (by omega) (Bytes.has_toArray before (encode n) after)
  · cases hread : read data offset with
    | error fault => exact .inl ⟨fault, rfl⟩
    | ok result =>
      obtain ⟨n, stop⟩ := result
      obtain ⟨hpos, hsize, -⟩ := of_readWithin hread
      obtain ⟨count, hrecord, hcount⟩ := readThrough_recordedByte data maxBytes offset
      refine .inr ⟨n, stop, rfl, hpos, hsize, ?_, fun other hsame => ?_⟩
      · obtain rfl := hcount n stop hread
        rw [hrecord, List.nil_append, Nat.add_sub_cancel_left]
        exact congrArg (·, _) hread
      · obtain ⟨bytes, hform, hhas, rfl, rfl⟩ := exists_of_readWithin hread
        exact readWithin_of_hasForm hform (hhas.of_same hsame)

/-- The greatest of these numbers, between bytes that have their high bit set. -/
theorem read_in_place_greatest :
    let data : Bytes := #[0x80, 0xff, 0xff, 0xff, 0xff, 0x0f, 0xff]
    let other : Bytes := #[0x00, 0xff, 0xff, 0xff, 0xff, 0x0f]
    2 ^ 32 - 1 < 2 ^ 32 ∧ read data 1 = .ok (2 ^ 32 - 1, 6) ∧
      (∀ i, 1 ≤ i → i < 6 → other[i]? = data[i]?) ∧ read other 1 = .ok (2 ^ 32 - 1, 6) := by
  intro data other
  have hencode : encode (2 ^ 32 - 1) = [0xff, 0xff, 0xff, 0xff, 0x0f] := by
    simp [encode]
  have hread : read data 1 = .ok (2 ^ 32 - 1, 6) := by
    have hback := read_in_place.1 (2 ^ 32 - 1) [0x80] [0xff] (by decide)
    rwa [hencode] at hback
  have hsame : ∀ i, 1 ≤ i → i < 6 → other[i]? = data[i]? := by
    have hall : ∀ i < 6, 1 ≤ i → other[i]? = data[i]? := by decide
    exact fun i hfirst hlast => hall i hlast hfirst
  refine ⟨by decide, hread, hsame, ?_⟩
  rcases read_in_place.2 data 1 with ⟨fault, herror⟩ | ⟨n, stop, hok, -, -, -, hother⟩
  · rw [hread] at herror
    exact nomatch herror
  · rw [hread] at hok
    obtain ⟨rfl, rfl⟩ := Prod.mk.inj (Except.ok.inj hok)
    exact hother other hsame

/-- What a read gives is what is found in at most six bytes. It takes no more than these and gives
no more than seven bits for each of them, and the number is below 2^32 exactly if there is nothing
beyond the lowest four bits of a fifth byte. Six bytes or more that all say that another one follows
are refused. -/
theorem read_bounds (data : Bytes) (offset : Nat) :
    (∀ r, read data offset = r ↔ Finds data 6 offset r) ∧
    (∀ n stop, read data offset = .ok (n, stop) →
      stop ≤ offset + 6 ∧ n < 2 ^ (7 * (stop - offset)) ∧
      (n < 2 ^ 32 ↔ value ((data.range offset stop).drop 4) < 0x10)) ∧
    ∀ run, Continues run → data.Has offset run → 6 ≤ run.length →
      read data offset = .error .tooLong := by
  refine ⟨fun r => readWithin_eq_iff, fun n stop hread => ?_, fun run hrun hhas hlength => ?_⟩
  · obtain ⟨bytes, hform, hhas, rfl, rfl⟩ := exists_of_readWithin hread
    refine ⟨Nat.add_le_add_left hform.length_le offset, ?_, ?_⟩
    · rw [Nat.add_sub_cancel_left, Nat.pow_mul]
      exact value_lt bytes
    · rw [hhas.range_eq]
      exact value_lt_iff bytes
  · rw [← List.take_append_drop 6 run] at hhas
    have hfirst : Continues (run.take 6) := fun b hb => hrun b (List.mem_of_mem_take hb)
    exact readWithin_eq_iff.mpr
      (.tooLong hfirst hhas.append.1 (List.length_take_of_le hlength))

/-- A number of five bytes that has one bit more than 32, and a seventh byte that is not reached. -/
theorem read_bounds_longNumbers :
    read #[0xff, 0xff, 0xff, 0xff, 0x1f] 0 = .ok (0x1ffffffff, 5) ∧
      (5 ≤ 0 + 6 ∧ 0x1ffffffff < 2 ^ (7 * (5 - 0)) ∧
        (0x1ffffffff < 2 ^ 32 ↔
          value ((Bytes.range #[0xff, 0xff, 0xff, 0xff, 0x1f] 0 5).drop 4) < 0x10)) ∧
      Continues (List.replicate 7 0x80) ∧
      Bytes.Has (List.replicate 7 0x80).toArray 0 (List.replicate 7 0x80) ∧
      6 ≤ (List.replicate 7 (0x80 : UInt8)).length ∧
      read (List.replicate 7 0x80).toArray 0 = .error .tooLong := by
  have hread : read #[0xff, 0xff, 0xff, 0xff, 0x1f] 0 = .ok (0x1ffffffff, 5) := rfl
  have hrun : Continues (List.replicate 7 0x80) := by
    intro b hb
    rw [List.eq_of_mem_replicate hb]
    decide
  have hhas : Bytes.Has (List.replicate 7 0x80).toArray 0 (List.replicate 7 0x80) :=
    Bytes.has_toArray [] (List.replicate 7 0x80) []
  have hbounds := (read_bounds #[0xff, 0xff, 0xff, 0xff, 0x1f] 0).2.1 0x1ffffffff 5 hread
  have hrefused := (read_bounds (List.replicate 7 0x80).toArray 0).2.2 _ hrun hhas (by decide)
  exact ⟨hread, hbounds, hrun, hhas, by decide, hrefused⟩

/-- Numbers that take six bytes, or that have more than 32 bits, are not refused. -/
theorem read_beyond_word :
    read #[0x80, 0x80, 0x80, 0x80, 0x80, 0x00] 0 = .ok (0, 6) ∧
      read #[0xff, 0xff, 0xff, 0xff, 0x1f] 0 = .ok (0x1ffffffff, 5) ∧
      2 ^ 32 ≤ 0x1ffffffff :=
  ⟨rfl, rfl, by decide⟩

end DexListing.Leb128
