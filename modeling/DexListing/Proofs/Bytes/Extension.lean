import DexListing.Bytes.Leb128

/-!
# Byte strings that go on

A byte string that starts with another one agrees with it wherever that one has bytes
(`Bytes.StartsWith`). So a read that stays within the shorter one gives the same in the longer one:
numbers of a fixed size, ranges, the next zero byte, and numbers in LEB128 form. Reads that fail may
well succeed once there are more bytes; `Persists` is the order between results that leaves this
open.
-/

set_option autoImplicit false

namespace DexListing

/-! ## Results that stay -/

/-- Steps one after the other succeed if both of them do. -/
theorem exists_of_bind_eq_ok {ε α β : Type} {x : Except ε α} {f : α → Except ε β} {b : β}
    (h : x >>= f = .ok b) : ∃ a, x = .ok a ∧ f a = .ok b := by
  cases x with
  | error e => exact nomatch h
  | ok a => exact ⟨a, rfl, h⟩

/-- Steps after a choice succeed if both the alternative that is taken and they do. -/
theorem exists_of_ite_bind_eq_ok {ε α β : Type} {p : Prop} [Decidable p] {x y : Except ε α}
    {f : α → Except ε β} {b : β} (h : (if p then x >>= f else y >>= f) = .ok b) :
    ∃ a, (if p then x else y) = .ok a ∧ f a = .ok b := by
  rw [← apply_ite (· >>= f)] at h
  exact exists_of_bind_eq_ok h

/-- Errors cannot be compared, so results are where they are computed. -/
theorem eq_ok_of_toOption {ε α : Type} {x : Except ε α} {a : α} (h : x.toOption = some a) :
    x = .ok a := by
  cases x with
  | error e => exact nomatch h
  | ok read => exact congrArg _ (Option.some.inj h)

/-- Where the first of two computations succeeds the other one does too, with the same result. -/
def Persists {ε α : Type} (first next : Except ε α) : Prop :=
  ∀ x, first = .ok x → next = .ok x

namespace Persists

variable {ε α β : Type}

/-- A result persists as it is. -/
theorem refl (first : Except ε α) : Persists first first := fun _ h => h

/-- Nothing is asked of what follows a failure. -/
theorem error (e : ε) (next : Except ε α) : Persists (.error e) next := by
  intro x h
  exact nomatch h

/-- Steps one after the other persist if each of them does; the second one only has to where the
first one has succeeded. -/
theorem bind {first next : Except ε α} {f g : α → Except ε β} (h : Persists first next)
    (hthen : ∀ x, first = .ok x → Persists (f x) (g x)) :
    Persists (first >>= f) (next >>= g) := by
  cases hfirst : first with
  | error e => exact error e _
  | ok x =>
    rw [h x hfirst]
    exact hthen x hfirst

/-- Of two alternatives only the one that is taken has to persist. -/
theorem ite {c : Prop} [Decidable c] {first next other otherNext : Except ε α}
    (h : c → Persists first next) (hother : ¬c → Persists other otherNext) :
    Persists (if c then first else other) (if c then next else otherNext) := by
  split
  · next hc => exact h hc
  · next hc => exact hother hc

/-- The same where the alternatives go on in one way. -/
theorem ite_bind {c : Prop} [Decidable c] {first next other otherNext : Except ε α}
    {f g : α → Except ε β} (h : c → Persists first next) (hother : ¬c → Persists other otherNext)
    (hthen : ∀ x, Persists (f x) (g x)) :
    Persists (if c then first >>= f else other >>= f)
      (if c then next >>= g else otherNext >>= g) := by
  apply ite
  · intro hc
    exact bind (h hc) fun x _ => hthen x
  · intro hc
    exact bind (hother hc) fun x _ => hthen x

/-- A result that persists does so under a function. -/
theorem map {first next : Except ε α} (f : α → β) (h : Persists first next) :
    Persists (f <$> first) (f <$> next) := by
  cases hfirst : first with
  | error e => exact error e _
  | ok x =>
    rw [h x hfirst]
    exact refl _

end Persists

/-! ## Reads within the shorter byte string -/

namespace Bytes

/-- A byte string starts with another one. -/
def StartsWith (data start : Bytes) : Prop :=
  ∀ (i : Nat) (b : UInt8), start[i]? = some b → data[i]? = some b

/-- What is put together starts with its first part. -/
theorem startsWith_append (start more : Bytes) : (start ++ more).StartsWith start := by
  intro i b hb
  obtain ⟨hi, -⟩ := Array.getElem?_eq_some_iff.mp hb
  rw [Array.getElem?_append_left hi, hb]

/-- Bytes start with what is cut off them at the front. -/
theorem startsWith_extract (data : Bytes) (stop : Nat) : data.StartsWith (data.extract 0 stop) := by
  intro i b hb
  rw [Array.getElem?_extract, Nat.zero_add] at hb
  split at hb
  · exact hb
  · exact nomatch hb

namespace StartsWith

variable {data start : Bytes}

/-- The first bytes are the same. -/
theorem getElem?_eq (h : data.StartsWith start) {i : Nat} (hi : i < start.size) :
    data[i]? = start[i]? := by
  rw [Array.getElem?_eq_getElem hi]
  exact h i _ (Array.getElem?_eq_getElem hi)

/-- What bytes start with is no longer than they are. -/
theorem size_le (h : data.StartsWith start) : start.size ≤ data.size := by
  by_cases hpos : start.size = 0
  · omega
  · have hlt : start.size - 1 < start.size := by omega
    have hlast := h _ _ (Array.getElem?_eq_getElem hlt)
    obtain ⟨hlt, -⟩ := Array.getElem?_eq_some_iff.mp hlast
    omega

/-- Bytes start with themselves. -/
theorem refl (data : Bytes) : data.StartsWith data := fun _ _ h => h

/-- What starts with more starts with what that starts with. -/
theorem trans {more : Bytes} (hmore : more.StartsWith data) (h : data.StartsWith start) :
    more.StartsWith start := fun i b hb => hmore i b (h i b hb)

/-- What starts with all that it has is just that. -/
theorem eq_of_size_le (h : data.StartsWith start) (hsize : data.size ≤ start.size) :
    start = data := by
  have hle := h.size_le
  apply Array.ext (by omega)
  intro i hi _
  have hbyte := h i _ (Array.getElem?_eq_getElem hi)
  obtain ⟨_, hsame⟩ := Array.getElem?_eq_some_iff.mp hbyte
  exact hsame.symm

/-- A byte within the start is the same. -/
theorem u1_eq (h : data.StartsWith start) {offset : Nat} (hoffset : offset < start.size) :
    data.u1 offset = start.u1 offset := by
  simp only [u1, Array.getD_eq_getD_getElem?, h.getElem?_eq hoffset]

/-- A half word within the start is the same. -/
theorem u2_eq (h : data.StartsWith start) {offset : Nat} (hoffset : offset + 2 ≤ start.size) :
    data.u2 offset = start.u2 offset := by
  unfold u2
  rw [h.u1_eq (by omega), h.u1_eq (by omega)]

/-- A word within the start is the same. -/
theorem u4_eq (h : data.StartsWith start) {offset : Nat} (hoffset : offset + 4 ≤ start.size) :
    data.u4 offset = start.u4 offset := by
  unfold u4
  rw [h.u2_eq (by omega), h.u2_eq (by omega)]

/-- What is cut out within the start is the same. -/
theorem extract_eq (h : data.StartsWith start) {first stop : Nat} (hstop : stop ≤ start.size) :
    data.extract first stop = start.extract first stop := by
  have hsize := h.size_le
  apply Array.ext_getElem?
  intro i
  simp only [Array.getElem?_extract, Nat.min_eq_left hstop,
    Nat.min_eq_left (Nat.le_trans hstop hsize)]
  split
  · exact h.getElem?_eq (by omega)
  · rfl

/-- A range within the start is the same. -/
theorem range_eq (h : data.StartsWith start) {first stop : Nat} (hstop : stop ≤ start.size) :
    data.range first stop = start.range first stop := by
  unfold range
  rw [h.extract_eq hstop]

/-- Bytes that are there stay there. -/
theorem require_persists (h : data.StartsWith start) (offset size : Nat) :
    Persists (start.require offset size) (data.require offset size) := by
  have hsize := h.size_le
  intro _ hfirst
  simp only [require, ite_eq_left_iff, reduceCtorEq, imp_false, Decidable.not_not] at hfirst ⊢
  omega

/-- A zero byte that is the next one in the shorter byte string is the next one in the longer one
too, because the search ends before it would see where they differ. -/
theorem findZero?_eq (h : data.StartsWith start) {first stop : Nat}
    (hfind : start.findZero? first = some stop) :
    stop < start.size ∧ data.findZero? first = some stop := by
  fun_induction findZero? start first with
  | case1 first hlt hzero =>
    obtain rfl := Option.some.inj hfind
    have hsame := h first _ (Array.getElem?_eq_getElem hlt)
    obtain ⟨hlt', hbyte⟩ := Array.getElem?_eq_some_iff.mp hsame
    refine ⟨hlt, ?_⟩
    rw [findZero?, dif_pos hlt', if_pos (hbyte.trans hzero)]
  | case2 first hlt hzero ih =>
    have hsame := h first _ (Array.getElem?_eq_getElem hlt)
    obtain ⟨hlt', hbyte⟩ := Array.getElem?_eq_some_iff.mp hsame
    obtain ⟨hstop, hrest⟩ := ih hfind
    refine ⟨hstop, ?_⟩
    rw [findZero?, dif_pos hlt', if_neg (hbyte ▸ hzero), hrest]
  | case3 first hlt => exact nomatch hfind

/-- A number in LEB128 form that can be read is read from bytes that are there. -/
theorem readWithin_persists (h : data.StartsWith start) (limit offset : Nat) :
    Persists (Leb128.readWithin start limit offset) (Leb128.readWithin data limit offset) := by
  induction limit generalizing offset with
  | zero => exact .error _ _
  | succ limit ih =>
    cases hbyte : start[offset]? with
    | none =>
      simp only [Leb128.readWithin, hbyte]
      exact .error _ _
    | some b =>
      simp only [Leb128.readWithin, hbyte, h offset b hbyte]
      apply Persists.ite
      · intro _
        exact .refl _
      · intro _
        cases hrest : Leb128.readWithin start limit (offset + 1) with
        | error e => exact .error _ _
        | ok result =>
          rw [ih (offset + 1) result hrest]
          exact .refl _

end StartsWith

/-! ## Parts of a byte string -/

section Parts

variable {data : Bytes} {start stop offset : Nat}

/-- A byte of what is cut out is the one at the shifted offset. -/
theorem u1_extract (hstop : stop ≤ data.size) (hoffset : start + offset < stop) :
    u1 (data.extract start stop) offset = data.u1 (start + offset) := by
  simp only [u1, Array.getD_eq_getD_getElem?, Array.getElem?_extract, Nat.min_eq_left hstop]
  rw [if_pos (by omega)]

/-- A half word of what is cut out is the one at the shifted offset. -/
theorem u2_extract (hstop : stop ≤ data.size) (hoffset : start + offset + 2 ≤ stop) :
    u2 (data.extract start stop) offset = data.u2 (start + offset) := by
  unfold u2
  rw [u1_extract hstop (by omega), u1_extract hstop (by omega), Nat.add_assoc]

/-- A word of what is cut out is the one at the shifted offset. -/
theorem u4_extract (hstop : stop ≤ data.size) (hoffset : start + offset + 4 ≤ stop) :
    u4 (data.extract start stop) offset = data.u4 (start + offset) := by
  unfold u4
  rw [u2_extract hstop (by omega), u2_extract hstop (by omega), Nat.add_assoc]

/-- Cutting out twice is cutting out once, at the shifted offset. -/
theorem extract_extract (hstop : start + offset ≤ stop) (first : Nat) :
    Array.extract (data.extract start stop) first offset =
      data.extract (start + first) (start + offset) := by
  rw [Array.extract_extract, Nat.min_eq_left hstop]

end Parts

/-- A half word has sixteen bits. -/
theorem u2_lt (data : Bytes) (offset : Nat) : data.u2 offset < 0x10000 := by
  have hlow := (data.getD offset 0).toNat_lt
  have hhigh := (data.getD (offset + 1) 0).toNat_lt
  unfold u2 u1
  omega

end Bytes

end DexListing
