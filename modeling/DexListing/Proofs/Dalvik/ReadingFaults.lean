import DexListing.Dalvik.ClassReader
import DexListing.Run.Failure

/-!
# What can go wrong when the bytes are hostile

Any bytes at all may be given as a container. Either the header is refused, or the classes are
read in order up to the first one that cannot be read; in both cases the failure is one of
format. Two facts carry this. The check of the header keeps every class definition within the
bytes (`Header.classDef_within`), so the one read that is not guarded never leaves them; and
every other read past the end is turned into a truncated class (`Container.readClass_error`).
-/

set_option autoImplicit false

namespace DexListing

/-- The failure is reported as one of the format of a container. -/
def ContainerError.IsFormat (e : ContainerError) : Prop :=
  (Failure.container e).kind? = some .containerFormat

/-- A failure is one of format exactly when it is not a bare read past the end. -/
theorem ContainerError.isFormat_iff (e : ContainerError) :
    e.IsFormat ↔ ∃ fault, e = .format fault := by
  unfold IsFormat
  cases e with
  | format fault => exact ⟨fun _ => ⟨fault, rfl⟩, fun _ => rfl⟩
  | outside read =>
    constructor
    · intro h
      simp [Failure.kind?] at h
    · rintro ⟨fault, h⟩
      exact nomatch h

/-! ## The header keeps the class definitions within the bytes -/

/-- The table of class definitions of an accepted header ends within the bytes. -/
theorem Header.classTable_within {data : Bytes} {header : Header}
    (h : Header.ofBytes data = .ok header) :
    header.classes.offset + header.classes.count * classDefSize ≤ data.size := by
  unfold Header.ofBytes at h
  split at h
  · exact nomatch h
  · dsimp only at h
    split at h
    · exact nomatch h
    · next hle =>
      simp only [Except.ok.injEq] at h
      subst h
      exact Nat.le_of_not_lt hle

/-- Each definition that the table of an accepted header has lies within the bytes. -/
theorem Header.classDef_within {data : Bytes} {header : Header}
    (h : Header.ofBytes data = .ok header) {index : Nat} (hindex : index < header.classes.count) :
    header.classes.offset + index * classDefSize + classDefSize ≤ data.size := by
  have htable := Header.classTable_within h
  have hnext : (index + 1) * classDefSize ≤ header.classes.count * classDefSize :=
    Nat.mul_le_mul_right classDefSize hindex
  rw [Nat.add_mul, Nat.one_mul] at hnext
  omega

namespace Container

/-- An accepted container keeps its bytes and the header found in them. -/
theorem ofBytes_eq_ok {data : Bytes} {c : Container} (h : ofBytes data = .ok c) :
    c.data = data ∧ Header.ofBytes data = .ok c.header := by
  unfold ofBytes at h
  split at h
  · exact nomatch h
  · next header hheader =>
    simp only [Except.ok.injEq] at h
    subst h
    exact ⟨rfl, hheader⟩

/-- Bytes are refused only for their format. -/
theorem ofBytes_error {data : Bytes} {e : ContainerError} (h : ofBytes data = .error e) :
    e.IsFormat := by
  unfold ofBytes at h
  split at h
  · simp only [Except.error.injEq] at h
    subst h
    rfl
  · exact nomatch h

/-- A fixed-size item that ends within the bytes passes the check. -/
theorem require_eq_ok (c : Container) {offset size : Nat} (h : offset + size ≤ c.data.size) :
    c.require offset size = .ok () := by
  simp [Layout.require, Bytes.require, h]

/-- Every definition of an accepted container can be read. -/
theorem classDef_eq_ok {data : Bytes} {c : Container} (h : ofBytes data = .ok c) {index : Nat}
    (hindex : index < c.header.classes.count) : ∃ d, c.classDef index = .ok d := by
  obtain ⟨hdata, hheader⟩ := ofBytes_eq_ok h
  have hwithin := Header.classDef_within hheader hindex
  rw [← hdata] at hwithin
  unfold classDef
  dsimp only
  rw [c.require_eq_ok hwithin]
  exact ⟨_, rfl⟩

/-! ## A class that cannot be read -/

/-- Once its definition is read, a class fails only for its format: a read past the end is turned
into a truncated class. -/
theorem readClass_error {c : Container} {index : Nat} {d : ClassDef} {e : ContainerError}
    (hd : c.classDef index = .ok d) (h : c.readClass index = .error e) : e.IsFormat := by
  unfold readClass at h
  rw [hd] at h
  dsimp only [bind, Except.bind] at h
  split at h
  · simp only [Except.error.injEq] at h
    subst h
    rfl
  · next hne =>
    cases e with
    | format fault => rfl
    | outside read => exact absurd h (hne read)

/-! ## Reading all classes -/

/-- A listing holds the classes from an index on, up to the first of `count` ones that cannot be
read. -/
structure ReadsUpTo (c : Container) (start count : Nat) (l : ClassListing) : Prop where
  length_le : l.classes.length ≤ count
  read : ∀ i (h : i < l.classes.length), c.readClass (start + i) = .ok l.classes[i]
  complete : l.stopped = none → l.classes.length = count
  broken : ∀ e, l.stopped = some e →
    l.classes.length < count ∧ c.readClass (start + l.classes.length) = .error e

/-- The loop over the classes reads them in order, up to the first that cannot be read. -/
theorem readClasses_readsUpTo (c : Container) (count start : Nat) :
    ReadsUpTo c start count (c.readClasses count start) := by
  induction count generalizing start with
  | zero =>
    refine ⟨Nat.le_refl 0, ?_, fun _ => rfl, ?_⟩
    · intro i hi
      exact absurd hi (Nat.not_lt_zero i)
    · intro e he
      exact nomatch he
  | succ count ih =>
    cases hread : c.readClass start with
    | error e =>
      simp only [readClasses, hread]
      refine ⟨Nat.zero_le _, ?_, ?_, ?_⟩
      · intro i hi
        exact absurd hi (Nat.not_lt_zero i)
      · intro he
        exact nomatch he
      · intro other he
        simp only [Option.some.injEq] at he
        subst he
        exact ⟨Nat.succ_pos count, hread⟩
    | ok info =>
      simp only [readClasses, hread]
      have hrest := ih (start + 1)
      refine ⟨Nat.succ_le_succ hrest.length_le, ?_, ?_, ?_⟩
      · intro i hi
        cases i with
        | zero => exact hread
        | succ i =>
          have := hrest.read i (Nat.lt_of_succ_lt_succ hi)
          rw [show start + (i + 1) = start + 1 + i by omega]
          exact this
      · intro hnone
        exact congrArg Nat.succ (hrest.complete hnone)
      · intro e he
        obtain ⟨hlt, herror⟩ := hrest.broken e he
        refine ⟨Nat.succ_lt_succ hlt, ?_⟩
        rw [List.length_cons, show ∀ n, start + (n + 1) = start + 1 + n by omega]
        exact herror

/-- Whatever the bytes are: they are refused for their format, or the classes at the positions
below some `k` are read in order, where `k` is the declared count and nothing failed, or the class
at position `k` cannot be read for its format. No definition lies outside the bytes. -/
theorem ofBytes_classes_faults (data : Bytes) :
    (∃ e, ofBytes data = .error e ∧ e.IsFormat) ∨
    ∃ c, ofBytes data = .ok c ∧
      (∀ index < c.header.classes.count, ∃ d, c.classDef index = .ok d) ∧
      ∃ k ≤ c.header.classes.count, c.classes.classes.length = k ∧
        (∀ i < k, ∃ info, c.classes.classes[i]? = some info ∧ c.readClass i = .ok info) ∧
        ((k = c.header.classes.count ∧ c.classes.stopped = none) ∨
          (k < c.header.classes.count ∧ ∃ e, e.IsFormat ∧
            c.readClass k = .error e ∧ c.classes.stopped = some e)) := by
  cases hbytes : ofBytes data with
  | error e => exact Or.inl ⟨e, rfl, ofBytes_error hbytes⟩
  | ok c =>
    right
    have hreads := c.readClasses_readsUpTo c.header.classes.count 0
    refine ⟨c, rfl, fun index hindex => classDef_eq_ok hbytes hindex,
      c.classes.classes.length, hreads.length_le, rfl, ?_, ?_⟩
    · intro i hi
      have hread := hreads.read i hi
      rw [Nat.zero_add] at hread
      exact ⟨_, List.getElem?_eq_getElem hi, hread⟩
    · cases hstopped : c.classes.stopped with
      | none => exact Or.inl ⟨hreads.complete hstopped, rfl⟩
      | some e =>
        obtain ⟨hlt, herror⟩ := hreads.broken e hstopped
        rw [Nat.zero_add] at herror
        obtain ⟨d, hd⟩ := classDef_eq_ok hbytes hlt
        exact Or.inr ⟨hlt, e, readClass_error hd herror, herror, rfl⟩

end Container

end DexListing
