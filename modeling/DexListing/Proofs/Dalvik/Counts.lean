import DexListing.Proofs.Dalvik.ClassData
import DexListing.Proofs.Dalvik.ReadingFaults

/-!
# Counts and the size of a container

The counts in a container are taken as they are. What keeps them from growing past the bytes is that
every round of a loop reads bytes of its own: a loop whose rounds move forward by some size within a
bound (`Loop.Advances`) ends in time, whatever count it was given (`Loop.Advances.rounds_le`), and
if it comes to its end then there was room for all of its rounds (`Loop.Advances.position_le`). The
loops over types, annotations, directory entries and members are of this kind; the loop over the
bytes of a number has a limit of its own, and that over the classes is checked with the header.
`Container.counts_within_bytes` puts this together.
-/

set_option autoImplicit false

namespace DexListing

/-! ## Loops -/

namespace Loop

variable {ρ σ τ α : Type}

/-- What comes of a loop of at most `count` rounds, and how many rounds were begun. A round makes
the next state, or it leaves the loop. -/
def run (round : σ → Except ρ σ) : (count : Nat) → σ → Except ρ σ × Nat
  | 0, s => (.ok s, 0)
  | count + 1, s =>
    match round s with
    | .error left => (.error left, 1)
    | .ok next => ((run round count next).1, (run round count next).2 + 1)

/-- A round that leaves the loop is the last one, and counts. -/
theorem run_succ_of_error {round : σ → Except ρ σ} {s : σ} {left : ρ} (h : round s = .error left)
    (count : Nat) : run round (count + 1) s = (.error left, 1) := by
  rw [run, h]

/-- A round that goes on counts, and the rounds after it do. -/
theorem run_succ_of_ok {round : σ → Except ρ σ} {s next : σ} (h : round s = .ok next)
    (count : Nat) :
    run round (count + 1) s = ((run round count next).1, (run round count next).2 + 1) := by
  rw [run, h]

/-- No more rounds are begun than the count says. -/
theorem rounds_le_count (round : σ → Except ρ σ) (count : Nat) (s : σ) :
    (run round count s).2 ≤ count := by
  induction count generalizing s with
  | zero => exact Nat.le_refl 0
  | succ count ih =>
    cases h : round s with
    | error left =>
      rw [run_succ_of_error h]
      exact Nat.succ_le_succ (Nat.zero_le count)
    | ok next =>
      rw [run_succ_of_ok h]
      exact Nat.succ_le_succ (ih next)

/-- Every round that does not leave the loop moves forward by at least `size`, and not past the
bound. -/
def Advances (round : σ → Except ρ σ) (position : σ → Nat) (size bound : Nat) : Prop :=
  ∀ s next, round s = .ok next → position s + size ≤ position next ∧ position next ≤ bound

namespace Advances

variable {round : σ → Except ρ σ} {position : σ → Nat} {size bound : Nat}

/-- There is room for all rounds but the one that leaves the loop. -/
theorem rounds_le (h : Advances round position size bound) (count : Nat) (s : σ) :
    size * (run round count s).2 ≤ bound - position s + size := by
  induction count generalizing s with
  | zero => exact Nat.zero_le _
  | succ count ih =>
    cases hround : round s with
    | error left =>
      rw [run_succ_of_error hround, Nat.mul_one]
      exact Nat.le_add_left _ _
    | ok next =>
      obtain ⟨hforward, hbound⟩ := h s next hround
      have hrest := ih next
      rw [run_succ_of_ok hround, Nat.mul_succ]
      omega

/-- Rounds of two bytes or more are no more than there are bytes. -/
theorem rounds_le_bound (h : Advances round position size bound) (hsize : 2 ≤ size)
    (hbound : 2 ≤ bound) (count : Nat) (s : σ) : (run round count s).2 ≤ bound := by
  have htwo : Advances round position 2 bound := by
    intro s next hround
    have := h s next hround
    omega
  have := htwo.rounds_le count s
  omega

/-- A loop that comes to its end had room for all of its rounds. -/
theorem position_le (h : Advances round position size bound) {count : Nat} {s last : σ}
    (hrun : (run round count s).1 = .ok last) (hs : position s ≤ bound) :
    position s + size * count ≤ position last ∧ position last ≤ bound := by
  induction count generalizing s with
  | zero =>
    obtain rfl := Except.ok.inj hrun
    exact ⟨Nat.le_refl _, hs⟩
  | succ count ih =>
    cases hround : round s with
    | error left =>
      rw [run_succ_of_error hround] at hrun
      exact nomatch hrun
    | ok next =>
      obtain ⟨hforward, hbound⟩ := h s next hround
      rw [run_succ_of_ok hround] at hrun
      obtain ⟨hrest, hlast⟩ := ih hrun hbound
      rw [Nat.mul_succ]
      omega

end Advances

/-! ## Loops that collect -/

/-- The round of a loop that collects what a step gives. -/
def collect (step : σ → Except ρ (α × σ)) (s : σ × List α) : Except ρ (σ × List α) := do
  let (x, next) ← step s.1
  return (next, s.2 ++ [x])

/-- A step that leaves the loop collects nothing. -/
theorem collect_of_error {step : σ → Except ρ (α × σ)} {s : σ} {left : ρ}
    (h : step s = .error left) (xs : List α) : collect step (s, xs) = .error left := by
  unfold collect
  rw [h]
  rfl

/-- What a step finds is put after what was found before. -/
theorem collect_of_ok {step : σ → Except ρ (α × σ)} {s next : σ} {x : α}
    (h : step s = .ok (x, next)) (xs : List α) :
    collect step (s, xs) = .ok (next, xs ++ [x]) := by
  unfold collect
  rw [h]
  rfl

/-- A loop that collects moves forward with its step. -/
theorem advances_collect {step : σ → Except ρ (α × σ)} (position : σ → Nat) {size bound : Nat}
    (h : ∀ s x next, step s = .ok (x, next) →
      position s + size ≤ position next ∧ position next ≤ bound) :
    Advances (collect step) (fun s => position s.1) size bound := by
  rintro ⟨s, xs⟩ next hround
  cases hstep : step s with
  | error left =>
    rw [collect_of_error hstep] at hround
    exact nomatch hround
  | ok result =>
    obtain ⟨x, rest⟩ := result
    rw [collect_of_ok hstep] at hround
    obtain rfl := Except.ok.inj hround
    exact h s x rest hstep

/-- A function that goes through a step a number of times is a loop that collects; `view` is what it
gives of the state at the end. -/
theorem run_collect {step : σ → Except ρ (α × σ)} (view : σ → τ)
    (f : Nat → σ → Except ρ (List α × τ)) (hzero : ∀ s, f 0 s = .ok ([], view s))
    (hsucc : ∀ n s, f (n + 1) s =
      step s >>= fun p => f n p.2 >>= fun rest => .ok (p.1 :: rest.1, rest.2))
    (count : Nat) (s : σ) (xs : List α) :
    (run (collect step) count (s, xs)).1.map (fun last => (last.2, view last.1)) =
      (f count s).map fun result => (xs ++ result.1, result.2) := by
  induction count generalizing s xs with
  | zero =>
    rw [hzero, run, Except.map, Except.map, List.append_nil]
  | succ count ih =>
    rw [hsucc]
    cases hstep : step s with
    | error left =>
      rw [run_succ_of_error (collect_of_error hstep xs)]
      rfl
    | ok result =>
      obtain ⟨x, next⟩ := result
      rw [run_succ_of_ok (collect_of_ok hstep xs), ih]
      cases hrest : f count next with
      | error left => simp [hrest, Except.map, bind, Except.bind]
      | ok rest => simp [hrest, Except.map, bind, Except.bind]

/-- The same for a function that gives nothing of the state at the end. -/
theorem run_collect_list {step : σ → Except ρ (α × σ)} (f : Nat → σ → Except ρ (List α))
    (hzero : ∀ s, f 0 s = .ok [])
    (hsucc : ∀ n s, f (n + 1) s =
      step s >>= fun p => f n p.2 >>= fun rest => .ok (p.1 :: rest))
    (count : Nat) (s : σ) (xs : List α) :
    (run (collect step) count (s, xs)).1.map (·.2) = (f count s).map (xs ++ ·) := by
  have hpairs : (run (collect step) count (s, xs)).1.map (fun last => (last.2, ())) =
      ((f count s).map fun ys => (ys, ())).map fun result => (xs ++ result.1, result.2) := by
    apply run_collect (fun _ => ()) (fun n s => (f n s).map fun ys => (ys, ()))
    · intro s
      rw [hzero]
      rfl
    · intro n s
      rw [hsucc]
      cases step s with
      | error left => rfl
      | ok p => cases hrest : f n p.2 <;> simp [hrest, Except.map, bind, Except.bind]
  generalize (run (collect step) count (s, xs)).1 = left at hpairs ⊢
  generalize f count s = right at hpairs ⊢
  cases left <;> cases right <;> simp_all [Except.map]

/-- As many items are collected as there are rounds. -/
theorem length_of_run_collect {step : σ → Except ρ (α × σ)} {count : Nat} {s last : σ}
    {xs ys : List α} (h : (run (collect step) count (s, xs)).1 = .ok (last, ys)) :
    ys.length = xs.length + count := by
  induction count generalizing s xs with
  | zero =>
    obtain ⟨rfl, rfl⟩ := Prod.mk.inj (Except.ok.inj h)
    rfl
  | succ count ih =>
    cases hstep : step s with
    | error left =>
      rw [run_succ_of_error (collect_of_error hstep xs)] at h
      exact nomatch h
    | ok result =>
      obtain ⟨x, next⟩ := result
      rw [run_succ_of_ok (collect_of_ok hstep xs)] at h
      rw [ih h, List.length_append, List.length_singleton]
      omega

/-- A loop that has collected a list has one item for each round, and had room for all of them. -/
theorem of_collected {step : σ → Except ρ (α × σ)} (position : σ → Nat) {size bound count : Nat}
    {s : σ} {ys : List α} (h : Advances (collect step) (fun s => position s.1) size bound)
    (hrun : (run (collect step) count (s, [])).1.map (·.2) = .ok ys) (hs : position s ≤ bound) :
    ys.length = count ∧ position s + size * count ≤ bound := by
  cases hlast : (run (collect step) count (s, [])).1 with
  | error left =>
    rw [hlast] at hrun
    exact nomatch hrun
  | ok last =>
    rw [hlast] at hrun
    obtain rfl := Except.ok.inj hrun
    obtain ⟨hroom, hbound⟩ := h.position_le hlast hs
    refine ⟨?_, Nat.le_trans hroom hbound⟩
    rw [length_of_run_collect hlast, List.length_nil, Nat.zero_add]

/-- A result is what comes of a loop, and no more rounds are begun than the bound says. -/
structure Bounded {β : Type} (round : σ → Except ρ σ) (count : Nat) (s : σ)
    (finish : Except ρ σ → β) (result : β) (bound : Nat) : Prop where
  finish_eq : finish (run round count s).1 = result
  rounds_le : (run round count s).2 ≤ bound

end Loop

/-! ## The loops of a reader -/

namespace Layout

variable {l : Layout} {offset value : Nat}

/-- A word that is read lies within the bytes. -/
theorem le_size_of_u4 (h : l.u4 offset = .ok value) : offset + 4 ≤ l.data.size := by
  obtain ⟨_, hcheck, -⟩ := exists_of_bind_eq_ok h
  exact le_size_of_require hcheck

/-- A half word that is read lies within the bytes. -/
theorem le_size_of_u2 (h : l.u2 offset = .ok value) : offset + 2 ≤ l.data.size := by
  obtain ⟨_, hcheck, -⟩ := exists_of_bind_eq_ok h
  exact le_size_of_require hcheck

end Layout

/-- The bytes of an accepted header are there. -/
theorem Header.size_le {data : Bytes} {header : Header}
    (h : Header.ofBytes data = .ok header) : Header.size ≤ data.size := by
  unfold Header.ofBytes at h
  split at h
  · exact nomatch h
  · next hlarge =>
    simp only [Bool.or_eq_true, decide_eq_true_eq, not_or, Nat.not_lt] at hlarge
    exact hlarge.1

namespace Container

variable {c : Container}

/-- The name of the type whose index stands at an offset, and the offset after it. -/
def nextTypeName (c : Container) (offset : Nat) : Except ContainerError (String × Nat) := do
  let index ← c.u2 offset
  let name ← c.typeName index
  return (name, offset + 2)

/-- The type name of the annotation whose offset stands at an offset, and the offset after it. -/
def nextAnnotation (c : Container) (offset : Nat) : Except ContainerError (String × Nat) := do
  let item ← c.u4 offset
  let (typeIndex, _) ← c.leb128 (item + 1)
  let name ← c.typeName typeIndex
  return (name, offset + 4)

/-- The entry for a member at an offset of a directory, and the offset after it. -/
def nextEntry (c : Container) (offset : Nat) :
    Except ContainerError ((Nat × List String) × Nat) := do
  c.require offset 8
  let names ← c.annotationSet (c.data.u4 (offset + 4))
  return ((c.data.u4 offset, names), offset + 8)

/-- The field after the one with the index `s.1`, from the numbers at the offset `s.2` on; its index
and the offset after it. -/
def nextField (c : Container) (annotations : MemberAnnotations) (s : Nat × Nat) :
    Except ContainerError (FieldInfo × Nat × Nat) := do
  let (difference, offset) ← c.leb128 s.2
  let (accessFlags, offset) ← c.leb128 offset
  let index := s.1 + difference
  let (name, typeName) ← c.fieldId index
  return (⟨name, typeName, accessFlags, annotations.of index⟩, index, offset)

/-- The method after the one with the index `s.1`, from the numbers at the offset `s.2` on; its
index and the offset after it. -/
def nextMethod (c : Container) (annotations : MemberAnnotations) (s : Nat × Nat) :
    Except ContainerError (MethodInfo × Nat × Nat) := do
  let (difference, offset) ← c.leb128 s.2
  let (accessFlags, offset) ← c.leb128 offset
  let (codeOffset, offset) ← c.leb128 offset
  let index := s.1 + difference
  let (name, protoIndex) ← c.methodId index
  let (returnType, parameters) ← c.proto protoIndex
  let (registers, code) ← c.code codeOffset
  return (⟨name, returnType, parameters, accessFlags, annotations.of index, registers, code⟩,
    index, offset)

/-- A type of a list takes two bytes. -/
theorem advances_nextTypeName (c : Container) :
    Loop.Advances (Loop.collect c.nextTypeName) (·.1) 2 c.data.size := by
  apply Loop.advances_collect id
  intro offset name next h
  obtain ⟨index, hindex, h⟩ := exists_of_bind_eq_ok h
  obtain ⟨_, -, h⟩ := exists_of_bind_eq_ok h
  obtain ⟨-, rfl⟩ := Prod.mk.inj (Except.ok.inj h)
  exact ⟨Nat.le_refl _, Layout.le_size_of_u2 hindex⟩

/-- An annotation of a set takes four bytes. -/
theorem advances_nextAnnotation (c : Container) :
    Loop.Advances (Loop.collect c.nextAnnotation) (·.1) 4 c.data.size := by
  apply Loop.advances_collect id
  intro offset name next h
  obtain ⟨item, hitem, h⟩ := exists_of_bind_eq_ok h
  obtain ⟨_, -, h⟩ := exists_of_bind_eq_ok h
  obtain ⟨_, -, h⟩ := exists_of_bind_eq_ok h
  obtain ⟨-, rfl⟩ := Prod.mk.inj (Except.ok.inj h)
  exact ⟨Nat.le_refl _, Layout.le_size_of_u4 hitem⟩

/-- An entry of a table of members takes eight bytes. -/
theorem advances_nextEntry (c : Container) :
    Loop.Advances (Loop.collect c.nextEntry) (·.1) 8 c.data.size := by
  apply Loop.advances_collect id
  intro offset entry next h
  obtain ⟨_, hcheck, h⟩ := exists_of_bind_eq_ok h
  obtain ⟨_, -, h⟩ := exists_of_bind_eq_ok h
  obtain ⟨-, rfl⟩ := Prod.mk.inj (Except.ok.inj h)
  exact ⟨Nat.le_refl _, Layout.le_size_of_require hcheck⟩

/-- A field takes at least two bytes, one for each of its numbers. -/
theorem advances_nextField (c : Container) (annotations : MemberAnnotations) :
    Loop.Advances (Loop.collect (c.nextField annotations)) (·.1.2) 2 c.data.size := by
  apply Loop.advances_collect Prod.snd
  intro s f next h
  obtain ⟨⟨difference, afterDifference⟩, hdifference, h⟩ := exists_of_bind_eq_ok h
  obtain ⟨⟨accessFlags, afterFlags⟩, hflags, h⟩ := exists_of_bind_eq_ok h
  obtain ⟨_, -, h⟩ := exists_of_bind_eq_ok h
  obtain ⟨-, rfl⟩ := Prod.mk.inj (Except.ok.inj h)
  have hfirst := Layout.of_leb128 hdifference
  have hsecond := Layout.of_leb128 hflags
  omega

/-- A method takes at least three bytes, one for each of its numbers. -/
theorem advances_nextMethod (c : Container) (annotations : MemberAnnotations) :
    Loop.Advances (Loop.collect (c.nextMethod annotations)) (·.1.2) 3 c.data.size := by
  apply Loop.advances_collect Prod.snd
  intro s m next h
  obtain ⟨⟨difference, afterDifference⟩, hdifference, h⟩ := exists_of_bind_eq_ok h
  obtain ⟨⟨accessFlags, afterFlags⟩, hflags, h⟩ := exists_of_bind_eq_ok h
  obtain ⟨⟨codeOffset, afterCode⟩, hcode, h⟩ := exists_of_bind_eq_ok h
  obtain ⟨_, -, h⟩ := exists_of_bind_eq_ok h
  obtain ⟨_, -, h⟩ := exists_of_bind_eq_ok h
  obtain ⟨_, -, h⟩ := exists_of_bind_eq_ok h
  obtain ⟨-, rfl⟩ := Prod.mk.inj (Except.ok.inj h)
  have hfirst := Layout.of_leb128 hdifference
  have hsecond := Layout.of_leb128 hflags
  have hthird := Layout.of_leb128 hcode
  omega

/-! ## The reader goes through these loops -/

/-- The loop over the types of a list reads the names that the reader reads. -/
theorem run_nextTypeName (c : Container) (count offset : Nat) :
    (Loop.run (Loop.collect c.nextTypeName) count (offset, [])).1.map (·.2) =
      c.typeNames count offset := by
  rw [Loop.run_collect_list c.typeNames (fun _ => rfl)]
  · cases c.typeNames count offset <;> rfl
  · intro n offset
    simp only [typeNames, nextTypeName, bind_assoc, pure_bind]
    rfl

/-- The loop over the annotations of a set reads what the reader reads. -/
theorem run_nextAnnotation (c : Container) (count offset : Nat) :
    (Loop.run (Loop.collect c.nextAnnotation) count (offset, [])).1.map (·.2) =
      c.setEntries count offset := by
  rw [Loop.run_collect_list c.setEntries (fun _ => rfl)]
  · cases c.setEntries count offset <;> rfl
  · intro n offset
    simp only [setEntries, nextAnnotation, bind_assoc, pure_bind]
    rfl

/-- The loop over the entries of a table of members reads what the reader reads. -/
theorem run_nextEntry (c : Container) (count offset : Nat) :
    (Loop.run (Loop.collect c.nextEntry) count (offset, [])).1.map (·.2) =
      c.memberAnnotations count offset := by
  rw [Loop.run_collect_list c.memberAnnotations (fun _ => rfl)]
  · cases c.memberAnnotations count offset <;> rfl
  · intro n offset
    simp only [memberAnnotations, nextEntry, bind_assoc, pure_bind]
    rfl

/-- The loop over fields reads the fields that the reader reads, up to the same offset. -/
theorem run_nextField (c : Container) (annotations : MemberAnnotations)
    (count last offset : Nat) :
    (Loop.run (Loop.collect (c.nextField annotations)) count ((last, offset), [])).1.map
      (fun s => (s.2, s.1.2)) = c.readFields annotations count last offset := by
  rw [Loop.run_collect Prod.snd (fun n s => c.readFields annotations n s.1 s.2) (fun _ => rfl)]
  · cases c.readFields annotations count last offset <;> rfl
  · intro n s
    simp only [readFields, nextField, bind_assoc, pure_bind]
    rfl

/-- The loop over methods reads the methods that the reader reads, up to the same offset. -/
theorem run_nextMethod (c : Container) (annotations : MemberAnnotations)
    (count last offset : Nat) :
    (Loop.run (Loop.collect (c.nextMethod annotations)) count ((last, offset), [])).1.map
      (fun s => (s.2, s.1.2)) = c.readMethods annotations count last offset := by
  rw [Loop.run_collect Prod.snd (fun n s => c.readMethods annotations n s.1 s.2) (fun _ => rfl)]
  · cases c.readMethods annotations count last offset <;> rfl
  · intro n s
    simp only [readMethods, nextMethod, bind_assoc, pure_bind]
    rfl

end Container

/-! ## The loops over the bytes of a number and over the classes -/

namespace Leb128

/-- A number of which some groups of bits have been read: their value, what one in the next group
counts, and the offset of that group. -/
structure Reading where
  value : Nat
  weight : Nat
  offset : Nat

/-- Takes one more group, and leaves the loop with the last one. -/
def groupRound (data : Bytes) (s : Reading) : Except (Except Fault (Nat × Nat)) Reading :=
  match data[s.offset]? with
  | none => .error (.error .truncated)
  | some b =>
    if b.toNat < 0x80 then .error (.ok (s.value + s.weight * b.toNat, s.offset + 1))
    else .ok ⟨s.value + s.weight * (b.toNat % 0x80), s.weight * 0x80, s.offset + 1⟩

/-- A loop over groups that is not left before its end has met no last one. -/
def finish : Except (Except Fault (Nat × Nat)) Reading → Except Fault (Nat × Nat)
  | .error result => result
  | .ok _ => .error .tooLong

/-- Reading a number group by group. The induction is on the groups that may come, with any value
read so far. -/
theorem finish_run (data : Bytes) (limit : Nat) (s : Reading) :
    finish (Loop.run (groupRound data) limit s).1 =
      (readWithin data limit s.offset).map fun result =>
        (s.value + s.weight * result.1, result.2) := by
  induction limit generalizing s with
  | zero => rfl
  | succ limit ih =>
    cases hbyte : data[s.offset]? with
    | none =>
      have hround : groupRound data s = .error (.error .truncated) := by
        rw [groupRound, hbyte]
      rw [Loop.run_succ_of_error hround, readWithin, hbyte]
      rfl
    | some b =>
      by_cases hlast : b.toNat < 0x80
      · have hround : groupRound data s =
            .error (.ok (s.value + s.weight * b.toNat, s.offset + 1)) := by
          rw [groupRound, hbyte]
          exact if_pos hlast
        rw [Loop.run_succ_of_error hround, readWithin, hbyte]
        dsimp only
        rw [if_pos hlast]
        rfl
      · have hround : groupRound data s = .ok
            ⟨s.value + s.weight * (b.toNat % 0x80), s.weight * 0x80, s.offset + 1⟩ := by
          rw [groupRound, hbyte]
          exact if_neg hlast
        rw [Loop.run_succ_of_ok hround, ih, readWithin, hbyte]
        dsimp only
        rw [if_neg hlast]
        cases readWithin data limit (s.offset + 1) with
        | error fault => rfl
        | ok result =>
          dsimp only [Except.map]
          rw [Nat.mul_add, Nat.mul_assoc, Nat.add_assoc]

end Leb128

namespace Container

variable {c : Container}

/-- Reads the class with the index `s.1`, after the classes `s.2`. -/
def classRound (c : Container) (s : Nat × List ClassInfo) :
    Except ClassListing (Nat × List ClassInfo) :=
  match c.readClass s.1 with
  | .error e => .error ⟨s.2, some e⟩
  | .ok info => .ok (s.1 + 1, s.2 ++ [info])

/-- A loop over classes that is not left before its end has met no error. -/
def finishClasses : Except ClassListing (Nat × List ClassInfo) → ClassListing
  | .error listing => listing
  | .ok s => ⟨s.2, none⟩

/-- The loop over classes comes to the classes that the reader reads, after those it started
with. -/
theorem finish_run_classRound (c : Container) (count index : Nat) (infos : List ClassInfo) :
    finishClasses (Loop.run c.classRound count (index, infos)).1 =
      ⟨infos ++ (c.readClasses count index).classes, (c.readClasses count index).stopped⟩ := by
  induction count generalizing index infos with
  | zero =>
    rw [readClasses, List.append_nil]
    rfl
  | succ count ih =>
    cases hread : c.readClass index with
    | error e =>
      have hround : c.classRound (index, infos) = .error ⟨infos, some e⟩ := by
        rw [classRound, hread]
      rw [Loop.run_succ_of_error hround, readClasses, hread, List.append_nil]
      rfl
    | ok info =>
      have hround : c.classRound (index, infos) = .ok (index + 1, infos ++ [info]) := by
        rw [classRound, hread]
      rw [Loop.run_succ_of_ok hround, ih, readClasses, hread, List.append_assoc]
      rfl

/-! ## What has been read was there -/

/-- A word that is read is the one in the bytes. -/
theorem eq_of_u4 {l : Layout} {offset value : Nat} (h : l.u4 offset = .ok value) :
    value = l.data.u4 offset := by
  obtain ⟨_, -, h⟩ := exists_of_bind_eq_ok h
  exact (Except.ok.inj h).symm

/-- A type list has as many types as it says, and all of them lie within the bytes. -/
theorem typeList_within {offset : Nat} {names : List String} (hoffset : offset ≠ 0)
    (h : c.typeList offset = .ok names) :
    names.length = c.data.u4 offset ∧ offset + 4 + 2 * names.length ≤ c.data.size := by
  unfold typeList at h
  rw [if_neg hoffset] at h
  obtain ⟨count, hcount, h⟩ := exists_of_bind_eq_ok h
  rw [← run_nextTypeName] at h
  obtain ⟨hlength, hroom⟩ :=
    Loop.of_collected id c.advances_nextTypeName h (Layout.le_size_of_u4 hcount)
  rw [hlength]
  exact ⟨eq_of_u4 hcount, hroom⟩

/-- An annotation set has as many annotations as it says, and the offsets of all of them lie within
the bytes. -/
theorem annotationSet_within {offset : Nat} {names : List String} (hoffset : offset ≠ 0)
    (h : c.annotationSet offset = .ok names) :
    names.length = c.data.u4 offset ∧ offset + 4 + 4 * names.length ≤ c.data.size := by
  unfold annotationSet at h
  rw [if_neg hoffset] at h
  obtain ⟨count, hcount, h⟩ := exists_of_bind_eq_ok h
  rw [← run_nextAnnotation] at h
  obtain ⟨hlength, hroom⟩ :=
    Loop.of_collected id c.advances_nextAnnotation h (Layout.le_size_of_u4 hcount)
  rw [hlength]
  exact ⟨eq_of_u4 hcount, hroom⟩

/-- A code item has as many units as it says, and all of them lie within the bytes. -/
theorem code_within {offset registers : Nat} {units : List Nat} (hoffset : offset ≠ 0)
    (h : c.code offset = .ok (registers, units)) :
    units.length = c.data.u4 (offset + 12) ∧ offset + 16 + 2 * units.length ≤ c.data.size := by
  unfold code at h
  rw [if_neg hoffset] at h
  obtain ⟨_, -, h⟩ := exists_of_bind_eq_ok h
  obtain ⟨_, hunits, h⟩ := exists_of_bind_eq_ok h
  obtain ⟨-, rfl⟩ := Prod.mk.inj (Except.ok.inj h)
  rw [List.length_map, List.length_range]
  exact ⟨rfl, Layout.le_size_of_require hunits⟩

/-- The class data of a class that can be read say how many fields and methods it has, and with two
numbers for each field and three for each method all of them lie within the bytes. -/
theorem members_within {index : Nat} {info : ClassInfo} (h : c.readClass index = .ok info) :
    ∃ d, c.classDef index = .ok d ∧
      (d.dataOffset = 0 → info.fields = [] ∧ info.methods = []) ∧
      (d.dataOffset ≠ 0 → ∃ statics instances directs virtuals stop,
        c.NumbersAt d.dataOffset [statics, instances, directs, virtuals] stop ∧
        info.fields.length = statics + instances ∧ info.methods.length = directs + virtuals ∧
        d.dataOffset + 4 + 2 * info.fields.length + 3 * info.methods.length ≤ c.data.size) := by
  obtain ⟨d, directory, hd, hdirectory, -, -, hnone, hsome⟩ := exists_of_readClass h
  refine ⟨d, hd, hnone, ?_⟩
  intro hdata
  obtain ⟨data, stop, hnumbers, hfields, hmethods⟩ :=
    exists_classData (assigns_of_annotationsDirectory hdirectory) (hsome hdata)
  obtain ⟨next, hcounts, -⟩ := hnumbers.of_append
  have hlength := hnumbers.length_le
  have hstop := hnumbers.stop_le_size nofun
  rw [data.length_numbers] at hlength
  refine ⟨_, _, _, _, next, hcounts, hfields.length_eq, hmethods.length_eq, ?_⟩
  rw [hfields.length_eq, hmethods.length_eq]
  omega

/-! ## All loops -/

/-- No loop of a reader begins more rounds than the bound says, whatever the counts and offsets that
it is given. -/
structure LoopsBounded (c : Container) (bound : Nat) : Prop where
  number : ∀ offset, Loop.Bounded (Leb128.groupRound c.data) Leb128.maxBytes ⟨0, 1, offset⟩
    Leb128.finish (Leb128.read c.data offset) bound
  typeNames : ∀ count offset, Loop.Bounded (Loop.collect c.nextTypeName) count (offset, [])
    (Except.map (·.2)) (c.typeNames count offset) bound
  setEntries : ∀ count offset, Loop.Bounded (Loop.collect c.nextAnnotation) count (offset, [])
    (Except.map (·.2)) (c.setEntries count offset) bound
  memberAnnotations : ∀ count offset, Loop.Bounded (Loop.collect c.nextEntry) count (offset, [])
    (Except.map (·.2)) (c.memberAnnotations count offset) bound
  readFields : ∀ annotations count last offset,
    Loop.Bounded (Loop.collect (c.nextField annotations)) count ((last, offset), [])
      (Except.map fun s => (s.2, s.1.2)) (c.readFields annotations count last offset) bound
  readMethods : ∀ annotations count last offset,
    Loop.Bounded (Loop.collect (c.nextMethod annotations)) count ((last, offset), [])
      (Except.map fun s => (s.2, s.1.2)) (c.readMethods annotations count last offset) bound
  classes : Loop.Bounded c.classRound c.header.classes.count (0, []) finishClasses c.classes bound

/-- In an accepted container every loop ends in time. Each of them but two moves forward by two
bytes at least; a number may take six bytes, and the header has been checked for the classes. -/
theorem loopsBounded {data : Bytes} (h : ofBytes data = .ok c) : c.LoopsBounded c.data.size := by
  obtain ⟨rfl, hheader⟩ := ofBytes_eq_ok h
  have hsize : 112 ≤ c.data.size := Header.size_le hheader
  have hclasses := Header.classTable_within hheader
  have htwo : 2 ≤ c.data.size := by omega
  constructor
  · intro offset
    refine ⟨?_, Nat.le_trans (Loop.rounds_le_count _ _ _) (by unfold Leb128.maxBytes; omega)⟩
    rw [Leb128.finish_run, Leb128.read]
    cases Leb128.readWithin c.data Leb128.maxBytes offset <;> simp [Except.map]
  · exact fun count offset => ⟨c.run_nextTypeName count offset,
      c.advances_nextTypeName.rounds_le_bound (by decide) htwo _ _⟩
  · exact fun count offset => ⟨c.run_nextAnnotation count offset,
      c.advances_nextAnnotation.rounds_le_bound (by decide) htwo _ _⟩
  · exact fun count offset => ⟨c.run_nextEntry count offset,
      c.advances_nextEntry.rounds_le_bound (by decide) htwo _ _⟩
  · exact fun annotations count last offset => ⟨c.run_nextField annotations count last offset,
      (c.advances_nextField annotations).rounds_le_bound (by decide) htwo _ _⟩
  · exact fun annotations count last offset => ⟨c.run_nextMethod annotations count last offset,
      (c.advances_nextMethod annotations).rounds_le_bound (by decide) htwo _ _⟩
  · refine ⟨c.finish_run_classRound _ _ _, Nat.le_trans (Loop.rounds_le_count _ _ _) ?_⟩
    unfold classDefSize at hclasses
    omega

/-- Counts do not outgrow an accepted container. The class data of a class that can be read have
exactly the members that they say, and the class data, a type list, an annotation set and a code
item end within the bytes together with all that they count; a class without class data has no
members. Whatever a count says, no loop begins more rounds than there are bytes. -/
theorem counts_within_bytes {data : Bytes} (h : ofBytes data = .ok c) :
    (∀ index info, c.readClass index = .ok info → ∃ d, c.classDef index = .ok d ∧
      (d.dataOffset = 0 → info.fields = [] ∧ info.methods = []) ∧
      (d.dataOffset ≠ 0 → ∃ statics instances directs virtuals stop,
        c.NumbersAt d.dataOffset [statics, instances, directs, virtuals] stop ∧
        info.fields.length = statics + instances ∧ info.methods.length = directs + virtuals ∧
        d.dataOffset + 4 + 2 * info.fields.length + 3 * info.methods.length ≤ data.size)) ∧
    (∀ offset names, offset ≠ 0 → c.typeList offset = .ok names →
      names.length = data.u4 offset ∧ offset + 4 + 2 * names.length ≤ data.size) ∧
    (∀ offset names, offset ≠ 0 → c.annotationSet offset = .ok names →
      names.length = data.u4 offset ∧ offset + 4 + 4 * names.length ≤ data.size) ∧
    (∀ offset registers units, offset ≠ 0 → c.code offset = .ok (registers, units) →
      units.length = data.u4 (offset + 12) ∧ offset + 16 + 2 * units.length ≤ data.size) ∧
    c.LoopsBounded data.size := by
  have hloops := loopsBounded h
  obtain ⟨rfl, -⟩ := ofBytes_eq_ok h
  exact ⟨fun _ _ => members_within, fun _ _ => typeList_within, fun _ _ => annotationSet_within,
    fun _ _ _ => code_within, hloops⟩

/-- The class with annotated members: its member list and its annotations stay within the 311 bytes
of the container. -/
theorem counts_within_bytes_annotatedMembers :
    ∃ c, ofBytes annotatedMembers = .ok c ∧ annotatedMembers.size = 311 ∧
      (∃ d, c.readClass 0 = .ok annotatedClass ∧ c.classDef 0 = .ok d ∧ d.dataOffset = 274 ∧
        274 + 4 + 2 * annotatedClass.fields.length + 3 * annotatedClass.methods.length ≤ 311) ∧
      (∃ names, c.annotationSet 252 = .ok names ∧ names.length = 1 ∧ 252 + 4 + 4 * 1 ≤ 311) ∧
      c.LoopsBounded 311 := by
  have hsize : annotatedMembers.size = 311 := by decide +kernel
  have hread := readClass_annotatedMembers
  obtain ⟨hmembers, -, hset, -, hloops⟩ :=
    counts_within_bytes (ofBytes_of_header header_annotatedMembers)
  rw [hsize] at hmembers hset hloops
  refine ⟨_, ofBytes_of_header header_annotatedMembers, hsize, ?_, ?_, hloops⟩
  · obtain ⟨d, hd, -, hdata⟩ := hmembers 0 _ hread
    obtain rfl := Except.ok.inj (classDef_annotatedMembers.symm.trans hd)
    obtain ⟨_, _, _, _, _, -, -, -, hroom⟩ := hdata (by decide)
    exact ⟨_, hread, hd, rfl, hroom⟩
  · have hnames : (ofLayout ⟨annotatedMembers, annotatedMembersHeader⟩).annotationSet 252 =
        .ok ["X"] := eq_ok_of_toOption (by decide +kernel)
    obtain ⟨-, hroom⟩ := hset 252 _ (by decide) hnames
    exact ⟨_, hnames, rfl, hroom⟩

end Container

end DexListing
