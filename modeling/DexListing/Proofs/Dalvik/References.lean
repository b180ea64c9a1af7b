import DexListing.Proofs.Dalvik.Access

/-!
# The entries that a class refers to

Of the entries that a class refers to, strings and types are checked against the declared counts of
their tables; prototypes, fields and methods are only checked against the end of the bytes. So a
class that can be read refers to strings and types that exist, and to entries of the other tables
that lie within the bytes (`Container.references_of_readClass`); but such an entry may lie past
its table, in whatever the bytes there hold (`Container.reads_past_tables`).
-/

set_option autoImplicit false

namespace DexListing

namespace RecordedRead

variable {c : Container} {α β : Type}

/-- A computation has a result whatever has been recorded before, and if it does not fail then all
entries that it adds to the record are reached. -/
def Notes (c : Container) (x : RecordedRead α) (r : Except ContainerError α) : Prop :=
  ∃ added : List Reference, (∀ record, x record = (r, added ++ record)) ∧
    ∀ v, r = .ok v → ∀ reference ∈ added, c.Reaches reference

/-- Reading in two steps notes what both steps look up. -/
theorem Notes.bind {x : RecordedRead α} {r : Except ContainerError α} {f : α → RecordedRead β}
    {g : α → Except ContainerError β} (hx : Notes c x r)
    (hthen : ∀ v, r = .ok v → Notes c (f v) (g v)) : Notes c (x >>= f) (r >>= g) := by
  obtain ⟨first, hrun, hfirst⟩ := hx
  have hstep : ∀ record, (x >>= f) record = match x record with
      | (.ok v, after) => f v after
      | (.error e, after) => (.error e, after) := by
    intro record
    change (ExceptT.bindCont f (x record).1) (x record).2 = _
    rcases x record with ⟨_ | _, _⟩ <;> rfl
  cases r with
  | error e =>
    refine ⟨first, ?_, fun _ => nofun⟩
    intro record
    rw [hstep, hrun]
    rfl
  | ok v =>
    obtain ⟨second, hrest, hsecond⟩ := hthen v rfl
    refine ⟨second ++ first, ?_, ?_⟩
    · intro record
      rw [hstep, hrun, List.append_assoc]
      exact hrest _
    · intro w hw reference hmem
      rcases List.mem_append.mp hmem with hmem | hmem
      · exact hsecond w hw reference hmem
      · exact hfirst v rfl reference hmem

/-- A value looks nothing up. -/
theorem Notes.pure (v : α) : Notes c (Pure.pure v) (.ok v) :=
  ⟨[], fun _ => rfl, fun _ _ _ => nofun⟩

/-- Going to an entry adds it to the record. -/
theorem notes_entry {table : TableName} {index : Nat} {x : Except ContainerError α}
    (hreaches : ∀ v, x = .ok v → c.Reaches ⟨table, index⟩) :
    Notes c ((Access.recorded c).entry table index x) x := by
  refine ⟨[⟨table, index⟩], fun _ => rfl, ?_⟩
  intro v hv reference hmem
  obtain rfl := List.mem_singleton.mp hmem
  exact hreaches v hv

/-- Every step of a reader with a record gives what the container says, and goes to entries that are
reached. -/
theorem relates (c : Container) : (Access.recorded c).Relates c (Notes c) where
  pure v := .pure v
  bind := Notes.bind
  map f _ r hx := by
    have hmap := hx.bind (g := fun v => .ok (f v)) fun v _ => Notes.pure (f v)
    have hresult : r >>= (fun v => Except.ok (f v)) = f <$> r := by cases r <;> rfl
    rwa [hresult] at hmap
  look x := by
    refine ⟨[], fun _ => rfl, fun _ _ _ => nofun⟩
  entry := notes_entry
  string index := by
    have hentry := notes_entry (x := c.toLayout.string index) fun _ => Container.reaches_string
    exact hentry
  mapError f _ r hx := by
    obtain ⟨added, hrun, hadded⟩ := hx
    refine ⟨added, ?_, ?_⟩
    · intro record
      change ((_ : Except ContainerError _ × List Reference).1.mapError f, _) = _
      rw [hrun]
    · intro v hv
      cases r with
      | error e => exact nomatch hv
      | ok w => exact hadded w rfl

end RecordedRead

namespace Container

/-- A reader that records the entries it goes to reads a class as the container does. If it can be
read, then the strings and types that it refers to have an index below the declared counts, and the
prototypes, fields and methods lie within the bytes. If one of the strings or types has an index
past its table, then the class cannot be read. -/
theorem references_of_readClass (c : Container) (index : Nat) :
    ∃ references, (Access.recorded c).readClass c index [] = (c.readClass index, references) ∧
      (∀ info, c.readClass index = .ok info → ∀ r ∈ references,
        match r.table with
        | .strings | .types => r.index < (c.header.table r.table).count
        | _ => (c.header.table r.table).offset + (r.index + 1) * r.table.entrySize ≤
          c.data.size) ∧
      ((∃ r ∈ references, (r.table = .strings ∨ r.table = .types) ∧
        (c.header.table r.table).count ≤ r.index) → ∃ e, c.readClass index = .error e) := by
  obtain ⟨references, hrun, hreaches⟩ := (RecordedRead.relates c).readClass index
  refine ⟨references, (hrun []).trans (by rw [List.append_nil]), ?_, ?_⟩
  · intro info hinfo r hr
    have hreached := hreaches info hinfo r hr
    unfold Reaches at hreached
    rcases r with ⟨table, i⟩
    cases table <;> simp only [Nat.add_mul, Nat.one_mul] at hreached ⊢ <;> omega
  · rintro ⟨r, hr, htable, hcount⟩
    cases hread : c.readClass index with
    | error e => exact ⟨e, rfl⟩
    | ok info =>
      have hreached := hreaches info hread r hr
      unfold Reaches at hreached
      rcases htable with htable | htable
      · rw [htable] at hreached hcount
        exact absurd hreached (Nat.not_lt.mpr hcount)
      · rw [htable] at hreached hcount
        exact absurd hreached (Nat.not_lt.mpr hcount)

/-- A container whose header declares no prototypes, no fields and no methods. Its class, `A`, has
the field and the method `m` all the same. -/
def emptyTables : Bytes :=
  (magic ++ [0x30, 0x33, 0x35, 0] ++ List.replicate 48 0
    ++ [2, 112, 1, 120, 0, 124, 0, 136, 0, 144, 1, 152, 0, 0].flatMap (Bytes.littleEndian 4)
    -- two strings, one type, and past the tables a prototype, a field and a method
    ++ [184, 189, 0, 0, 0, 0].flatMap (Bytes.littleEndian 4)
    ++ [0, 1, 0, 1].flatMap (Bytes.littleEndian 4)
    ++ [0, 1, noIndex, 0, noIndex, 0, 192, 0].flatMap (Bytes.littleEndian 4)
    ++ [3, 0x4C, 0x41, 0x3B, 0, 1, 0x6D, 0]
    ++ [1, 0, 1, 0, 0, 1, 0, 1, 0]).toArray

/-- The header of `emptyTables`. -/
def emptyTablesHeader : Header :=
  ⟨"035", ⟨2, 112⟩, ⟨1, 120⟩, ⟨0, 124⟩, ⟨0, 136⟩, ⟨0, 144⟩, ⟨1, 152⟩⟩

/-- A class can be read that refers to a prototype, a field and a method past their tables. -/
theorem reads_past_tables :
    ∃ c, ofBytes emptyTables = .ok c ∧
      c.header.protos.count = 0 ∧ c.header.fields.count = 0 ∧ c.header.methods.count = 0 ∧
      ∃ info references, (Access.recorded c).readClass c 0 [] = (.ok info, references) ∧
        ⟨.protos, 0⟩ ∈ references ∧ ⟨.fields, 0⟩ ∈ references ∧ ⟨.methods, 0⟩ ∈ references := by
  have hheader : (Header.ofBytes emptyTables).toOption = some emptyTablesHeader := by
    decide +kernel
  refine ⟨_, ofBytes_of_header hheader, rfl, rfl, rfl, ?_⟩
  generalize hrun : (Access.recorded (ofLayout ⟨emptyTables, emptyTablesHeader⟩)).readClass
    (ofLayout ⟨emptyTables, emptyTablesHeader⟩) 0 [] = run
  have hread : run.1.toOption = some ⟨"A", 1, none, [], none, [], [⟨"m", "A", 1, []⟩],
      [⟨"m", "A", [], 1, [], 0, []⟩]⟩ := by
    rw [← hrun]
    decide +kernel
  have hrecord : ⟨.protos, 0⟩ ∈ run.2 ∧ ⟨.fields, 0⟩ ∈ run.2 ∧ ⟨.methods, 0⟩ ∈ run.2 := by
    rw [← hrun]
    decide +kernel
  rcases run with ⟨result, references⟩
  cases result with
  | error e => exact nomatch hread
  | ok info => exact ⟨info, references, rfl, hrecord⟩

end Container

end DexListing
