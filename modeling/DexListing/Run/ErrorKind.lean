/-!
# Kinds of errors

The errors of a run form a tree: whoever handles a kind handles all kinds below it.
-/

set_option autoImplicit false

namespace DexListing

/-- The kinds of errors that a run can report; `any` is above all others. -/
inductive ErrorKind
  | any
  | configuration
  | writerResolution
  | noInputs
  | input
  | inputNotFound
  | missingMember
  | containerFormat
  | extraction
  | unsafeOutput
  deriving DecidableEq, Repr

namespace ErrorKind

/-- The kind directly above. -/
def parent? : ErrorKind → Option ErrorKind
  | any => none
  | configuration | noInputs | input | extraction | unsafeOutput => some any
  | writerResolution => some configuration
  | inputNotFound | missingMember | containerFormat => some input

/-- The number of kinds above. -/
def depth : ErrorKind → Nat
  | any => 0
  | configuration | noInputs | input | extraction | unsafeOutput => 1
  | writerResolution | inputNotFound | missingMember | containerFormat => 2

/-- A kind is deeper than the one it is derived from. -/
theorem depth_lt_of_parent? {k p : ErrorKind} (h : k.parent? = some p) : p.depth < k.depth := by
  cases k <;> simp only [parent?, Option.some.injEq, reduceCtorEq] at h <;> subst h <;> decide

/-- The kind itself and those above it, the nearest first. -/
def lineage (k : ErrorKind) : List ErrorKind :=
  match _h : k.parent? with
  | none => [k]
  | some p => k :: p.lineage
termination_by k.depth
decreasing_by exact depth_lt_of_parent? _h

end ErrorKind

end DexListing
