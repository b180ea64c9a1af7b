/-!
# Remembered values

A function on the numbers that remembers its values below a bound: each of them is worked out when
it is first asked for, and kept. What is remembered is never anything but the value of the
function, so whoever asks cannot tell the difference.
-/

set_option autoImplicit false

namespace DexListing

/-- A function together with cells for its first values. -/
structure Memo (α : Type) where
  value : Nat → α
  cells : Array (Thunk α)
  get_cells : ∀ (i : Nat) (h : i < cells.size), cells[i].get = value i

namespace Memo

variable {α : Type}

/-- The function with cells for its values below a bound, none of them worked out yet. -/
def ofFunction (value : Nat → α) (bound : Nat) : Memo α where
  value
  cells := ((List.range bound).map fun i => Thunk.mk fun _ => value i).toArray
  get_cells := by
    intro i h
    simp [Thunk.get]

/-- The value for a number, from its cell if it has one. -/
def get (m : Memo α) (i : Nat) : α :=
  if h : i < m.cells.size then m.cells[i].get else m.value i

/-- A value is that of the function, whether or not there is a cell for it. -/
theorem get_eq (m : Memo α) (i : Nat) : m.get i = m.value i := by
  unfold get
  split
  · exact m.get_cells i _
  · rfl

end Memo

end DexListing
