import DexListing.Bytes.Basic
import DexListing.OrderedMap

/-!
# File trees

A file tree assigns a node to locations: a directory, a file with its content, or a symbolic link
with its target. Whatever has a node stands in a directory. The root is a directory.
-/

set_option autoImplicit false

namespace DexListing

/-- What stands at a location. -/
inductive Node
  | directory
  | file (content : Bytes)
  | link (target : String)
  deriving DecidableEq

/-- A place in a file tree: the names on the way to it from the root. -/
abbrev Location := List String

/-- The nodes of a file tree by their trails, the root apart. The trail of a location consists of
its names from the innermost one on, so that the trails of neighbours differ at once. -/
structure FileTree where
  entries : List (List String × Node)
  closed : ∀ (x : String) (trail : List String) (n : Node), trail ≠ [] →
    OrderedMap.find? entries (x :: trail) = some n →
      OrderedMap.find? entries trail = some .directory

namespace FileTree

/-- The tree that has only the root. -/
def empty : FileTree := ⟨[], by intro x trail n _ h; simp [OrderedMap.find?] at h⟩

/-- The node at a location. -/
def get? (t : FileTree) (p : Location) : Option Node :=
  if p = [] then some .directory else OrderedMap.find? t.entries p.reverse

/-- Whatever has a node stands in a directory. -/
theorem get?_parent (t : FileTree) {p : Location} {x : String} {n : Node}
    (h : t.get? (p ++ [x]) = some n) : t.get? p = some .directory := by
  by_cases hp : p = []
  · simp [get?, hp]
  · rw [get?, if_neg (by simp), List.reverse_append] at h
    rw [get?, if_neg hp]
    exact t.closed x p.reverse n (by simpa using hp) h

/-- All nodes with their locations, the root apart. -/
def nodes (t : FileTree) : List (Location × Node) :=
  t.entries.map fun entry => (entry.1.reverse, entry.2)

/-- The number of nodes, the root apart. -/
def size (t : FileTree) : Nat := t.entries.length

/-- A node may be put where a directory stands around it, and never in place of a directory. -/
def Admits (t : FileTree) (p : Location) (n : Node) : Prop :=
  p ≠ [] ∧ t.get? p.dropLast = some .directory ∧
    (t.get? p = some .directory → n = .directory)

instance (t : FileTree) (p : Location) (n : Node) : Decidable (t.Admits p n) :=
  inferInstanceAs (Decidable (_ ∧ _ ∧ (_ → _)))

/-- Putting a node where it is admitted leaves every entry in a directory. -/
theorem closed_put (t : FileTree) {p : Location} {n : Node} (h : t.Admits p n) (x : String)
    (trail : List String) (m : Node) (ht : trail ≠ [])
    (hm : OrderedMap.find? (OrderedMap.put t.entries p.reverse n) (x :: trail) = some m) :
    OrderedMap.find? (OrderedMap.put t.entries p.reverse n) trail = some .directory := by
  obtain ⟨hp, hparent, hkeep⟩ := h
  rw [OrderedMap.find?_put] at hm ⊢
  by_cases hx : x :: trail = p.reverse
  · have hlast : p = trail.reverse ++ [x] := by rw [← List.reverse_cons, hx, List.reverse_reverse]
    subst hlast
    have hne : trail ≠ (trail.reverse ++ [x]).reverse := by simp
    simpa [get?, ht, hne] using hparent
  · rw [if_neg hx] at hm
    have hdir := t.closed x trail m ht hm
    by_cases htp : trail = p.reverse
    · subst htp
      simp [hkeep (by simp [get?, hp, hdir])]
    · simp [htp, hdir]

/-- Puts a node at a location that admits it; anywhere else nothing changes. -/
def put (t : FileTree) (p : Location) (n : Node) : FileTree :=
  if h : t.Admits p n then ⟨OrderedMap.put t.entries p.reverse n, t.closed_put h⟩ else t

/-- Erasing what is no directory leaves every entry in a directory. -/
theorem closed_erase (t : FileTree) {p : Location} (h : t.get? p ≠ some .directory)
    (x : String) (trail : List String) (m : Node) (ht : trail ≠ [])
    (hm : OrderedMap.find? (OrderedMap.erase t.entries p.reverse) (x :: trail) = some m) :
    OrderedMap.find? (OrderedMap.erase t.entries p.reverse) trail = some .directory := by
  rw [OrderedMap.find?_erase] at hm ⊢
  by_cases hx : x :: trail = p.reverse
  · simp [hx] at hm
  · rw [if_neg hx] at hm
    have hdir := t.closed x trail m ht hm
    by_cases htp : trail = p.reverse
    · have hp : p ≠ [] := by
        rintro rfl
        exact ht htp
      rw [htp] at hdir
      exact absurd (by simp [get?, hp, hdir]) h
    · simp [htp, hdir]

/-- Takes away the node at a location, unless it is a directory. -/
def erase (t : FileTree) (p : Location) : FileTree :=
  if h : t.get? p = some .directory then t
  else ⟨OrderedMap.erase t.entries p.reverse, t.closed_erase h⟩

/-- A node that is put is found at its place, and other places are as before. -/
theorem get?_put (t : FileTree) {p : Location} {n : Node} (h : t.Admits p n) (q : Location) :
    (t.put p n).get? q = if q = p then some n else t.get? q := by
  by_cases hq : q = []
  · subst hq
    simp [get?, Ne.symm h.1]
  · simp [put, h, get?, hq, OrderedMap.find?_put]

/-- Nothing is found at a place that is erased, and other places are as before. -/
theorem get?_erase (t : FileTree) {p : Location} (h : t.get? p ≠ some .directory)
    (q : Location) : (t.erase p).get? q = if q = p then none else t.get? q := by
  by_cases hq : q = []
  · subst hq
    have : p ≠ [] := fun hp => h (by simp [get?, hp])
    simp [get?, Ne.symm this]
  · have : (t.erase p).entries = OrderedMap.erase t.entries p.reverse := by simp [erase, h]
    simp [get?, hq, this, OrderedMap.find?_erase]

/-- A new or changed node of a tree, as it is after the change. -/
structure Change where
  location : Location
  node : Node

/-- The nodes of a tree that another one did not have. -/
def changesSince (t before : FileTree) : List Change :=
  (t.nodes.filter fun entry => before.get? entry.1 ≠ some entry.2).map fun entry =>
    ⟨entry.1, entry.2⟩

end FileTree

end DexListing
