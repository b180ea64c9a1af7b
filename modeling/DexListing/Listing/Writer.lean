import DexListing.Listing.JavaSource
import DexListing.OrderedMap
import DexListing.Listing.Plain

/-!
# Writers and their registry

A writer renders one class at a time. The registry keeps writers under names; the first one is the
default. A name is found as it is, or else by its key: the name in lower case without blanks.
-/

set_option autoImplicit false

namespace DexListing

/-- The writers. -/
inductive Writer
  | plain
  | java
  deriving DecidableEq, Repr

namespace Writer

/-- The name that a writer gives itself. -/
def title : Writer → String
  | plain => "Plain Dex"
  | java => "Java"

/-- The extension of the files that hold a writer's text. -/
def extension : Writer → String
  | plain => ".ddx"
  | java => ".java"

/-- The lines of a class. -/
def lines (w : Writer) (s : Selection) (c : ClassInfo) : List String :=
  match w with
  | plain => Plain.lines s c
  | java => JavaSource.lines s c

/-- The text of a class. -/
def render (w : Writer) (s : Selection) (c : ClassInfo) : String :=
  Text.unlines (w.lines s c)

end Writer

/-- Writers under distinct names, in order of registration; there is at least one. -/
structure Registry where
  writers : List (String × Writer)
  nodup : (writers.map Prod.fst).Nodup
  nonempty : writers ≠ []

namespace Registry

/-- The key of a name: in lower case, without blanks. -/
def lookupKey (name : String) : String :=
  String.ofList ((Text.lower name).toList.filter (· ≠ ' '))

/-- The names of the registered writers. -/
def names (r : Registry) : List String :=
  r.writers.map Prod.fst

/-- The keys of the registered names, each with the name that it stands for: the last one
registered, at the place of the first. -/
def keys (r : Registry) : List (String × String) :=
  OrderedMap.ofList (r.names.map fun name => (lookupKey name, name))

/-- The registered name that a text stands for: itself, or else the one with its key. White space
around the text does not matter. -/
def canonicalName? (r : Registry) (text : String) : Option String :=
  let name := Text.strip text
  if name ∈ r.names then some name else OrderedMap.find? r.keys (lookupKey name)

/-- The writer that a text stands for. -/
def writer? (r : Registry) (text : String) : Option Writer :=
  (r.canonicalName? text).bind (OrderedMap.find? r.writers)

/-- The name of the writer that is used where none is asked for. -/
def defaultName (r : Registry) : String :=
  (r.writers.head r.nonempty).1

/-- The writer that is used where none is asked for: what its name stands for. White space around
the name can keep it from being found; then this is another writer, or there is none. -/
def defaultWriter? (r : Registry) : Option Writer :=
  r.writer? r.defaultName

/-- What is said when a registry would have no writer. -/
def emptyMessage : String := "At least one writer must be registered"

/-- The registry of writers put under names one after the other; none if there are no writers. -/
def ofPairs? (pairs : List (String × Writer)) : Option Registry :=
  if h : OrderedMap.ofList pairs ≠ [] then
    some ⟨OrderedMap.ofList pairs, OrderedMap.nodup_keys_ofList pairs, h⟩
  else none

/-- The registry of the two writers under the names that they give themselves. -/
def standard : Registry where
  writers := [(Writer.plain.title, .plain), (Writer.java.title, .java)]
  nodup := by decide
  nonempty := by decide

end Registry

end DexListing
