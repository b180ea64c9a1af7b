import DexListing.Dalvik.AccessFlags

/-!
# Classes as a listing sees them

A class with its members, every reference resolved to a readable name.
-/

set_option autoImplicit false

namespace DexListing

/-- A field of a class. -/
structure FieldInfo where
  name : String
  typeName : String
  accessFlags : AccessFlags
  annotations : List String
  deriving DecidableEq, Repr

/-- A method of a class; `code` holds its instructions as 16-bit units. -/
structure MethodInfo where
  name : String
  returnType : String
  parameters : List String
  accessFlags : AccessFlags
  annotations : List String
  registers : Nat
  code : List Nat
  deriving DecidableEq, Repr

/-- A class with its members in the order of the container. -/
structure ClassInfo where
  name : String
  accessFlags : AccessFlags
  superclass : Option String
  interfaces : List String
  sourceFile : Option String
  annotations : List String
  fields : List FieldInfo
  methods : List MethodInfo
  deriving DecidableEq, Repr

/-- The characters after the last dot; all of them where there is none. -/
def afterLastDot (cs : List Char) : List Char :=
  (cs.reverse.takeWhile (· ≠ '.')).reverse

/-- The characters before the last dot; none where there is none. -/
def beforeLastDot (cs : List Char) : List Char :=
  ((cs.reverse.dropWhile (· ≠ '.')).drop 1).reverse

/-- The name of a class without its package. -/
def ClassInfo.simpleName (c : ClassInfo) : String :=
  String.ofList (afterLastDot c.name.toList)

/-- The package of a class, empty for a class outside any. -/
def ClassInfo.package (c : ClassInfo) : String :=
  String.ofList (beforeLastDot c.name.toList)

end DexListing
