/-!
# Type descriptors

A descriptor is a number of opening brackets, one for each array dimension, before the descriptor
of the element type: a letter for a primitive type, or a class name between `L` and `;` with
slashes between its segments. In a listing types have readable names: dotted class names, keywords
for the primitive types, and a pair of brackets after the name for each dimension.
-/

set_option autoImplicit false

namespace DexListing.Descriptor

/-- The keyword of a primitive type, by its letter. -/
def primitiveKeyword? : Char → Option String
  | 'V' => some "void"
  | 'Z' => some "boolean"
  | 'B' => some "byte"
  | 'S' => some "short"
  | 'C' => some "char"
  | 'I' => some "int"
  | 'J' => some "long"
  | 'F' => some "float"
  | 'D' => some "double"
  | _ => none

/-- The characters between `L` and `;`, if the two stand at the ends. -/
def className? : List Char → Option (List Char)
  | 'L' :: rest => if rest.getLast? = some ';' then some rest.dropLast else none
  | _ => none

/-- The readable name of an element type: any text that is no descriptor stands for itself. -/
def elementName (element : List Char) : List Char :=
  match className? element with
  | some name => name.map fun c => if c = '/' then '.' else c
  | none =>
    match element with
    | [letter] => ((primitiveKeyword? letter).map String.toList).getD element
    | _ => element

/-- The readable name of a descriptor, on characters. -/
def nameChars (descriptor : List Char) : List Char :=
  let dimensions := (descriptor.takeWhile (· = '[')).length
  elementName (descriptor.drop dimensions) ++ (List.replicate dimensions ['[', ']']).flatten

/-- The readable name of a descriptor. -/
def name (descriptor : String) : String :=
  String.ofList (nameChars descriptor.toList)

end DexListing.Descriptor
