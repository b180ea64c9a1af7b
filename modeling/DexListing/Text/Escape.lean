/-!
# Terminal escape sequences

A sequence that controls a terminal: the escape character and an opening bracket, then parameter
characters, then intermediate ones, then one final character. All of them are ASCII.
-/

set_option autoImplicit false

namespace DexListing.Text

/-- The character may stand right after the bracket: a digit or one of `:;<=>?`. -/
def isEscapeParameter (c : Char) : Bool :=
  '0' ≤ c && c ≤ '?'

/-- The character may stand between the parameters and the final character. -/
def isEscapeIntermediate (c : Char) : Bool :=
  ' ' ≤ c && c ≤ '/'

/-- The character ends a sequence. -/
def isEscapeFinal (c : Char) : Bool :=
  '@' ≤ c && c ≤ '~'

/-- What follows the escape sequence whose rest after the bracket these characters start with. -/
def afterSequence? (cs : List Char) : Option (List Char) :=
  match (cs.dropWhile isEscapeParameter).dropWhile isEscapeIntermediate with
  | c :: rest => if isEscapeFinal c then some rest else none
  | [] => none

/-- A control sequence takes at least a character. -/
theorem length_afterSequence? {cs rest : List Char} (h : afterSequence? cs = some rest) :
    rest.length < cs.length := by
  unfold afterSequence? at h
  have hparameters := (List.dropWhile_suffix isEscapeParameter (l := cs)).length_le
  have hintermediate :=
    (List.dropWhile_suffix isEscapeIntermediate (l := cs.dropWhile isEscapeParameter)).length_le
  split at h
  · next c tail heq =>
    rw [heq, List.length_cons] at hintermediate
    split at h
    · simp only [Option.some.injEq] at h
      subst h
      omega
    · simp at h
  · simp at h

/-- The characters without escape sequences. -/
def dropEscapes (cs : List Char) : List Char :=
  match cs with
  | [] => []
  | '\x1b' :: '[' :: rest =>
    match _h : afterSequence? rest with
    | some after => dropEscapes after
    | none => '\x1b' :: dropEscapes ('[' :: rest)
  | c :: rest => c :: dropEscapes rest
termination_by cs.length
decreasing_by
  · have := length_afterSequence? _h
    simp only [List.length_cons]
    omega
  · simp only [List.length_cons]
    omega
  · simp only [List.length_cons]
    omega

/-- The text without escape sequences. -/
def withoutEscapes (s : String) : String :=
  String.ofList (dropEscapes s.toList)

end DexListing.Text
