import DexListing.Text.Hex

/-!
# UTF-8

Decoding of bytes as UTF-8. Bytes that are not UTF-8 have a first maximal invalid part: a lead byte
that starts no sequence is a part of its own, and a sequence that breaks off is a part as long as
it could still have been continued. Surrogates, overlong forms and values above the last code
point are invalid. There are two ways to go on from an invalid part: to put one replacement
character in its place, or to refuse the bytes.

A text holds no surrogates, so the third way, which keeps each invalid byte as a lone surrogate, is
left out; arguments are taken to be texts.
-/

set_option autoImplicit false

namespace DexListing.Text

/-- The character that stands for bytes that cannot be decoded. -/
def replacement : Char := '\ufffd'

/-- What a lead byte of a longer sequence asks for: the number of continuation bytes and the range
of the first of them. All further ones lie between `0x80` and `0xBF`. -/
structure SequenceRule where
  count : Nat
  low : UInt8
  high : UInt8

/-- The rule of a lead byte; none for the bytes that start no longer sequence. -/
def sequenceRule? (lead : UInt8) : Option SequenceRule :=
  if lead < 0xC2 then none
  else if lead < 0xE0 then some ⟨1, 0x80, 0xBF⟩
  else if lead = 0xE0 then some ⟨2, 0xA0, 0xBF⟩
  else if lead = 0xED then some ⟨2, 0x80, 0x9F⟩
  else if lead < 0xF0 then some ⟨2, 0x80, 0xBF⟩
  else if lead = 0xF0 then some ⟨3, 0x90, 0xBF⟩
  else if lead < 0xF4 then some ⟨3, 0x80, 0xBF⟩
  else if lead = 0xF4 then some ⟨3, 0x80, 0x8F⟩
  else none

/-- How many of the next bytes, at most `count`, continue a sequence. -/
def continuations : (count : Nat) → (low high : UInt8) → List UInt8 → Nat
  | 0, _, _, _ => 0
  | _ + 1, _, _, [] => 0
  | count + 1, low, high, b :: rest =>
    if low ≤ b && b ≤ high then continuations count 0x80 0xBF rest + 1 else 0

/-- How many values the low bits of a lead byte can have, by the number of continuation bytes. -/
def leadValues (count : Nat) : Nat := 0x40 >>> count

/-- The code point of a sequence: the low bits of the lead byte, then six bits of each
continuation byte. -/
def sequenceValue (lead : UInt8) (tail : List UInt8) : Nat :=
  tail.foldl (fun value b => value * 64 + b.toNat % 64) (lead.toNat % leadValues tail.length)

/-- What is wrong with a part of bytes that is not UTF-8. -/
inductive Utf8Fault
  | startByte
  | continuationByte
  | endOfData
  deriving DecidableEq, Repr

/-- A fault in words. -/
def Utf8Fault.description : Utf8Fault → String
  | startByte => "invalid start byte"
  | continuationByte => "invalid continuation byte"
  | endOfData => "unexpected end of data"

/-- The first character of non-empty bytes, or what is wrong with their first part, and how many
bytes after the first it takes. -/
def readChar (lead : UInt8) (rest : List UInt8) : Except Utf8Fault Char × Nat :=
  if lead < 0x80 then (.ok (Char.ofNat lead.toNat), 0)
  else
    match sequenceRule? lead with
    | none => (.error .startByte, 0)
    | some rule =>
      let taken := continuations rule.count rule.low rule.high rest
      if taken = rule.count then (.ok (Char.ofNat (sequenceValue lead (rest.take taken))), taken)
      else (.error (if taken = rest.length then .endOfData else .continuationByte), taken)

/-- All bytes as characters, with a replacement for every invalid part. -/
def decodeUtf8 : List UInt8 → List Char
  | [] => []
  | lead :: rest =>
    let next := readChar lead rest
    next.1.toOption.getD replacement :: decodeUtf8 (rest.drop next.2)
termination_by bytes => bytes.length
decreasing_by simp only [List.length_drop, List.length_cons]; omega

/-- All bytes as text, with a replacement for every invalid part. -/
def textOfUtf8 (bytes : List UInt8) : String :=
  String.ofList (decodeUtf8 bytes)

/-- The first invalid part of bytes that are not UTF-8. -/
structure InvalidPart where
  position : Nat
  bytes : List UInt8
  fault : Utf8Fault
  deriving DecidableEq, Repr

/-- Where the bytes of a part are: a single byte is shown, of several ones the first and the last
position. -/
def InvalidPart.place (part : InvalidPart) : String :=
  match part.bytes with
  | [b] => "byte 0x" ++ hex 2 b.toNat ++ s!" in position {part.position}"
  | bytes => s!"bytes in position {part.position}-{part.position + bytes.length - 1}"

/-- What is said about bytes that are not UTF-8. -/
def InvalidPart.message (part : InvalidPart) : String :=
  "'utf-8' codec can't decode " ++ part.place ++ ": " ++ part.fault.description

/-- The characters that bytes from a position on stand for, if all of them are UTF-8. -/
def charsOfUtf8 (position : Nat) (bytes : List UInt8) : Except InvalidPart (List Char) :=
  match bytes with
  | [] => .ok []
  | lead :: rest =>
    match readChar lead rest with
    | (.error fault, taken) => .error ⟨position, lead :: rest.take taken, fault⟩
    | (.ok c, taken) =>
      (charsOfUtf8 (position + 1 + taken) (rest.drop taken)).map (c :: ·)
termination_by bytes.length
decreasing_by simp only [List.length_drop, List.length_cons]; omega

/-- The text that bytes stand for, if they are UTF-8. -/
def textOfValidUtf8 (bytes : List UInt8) : Except InvalidPart String :=
  (charsOfUtf8 0 bytes).map String.ofList

/-- The bytes of a text. -/
def utf8OfText (s : String) : List UInt8 :=
  s.toList.flatMap String.utf8EncodeChar

end DexListing.Text
