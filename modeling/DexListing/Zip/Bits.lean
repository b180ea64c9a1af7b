import DexListing.Bytes.Basic

/-!
# Compressed bits

A deflated byte string is read bit by bit, the lowest bit of each byte first. Reading stops where
the bits run out, or where they make no sense.
-/

set_option autoImplicit false

namespace DexListing.Zip

/-- What makes a deflated byte string corrupt. -/
inductive DeflateFault
  | blockType
  | storedLengths
  | tooManySymbols
  | codeLengths
  | lengthRepeat
  | missingEndOfBlock
  | literalLengths
  | distances
  | literalCode
  | distanceCode
  | distanceTooFar
  deriving DecidableEq, Repr

/-- A fault in words. -/
def DeflateFault.description : DeflateFault → String
  | blockType => "invalid block type"
  | storedLengths => "invalid stored block lengths"
  | tooManySymbols => "too many length or distance symbols"
  | codeLengths => "invalid code lengths set"
  | lengthRepeat => "invalid bit length repeat"
  | missingEndOfBlock => "invalid code -- missing end-of-block"
  | literalLengths => "invalid literal/lengths set"
  | distances => "invalid distances set"
  | literalCode => "invalid literal/length code"
  | distanceCode => "invalid distance code"
  | distanceTooFar => "invalid distance too far back"

/-- What is said about a corrupt byte string. -/
def DeflateFault.message (f : DeflateFault) : String :=
  "Error -3 while decompressing data: " ++ f.description

/-- Why reading stops before the end of the stream. -/
inductive Stop
  | outOfBits
  | corrupt (fault : DeflateFault)
  deriving DecidableEq, Repr

/-- The bit at a position and the position after it. -/
def bit (data : Bytes) (position : Nat) : Except Stop (Nat × Nat) :=
  match data[position / 8]? with
  | none => .error .outOfBits
  | some b => .ok (b.toNat >>> (position % 8) % 2, position + 1)

/-- The number in `count` bits from a position on, the lowest first, and the position after
them. -/
def bits (data : Bytes) : (count position : Nat) → Except Stop (Nat × Nat)
  | 0, position => .ok (0, position)
  | count + 1, position => do
    let (low, position) ← bit data position
    let (high, position) ← bits data count position
    return (low + 2 * high, position)

end DexListing.Zip
