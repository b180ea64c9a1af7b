import DexListing.Bytes.Basic

/-!
# Decoders of byte strings

A decoder is given the first bytes of a compressed byte string and puts out what these stand for. It
stops at the end of its stream, whatever follows, or where the bytes end or make no sense.
-/

set_option autoImplicit false

namespace DexListing.Zip

/-- Why a decoder halts before the end of its stream. -/
inductive Halt
  | needsInput
  | corrupt
  deriving DecidableEq, Repr

/-- What a decoder has put out, and whether it has come to the end of its stream. -/
structure Decoded where
  output : Bytes
  isFinished : Bool

/-- What a decoder has put out when it halts; nothing if its bytes make no sense. -/
def Halt.decoded (output : Bytes) : Halt → Option Decoded
  | needsInput => some ⟨output, false⟩
  | corrupt => none

end DexListing.Zip
