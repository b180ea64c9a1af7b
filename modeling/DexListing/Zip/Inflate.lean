import DexListing.Zip.BlockCodes

/-!
# Inflation

The content of a deflated byte string: a sequence of blocks, each stored as it is or coded with
prefix codes. A coded block is a sequence of literal bytes and of copies of what came before.

An inflater can be given its bytes and its room for output bit by bit. It goes on as far as it can
with what it has: it pauses when the bits of the next item are not all there, or when a byte is to
be put out and there is no room left. It does not pause before an item only because there is no
room, so that a fault can be met as soon as the bits that show it are there.
-/

set_option autoImplicit false

namespace DexListing.Zip

/-- What an inflater does next. -/
inductive Phase
  | header
  | stored (left : Nat)
  | item (codes : BlockCodes)
  | literal (codes : BlockCodes) (b : UInt8)
  | copy (codes : BlockCodes) (length distance : Nat)
  | finished

/-- An inflater: the position of the next bit, whether the block it is in is the last one, what it
does next and what it has put out so far. -/
structure Inflater where
  position : Nat
  isLast : Bool
  phase : Phase
  output : Bytes

/-- Why an inflater stops. -/
inductive Pause
  | needsInput
  | needsRoom
  | finished
  | corrupt (fault : DeflateFault)
  deriving DecidableEq, Repr

/-- The pause that a stop in reading bits amounts to. -/
def Stop.pause : Stop → Pause
  | outOfBits => .needsInput
  | corrupt fault => .corrupt fault

/-- The distance of a copy. -/
def readDistance (data : Bytes) (code : PrefixCode) (position : Nat) :
    Except Stop (Nat × Nat) := do
  let (symbol, position) ← code.decode data position
  match symbol.bind (distanceRules[·]?) with
  | none => throw (.corrupt .distanceCode)
  | some rule => extended data rule position

/-- The item at a position of a coded block, as what is to be done next. -/
def readItem (data : Bytes) (codes : BlockCodes) (position : Nat) : Except Stop (Phase × Nat) := do
  let (symbol, position) ← codes.literals.decode data position
  match symbol with
  | none => throw (.corrupt .literalCode)
  | some symbol =>
    if symbol < 256 then return (.literal codes (UInt8.ofNat symbol), position)
    else if symbol = 256 then return (.header, position)
    else
      match lengthRules[symbol - 257]? with
      | none => throw (.corrupt .literalCode)
      | some rule =>
        let (length, position) ← extended data rule position
        let (distance, position) ← readDistance data codes.distances position
        return (.copy codes length distance, position)

/-- The start of a stored block: at the next whole byte its length and the complement of it. -/
def readStoredLength (data : Bytes) (position : Nat) : Except Stop (Nat × Nat) :=
  let start := (position + 7) / 8
  if start + 4 > data.size then .error .outOfBits
  else
    let length := data.u2 start
    if length + data.u2 (start + 2) ≠ 0xFFFF then .error (.corrupt .storedLengths)
    else .ok (length, 8 * (start + 4))

/-- The header of a block: whether the block is the last one, and what is to be done next. -/
def readHeader (data : Bytes) (position : Nat) : Except Stop (Bool × Phase × Nat) := do
  let (header, position) ← bits data 3 position
  let isLast := header % 2 == 1
  match header / 2 with
  | 0 =>
    let (length, position) ← readStoredLength data position
    return (isLast, .stored length, position)
  | 1 => return (isLast, .item fixedCodes, position)
  | 2 =>
    let (codes, position) ← readCodes data position
    return (isLast, .item codes, position)
  | _ => throw (.corrupt .blockType)

/-- Appends `length` bytes, each a copy of the one `distance` before it. -/
def copyBack : (length distance : Nat) → Bytes → Bytes
  | 0, _, output => output
  | length + 1, distance, output =>
    copyBack length distance (output.push (output.getD (output.size - distance) 0))

/-- How many of `wanted` bytes can be put out after `produced` ones. -/
def allowed (room : Option Nat) (produced wanted : Nat) : Nat :=
  match room with
  | none => wanted
  | some room => min wanted (room - produced)

namespace Inflater

/-- An inflater that has not started. -/
def start : Inflater := ⟨0, false, .header, #[]⟩

/-- The inflater after it has put out more and gone to a phase. -/
def emit (phase : Phase) (more : Bytes → Bytes) : Inflater → Inflater
  | ⟨position, isLast, _, output⟩ => ⟨position, isLast, phase, more output⟩

/-- One step of an inflater with the bytes there are and room for so many bytes of output in all,
or for all of them. -/
def step (data : Bytes) (room : Option Nat) (s : Inflater) : Inflater × Option Pause :=
  match s.phase with
  | .finished => (s, some .finished)
  | .header =>
    if s.isLast then ({ s with phase := .finished }, none)
    else
      match readHeader data s.position with
      | .error stop => (s, some stop.pause)
      | .ok (isLast, phase, position) => ({ s with position, isLast, phase }, none)
  | .stored left =>
    if left = 0 then ({ s with phase := .header }, none)
    else
      let start := s.position / 8
      let count := min (allowed room s.output.size left) (data.size - start)
      if count = 0 then (s, some (if data.size ≤ start then .needsInput else .needsRoom))
      else
        let piece := data.extract start (start + count)
        ({ s.emit (.stored (left - count)) (· ++ piece) with position := 8 * (start + count) },
          none)
  | .item codes =>
    match readItem data codes s.position with
    | .error stop => (s, some stop.pause)
    | .ok (phase, position) => ({ s with position, phase }, none)
  | .literal codes b =>
    if allowed room s.output.size 1 = 0 then (s, some .needsRoom)
    else (s.emit (.item codes) (·.push b), none)
  | .copy codes length distance =>
    let count := allowed room s.output.size length
    if count = 0 then (s, some .needsRoom)
    else if distance > s.output.size then (s, some (.corrupt .distanceTooFar))
    else
      let phase := if count = length then .item codes else .copy codes (length - count) distance
      (s.emit phase (copyBack count distance), none)

/-- At most `limit` steps. -/
def steps (data : Bytes) (room : Option Nat) : (limit : Nat) → Inflater → Inflater × Pause
  | 0, s => (s, .needsInput)
  | limit + 1, s =>
    match s.step data room with
    | (s, some pause) => (s, pause)
    | (s, none) => steps data room limit s

/-- Goes on until a pause. Every second step takes a bit or is the last one, so twice as many steps
as there are bits are enough, but for those at the start and at the end. -/
def advance (s : Inflater) (data : Bytes) (room : Option Nat) : Inflater × Pause :=
  steps data room (16 * data.size + 4) s

/-- How many of the bytes there are an inflater has not looked at when it pauses. -/
def unread (s : Inflater) (data : Bytes) (pause : Pause) : Nat :=
  if pause = .needsInput then 0 else data.size - (s.position + 7) / 8

end Inflater

end DexListing.Zip
