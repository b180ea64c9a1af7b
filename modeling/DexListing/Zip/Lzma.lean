import DexListing.Zip.Decoder
import DexListing.Zip.Inflate

/-!
# Lzma streams

An lzma stream is a sequence of literal bytes and of copies of what came before, as a deflated byte
string is. It is written in bits that are not all of one size: a range of numbers is divided in
proportion to the chances of the next bit, and the stream says in which part its number lies. The
chances of a bit depend on what it is about, its context, and change with every bit read there.

In an archive the stream comes after a header with its properties, and it ends with a copy over a
distance that there is not.
-/

set_option autoImplicit false

namespace DexListing.Zip

/-- What makes lzma data unfit: properties that are not supported, or a corrupt stream. -/
inductive LzmaFault
  | options
  | corrupt
  deriving DecidableEq, Repr

/-- What is said about lzma data that are unfit. -/
def LzmaFault.message : LzmaFault → String
  | options => "Invalid or unsupported options"
  | corrupt => "Corrupt input data"

namespace Lzma

/-! ## Properties -/

/-- The properties of a stream: how many of the highest bits of the last byte and of the lowest bits
of the position tell the contexts of a literal apart, how many of the lowest bits of the position
tell other contexts apart, and how far copies may go back. -/
structure Properties where
  literalContextBits : Nat
  literalPositionBits : Nat
  positionBits : Nat
  dictionarySize : Nat

/-- The properties that are written in bytes, if they are supported. -/
def Properties.ofBytes? (bytes : Bytes) : Option Properties :=
  let first := bytes.u1 0
  let p : Properties := ⟨first % 9, first / 9 % 5, first / 45, bytes.u4 1⟩
  if bytes.size ≠ 5 ∨ 224 < first ∨ 4 < p.literalContextBits + p.literalPositionBits then none
  else some p

/-- How far copies may really go back: at least 4096 bytes, and a multiple of sixteen. -/
def Properties.reach (p : Properties) : Nat :=
  (max p.dictionarySize 4096 + 15) / 16 * 16

/-! ## Bits -/

/-- The number of values that a chance may have; it is the chance of a zero bit. -/
def allChances : UInt32 := 2048

/-- A range coder: the size of the range, the place of the stream's number in it, the position of
the next byte, and the chances of all contexts. -/
structure Coder where
  range : UInt32
  place : UInt32
  position : Nat
  chances : Array UInt32

/-- Reading with a coder. -/
abbrev Reading := StateT Coder (Except Halt)

/-- The chance in a context. -/
def Coder.chance (c : Coder) (context : Nat) : UInt32 :=
  c.chances.getD context (allChances >>> 1)

/-- The coder with a bit read in a context. -/
def Coder.bit (context : Nat) (c : Coder) : Nat × Coder :=
  let chance := c.chance context
  let bound := (c.range >>> 11) * chance
  if c.place < bound then
    (0, { c with range := bound
                 chances := c.chances.set! context (chance + (allChances - chance) >>> 5) })
  else
    (1, { c with range := c.range - bound, place := c.place - bound
                 chances := c.chances.set! context (chance - chance >>> 5) })

/-- The coder with a bit read that has even chances. -/
def Coder.evenBit (c : Coder) : Nat × Coder :=
  let range := c.range >>> 1
  let place := c.place - range
  if place >>> 31 = 1 then (0, { c with range, place := place + range })
  else (1, { c with range, place })

/-- The coder with its range scaled up by a byte. -/
def Coder.scaled (b : UInt8) (c : Coder) : Coder :=
  { c with range := c.range <<< 8
           place := c.place <<< 8 ||| b.toUInt32
           position := c.position + 1 }

/-- Takes another byte if the range has become small. -/
def normalize (data : Bytes) : Reading Unit := do
  let c ← get
  if c.range < 0x1000000 then
    match data[c.position]? with
    | none => throw .needsInput
    | some b => set (c.scaled b)

/-- Reads a bit in a context. -/
def readBit (data : Bytes) (context : Nat) : Reading Nat := do
  normalize data
  modifyGet (Coder.bit context)

/-- Reads `count` more bits of a number, the highest first, each in a context of its own: the bits
before it tell which. -/
def readTree (data : Bytes) (base : Nat) : (count node : Nat) → Reading Nat
  | 0, node => pure node
  | count + 1, node => do
    let b ← readBit data (base + node)
    readTree data base count (2 * node + b)

/-- Reads a number of `count` bits in such contexts. -/
def readNumber (data : Bytes) (base count : Nat) : Reading Nat := do
  return (← readTree data base count 1) - (1 <<< count)

/-- Reads `count` more bits of a number in such contexts, the lowest first. -/
def readUpward (data : Bytes) (base : Nat) : (count node : Nat) → Reading Nat
  | 0, _ => pure 0
  | count + 1, node => do
    let b ← readBit data (base + node)
    let rest ← readUpward data base count (2 * node + b)
    return b + 2 * rest

/-- Reads a bit that has even chances. -/
def readEvenBit (data : Bytes) : Reading Nat := do
  normalize data
  modifyGet Coder.evenBit

/-- Reads `count` more bits of a number that have even chances, the highest first. -/
def readEven (data : Bytes) : (count value : Nat) → Reading Nat
  | 0, value => pure value
  | count + 1, value => do
    let b ← readEvenBit data
    readEven data count (2 * value + b)

/-! ## Contexts -/

namespace Context

/-- Whether an item is a literal or a copy. -/
def isCopy (state place : Nat) : Nat := 16 * state + place

/-- Whether a copy goes over a distance that has been met. -/
def isKnown (state : Nat) : Nat := 192 + state

/-- Whether that distance is another one than the last. -/
def isOther (state : Nat) : Nat := 204 + state

/-- Whether it is another one than the second to last. -/
def isThird (state : Nat) : Nat := 216 + state

/-- Whether it is another one than the third to last. -/
def isFourth (state : Nat) : Nat := 228 + state

/-- Whether a copy over the last distance is of more than one byte. -/
def isLong (state place : Nat) : Nat := 240 + 16 * state + place

/-- The class of a distance. -/
def distanceClass (length : Nat) : Nat := 432 + 64 * min (length - 2) 3

/-- The low bits of the distances of a class. -/
def distanceBits (least symbol : Nat) : Nat := 688 + least - symbol

/-- The lowest bits of great distances. -/
def lowestBits : Nat := 803

/-- The lengths of copies over new distances. -/
def newLengths : Nat := 819

/-- The lengths of copies over distances that have been met. -/
def knownLengths : Nat := 1333

/-- Literals, by what comes before them. -/
def literals (p : Properties) (position previous : Nat) : Nat :=
  let low := position % (1 <<< p.literalPositionBits)
  1847 + 0x300 * ((low <<< p.literalContextBits) + (previous >>> (8 - p.literalContextBits)))

/-- The number of contexts. -/
def count (p : Properties) : Nat :=
  1847 + (0x300 <<< (p.literalContextBits + p.literalPositionBits))

end Context

/-! ## Items -/

/-- What has been decoded: the kinds of the last items in one number, the distances of the last four
different copies, less one, and the output. -/
structure Decoder where
  state : Nat
  distances : List Nat
  output : Bytes

namespace Decoder

/-- The byte that a copy over a distance, less one, begins with. -/
def back (d : Decoder) (distance : Nat) : Nat :=
  d.output.u1 (d.output.size - distance - 1)

/-- The last distance, less one. -/
def lastDistance (d : Decoder) : Nat := d.distances.headD 0

/-- The state after a literal. -/
def afterLiteral (state : Nat) : Nat :=
  if state < 4 then 0 else if state < 10 then state - 3 else state - 6

/-- The state after a copy; it depends on whether there was a literal before. -/
def afterCopy (state afterLiteral afterCopy : Nat) : Nat :=
  if state < 7 then afterLiteral else afterCopy

/-- A copy can go back over this distance, less one. -/
def Reaches (d : Decoder) (p : Properties) (distance : Nat) : Prop :=
  distance < min d.output.size p.reach

instance (d : Decoder) (p : Properties) (distance : Nat) : Decidable (d.Reaches p distance) :=
  inferInstanceAs (Decidable (_ < _))

/-- The decoder after a copy. -/
def copied (d : Decoder) (state : Nat) (distances : List Nat) (length : Nat) : Decoder :=
  ⟨state, distances, copyBack length (distances.headD 0 + 1) d.output⟩

end Decoder

/-- Reads `count` more bits of a literal after a copy: as long as they are those of the byte that
the copy would have gone on with, this byte tells contexts apart. -/
def readUnlike (data : Bytes) (base : Nat) : (count node expected alike : Nat) → Reading Nat
  | 0, node, _, _ => pure node
  | count + 1, node, expected, alike => do
    let next := 2 * expected &&& alike
    let b ← readBit data (base + alike + next + node)
    readUnlike data base count (2 * node + b) (2 * expected) (if b = 0 then alike - next else next)

/-- Reads a literal. -/
def readLiteral (data : Bytes) (p : Properties) (d : Decoder) : Reading UInt8 := do
  let base := Context.literals p d.output.size (if d.output.size = 0 then 0 else d.back 0)
  let node ←
    if d.state < 7 then readTree data base 8 1
    else readUnlike data base 8 1 (d.back d.lastDistance) 0x100
  return UInt8.ofNat node

/-- Reads the length of a copy. -/
def readLength (data : Bytes) (base place : Nat) : Reading Nat := do
  if (← readBit data base) = 0 then return 2 + (← readNumber data (base + 2 + 8 * place) 3)
  else if (← readBit data (base + 1)) = 0 then
    return 10 + (← readNumber data (base + 130 + 8 * place) 3)
  else return 18 + (← readNumber data (base + 258) 8)

/-- Reads a distance, less one. -/
def readDistance (data : Bytes) (length : Nat) : Reading Nat := do
  let symbol ← readNumber data (Context.distanceClass length) 6
  if symbol < 4 then return symbol
  let bits := symbol / 2 - 1
  let least := (2 + symbol % 2) <<< bits
  if symbol < 14 then return least + (← readUpward data (Context.distanceBits least symbol) bits 1)
  let high ← readEven data (bits - 4) 0
  return least + 16 * high + (← readUpward data Context.lowestBits 4 1)

/-- The distances with the one at a place put before the other ones. -/
def preferred (place : Nat) (distances : List Nat) : List Nat :=
  distances.getD place 0 :: distances.eraseIdx place

/-- Reads which of the distances but the last is meant, and puts it before the other ones. -/
def readKnown (data : Bytes) (state : Nat) (distances : List Nat) : Reading (List Nat) := do
  if (← readBit data (Context.isThird state)) = 0 then return preferred 1 distances
  else if (← readBit data (Context.isFourth state)) = 0 then return preferred 2 distances
  else return preferred 3 distances

/-- The distance, less one, that ends a stream. -/
def endDistance : Nat := 0xFFFFFFFF

/-- Reads a copy over a new distance; none is the end of the stream. -/
def readNewCopy (data : Bytes) (p : Properties) (place : Nat) (d : Decoder) :
    Reading (Option Decoder) := do
  let length ← readLength data Context.newLengths place
  let distance ← readDistance data length
  if distance = endDistance then
    normalize data
    if (← get).place = 0 then return none else throw .corrupt
  else if d.Reaches p distance then
    return some (d.copied (Decoder.afterCopy d.state 7 10) (distance :: d.distances.take 3) length)
  else throw .corrupt

/-- Reads a copy over a distance that has been met. -/
def readKnownCopy (data : Bytes) (place : Nat) (d : Decoder) : Reading Decoder := do
  if d.output.size = 0 then throw .corrupt
  if (← readBit data (Context.isOther d.state)) = 0 then
    if (← readBit data (Context.isLong d.state place)) = 0 then
      return d.copied (Decoder.afterCopy d.state 9 11) d.distances 1
    let length ← readLength data Context.knownLengths place
    return d.copied (Decoder.afterCopy d.state 8 11) d.distances length
  else
    let distances ← readKnown data d.state d.distances
    let length ← readLength data Context.knownLengths place
    return d.copied (Decoder.afterCopy d.state 8 11) distances length

/-- Reads an item; none is the end of the stream. -/
def readItem (data : Bytes) (p : Properties) (d : Decoder) : Reading (Option Decoder) := do
  let place := d.output.size % (1 <<< p.positionBits)
  if (← readBit data (Context.isCopy d.state place)) = 0 then
    let b ← readLiteral data p d
    return some ⟨Decoder.afterLiteral d.state, d.distances, d.output.push b⟩
  else if (← readBit data (Context.isKnown d.state)) = 0 then readNewCopy data p place d
  else return some (← readKnownCopy data place d)

/-! ## Streams -/

/-- The coder at the start of a stream: after a zero byte and the first four bytes of the number. -/
def start (data : Bytes) (p : Properties) : Except Halt Coder :=
  if 0 < data.u1 0 then .error .corrupt
  else if data.size < 5 then .error .needsInput
  else
    let place : UInt32 := (data.range 1 5).foldl (fun n b => n <<< 8 ||| b.toUInt32) 0
    .ok ⟨0xFFFFFFFF, place, 5, Array.replicate (Context.count p) (allChances >>> 1)⟩

/-- Goes on to the end of the stream or of the bytes. -/
def decodeItems (data : Bytes) (p : Properties) :
    (limit : Nat) → Decoder → Coder → Option Decoded
  | 0, d, _ => some ⟨d.output, false⟩
  | limit + 1, d, c =>
    match readItem data p d c with
    | .error halt => halt.decoded d.output
    | .ok (none, _) => some ⟨d.output, true⟩
    | .ok (some d, c) => decodeItems data p limit d c

/-- What the first bytes of a stream stand for; nothing if they are corrupt. Every bit makes the
range smaller, which a byte that is taken scales up to less than all numbers of 32 bits. -/
def decodeStream (data : Bytes) (p : Properties) : Option Decoded :=
  match start data p with
  | .error halt => halt.decoded #[]
  | .ok c => decodeItems data p (data.size <<< 32) ⟨0, [0, 0, 0, 0], #[]⟩ c

/-- What the first bytes of a member stand for: two bytes with a version, the size of the
properties, the properties, and the stream, of which at least a byte is needed. -/
def decode (given : Bytes) : Except LzmaFault Decoded :=
  let start := 4 + given.u2 2
  if given.size ≤ 4 ∨ given.size ≤ start then .ok ⟨#[], false⟩
  else
    match Properties.ofBytes? (given.extract 4 start) with
    | none => .error .options
    | some p =>
      match decodeStream (given.extract start given.size) p with
      | none => .error .corrupt
      | some decoded => .ok decoded

end Lzma

end DexListing.Zip
