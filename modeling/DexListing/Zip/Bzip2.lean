import DexListing.Zip.Crc32
import DexListing.Zip.Decoder
import DexListing.Zip.PrefixCode

/-!
# Bzip2 streams

A bzip2 stream is a sequence of blocks that are packed one by one. The bytes of a block have their
runs shortened and are then sorted by what follows them; the sorted column is written as places in a
list of the bytes that were met last, and these places in several prefix codes that take turns.

The bits are read from the highest of each byte down. All bytes are turned around first, so that the
readers of bits and of prefix codes can be used as they are.
-/

set_option autoImplicit false

namespace DexListing.Zip.Bzip2

/-! ## Bits -/

/-- The lowest `count` bits of a number in the opposite order. -/
def reversed (count n : Nat) : Nat :=
  (List.range count).foldl (fun r i => 2 * r + n >>> i % 2) 0

/-- A byte with its bits in the opposite order. -/
def reversedByte (b : UInt8) : UInt8 := UInt8.ofNat (reversed 8 b.toNat)

/-- What has been read; where it stops it is for lack of bits. -/
def read {α : Type} : Except Stop α → Except Halt α
  | .ok a => .ok a
  | .error _ => .error .needsInput

/-- The number in `count` bits from a position on, the highest first, after the bits of `value`; and
the position after them. -/
def numberAfter (data : Bytes) : (count value position : Nat) → Except Halt (Nat × Nat)
  | 0, value, position => .ok (value, position)
  | count + 1, value, position => do
    let (b, position) ← read (bit data position)
    numberAfter data count (2 * value + b) position

/-- The number in `count` bits from a position on, and the position after them. -/
def number (data : Bytes) (count position : Nat) : Except Halt (Nat × Nat) :=
  numberAfter data count 0 position

/-- The position after bytes that must be there. -/
def expect (data : Bytes) : List Nat → (position : Nat) → Except Halt Nat
  | [], position => .ok position
  | b :: rest, position => do
    let (found, position) ← number data 8 position
    if found = b then expect data rest position else throw .corrupt

/-! ## Prefix codes -/

/-- The greatest length that a code word is given. -/
def maxCodeLength : Nat := 20

/-- The length of a code word, written as steps up and down from the one before. Every step takes a
bit. -/
def readLength (data : Bytes) : (limit length position : Nat) → Except Halt (Nat × Nat)
  | 0, _, _ => .error .needsInput
  | limit + 1, length, position => do
    if length < 1 ∨ maxCodeLength < length then throw .corrupt
    let (b, position) ← number data 1 position
    if b = 0 then return (length, position)
    let (down, position) ← number data 1 position
    readLength data limit (if down = 0 then length + 1 else length - 1) position

/-- The lengths of `count` code words. -/
def readLengths (data : Bytes) : (count length position : Nat) → Except Halt (List Nat × Nat)
  | 0, _, position => .ok ([], position)
  | count + 1, length, position => do
    let (length, position) ← readLength data (8 * data.size + 1) length position
    let (rest, position) ← readLengths data count length position
    return (length :: rest, position)

/-- The code with given lengths of code words. That bits are no code word is noticed one bit after
the greatest length. -/
def codeOfLengths (lengths : List Nat) : PrefixCode :=
  let code := PrefixCode.ofLengths lengths
  ⟨code.counts ++ List.replicate (maxCodeLength + 1 - code.counts.length) 0, code.symbols⟩

/-- `count` codes for `symbols` symbols each. -/
def readCodes (data : Bytes) (symbols : Nat) :
    (count position : Nat) → Except Halt (List PrefixCode × Nat)
  | 0, position => .ok ([], position)
  | count + 1, position => do
    let (length, position) ← number data 5 position
    let (lengths, position) ← readLengths data symbols length position
    let (rest, position) ← readCodes data symbols count position
    return (codeOfLengths lengths :: rest, position)

/-- The number of bits before the first zero bit, of which there may be `room` at most. -/
def readUnary (data : Bytes) : (room position : Nat) → Except Halt (Nat × Nat)
  | 0, position => do
    let (b, position) ← number data 1 position
    if b = 0 then return (0, position) else throw .corrupt
  | room + 1, position => do
    let (b, position) ← number data 1 position
    if b = 0 then return (0, position)
    let (rest, position) ← readUnary data room position
    return (rest + 1, position)

/-- `count` such numbers. -/
def readPlaces (data : Bytes) (room : Nat) :
    (count position : Nat) → Except Halt (List Nat × Nat)
  | 0, position => .ok ([], position)
  | count + 1, position => do
    let (place, position) ← readUnary data room position
    let (rest, position) ← readPlaces data room count position
    return (place :: rest, position)

/-- What is at each place in turn, when it is moved to the front each time. -/
def movedToFront {α : Type} (items : List α) : List Nat → List α
  | [] => []
  | place :: rest =>
    match items[place]? with
    | none => movedToFront items rest
    | some item => item :: movedToFront (item :: items.eraseIdx place) rest

/-! ## The sorted column -/

/-- How many symbols are written in one code before the next one has its turn. -/
def symbolsPerTurn : Nat := 50

/-- The most turns that count. -/
def maxTurns : Nat := 18002

/-- The sorted column while it is read: the bytes of the block, those met last first; how often the
first of them is to be repeated and how much the next digit of that number counts; and the column so
far. -/
structure Column where
  recent : List UInt8
  repeats : Nat
  weight : Nat
  bytes : Bytes

/-- Reads the sorted column up to the symbol that ends it; no more than `capacity` bytes fit. Every
symbol takes a bit. -/
def readColumn (data : Bytes) (turns : Array PrefixCode) (last capacity : Nat) :
    (limit index : Nat) → Column → (position : Nat) → Except Halt (Bytes × Nat)
  | 0, _, _, _ => .error .needsInput
  | limit + 1, index, c, position => do
    match turns[index / symbolsPerTurn]? with
    | none => throw .corrupt
    | some code =>
      let (symbol, position) ← read (code.decode data position)
      match symbol, c.recent.head? with
      | some symbol, some first =>
        if symbol < 2 then
          if 0x200000 ≤ c.weight then throw .corrupt
          let repeats := c.repeats + (symbol + 1) * c.weight
          readColumn data turns last capacity limit (index + 1)
            { c with repeats, weight := 2 * c.weight } position
        else if capacity < c.bytes.size + c.repeats then throw .corrupt
        else
          let bytes := c.bytes ++ Array.replicate c.repeats first
          if symbol = last then return (bytes, position)
          else if capacity ≤ bytes.size then throw .corrupt
          else
            match c.recent[symbol - 1]? with
            | none => throw .corrupt
            | some b =>
              readColumn data turns last capacity limit (index + 1)
                ⟨b :: c.recent.eraseIdx (symbol - 1), 0, 1, bytes.push b⟩ position
      | _, _ => throw .corrupt

/-- The places of the bytes of a sorted column in ascending order of the bytes; equal ones in the
order of their places. The place of a row in that order is the one of the row that begins one byte
later. -/
def nextRows (column : Bytes) : Array Nat :=
  ((List.range column.size).mergeSort fun i j => column.getD i 0 ≤ column.getD j 0).toArray

/-- The last bytes of `count` rows, each one the next of the row before. -/
def unsorted (column : Bytes) (next : Array Nat) : (count row : Nat) → List UInt8
  | 0, _ => []
  | count + 1, row =>
    let row := next.getD row 0
    column.getD row 0 :: unsorted column next count row

/-! ## Runs -/

/-- How far the bytes of a block whose order was disturbed are changed apart. -/
def disturbances : Array Nat := #[
    619, 720, 127, 481, 931, 816, 813, 233, 566, 247, 985, 724, 205, 454, 863, 491, 741, 242, 949,
    214, 733, 859, 335, 708, 621, 574, 73, 654, 730, 472, 419, 436, 278, 496, 867, 210, 399, 680,
    480, 51, 878, 465, 811, 169, 869, 675, 611, 697, 867, 561, 862, 687, 507, 283, 482, 129, 807,
    591, 733, 623, 150, 238, 59, 379, 684, 877, 625, 169, 643, 105, 170, 607, 520, 932, 727, 476,
    693, 425, 174, 647, 73, 122, 335, 530, 442, 853, 695, 249, 445, 515, 909, 545, 703, 919, 874,
    474, 882, 500, 594, 612, 641, 801, 220, 162, 819, 984, 589, 513, 495, 799, 161, 604, 958, 533,
    221, 400, 386, 867, 600, 782, 382, 596, 414, 171, 516, 375, 682, 485, 911, 276, 98, 553, 163,
    354, 666, 933, 424, 341, 533, 870, 227, 730, 475, 186, 263, 647, 537, 686, 600, 224, 469, 68,
    770, 919, 190, 373, 294, 822, 808, 206, 184, 943, 795, 384, 383, 461, 404, 758, 839, 887, 715,
    67, 618, 276, 204, 918, 873, 777, 604, 560, 951, 160, 578, 722, 79, 804, 96, 409, 713, 940, 652,
    934, 970, 447, 318, 353, 859, 672, 112, 785, 645, 863, 803, 350, 139, 93, 354, 99, 820, 908,
    609, 772, 154, 274, 580, 184, 79, 626, 630, 742, 653, 282, 762, 623, 680, 81, 927, 626, 789,
    125, 411, 521, 938, 300, 821, 78, 343, 175, 128, 250, 170, 774, 972, 275, 999, 639, 495, 78,
    352, 126, 857, 956, 358, 619, 580, 124, 737, 594, 701, 612, 669, 112, 134, 694, 363, 992, 809,
    743, 168, 974, 944, 375, 748, 52, 600, 747, 642, 182, 862, 81, 344, 805, 988, 739, 511, 655,
    814, 334, 249, 515, 897, 955, 664, 981, 649, 113, 974, 459, 893, 228, 433, 837, 553, 268, 926,
    240, 102, 654, 459, 51, 686, 754, 806, 760, 493, 403, 415, 394, 687, 700, 946, 670, 656, 610,
    738, 392, 760, 799, 887, 653, 978, 321, 576, 617, 626, 502, 894, 679, 243, 440, 680, 879, 194,
    572, 640, 724, 926, 56, 204, 700, 707, 151, 457, 449, 797, 195, 791, 558, 945, 679, 297, 59, 87,
    824, 713, 663, 412, 693, 342, 606, 134, 108, 571, 364, 631, 212, 174, 643, 304, 329, 343, 97,
    430, 751, 497, 314, 983, 374, 822, 928, 140, 206, 73, 263, 980, 736, 876, 478, 430, 305, 170,
    514, 364, 692, 829, 82, 855, 953, 676, 246, 369, 970, 294, 750, 807, 827, 150, 790, 288, 923,
    804, 378, 215, 828, 592, 281, 565, 555, 710, 82, 896, 831, 547, 261, 524, 462, 293, 465, 502,
    56, 661, 821, 976, 991, 658, 869, 905, 758, 745, 193, 768, 550, 608, 933, 378, 286, 215, 979,
    792, 961, 61, 688, 793, 644, 986, 403, 106, 366, 905, 644, 372, 567, 466, 434, 645, 210, 389,
    550, 919, 135, 780, 773, 635, 389, 707, 100, 626, 958, 165, 504, 920, 176, 193, 713, 857, 265,
    203, 50, 668, 108, 645, 990, 626, 197, 510, 357, 358, 850, 858, 364, 936, 638]

/-- The bytes of a block, in which one bit of some is changed; `left` is how far the next one is
away, and `turn` counts the distances. -/
def undisturbed : (left turn : Nat) → List UInt8 → List UInt8
  | _, _, [] => []
  | left, turn, b :: rest =>
    let isNext := left = 0
    let left := (if isNext then disturbances.getD (turn % disturbances.size) 0 else left) - 1
    (if left = 1 then b ^^^ 1 else b) :: undisturbed left (if isNext then turn + 1 else turn) rest

/-- The bytes with their runs at full length: after four equal bytes stands how many more there
are. The last byte is in a run of length `run`. -/
def expanded : (last : UInt8) → (run : Nat) → List UInt8 → Bytes → Option Bytes
  | _, run, [], output => if run = 4 then none else some output
  | last, run, b :: rest, output =>
    if run = 4 then expanded last 0 rest (output ++ Array.replicate b.toNat last)
    else expanded b (if 0 < run ∧ b = last then run + 1 else 1) rest (output.push b)

/-! ## Blocks -/

/-- The checksum of a block; it takes the bits from the highest down. -/
def checksum (content : Bytes) : UInt32 :=
  UInt32.ofNat (reversed 32 (crc32 (content.map reversedByte)))

/-- The bytes that occur in a block, written as sixteen ranges and the bytes in each of them. -/
def readBytesIn (data : Bytes) (ranges : Nat) :
    List Nat → (position : Nat) → Except Halt (List UInt8 × Nat)
  | [], position => .ok ([], position)
  | i :: rest, position => do
    let (inRange, position) ←
      if ranges.testBit (15 - i) then number data 16 position else pure (0, position)
    let found := (List.range 16).filter fun j => inRange.testBit (15 - j)
    let (more, position) ← readBytesIn data ranges rest position
    return (found.map (fun j => UInt8.ofNat (16 * i + j)) ++ more, position)

/-- The codes of a block of some bytes in the order of their turns. -/
def readTurns (data : Bytes) (symbols position : Nat) :
    Except Halt (Array PrefixCode × Nat) := do
  let (count, position) ← number data 3 position
  if count < 2 ∨ 6 < count then throw .corrupt
  let (turns, position) ← number data 15 position
  if turns = 0 then throw .corrupt
  let (places, position) ← readPlaces data (count - 1) turns position
  let (codes, position) ← readCodes data symbols count position
  return ((movedToFront codes (places.take maxTurns)).toArray, position)

/-- The most bytes in a sorted column of a level. -/
def capacity (level : Nat) : Nat := 100000 * level

/-- The content of a block that starts at a position, its checksum, and the position after it. -/
def readBlock (data : Bytes) (level position : Nat) : Except Halt (Bytes × UInt32 × Nat) := do
  let (recorded, position) ← number data 32 position
  let (isDisturbed, position) ← number data 1 position
  let (origin, position) ← number data 24 position
  if capacity level + 10 < origin then throw .corrupt
  let (ranges, position) ← number data 16 position
  let (used, position) ← readBytesIn data ranges (List.range 16) position
  if used = [] then throw .corrupt
  let (turns, position) ← readTurns data (used.length + 2) position
  let (column, position) ←
    readColumn data turns (used.length + 1) (capacity level) (8 * data.size + 1) 0 ⟨used, 0, 1, #[]⟩
      position
  if column.size ≤ origin then throw .corrupt
  let bytes := unsorted column (nextRows column) column.size origin
  match expanded 0 0 (if isDisturbed = 1 then undisturbed 0 0 bytes else bytes) #[] with
  | none => throw .corrupt
  | some content =>
    let sum := checksum content
    if sum.toNat = recorded then return (content, sum, position) else throw .corrupt

/-! ## Streams -/

/-- Whether the stream ends at a position, and the position after the mark that says so or that a
block follows. -/
def readMark (data : Bytes) (position : Nat) : Except Halt (Bool × Nat) := do
  let (first, position) ← number data 8 position
  if first = 0x17 then return (true, ← expect data [0x72, 0x45, 0x38, 0x50, 0x90] position)
  else if first = 0x31 then return (false, ← expect data [0x41, 0x59, 0x26, 0x53, 0x59] position)
  else throw .corrupt

/-- The checksum of a stream with the one of another block. -/
def combined (sum block : UInt32) : UInt32 :=
  (sum <<< 1 ||| sum >>> 31) ^^^ block

/-- The blocks of a stream from a position on, after the ones that have been put out. -/
def decodeBlocks (data : Bytes) (level : Nat) :
    (limit : Nat) → (sum : UInt32) → (position : Nat) → (output : Bytes) → Option Decoded
  | 0, _, _, output => some ⟨output, false⟩
  | limit + 1, sum, position, output =>
    match readMark data position with
    | .error halt => halt.decoded output
    | .ok (true, position) =>
      match number data 32 position with
      | .error halt => halt.decoded output
      | .ok (recorded, _) => if sum.toNat = recorded then some ⟨output, true⟩ else none
    | .ok (false, position) =>
      match readBlock data level position with
      | .error halt => halt.decoded output
      | .ok (content, block, position) =>
        decodeBlocks data level limit (combined sum block) position (output ++ content)

/-- The level of a stream, and the position after its header. -/
def readLevel (data : Bytes) : Except Halt (Nat × Nat) := do
  let position ← expect data [0x42, 0x5A, 0x68] 0
  let (digit, position) ← number data 8 position
  if digit < 0x31 ∨ 0x39 < digit then throw .corrupt else return (digit - 0x30, position)

/-- What the first bytes of a stream stand for; nothing if they are corrupt. Every block takes
bytes. -/
def decode (given : Bytes) : Option Decoded :=
  let data := given.map reversedByte
  match readLevel data with
  | .error halt => halt.decoded #[]
  | .ok (level, position) => decodeBlocks data level (data.size + 1) 0 position #[]

end DexListing.Zip.Bzip2
