import DexListing.Zip.PrefixCode

/-!
# The codes of a block

A coded block has two prefix codes, one for literal bytes and lengths of copies and one for
distances. They are fixed, or the block brings them along: as lengths of code words, which are
written in a code of their own.
-/

set_option autoImplicit false

namespace DexListing.Zip

/-- The least length of each length symbol from 257 on, and the number of extra bits. -/
def lengthRules : Array (Nat × Nat) := #[
    (3, 0), (4, 0), (5, 0), (6, 0), (7, 0), (8, 0), (9, 0), (10, 0), (11, 1), (13, 1), (15, 1),
    (17, 1), (19, 2), (23, 2), (27, 2), (31, 2), (35, 3), (43, 3), (51, 3), (59, 3), (67, 4),
    (83, 4), (99, 4), (115, 4), (131, 5), (163, 5), (195, 5), (227, 5), (258, 0)]

/-- The least distance of each distance symbol, and the number of extra bits. -/
def distanceRules : Array (Nat × Nat) := #[
    (1, 0), (2, 0), (3, 0), (4, 0), (5, 1), (7, 1), (9, 2), (13, 2), (17, 3), (25, 3), (33, 4),
    (49, 4), (65, 5), (97, 5), (129, 6), (193, 6), (257, 7), (385, 7), (513, 8), (769, 8),
    (1025, 9), (1537, 9), (2049, 10), (3073, 10), (4097, 11), (6145, 11), (8193, 12),
    (12289, 12), (16385, 13), (24577, 13)]

/-- The two codes of a block. -/
structure BlockCodes where
  literals : PrefixCode
  distances : PrefixCode

/-- The codes of blocks that bring none of their own. -/
def fixedCodes : BlockCodes where
  literals := PrefixCode.ofLengths
    (List.replicate 144 8 ++ List.replicate 112 9 ++ List.replicate 24 7 ++ List.replicate 8 8)
  distances := PrefixCode.ofLengths (List.replicate 32 5)

/-- The value of a rule with its extra bits. -/
def extended (data : Bytes) (rule : Nat × Nat) (position : Nat) : Except Stop (Nat × Nat) := do
  let (extra, position) ← bits data rule.2 position
  return (rule.1 + extra, position)

/-- The order in which the lengths of the code of lengths are written. -/
def lengthOrder : List Nat :=
  [16, 17, 18, 0, 8, 7, 9, 6, 10, 5, 11, 4, 12, 3, 13, 2, 14, 1, 15]

/-- Reads `count` numbers of three bits. -/
def readTriples (data : Bytes) : (count position : Nat) → Except Stop (List Nat × Nat)
  | 0, position => .ok ([], position)
  | count + 1, position => do
    let (value, position) ← bits data 3 position
    let (rest, position) ← readTriples data count position
    return (value :: rest, position)

/-- The code of lengths; with no code word at all every bit stands for a length of zero. -/
def lengthCode (triples : List Nat) : Except Stop PrefixCode :=
  let lengths := (List.range 19).map fun symbol =>
    ((lengthOrder.zip triples).lookup symbol).getD 0
  if PrefixCode.longest lengths = 0 then .ok ⟨[2], #[0, 0]⟩
  else if PrefixCode.isComplete lengths then .ok (PrefixCode.ofLengths lengths)
  else .error (.corrupt .codeLengths)

/-- Reads lengths of code words until there are `wanted`; `lengths` are those read so far, the
last one first. -/
def readLengths (data : Bytes) (code : PrefixCode) (wanted : Nat) :
    (limit position : Nat) → (lengths : List Nat) → Except Stop (List Nat × Nat)
  | 0, position, lengths => .ok (lengths.reverse, position)
  | limit + 1, position, lengths => do
    if lengths.length ≥ wanted then return (lengths.reverse, position)
    let (symbol, position) ← code.decode data position
    match symbol.getD 0 with
    | 16 =>
      let (extra, position) ← bits data 2 position
      match lengths with
      | [] => throw (.corrupt .lengthRepeat)
      | last :: _ =>
        if lengths.length + (extra + 3) > wanted then throw (.corrupt .lengthRepeat)
        readLengths data code wanted limit position (List.replicate (extra + 3) last ++ lengths)
    | 17 =>
      let (extra, position) ← bits data 3 position
      if lengths.length + (extra + 3) > wanted then throw (.corrupt .lengthRepeat)
      readLengths data code wanted limit position (List.replicate (extra + 3) 0 ++ lengths)
    | 18 =>
      let (extra, position) ← bits data 7 position
      if lengths.length + (extra + 11) > wanted then throw (.corrupt .lengthRepeat)
      readLengths data code wanted limit position (List.replicate (extra + 11) 0 ++ lengths)
    | length => readLengths data code wanted limit position (length :: lengths)

/-- The codes that a block brings along. -/
def readCodes (data : Bytes) (position : Nat) : Except Stop (BlockCodes × Nat) := do
  let (counts, position) ← bits data 14 position
  let literalCount := counts % 32 + 257
  let distanceCount := counts / 32 % 32 + 1
  let lengthCount := counts / 1024 + 4
  if literalCount > 286 || distanceCount > 30 then throw (.corrupt .tooManySymbols)
  let (triples, position) ← readTriples data lengthCount position
  let code ← lengthCode triples
  let wanted := literalCount + distanceCount
  let (lengths, position) ← readLengths data code wanted wanted position []
  if lengths.getD 256 0 = 0 then throw (.corrupt .missingEndOfBlock)
  let literals := lengths.take literalCount
  let distances := lengths.drop literalCount
  if !PrefixCode.isUsable literals then throw (.corrupt .literalLengths)
  if !PrefixCode.isUsable distances then throw (.corrupt .distances)
  return (⟨PrefixCode.ofLengths literals, PrefixCode.ofLengths distances⟩, position)

end DexListing.Zip
