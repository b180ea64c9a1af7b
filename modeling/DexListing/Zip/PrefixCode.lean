import DexListing.Zip.Bits

/-!
# Canonical prefix codes

A code is given by the lengths of its code words, a length of zero meaning that a symbol has none.
Code words of one length are consecutive numbers in the order of their symbols, and shorter ones
come before longer ones.
-/

set_option autoImplicit false

namespace DexListing.Zip

/-- A prefix code: how many code words each length has, from one bit on, and the symbols in the
order of their code words. -/
structure PrefixCode where
  counts : List Nat
  symbols : Array Nat

namespace PrefixCode

/-- The greatest length of a code word. -/
def longest (lengths : List Nat) : Nat :=
  lengths.foldl max 0

/-- The symbols whose code words have a length, in ascending order. -/
def symbolsOfLength (lengths : List Nat) (length : Nat) : List Nat :=
  (lengths.zipIdx.filter fun entry => entry.1 = length).map Prod.snd

/-- The code with given lengths of code words. -/
def ofLengths (lengths : List Nat) : PrefixCode :=
  let groups := (List.range (max 1 (longest lengths))).map fun i =>
    symbolsOfLength lengths (i + 1)
  ⟨groups.map List.length, groups.flatten.toArray⟩

/-- The greatest length that a code word may have. -/
def maxLength : Nat := 15

/-- The number of all sequences of fifteen bits. -/
def allSequences : Nat := 1 <<< maxLength

/-- How many of the sequences of fifteen bits start with a code word of a length. -/
def sequencesOf (length : Nat) : Nat :=
  if length = 0 then 0 else 1 <<< (maxLength - length)

/-- How many of the sequences of fifteen bits start with a code word; one that starts with several
counts several times. -/
def usage : List Nat → Nat
  | [] => 0
  | length :: rest => sequencesOf length + usage rest

/-- Every sequence of bits starts with exactly one code word. -/
def isComplete (lengths : List Nat) : Bool :=
  usage lengths == allSequences

/-- Complete, or without ambiguity and with no code word longer than one bit. -/
def isUsable (lengths : List Nat) : Bool :=
  isComplete lengths || (usage lengths < allSequences && longest lengths ≤ 1)

/-- Reads a code word bit by bit: `code` is what has been read so far, shifted for the next bit,
`first` the first code word of the next length and `index` the place of its symbol. -/
def decodeFrom (symbols : Array Nat) (data : Bytes) :
    (counts : List Nat) → (code first index position : Nat) → Except Stop (Option Nat × Nat)
  | [], _, _, _, position => .ok (none, position)
  | count :: counts, code, first, index, position => do
    let (b, position) ← bit data position
    if code + b < first + count then
      return (symbols[index + (code + b - first)]?, position)
    else
      decodeFrom symbols data counts (2 * (code + b)) (2 * (first + count)) (index + count)
        position

/-- The symbol of the code word at a position, none if no code word is there, and the position
after it. -/
def decode (c : PrefixCode) (data : Bytes) (position : Nat) : Except Stop (Option Nat × Nat) :=
  decodeFrom c.symbols data c.counts 0 0 0 position

end PrefixCode

end DexListing.Zip
