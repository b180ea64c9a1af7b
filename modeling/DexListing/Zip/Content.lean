import DexListing.Zip.Bzip2
import DexListing.Zip.Lzma

/-!
# The content of a member

The data of a member are read piece by piece until there are as many bytes as its recorded size
says, or until the data end. Faults further on do not count. Whatever is put out once all data are
taken in is taken as it is: of what comes after it no fault is reported, for the checksum tells
whether something is missing.

An inflater is given room for a piece at a time. The decoders of the two other methods have room for
all that a piece of data stands for, so a fault in the piece counts even if it comes after the last
byte that is wanted. Left out is that a bzip2 decoder puts out a part only of a block that ends
exactly with the piece.
-/

set_option autoImplicit false

namespace DexListing.Zip

/-- Why the content of a member cannot be had. -/
inductive ContentFault
  | unsupportedMethod
  | missingData
  | deflate (fault : DeflateFault)
  | bzip2
  | lzma (fault : LzmaFault)
  deriving DecidableEq, Repr

/-- What is said about content that cannot be had. -/
def ContentFault.message : ContentFault → String
  | unsupportedMethod => "That compression method is not supported"
  | missingData => ""
  | deflate fault => fault.message
  | bzip2 => "Invalid data stream"
  | lzma fault => fault.message

/-- The most bytes that are taken in or put out at a time. -/
def pieceSize : Nat := 4096

/-- How the data of a member are recorded: compressed and as they are. -/
structure RecordedSizes where
  compressedSize : Nat
  size : Nat

/-- The content of stored data, of which some may be missing. -/
def storedContent (sizes : RecordedSizes) (data : Bytes) : Except ContentFault Bytes :=
  if data.size < sizes.compressedSize ∧ (data.size < sizes.size ∨ data.size = 0) then
    .error .missingData
  else .ok (data.extract 0 sizes.size)

/-- The content of deflated data by way of an inflater that has been given the first `taken` bytes
and has not looked at the last `unread` of them. Every round takes in or puts out a byte. -/
def inflateRounds (sizes : RecordedSizes) (data : Bytes) :
    (limit taken unread : Nat) → Inflater → Except ContentFault Bytes
  | 0, _, _, s => .ok (s.output.extract 0 sizes.size)
  | limit + 1, taken, unread, s =>
    let isShort := unread < pieceSize - s.output.size % pieceSize
    if isShort ∧ taken < sizes.compressedSize ∧ data.size ≤ taken then .error .missingData
    else
      let taken := if isShort then min (taken + pieceSize) data.size else taken
      let given := data.extract 0 taken
      match s.advance given (some (s.output.size + pieceSize)) with
      | (_, .corrupt fault) => .error (.deflate fault)
      | (s, pause) =>
        let unread := s.unread given pause
        if pause = .finished ∨ (sizes.compressedSize ≤ taken ∧ unread = 0) then
          .ok ((s.advance given none).1.output.extract 0 sizes.size)
        else if sizes.size ≤ s.output.size then .ok (s.output.extract 0 sizes.size)
        else inflateRounds sizes data limit taken unread s

/-- The content of deflated data, of which some may be missing. -/
def inflatedContent (sizes : RecordedSizes) (data : Bytes) : Except ContentFault Bytes :=
  inflateRounds sizes data (data.size + sizes.size + 1) 0 0 .start

/-- The content of data by way of a decoder that has been given the first `taken` bytes. Every round
takes in a piece, or all that is left. -/
def decodeRounds (decode : Bytes → Except ContentFault Decoded) (sizes : RecordedSizes)
    (data : Bytes) : (limit taken : Nat) → Except ContentFault Bytes
  | 0, _ => .error .missingData
  | limit + 1, taken =>
    if taken < sizes.compressedSize ∧ data.size ≤ taken then .error .missingData
    else
      let taken := min (taken + pieceSize) data.size
      match decode (data.extract 0 taken) with
      | .error fault => .error fault
      | .ok decoded =>
        if decoded.isFinished ∨ sizes.compressedSize ≤ taken ∨ sizes.size ≤ decoded.output.size then
          .ok (decoded.output.extract 0 sizes.size)
        else decodeRounds decode sizes data limit taken

/-- The content of decoded data, of which some may be missing. -/
def decodedContent (decode : Bytes → Except ContentFault Decoded) (sizes : RecordedSizes)
    (data : Bytes) : Except ContentFault Bytes :=
  decodeRounds decode sizes data (data.size + 2) 0

/-- What the first bytes of bzip2 data stand for. -/
def bzip2Decoded (given : Bytes) : Except ContentFault Decoded :=
  match Bzip2.decode given with
  | none => .error .bzip2
  | some decoded => .ok decoded

/-- What the first bytes of lzma data stand for. -/
def lzmaDecoded (given : Bytes) : Except ContentFault Decoded :=
  (Lzma.decode given).mapError .lzma

/-- The content of data in a compression method: `0` is stored, `8` deflated, `12` bzip2 and `14`
lzma. -/
def contentOfData (method : Nat) (sizes : RecordedSizes) (data : Bytes) :
    Except ContentFault Bytes :=
  match method with
  | 0 => storedContent sizes data
  | 8 => inflatedContent sizes data
  | 12 => decodedContent bzip2Decoded sizes data
  | 14 => decodedContent lzmaDecoded sizes data
  | _ => .error .unsupportedMethod

end DexListing.Zip
