import TriggerGraph.Packing.Huffman
import TriggerGraph.Packing.Token

/-!
# The deflate format

A stream is a row of blocks.  A block holds bytes as they are, or tokens in a code that is either
fixed or described in front of it.  Writing makes one block with the fixed code.
-/

namespace TriggerGraph.Packing.Deflate

/-- Base values with the number of extra bits added to them, by symbol. -/
abbrev Ranges := List (Nat × Nat)

/-- Copy lengths, from symbol 257 on. -/
def lengthRanges : Ranges :=
  [(3, 0), (4, 0), (5, 0), (6, 0), (7, 0), (8, 0), (9, 0), (10, 0), (11, 1), (13, 1), (15, 1),
    (17, 1), (19, 2), (23, 2), (27, 2), (31, 2), (35, 3), (43, 3), (51, 3), (59, 3), (67, 4),
    (83, 4), (99, 4), (115, 4), (131, 5), (163, 5), (195, 5), (227, 5), (258, 0)]

/-- Copy distances. -/
def distanceRanges : Ranges :=
  [(1, 0), (2, 0), (3, 0), (4, 0), (5, 1), (7, 1), (9, 2), (13, 2), (17, 3), (25, 3), (33, 4),
    (49, 4), (65, 5), (97, 5), (129, 6), (193, 6), (257, 7), (385, 7), (513, 8), (769, 8),
    (1025, 9), (1537, 9), (2049, 10), (3073, 10), (4097, 11), (6145, 11), (8193, 12),
    (12289, 12), (16385, 13), (24577, 13)]

/-- The symbol of the last base that is not above a value. -/
def symbolFor (ranges : Ranges) (value : Nat) : Nat :=
  (ranges.takeWhile (·.1 ≤ value)).length - 1

/-- The word lengths of literals and copy lengths in the fixed code. -/
def fixedLengths : List Nat :=
  List.replicate 144 8 ++ List.replicate 112 9 ++ List.replicate 24 7 ++ List.replicate 8 8

/-- The word lengths of distances in the fixed code. -/
def fixedDistances : List Nat := List.replicate 32 5

/-! ## Reading -/

/-- The two codes of a block. -/
structure Codes where
  /-- Literals, the end of the block, and copy lengths. -/
  literals : Huffman
  /-- Copy distances. -/
  distances : Huffman

/-- The codes of a block that describes none. -/
def fixedCodes : Codes := ⟨.ofLengths fixedLengths, .ofLengths fixedDistances⟩

/-- The number in the next bits. -/
def takeBits (count : Nat) (bits : Bits) : Except StreamFault (Nat × Bits) :=
  match bits.take? count with
  | some read => .ok read
  | none => .error .incomplete

/-- The value of a symbol with its extra bits. -/
def takeRange (ranges : Ranges) (symbol : Nat) (bits : Bits) : Except StreamFault (Nat × Bits) :=
  match ranges[symbol]? with
  | none => .error .corrupt
  | some (base, extra) => do
      let (more, bits) ← takeBits extra bits
      return (base + more, bits)

/-- A copy of which the length symbol was read. -/
def takeCopy (codes : Codes) (symbol : Nat) (bits : Bits) : Except StreamFault (Token × Bits) := do
  let (length, bits) ← takeRange lengthRanges (symbol - 257) bits
  let (symbol, bits) ← codes.distances.decode bits
  let (distance, bits) ← takeRange distanceRanges symbol bits
  return (.copy length distance, bits)

/-- The tokens of a block up to its end, and what follows it. -/
def takeTokens (codes : Codes) : (fuel : Nat) → Bits → Except StreamFault (List Token × Bits)
  | 0, _ => .error .incomplete
  | fuel + 1, bits => do
      let (symbol, bits) ← codes.literals.decode bits
      if symbol = 256 then return ([], bits)
      let (token, bits) ←
        if symbol < 256 then pure (.literal (UInt8.ofNat symbol), bits)
        else takeCopy codes symbol bits
      let (tokens, bits) ← takeTokens codes fuel bits
      return (token :: tokens, bits)

/-- A block of bytes as they are. -/
def takeStored (bits : Bits) : Except StreamFault (List Token × Bits) :=
  match bits.bytes with
  | a :: b :: c :: d :: rest =>
      let length := a.toNat + 256 * b.toNat
      if length + (c.toNat + 256 * d.toNat) ≠ 0xFFFF then .error .corrupt
      else if rest.length < length then .error .incomplete
      else .ok ((rest.take length).map .literal, .ofBytes (rest.drop length))
  | _ => .error .incomplete

/-- The order in which the lengths of the length code are listed. -/
def lengthOrder : List Nat :=
  [16, 17, 18, 0, 8, 7, 9, 6, 10, 5, 11, 4, 12, 3, 13, 2, 14, 1, 15]

/-- Several numbers of three bits. -/
def takeTriples : (count : Nat) → Bits → Except StreamFault (List Nat × Bits)
  | 0, bits => .ok ([], bits)
  | count + 1, bits => do
      let (value, bits) ← takeBits 3 bits
      let (values, bits) ← takeTriples count bits
      return (value :: values, bits)

/-- The lengths of the length code in the order of its symbols. -/
def arrange (listed : List Nat) : List Nat :=
  (List.range 19).map fun symbol => ((lengthOrder.zip listed).lookup symbol).getD 0

/-- The word lengths of both codes, run lengths resolved.  Reading goes on until there are enough.
-/
def takeLengths (code : Huffman) (wanted : Nat) : (fuel : Nat) → List Nat → Bits →
    Except StreamFault (List Nat × Bits)
  | 0, _, _ => .error .incomplete
  | fuel + 1, sofar, bits => do
      if wanted ≤ sofar.length then return (sofar, bits)
      let (symbol, bits) ← code.decode bits
      if symbol < 16 then takeLengths code wanted fuel (sofar ++ [symbol]) bits
      else if symbol = 16 then
        match sofar.getLast? with
        | none => throw .corrupt
        | some previous =>
            let (more, bits) ← takeBits 2 bits
            takeLengths code wanted fuel (sofar ++ List.replicate (3 + more) previous) bits
      else
        let (extra, base) := if symbol = 17 then (3, 3) else (7, 11)
        let (more, bits) ← takeBits extra bits
        takeLengths code wanted fuel (sofar ++ List.replicate (base + more) 0) bits

/-- The codes described in front of a block. -/
def takeCodes (bits : Bits) : Except StreamFault (Codes × Bits) := do
  let (literals, bits) ← takeBits 5 bits
  let (distances, bits) ← takeBits 5 bits
  let (listed, bits) ← takeBits 4 bits
  if 286 < literals + 257 || 30 < distances + 1 then throw .corrupt
  let (lengths, bits) ← takeTriples (listed + 4) bits
  let lengthCode := Huffman.ofLengths (arrange lengths)
  if !lengthCode.isComplete then throw .corrupt
  let wanted := literals + 257 + (distances + 1)
  let (lengths, bits) ← takeLengths lengthCode wanted (wanted + 1) [] bits
  if lengths.length ≠ wanted then throw .corrupt
  let codes : Codes :=
    ⟨.ofLengths (lengths.take (literals + 257)), .ofLengths (lengths.drop (literals + 257))⟩
  if !codes.literals.isUsable || !codes.distances.isUsable then throw .corrupt
  return (codes, bits)

/-- One block: whether it is the last, its tokens, and what follows it. -/
def takeBlock (bits : Bits) : Except StreamFault (Bool × List Token × Bits) := do
  let (final, bits) ← takeBits 1 bits
  let (kind, bits) ← takeBits 2 bits
  let (tokens, bits) ←
    match kind with
    | 0 => takeStored bits
    | 1 => takeTokens fixedCodes bits.available bits
    | 2 => do
        let (codes, bits) ← takeCodes bits
        takeTokens codes bits.available bits
    | _ => throw .corrupt
  return (final == 1, tokens, bits)

/-- The tokens of all blocks up to the last, and what follows it. -/
def takeBlocks : (fuel : Nat) → Bits → Except StreamFault (List Token × Bits)
  | 0, _ => .error .incomplete
  | fuel + 1, bits => do
      let (final, tokens, bits) ← takeBlock bits
      if final then return (tokens, bits)
      let (more, bits) ← takeBlocks fuel bits
      return (tokens ++ more, bits)

/-- Decompress a stream; the bytes behind it are returned as they are. -/
def inflate (bytes : List UInt8) : Except StreamFault (List UInt8 × List UInt8) := do
  let bits := Bits.ofBytes bytes
  let (tokens, bits) ← takeBlocks (bits.available + 1) bits
  return (Token.expand tokens, bits.bytes)

/-! ## Writing -/

/-- The words of the fixed code, by symbol. -/
def fixedWords : Array (List Bool) :=
  ((List.range 288).map (Huffman.wordOf fixedLengths)).toArray

/-- The word of a literal, the end of a block, or a copy length. -/
def literalWord (symbol : Nat) : List Bool := fixedWords.getD symbol []

/-- The bits of a value that its symbol leaves open. -/
def extraBits (ranges : Ranges) (value : Nat) : List Bool :=
  let (base, extra) := ranges.getD (symbolFor ranges value) (0, 0)
  lowBits extra (value - base)

/-- The bits of a token in the fixed code. -/
def tokenBits : Token → List Bool
  | .literal byte => literalWord byte.toNat
  | .copy length distance =>
      literalWord (257 + symbolFor lengthRanges length) ++ extraBits lengthRanges length ++
        Huffman.wordOf fixedDistances (symbolFor distanceRanges distance) ++
        extraBits distanceRanges distance

/-- Compress bytes into a stream of one block. -/
def deflate (bytes : List UInt8) : List UInt8 :=
  gather (true :: true :: false ::
    (Token.ofBytes bytes).flatMap tokenBits ++ literalWord 256)

end TriggerGraph.Packing.Deflate
