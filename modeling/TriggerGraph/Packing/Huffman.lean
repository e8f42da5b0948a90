import TriggerGraph.Packing.Bits

/-!
# Canonical Huffman codes

A code is given by the length of each symbol's code word, zero for a symbol that does not occur.
Words of one length are consecutive numbers in the order of their symbols, and shorter words come
first.
-/

namespace TriggerGraph.Packing

/-- Why a compressed stream cannot be read. -/
inductive StreamFault where
  | incomplete
  | corrupt
  deriving DecidableEq

/-- The message of a stream fault. -/
def StreamFault.message : StreamFault → String
  | incomplete => "incomplete deflate stream"
  | corrupt => "corrupt deflate stream"

/-- A code in the form that reading needs. -/
structure Huffman where
  /-- How many words there are of each length from one to that of the longest word. -/
  counts : List Nat
  /-- The symbols in the order of their words. -/
  symbols : Array Nat

namespace Huffman

/-- The symbols whose words have a given length, in order. -/
def symbolsOfLength (lengths : List Nat) (length : Nat) : List Nat :=
  (lengths.zipIdx.filter (·.1 == length)).map (·.2)

/-- The length of the longest word, one if there is none. -/
def longest (lengths : List Nat) : Nat := lengths.foldl max 1

/-- The code with the given word lengths. -/
def ofLengths (lengths : List Nat) : Huffman :=
  let classes := (List.range (longest lengths)).map fun n => symbolsOfLength lengths (n + 1)
  { counts := classes.map List.length, symbols := classes.flatten.toArray }

/-- The number of symbols that occur. -/
def size (code : Huffman) : Nat := code.counts.foldl (· + ·) 0

/-- The share of all fifteen-bit words that begin with a word of the code. -/
def covered (counts : List Nat) : Nat :=
  (counts.zipIdx.map fun (count, n) => count * Nat.pow 2 (14 - n)).foldl (· + ·) 0

/-- Every run of bits begins with a word of the code. -/
def isComplete (code : Huffman) : Bool := covered code.counts == Nat.pow 2 15

/-- Complete, or too small to be: one symbol still needs a bit, and none needs no more. -/
def isUsable (code : Huffman) : Bool :=
  code.isComplete || (code.size ≤ 1 && code.counts.length ≤ 1)

/-- Compare the bits with the words of one length after the other. `first` is the number of the
first word of the length at hand and `index` its place among all symbols.  Bits that begin no word
are refused once they are as long as the longest word. -/
def decodeFrom (code : Huffman) (word first index : Nat) :
    List Nat → Bits → Except StreamFault (Nat × Bits)
  | [], _ => .error .corrupt
  | count :: counts, bits =>
      match bits.next? with
      | none => .error .incomplete
      | some (bit, bits) =>
          let word := 2 * word + bit.toNat
          if word < first + count then
            .ok (code.symbols.getD (index + (word - first)) 0, bits)
          else decodeFrom code word (2 * (first + count)) (index + count) counts bits

/-- The next symbol and what follows it. -/
def decode (code : Huffman) (bits : Bits) : Except StreamFault (Nat × Bits) :=
  decodeFrom code 0 0 0 code.counts bits

/-- The number of the first word of a length. -/
def firstWord (lengths : List Nat) : Nat → Nat
  | 0 => 0
  | length + 1 =>
      2 * (firstWord lengths length + (if length = 0 then 0 else lengths.count length))

/-- The word of a symbol, highest bit first. -/
def wordOf (lengths : List Nat) (symbol : Nat) : List Bool :=
  let length := lengths.getD symbol 0
  let word := firstWord lengths length + (lengths.take symbol).count length
  (lowBits length word).reverse

end Huffman
end TriggerGraph.Packing
