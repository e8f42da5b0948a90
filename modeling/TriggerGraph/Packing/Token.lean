/-!
# Literals and copies

Compressed data is a list of tokens: a byte, or a run of bytes to be copied from a given distance
back. What lies before the first byte counts as zeros.
-/

namespace TriggerGraph.Packing

/-- A step of decompression. -/
inductive Token where
  | literal (byte : UInt8)
  | copy (length distance : Nat)
  deriving DecidableEq

namespace Token

/-- The byte that stands a distance back. -/
def byteBack (output : Array UInt8) (distance : Nat) : UInt8 :=
  if distance ≤ output.size then output.getD (output.size - distance) 0 else 0

/-- Append the byte a distance back, again and again. -/
def appendCopy (distance : Nat) : (length : Nat) → Array UInt8 → Array UInt8
  | 0, output => output
  | length + 1, output => appendCopy distance length (output.push (byteBack output distance))

/-- The output after one token. -/
def apply (output : Array UInt8) : Token → Array UInt8
  | literal byte => output.push byte
  | copy length distance => appendCopy distance length output

/-- The bytes a list of tokens stands for. -/
def expand (tokens : List Token) : List UInt8 := (tokens.foldl apply #[]).toList

/-- How many bytes agree from two positions on, up to a limit. -/
def matchLength (data : Array UInt8) (older newer : Nat) : (limit : Nat) → Nat
  | 0 => 0
  | limit + 1 =>
      if newer < data.size ∧ data[older]? = data[newer]? then
        matchLength data (older + 1) (newer + 1) limit + 1
      else 0

/-- The longest copy from one of the older positions, the nearest of equals. -/
def longestCopy (data : Array UInt8) (position : Nat) : List Nat → Nat × Nat
  | [] => (0, 0)
  | older :: rest =>
      let best := longestCopy data position rest
      let length := matchLength data older position 258
      if older < position ∧ position - older ≤ 32768 ∧ best.1 ≤ length then
        (length, position - older)
      else best

/-- Tokens for the data from a position on; `recent` holds earlier positions worth trying. -/
def cover (data : Array UInt8) (recent : List Nat) (position : Nat) : List Token :=
  if h : position < data.size then
    let (length, distance) := longestCopy data position recent
    let recent := (position :: recent).take 48
    if 3 ≤ length then copy length distance :: cover data recent (position + length)
    else literal data[position] :: cover data recent (position + 1)
  else []
termination_by data.size - position

/-- Tokens that stand for the given bytes. -/
def ofBytes (bytes : List UInt8) : List Token := cover bytes.toArray [] 0

end Token
end TriggerGraph.Packing
