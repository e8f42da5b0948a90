/-!
# Base64

Three bytes are written as four symbols of six bits.  Written text is padded with `=` to a multiple
of four; padding may be left off when reading.  Every group of four but the last must consist of
symbols only, and the last group must hold two symbols at least and no stray bits.
-/

namespace TriggerGraph.Base64

/-- A choice of the last two of the sixty-four symbols. -/
structure Alphabet where
  /-- The symbol of 62. -/
  plus : UInt8
  /-- The symbol of 63. -/
  slash : UInt8
  deriving DecidableEq

/-- The standard alphabet, with `+` and `/`. -/
def Alphabet.standard : Alphabet := ⟨43, 47⟩

/-- The alphabet that can stand in an address, with `-` and `_`. -/
def Alphabet.urlSafe : Alphabet := ⟨45, 95⟩

namespace Alphabet

/-- The symbol of a number below sixty-four. -/
def symbol (alphabet : Alphabet) (value : Nat) : UInt8 :=
  if value < 26 then UInt8.ofNat (65 + value)
  else if value < 52 then UInt8.ofNat (71 + value)
  else if value < 62 then UInt8.ofNat (value - 4)
  else if value = 62 then alphabet.plus
  else alphabet.slash

/-- The number of a symbol. -/
def value? (alphabet : Alphabet) (byte : UInt8) : Option Nat :=
  if 65 ≤ byte && byte ≤ 90 then some (byte.toNat - 65)
  else if 97 ≤ byte && byte ≤ 122 then some (byte.toNat - 71)
  else if 48 ≤ byte && byte ≤ 57 then some (byte.toNat + 4)
  else if byte = alphabet.plus then some 62
  else if byte = alphabet.slash then some 63
  else none

end Alphabet

/-- The padding byte `=`. -/
def padding : UInt8 := 61

/-- Why a text is not base64. -/
inductive Fault where
  | symbol (byte : UInt8) (offset : Nat)
  | length (count : Nat)
  | lastSymbol (byte : UInt8) (offset : Nat)
  deriving DecidableEq

/-- The message of a fault. -/
def Fault.message : Fault → String
  | symbol byte offset =>
      "Invalid symbol " ++ toString byte.toNat ++ ", offset " ++ toString offset ++ "."
  | length count => "Invalid input length: " ++ toString count
  | lastSymbol byte offset =>
      "Invalid last symbol " ++ toString byte.toNat ++ ", offset " ++ toString offset ++ "."

/-- The padded text of a run of bytes. -/
def encode (alphabet : Alphabet) : List UInt8 → List UInt8
  | [] => []
  | [a] => [alphabet.symbol (a.toNat / 4), alphabet.symbol (a.toNat % 4 * 16), padding, padding]
  | [a, b] =>
      [alphabet.symbol (a.toNat / 4), alphabet.symbol (a.toNat % 4 * 16 + b.toNat / 16),
        alphabet.symbol (b.toNat % 16 * 4), padding]
  | a :: b :: c :: rest =>
      alphabet.symbol (a.toNat / 4) :: alphabet.symbol (a.toNat % 4 * 16 + b.toNat / 16) ::
        alphabet.symbol (b.toNat % 16 * 4 + c.toNat / 64) :: alphabet.symbol (c.toNat % 64) ::
        encode alphabet rest

/-- Symbols in groups of four as the bytes they hold; the last group may be shorter. -/
def pack : List Nat → List UInt8
  | a :: b :: c :: d :: rest =>
      UInt8.ofNat (a * 4 + b / 16) :: UInt8.ofNat (b % 16 * 16 + c / 4) ::
        UInt8.ofNat (c % 4 * 64 + d) :: pack rest
  | [a, b, c] => [UInt8.ofNat (a * 4 + b / 16), UInt8.ofNat (b % 16 * 16 + c / 4)]
  | [a, b] => [UInt8.ofNat (a * 4 + b / 16)]
  | _ => []

/-- The low bits of the last symbol that no byte uses. -/
def strayBits : List Nat → Nat
  | [_, b] => b % 16
  | [_, _, c] => c % 4
  | _ => 0

/-- The numbers of a run of symbols that allows no padding. -/
def readSymbols (alphabet : Alphabet) (offset : Nat) : List UInt8 → Except Fault (List Nat)
  | [] => .ok []
  | byte :: rest =>
      match alphabet.value? byte with
      | none => .error (.symbol byte offset)
      | some value => (readSymbols alphabet (offset + 1) rest).map (value :: ·)

/-- The numbers of the last group.  Padding may start at its third byte and must reach its end. -/
def readLast (alphabet : Alphabet) (offset index : Nat) : List UInt8 → Except Fault (List Nat)
  | [] => .ok []
  | byte :: rest =>
      if byte = padding then
        if index < 2 || rest.any (· != padding) then .error (.symbol padding (offset + index))
        else .ok []
      else
        match alphabet.value? byte with
        | none => .error (.symbol byte (offset + index))
        | some value => (readLast alphabet offset (index + 1) rest).map (value :: ·)

/-- A last byte that makes the length impossible is reported before all else. -/
def checkLength (alphabet : Alphabet) (text : List UInt8) : Except Fault Unit :=
  match text.getLast? with
  | some byte =>
      if text.length % 4 = 1 ∧ byte ≠ padding ∧ alphabet.value? byte = none then
        .error (.symbol byte (text.length - 1))
      else .ok ()
  | none => .ok ()

/-- The bytes of a text, padded or not. -/
def decode (alphabet : Alphabet) (text : List UInt8) : Except Fault (List UInt8) := do
  checkLength alphabet text
  let front := (text.length - 1) / 4 * 4
  let symbols ← readSymbols alphabet 0 (text.take front)
  let last ← readLast alphabet front 0 (text.drop front)
  if text ≠ [] ∧ last.length < 2 then throw (.length (front + last.length))
  if strayBits last ≠ 0 then
    throw (.lastSymbol ((text.drop front).getD (last.length - 1) 0) (front + last.length - 1))
  return pack (symbols ++ last)

end TriggerGraph.Base64
