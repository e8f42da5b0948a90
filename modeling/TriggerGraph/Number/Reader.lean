import TriggerGraph.Number.Decimal

/-!
# Reading numerals

Integers are an optional sign and decimal digits within the range of their type.  Doubles are an
optional sign and either digits with an optional point and exponent, or a name of a value that has
no digits.
-/

namespace TriggerGraph

/-- One of the ten decimal digits. -/
def isDigit (c : Char) : Bool := '0' ≤ c && c ≤ '9'

/-- A nonempty run of decimal digits. -/
def readNatural? (text : List Char) : Option Nat :=
  if text.isEmpty || !text.all isDigit then none else some (naturalValue text)

/-- Decimal digits after an optional sign. -/
def readInteger? : List Char → Option Int
  | '-' :: digits => (readNatural? digits).map fun n : Nat => -(n : Int)
  | '+' :: digits => (readNatural? digits).map fun n : Nat => (n : Int)
  | digits => (readNatural? digits).map fun n : Nat => (n : Int)

/-- An unsigned 32-bit integer; a plus sign is allowed, a minus sign is not. -/
def readUInt32? (text : List Char) : Option UInt32 :=
  let digits := match text with
    | '+' :: rest => rest
    | other => other
  (readNatural? digits).bind fun n => if n < UInt32.size then some (UInt32.ofNat n) else none

/-- A signed 64-bit integer. -/
def readInt64? (text : List Char) : Option Int64 :=
  (readInteger? text).bind fun n =>
    if Int64.minValue.toInt ≤ n ∧ n ≤ Int64.maxValue.toInt then some (Int64.ofInt n) else none

/-- The lower-case form of an ASCII letter. -/
def lowerAscii (c : Char) : Char :=
  if 'A' ≤ c && c ≤ 'Z' then Char.ofNat (c.toNat + 32) else c

/-- The exponent of a numeral: nothing, or the mark `e` and an integer. -/
def readExponent? : List Char → Option Int
  | [] => some 0
  | mark :: rest => if mark == 'e' || mark == 'E' then readInteger? rest else none

/-- The fraction digits behind an optional decimal point, and what follows them. -/
def splitFraction : List Char → List Char × List Char
  | '.' :: rest => (rest.takeWhile isDigit, rest.dropWhile isDigit)
  | rest => ([], rest)

/-- A numeral without its sign. -/
def readDecimal? (text : List Char) : Option Decimal :=
  let whole := text.takeWhile isDigit
  let (fraction, rest) := splitFraction (text.dropWhile isDigit)
  if whole.isEmpty && fraction.isEmpty then none
  else
    (readExponent? rest).map fun exponent =>
      ⟨naturalValue (whole ++ fraction), exponent - fraction.length⟩

/-- A double without its sign: a numeral, or a name in letters of any case. -/
def readUnsignedDouble? (negative : Bool) (text : List Char) : Option Double :=
  match readDecimal? text with
  | some decimal => some (decimal.toDouble negative)
  | none =>
      let name := text.map lowerAscii
      if name = "nan".toList then some .nan
      else if name = "inf".toList || name = "infinity".toList then some (.infinity negative)
      else none

/-- A double after an optional sign. -/
def readDouble? : List Char → Option Double
  | '-' :: rest => readUnsignedDouble? true rest
  | '+' :: rest => readUnsignedDouble? false rest
  | text => readUnsignedDouble? false text

/-- The value of a digit in a base up to sixteen. -/
def digitIn? (base : Nat) (c : Char) : Option Nat :=
  let value :=
    if '0' ≤ c && c ≤ '9' then c.toNat - 48
    else if 'a' ≤ c && c ≤ 'f' then c.toNat - 87
    else if 'A' ≤ c && c ≤ 'F' then c.toNat - 55
    else base
  if value < base then some value else none

end TriggerGraph
