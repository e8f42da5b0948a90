import TriggerGraph.Number.Double

/-!
# Decimal numerals

Natural numbers written in decimal digits, and decimals `digits · 10^exponent` with the double
nearest to them.
-/

namespace TriggerGraph

/-- The character of a decimal digit. -/
def digitChar (digit : Nat) : Char := Char.ofNat (48 + digit)

/-- The number a decimal digit stands for. -/
def digitValue (c : Char) : Nat := c.toNat - 48

/-- The decimal digits of a natural number, without leading zeros. -/
def naturalText (n : Nat) : List Char :=
  if n < 10 then [digitChar n] else naturalText (n / 10) ++ [digitChar (n % 10)]
termination_by n
decreasing_by omega

/-- The number a run of decimal digits stands for. -/
def naturalValue (digits : List Char) : Nat :=
  digits.foldl (fun value c => 10 * value + digitValue c) 0

/-- An integer in decimal digits, a minus sign before a negative one. -/
def integerText (value : Int) : List Char :=
  if value < 0 then '-' :: naturalText value.natAbs else naturalText value.natAbs

/-- The number `digits · 10^exponent`. -/
structure Decimal where
  /-- The digits, read as one natural number. -/
  digits : Nat
  /-- The power of ten of the last digit. -/
  exponent : Int
  deriving DecidableEq

namespace Decimal

/-- How far before the decimal point the first digit stands. -/
def point (d : Decimal) : Int := (naturalText d.digits).length + d.exponent

/-- The double nearest to a decimal.  Far from the range of doubles the digits do not matter. -/
def toDouble (negative : Bool) (d : Decimal) : Double :=
  if d.digits = 0 ∨ d.point < -330 then .finite negative .zero
  else if 310 < d.point then .infinity negative
  else
    match d.exponent with
    | .ofNat k => Double.ofUnits negative (d.digits * power 10 k * Double.one) 1
    | .negSucc k => Double.ofUnits negative (d.digits * Double.one) (power 10 (k + 1))

/-- The same number without trailing zeros among its digits. -/
def trim (d : Decimal) : Decimal :=
  if d.digits ≠ 0 ∧ d.digits % 10 = 0 then trim ⟨d.digits / 10, d.exponent + 1⟩ else d
termination_by d.digits
decreasing_by omega

end Decimal
end TriggerGraph
