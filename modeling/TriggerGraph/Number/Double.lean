/-!
# Doubles as whole numbers of units

Every finite double is a whole number of the smallest positive double, `2⁻¹⁰⁷⁴`, so a magnitude is
a natural number of such units that fits in 53 binary digits.  Conversions round a quotient of
units to the nearest magnitude, a tie going to the even one; casts to integers truncate and
saturate.
-/

namespace TriggerGraph

/-- The quotient rounded to the nearest whole number, a half going to the even neighbour. -/
def roundQuotient (numerator denominator : Nat) : Nat :=
  let quotient := numerator / denominator
  let twice := 2 * (numerator % denominator)
  if twice < denominator then quotient
  else if denominator < twice then quotient + 1
  else quotient + quotient % 2

/-- A power under a name of its own, so that a large one is computed only where it is needed. -/
def power (base exponent : Nat) : Nat := Nat.pow base exponent

theorem power_pos {base : Nat} (positive : 0 < base) (exponent : Nat) : 0 < power base exponent :=
  Nat.pow_pos positive

namespace Double

/-- The number of units in one. -/
def one : Nat := power 2 1074

/-- The spacing of magnitudes around a number of units: 53 binary digits are kept. -/
def spacing (units : Nat) : Nat := Nat.pow 2 (Nat.log2 units - 52)

/-- A number of units is a magnitude when it lies on the grid around it and below `2¹⁰²⁴`. -/
def Representable (units : Nat) : Prop :=
  spacing units ∣ units ∧ units < power 2 2098

instance (units : Nat) : Decidable (Representable units) :=
  inferInstanceAs (Decidable (_ ∧ _))

/-- The magnitude of a finite double, counted in units of `2⁻¹⁰⁷⁴`. -/
structure Magnitude where
  /-- How many units the magnitude holds. -/
  units : Nat
  /-- The units lie on the grid of doubles. -/
  representable : Representable units
  deriving DecidableEq

/-- The magnitude of zero. -/
def Magnitude.zero : Magnitude := ⟨0, Nat.dvd_zero _, power_pos (by decide) _⟩

end Double

/-- A double: not a number, a signed infinity, or a sign and a finite magnitude. -/
inductive Double where
  | nan
  | infinity (negative : Bool)
  | finite (negative : Bool) (magnitude : Double.Magnitude)
  deriving DecidableEq

namespace Double

/-- Zero without a sign. -/
def zero : Double := .finite false .zero

/-- The double nearest to a quotient of units; past the largest magnitude lies infinity. -/
def ofUnits (negative : Bool) (numerator denominator : Nat) : Double :=
  let step := spacing (numerator / denominator)
  let units := roundQuotient numerator (denominator * step) * step
  if h : Representable units then .finite negative ⟨units, h⟩ else .infinity negative

/-- The double nearest to an integer. -/
def ofInt (value : Int) : Double :=
  ofUnits (decide (value < 0)) (value.natAbs * one) 1

/-- The double nearest to a natural number. -/
def ofNat (value : Nat) : Double := ofInt value

/-- The opposite sign. -/
def neg : Double → Double
  | nan => nan
  | infinity negative => infinity !negative
  | finite negative magnitude => finite (!negative) magnitude

instance : Neg Double := ⟨neg⟩

/-- Neither infinite nor undefined. -/
def isFinite : Double → Bool
  | finite _ _ => true
  | _ => false

/-- Either of the two zeros. -/
def isZero : Double → Bool
  | finite _ magnitude => magnitude.units == 0
  | _ => false

/-- Greater than zero. -/
def isPositive : Double → Bool
  | nan => false
  | infinity negative => !negative
  | finite negative magnitude => !negative && magnitude.units != 0

/-- At least zero; the zero with a minus sign counts. -/
def isNonnegative (x : Double) : Bool := x.isPositive || x.isZero

/-- Equality of the numbers denoted: the two zeros are equal and `nan` equals nothing. -/
def sameNumber (x y : Double) : Bool :=
  match x with
  | nan => false
  | _ => (x.isZero && y.isZero) || x == y

/-- The whole number of a finite double, its fraction dropped. -/
def wholePart (negative : Bool) (magnitude : Magnitude) : Int :=
  let whole : Int := (magnitude.units / one : Nat)
  if negative then -whole else whole

/-- The integer nearest to zero, held within the bounds; `nan` gives zero. -/
def clampTo (lower upper : Int) : Double → Int
  | nan => 0
  | infinity negative => if negative then lower else upper
  | finite negative magnitude => max lower (min upper (wholePart negative magnitude))

/-- Truncation to a signed 64-bit integer, saturating at both ends. -/
def toInt64 (x : Double) : Int64 :=
  Int64.ofInt (x.clampTo Int64.minValue.toInt Int64.maxValue.toInt)

/-- Truncation to an unsigned 32-bit integer, saturating at both ends. -/
def toUInt32 (x : Double) : UInt32 := UInt32.ofNat (x.clampTo 0 (UInt32.size - 1)).toNat

end Double
end TriggerGraph
