import TriggerGraph.Number.Decimal

/-!
# The shortest decimal of a double

Among the decimals that read back as a given magnitude, the one with the fewest digits, and of
those the nearest.  Each grid of one more digit holds a neighbour below and a neighbour above the
magnitude; the first grid with a neighbour that reads back ends the search.  The exact expansion
always reads back, so the search always has an answer.
-/

namespace TriggerGraph

/-- Which of two equally near decimals to write. -/
inductive Tie where
  | up
  | even

namespace Double.Magnitude

/-- The decimal reads back as this magnitude. -/
def readsBack (x : Magnitude) (d : Decimal) : Bool :=
  d.toDouble false == .finite false x

/-- The magnitude as a quotient of multiples of `10^exponent`. -/
def scaled (x : Magnitude) : Int → Nat × Nat
  | .ofNat k => (x.units, one * power 10 k)
  | .negSucc k => (x.units * power 10 (k + 1), one)

/-- How far before the decimal point the first digit of a positive magnitude stands.  A binary digit
is worth 0.30103 decimal ones, which leaves two places to choose from. -/
def point (x : Magnitude) : Int :=
  let guess := ((Nat.log2 x.units : Int) - 1074) * 30103 / 100000
  let (numerator, denominator) := x.scaled (guess + 1)
  if denominator ≤ numerator then guess + 2 else guess + 1

/-- The nearest decimal with the given last place that reads back. -/
def nearest? (tie : Tie) (x : Magnitude) (exponent : Int) : Option Decimal :=
  let (numerator, denominator) := x.scaled exponent
  let below : Decimal := ⟨numerator / denominator, exponent⟩
  let above : Decimal := ⟨numerator / denominator + 1, exponent⟩
  let twice := 2 * (numerator % denominator)
  match x.readsBack below, x.readsBack above with
  | false, false => none
  | true, false => some below
  | false, true => some above
  | true, true =>
      if twice < denominator then some below
      else if denominator < twice then some above
      else
        match tie with
        | .up => some above
        | .even => some (if below.digits % 2 = 0 then below else above)

/-- The finite decimal expansion of a magnitude. -/
def expansion (x : Magnitude) : Decimal := ⟨x.units * power 5 1074, -1074⟩

/-- The first place, of the given number and each one further down, with a decimal that reads back.
-/
def search (tie : Tie) (x : Magnitude) (place : Int) : (count : Nat) → Decimal
  | 0 => x.expansion
  | count + 1 =>
      match x.nearest? tie place with
      | some decimal => decimal
      | none => x.search tie (place - 1) count

/-- The fewest digits that read back, without trailing zeros. -/
def shortest (tie : Tie) (x : Magnitude) : Decimal := (x.search tie (x.point - 1) 17).trim

end Double.Magnitude
end TriggerGraph
