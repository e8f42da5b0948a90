import TriggerGraph.Number.Shortest

/-!
# Doubles as text

Level strings and messages write a double positionally whatever its size.  Structured output
writes it positionally between `10⁻⁵` and `10¹⁶` with a fraction always shown, and with an exponent
outside.
-/

namespace TriggerGraph.Double

/-- A run of zeros. -/
def zeros (count : Nat) : List Char := List.replicate count '0'

/-- Digits with the decimal point after the first `point` of them. -/
def positional (digits : List Char) (point : Int) (whole : List Char) : List Char :=
  if point ≤ 0 then '0' :: '.' :: zeros point.natAbs ++ digits
  else if point.toNat < digits.length then
    digits.take point.toNat ++ '.' :: digits.drop point.toNat
  else digits ++ zeros (point.toNat - digits.length) ++ whole

/-- A minus sign in front of a negative number. -/
def signed (negative : Bool) (text : List Char) : List Char :=
  if negative then '-' :: text else text

/-- The positional text of a double: no exponent, no fraction on a whole number. -/
def plainText : Double → List Char
  | nan => "NaN".toList
  | infinity negative => signed negative "inf".toList
  | finite negative magnitude =>
      if magnitude.units = 0 then signed negative ['0']
      else
        let decimal := magnitude.shortest .up
        signed negative (positional (naturalText decimal.digits) decimal.point [])

/-- One digit before the point, the rest behind it, and a signed exponent. -/
def scientific (digits : List Char) (exponent : Int) : List Char :=
  let mantissa :=
    match digits with
    | first :: second :: rest => first :: '.' :: second :: rest
    | short => short
  let sign := if exponent < 0 then '-' else '+'
  mantissa ++ 'e' :: sign :: naturalText exponent.natAbs

/-- The text of a double in structured output, where only finite numbers can be written. -/
def jsonText : Double → List Char
  | finite negative magnitude =>
      if magnitude.units = 0 then signed negative "0.0".toList
      else
        let decimal := magnitude.shortest .even
        let digits := naturalText decimal.digits
        let exponent := decimal.point - 1
        signed negative
          (if -5 ≤ exponent ∧ exponent ≤ 15 then positional digits decimal.point ".0".toList
          else scientific digits exponent)
  | _ => "null".toList

/-- The positional text as a string. -/
def toText (x : Double) : String := String.ofList x.plainText

end TriggerGraph.Double
