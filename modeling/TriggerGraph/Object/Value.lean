import TriggerGraph.Ids.Reference
import TriggerGraph.Number.Double

/-!
# Field values

A field holds a number, a flag, one or several references, a list of integers, or text that no
reader could make anything of.
-/

namespace TriggerGraph

/-- The value of one field. -/
inductive Value where
  | number (x : Double)
  | boolean (b : Bool)
  | reference (r : Reference)
  | references (rs : List Reference)
  | integers (ids : List Int64)
  | text (s : String)
  deriving DecidableEq

namespace Value

/-- The number nearest to an integer. -/
def ofInt (n : Int) : Value := .number (Double.ofInt n)

/-- The number of an unsigned 32-bit integer. -/
def ofUInt32 (n : UInt32) : Value := .ofInt n.toNat

/-- A value read as one number: flags count as one or zero, references as their ids. -/
def toDouble? : Value → Option Double
  | number x => some x
  | boolean b => some (Double.ofInt (if b then 1 else 0))
  | reference r => some (Double.ofInt r.value.toNat)
  | _ => none

/-- The word for a value's shape in messages. -/
def kindName : Value → String
  | number _ => "number"
  | boolean _ => "boolean"
  | reference r => r.domain.name
  | references _ => "reference list"
  | integers _ => "integer list"
  | text _ => "text"

end Value
end TriggerGraph
