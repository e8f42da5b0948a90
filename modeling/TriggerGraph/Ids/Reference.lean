import TriggerGraph.Number.Decimal

/-!
# Typed references

The game numbers groups, colors and blocks independently, so an id means nothing without the
domain it addresses.
-/

namespace TriggerGraph

/-- The id space a reference belongs to. -/
inductive Domain where
  | group
  | color
  | block
  deriving DecidableEq

namespace Domain

/-- The word for a domain in messages and in structured text. -/
def name : Domain → String
  | group => "group"
  | color => "color"
  | block => "block"

/-- The domain a word names. -/
def ofName? (word : String) : Option Domain :=
  [group, color, block].find? (·.name == word)

end Domain

/-- A numeric id together with the domain it addresses. -/
structure Reference where
  /-- The id space. -/
  domain : Domain
  /-- The id within that space. -/
  value : UInt32
  deriving DecidableEq

namespace Reference

/-- A group reference. -/
def group (value : UInt32) : Reference := ⟨.group, value⟩

/-- Whether the reference addresses a group. -/
def isGroup (r : Reference) : Bool := r.domain == .group

/-- The reference as shown in messages, such as `group 3`. -/
def text (r : Reference) : String :=
  r.domain.name ++ " " ++ String.ofList (naturalText r.value.toNat)

end Reference
end TriggerGraph
