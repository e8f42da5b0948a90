import TriggerGraph.Ids.Pool
import TriggerGraph.Ids.Reference

/-!
# The id allocator

One pool for each domain, and one more for the item slots that counters use.
-/

namespace TriggerGraph

/-- The pools of one compilation. -/
structure Allocator where
  /-- Group ids. -/
  groups : Pool
  /-- Color ids. -/
  colors : Pool
  /-- Block ids. -/
  blocks : Pool
  /-- Item slots, numbered apart from all domains. -/
  items : Pool
  deriving DecidableEq

namespace Allocator

/-- Pools that have handed out nothing. -/
def empty : Allocator := ⟨.empty, .empty, .empty, .empty⟩

/-- The pool of a domain. -/
def pool (ids : Allocator) : Domain → Pool
  | .group => ids.groups
  | .color => ids.colors
  | .block => ids.blocks

/-- The allocator with one domain's pool replaced. -/
def setPool (ids : Allocator) (domain : Domain) (pool : Pool) : Allocator :=
  match domain with
  | .group => { ids with groups := pool }
  | .color => { ids with colors := pool }
  | .block => { ids with blocks := pool }

/-- A fresh reference in a domain. -/
def next (ids : Allocator) (domain : Domain) : Reference × Allocator :=
  let (value, pool) := (ids.pool domain).next
  (⟨domain, value⟩, ids.setPool domain pool)

/-- Keep an id of a domain from being handed out. -/
def reserve (ids : Allocator) (domain : Domain) (value : UInt32) : Reference × Allocator :=
  (⟨domain, value⟩, ids.setPool domain ((ids.pool domain).reserve value))

/-- Whether an id was reserved in a domain. -/
def isReserved (ids : Allocator) (domain : Domain) (value : UInt32) : Bool :=
  (ids.pool domain).isReserved value

/-- Whether an id was handed out in a domain. -/
def isIssued (ids : Allocator) (domain : Domain) (value : UInt32) : Bool :=
  (ids.pool domain).isIssued value

/-- The highest id handed out in a domain, zero if none was. -/
def highWater (ids : Allocator) (domain : Domain) : UInt32 := (ids.pool domain).last

/-- A fresh item slot. -/
def nextItem (ids : Allocator) : UInt32 × Allocator :=
  let (value, items) := ids.items.next
  (value, { ids with items })

/-- Keep an item slot from being handed out. -/
def reserveItem (ids : Allocator) (item : UInt32) : Allocator :=
  { ids with items := ids.items.reserve item }

end Allocator
end TriggerGraph
