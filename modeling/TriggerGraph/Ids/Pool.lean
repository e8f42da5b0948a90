/-!
# One pool of ids

A pool hands out ids in increasing order and steps over every id that was reserved before it was
reached.  It keeps the ids it stepped over, which is enough to tell later which ids it handed out.
-/

namespace TriggerGraph

/-- The allocation state of one id space. -/
structure Pool where
  /-- The highest id considered so far. -/
  last : UInt32
  /-- Ids that are never handed out from now on. -/
  reserved : List UInt32
  /-- Reserved ids that allocation stepped over. -/
  skipped : List UInt32
  deriving DecidableEq

namespace Pool

/-- A pool that has handed out nothing and reserves nothing. -/
def empty : Pool := ⟨0, [], []⟩

/-- The first id after `last` that is not pending, with every id passed on the way added to
`skipped`.  Each id passed uses up a pending one. -/
def advance (last : UInt32) (pending skipped : List UInt32) : UInt32 × List UInt32 :=
  if last + 1 ∈ pending then
    advance (last + 1) (pending.erase (last + 1)) (skipped.insert (last + 1))
  else (last + 1, skipped)
termination_by pending.length
decreasing_by
  have found : last + 1 ∈ pending := by assumption
  rw [List.length_erase_of_mem found]
  have := List.length_pos_of_mem found
  omega

/-- Hand out the next id that is not reserved. -/
def next (pool : Pool) : UInt32 × Pool :=
  let (value, skipped) := advance pool.last pool.reserved pool.skipped
  (value, { pool with last := value, skipped })

/-- Keep an id from being handed out. -/
def reserve (pool : Pool) (value : UInt32) : Pool :=
  { pool with reserved := pool.reserved.insert value }

/-- Whether an id was reserved. -/
def isReserved (pool : Pool) (value : UInt32) : Bool := pool.reserved.contains value

/-- Whether an id was handed out; a reservation made afterwards does not hide it. -/
def isIssued (pool : Pool) (value : UInt32) : Bool :=
  value != 0 && decide (value ≤ pool.last) && !pool.skipped.contains value

end Pool
end TriggerGraph
