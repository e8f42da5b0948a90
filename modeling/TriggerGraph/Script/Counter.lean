import TriggerGraph.Number.Double

/-!
# Counters

A counter is a handle on an item slot or a timer slot.  Scripts change counters by constants or by
other counters and compare them with constants.
-/

namespace TriggerGraph

/-- The two kinds of slots, which are numbered alike but hold different cells. -/
inductive CounterKind where
  | item
  | timer
  deriving DecidableEq

/-- A counter. -/
structure Counter where
  /-- The number of its slot. -/
  item : UInt32
  /-- The kind of its slot. -/
  kind : CounterKind
  deriving DecidableEq

/-- The right side of a change to a counter. -/
inductive Amount where
  | constant (x : Double)
  | counter (c : Counter)
  deriving DecidableEq

/-- The changes a counter can undergo. -/
inductive CounterOp where
  | set
  | add
  | subtract
  | multiply
  | divide
  deriving DecidableEq

/-- The comparisons of a counter with a constant. -/
inductive Comparator where
  | equal
  | larger
  | smaller
  deriving DecidableEq

/-- What a loop or a branch waits for. -/
structure Condition where
  /-- The counter on the left side. -/
  counter : Counter
  /-- The comparison. -/
  comparator : Comparator
  /-- The constant on the right side. -/
  threshold : Double
  deriving DecidableEq

/-- How a counter comes into being. -/
structure CounterOptions where
  /-- The value it starts with. -/
  initial : Double
  /-- The slot to use in place of a fresh one. -/
  existing : Option UInt32
  /-- Whether its value outlives an attempt. -/
  persistent : Bool
  /-- Whether it is a timer. -/
  timer : Bool

/-- A fresh item counter that starts at zero. -/
def CounterOptions.plain : CounterOptions := ⟨.zero, none, false, false⟩

end TriggerGraph
