import TriggerGraph.Script.Compiler
import TriggerGraph.Script.Trigger

/-!
# Statements

A script is a list of statements.  Statements name the things that earlier statements made:
references, counters, integers, sequences and functions with parameters.  Some statements hold a
body, which is a list of statements again.
-/

namespace TriggerGraph

/-- A function written against placeholder slots, called with other slots in their place. -/
structure Remappable where
  /-- The group of the function. -/
  group : Reference
  /-- The placeholders in the order of the parameters. -/
  placeholders : List Counter
  deriving DecidableEq

/-- What a name can stand for. -/
inductive Binding where
  | reference (r : Reference)
  | counter (c : Counter)
  | integer (n : Int64)
  | sequence (group : Reference)
  | remappable (f : Remappable)
  deriving DecidableEq

namespace Binding

/-- The group meant by a name. -/
def toReference? : Binding → Option Reference
  | reference r => some r
  | sequence group => some group
  | _ => none

/-- The counter meant by a name. -/
def toCounter? : Binding → Option Counter
  | counter c => some c
  | _ => none

/-- The amount meant by a name. -/
def toAmount? : Binding → Option Amount
  | counter c => some (.counter c)
  | integer n => some (.constant (.ofInt n.toInt))
  | _ => none

/-- The sequence meant by a name. -/
def toSequence? : Binding → Option Reference
  | sequence group => some group
  | _ => none

/-- The function meant by a name. -/
def toRemappable? : Binding → Option Remappable
  | remappable f => some f
  | _ => none

end Binding

/-- A thing given by itself or by a name. -/
inductive Operand (α : Type) where
  | literal (value : α)
  | named (name : String)
  deriving DecidableEq

/-- The values a counting loop runs through; the end is not among them. -/
structure LoopRange where
  /-- The first value. -/
  start : Int64
  /-- The value to stop before. -/
  stop : Int64
  /-- The distance of two values. -/
  step : Int64
  deriving DecidableEq

/-- The ways to carry one counter over to another. -/
inductive Transfer where
  | copy
  | add
  | subtract
  deriving DecidableEq

/-- A condition whose counter may be given by name. -/
structure ConditionOperand where
  /-- The counter on the left side. -/
  counter : Operand Counter
  /-- The comparison. -/
  comparator : Comparator
  /-- The constant on the right side. -/
  threshold : Double

/-- One step of a script.  `name`, where there is one, is bound to the result; `own` and the like
are bound for the body. -/
inductive Statement where
  | fresh (domain : Domain) (name : Option String)
  | reserve (domain : Domain) (value : UInt32) (name : Option String)
  | groupInUse (value : UInt32)
  | options
  | createContext (context : String) (switch : Bool) (name : Option String)
  | switchTo (context : String)
  | switchToOwner (group : Operand Reference)
  | current
  | context (context : String)
  | owner (group : Operand Reference)
  | chainOf (group : Operand Reference)
  | add (object : Object)
  | addChecked (fields : List (String × Value))
  | function (own name : Option String) (body : List Statement)
  | extend (group : Operand Reference) (body : List Statement)
  | call (group : Operand Reference) (delay : Double)
  | wait (seconds : Double)
  | repeatWhile (condition : ConditionOperand) (delay : Option Double) (own name : Option String)
      (body : List Statement)
  | forLoop (range : LoopRange) (delay : Option Double) (index name : Option String)
      (body : List Statement)
  | sequence (steps : List (Operand Reference × UInt32)) (mode : SequenceMode)
      (minInterval : Double) (reset : SequenceReset) (name : Option String)
  | callSequence (sequence : String)
  | remappable (parameters : List String) (name : Option String) (body : List Statement)
  | callRemapped (function : String) (arguments : List (Operand Counter))
  | counter (options : CounterOptions) (name : Option String)
  | change (counter : Operand Counter) (op : CounterOp) (amount : Operand Amount)
  | reset (counter : Operand Counter)
  | transfer (way : Transfer) (counter other : Operand Counter)
  | ifIs (counter : Operand Counter) (target : Operand Reference) (comparator : Comparator)
      (threshold : Double)
  | condition (condition : ConditionOperand) (target : Operand Reference)
  | dispatch (counter : Operand Counter) (values : List Int64) (value : Option String)
      (body : List Statement)
  | fail (message : String)
  | attempt (body : List Statement)

/-- What can be told about a context. -/
structure ContextInfo where
  /-- Its name. -/
  name : String
  /-- Its group. -/
  group : Reference
  /-- The group id of the context it was opened in. -/
  parent : Option UInt32
  /-- The number of objects it holds. -/
  objects : Nat
  deriving DecidableEq

/-- The result of a statement. -/
inductive Outcome where
  | done
  | reference (r : Reference)
  | flag (b : Bool)
  | options (o : CompilerOptions)
  | context (info : ContextInfo)
  | chain (next : Option UInt32) (terminal : UInt32)
  | loop (check body : Reference) (tail : UInt32)
  | counter (c : Counter)
  | remappable (f : Remappable)
  | failed (error : CompileError)
  deriving DecidableEq

/-- The record of one statement, made when it has finished. -/
structure Entry where
  /-- The statement. -/
  statement : Statement
  /-- Its result, or why it failed. -/
  result : Except CompileError Outcome
  /-- The group id of the context that is current afterwards. -/
  group : UInt32
  /-- The number of objects in that context. -/
  objects : Nat

end TriggerGraph
