import TriggerGraph.Script.Statement

/-!
# Running a script

A run holds the compiler, the names bound so far and the record of the finished statements.  An
action on a run may fail; whatever it did before it failed stays done.
-/

namespace TriggerGraph

/-- The state of a running script. -/
structure Run where
  /-- The compilation. -/
  compiler : Compiler
  /-- What names stand for, the latest binding first. -/
  bindings : List (String × Binding)
  /-- The finished statements, the latest first. -/
  finished : List Entry

/-- An action that changes a run and gives a result or fails. -/
abbrev Build := ExceptT CompileError (StateM Run)

namespace Build

/-- The compilation as it stands. -/
def compiler : Build Compiler := return (← get).compiler

/-- Change the compilation. -/
def change (f : Compiler → Compiler) : Build Unit :=
  modify fun run => { run with compiler := f run.compiler }

/-- Change the compilation and take a result from it. -/
def draw (f : Compiler → α × Compiler) : Build α :=
  modifyGet fun run =>
    let (result, compiler) := f run.compiler
    (result, { run with compiler })

/-- Change the compilation in a way that may fail; what a failure has changed stays. -/
def commit (f : Compiler → Except CompileError α × Compiler) : Build α := do
  match ← draw f with
  | .error error => throw error
  | .ok result => return result

/-- Fail unless the result is there. -/
def demand (error : CompileError) : Option α → Build α
  | some result => pure result
  | none => throw error

/-- Append an object to the current context. -/
def add (object : Object) : Build Unit := change (·.add object)

/-- Append an object to the current context if it could be made. -/
def addMade : Except FieldError Object → Build Unit
  | .ok object => add object
  | .error error => throw (.field error)

/-! ## Names -/

/-- Let a name stand for something from now on. -/
def bind (name : String) (binding : Binding) : Build Unit :=
  modify fun run => { run with bindings := (name, binding) :: run.bindings }

/-- Bind the name if there is one. -/
def bindTo (name : Option String) (binding : Binding) : Build Unit :=
  match name with
  | some name => bind name binding
  | none => pure ()

/-- Bind names to counters, one by one. -/
def bindCounters : List String → List Counter → Build Unit
  | name :: names, counter :: counters => do
      bind name (.counter counter)
      bindCounters names counters
  | _, _ => pure ()

/-- What a name stands for, if it is of the kind asked for. -/
def lookup (kind : Binding → Option α) (name : String) : Build α := do
  demand (.unknownContext ("$" ++ name)) (((← get).bindings.lookup name).bind kind)

/-- The value of an operand. -/
def resolve (kind : Binding → Option α) : Operand α → Build α
  | .literal value => pure value
  | .named name => lookup kind name

/-- The group of an operand. -/
def reference (operand : Operand Reference) : Build Reference :=
  resolve Binding.toReference? operand

/-- The counter of an operand. -/
def counter (operand : Operand Counter) : Build Counter := resolve Binding.toCounter? operand

/-- The condition of an operand. -/
def condition (operand : ConditionOperand) : Build Condition := do
  return ⟨← counter operand.counter, operand.comparator, operand.threshold⟩

/-! ## Contexts -/

/-- The number of the context with a name. -/
def contextNamed (name : String) : Build Nat := do
  demand (.unknownContext name) ((← compiler).find? name)

/-- The number of the context that owns a group. -/
def owner (group : Reference) : Build Nat := do
  demand (.unknownGroup group) ((← compiler).owner? group)

/-- Run a body in a context, and return to the current one whether or not it fails. -/
def within (id : Nat) (body : Build α) : Build α :=
  ExceptT.mk fun run =>
    let (result, after) := body.run.run { run with compiler := run.compiler.enter id }
    (result, { after with compiler := after.compiler.leave })

/-- Compile a body into a context of its own; the body is given the group. -/
def function (body : Reference → Build Unit) : Build Reference := do
  let opened ← commit Compiler.openAnonymous
  within opened.id (body opened.group)
  return opened.group

end Build
end TriggerGraph
