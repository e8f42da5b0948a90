import TriggerGraph.Script.Control

/-!
# The meaning of statements

Every statement is an action.  A body ends at the first statement that fails; at the outermost level
a failure is only recorded.
-/

namespace TriggerGraph

/-- What can be told about a context. -/
def Compiler.describe (compiler : Compiler) (context : Context) : ContextInfo where
  name := context.name
  group := context.group
  parent := (context.parent.bind compiler.context?).map (·.group.value)
  objects := context.objects.length

/-- The group id of a context. -/
def Compiler.groupValue (compiler : Compiler) (id : Nat) : UInt32 :=
  ((compiler.context? id).map (·.group.value)).getD 0

/-- The number of objects in the current context. -/
def Compiler.currentSize (compiler : Compiler) : Nat :=
  ((compiler.context? compiler.current).map (·.objects.length)).getD 0

namespace Build

/-- What can be told about the context with a number. -/
def describe (id : Nat) : Build Outcome := do
  let compiler ← compiler
  let context := (compiler.context? id).getD Compiler.globalContext
  return .context (compiler.describe context)

/-- Do an action and record how the statement ended. -/
def record (statement : Statement) (action : Build Outcome) : Build Unit :=
  ExceptT.mk fun run =>
    let (result, after) := action.run.run run
    let compiler := after.compiler
    let entry : Entry :=
      ⟨statement, result, compiler.groupValue compiler.current, compiler.currentSize⟩
    (result.map fun _ => (), { after with finished := entry :: after.finished })

/-- Do an action; its failure is a result. -/
def attempt (body : Build Unit) : Build Outcome :=
  ExceptT.mk fun run =>
    match body.run.run run with
    | (.ok (), after) => (.ok .done, after)
    | (.error error, after) => (.ok (.failed error), after)

/-- Do an action that has no result. -/
def done (action : Build Unit) : Build Outcome := do
  action
  return .done

/-- Bind a reference and return it. -/
def named (name : Option String) (reference : Reference) : Build Outcome := do
  bindTo name (.reference reference)
  return .reference reference

/-- The steps of a sequence with their operands resolved. -/
def resolveSteps : List (Operand Reference × UInt32) → Build (List (Reference × UInt32))
  | [] => pure []
  | (operand, count) :: rest => do
      let group ← reference operand
      return (group, count) :: (← resolveSteps rest)

/-- Counters with their operands resolved. -/
def resolveCounters : List (Operand Counter) → Build (List Counter)
  | [] => pure []
  | operand :: rest => do
      let first ← counter operand
      return first :: (← resolveCounters rest)

/-- The delay given, or else the one all loops have. -/
def loopDelay (delay : Option Double) : Build Double :=
  match delay with
  | some delay => pure delay
  | none => return (← compiler).options.loopDelay

end Build

namespace Statement

open Build in
mutual

/-- The action of a statement. -/
def exec : Statement → Build Outcome
  | .fresh domain name => do named name (← draw (·.next domain))
  | .reserve domain value name => do named name (← draw (·.reserve domain value))
  | .groupInUse value => return .flag ((← compiler).isGroupInUse value)
  | .options => return .options (← compiler).options
  | .createContext label switch name => do
      let opened ← commit (·.openContext label)
      if switch then Build.change (·.switchTo opened.id)
      named name opened.group
  | .switchTo label => done do
      let id ← contextNamed label
      Build.change (·.switchTo id)
  | .switchToOwner group => done do
      let id ← Build.owner (← reference group)
      Build.change (·.switchTo id)
  | .current => do describe (← compiler).current
  | .context label => do describe (← contextNamed label)
  | .owner group => do describe (← Build.owner (← reference group))
  | .chainOf group => do
      let id ← Build.owner (← reference group)
      let compiler ← compiler
      return .chain ((compiler.chain.next? id).map compiler.groupValue)
        (compiler.groupValue (compiler.chain.terminal id))
  | .add object => done (Build.add object)
  | .addChecked fields => done (addMade (Object.empty.setAll fields))
  | .function own name body => do
      let group ← Build.function fun group => do
        bindTo own (.reference group)
        execAll body
      named name group
  | .extend group body => done do
      let id ← Build.owner (← reference group)
      within id (execAll body)
  | .call group delay => done do Build.call (← reference group) delay
  | .wait seconds => done (Build.wait seconds)
  | .repeatWhile operand delay own name body => do
      let held ← Build.condition operand
      let made ← Build.repeatWhile held (← loopDelay delay) fun group => do
        bindTo own (.reference group)
        execAll body
      bindTo (name.map (· ++ ".check")) (.reference made.check)
      bindTo (name.map (· ++ ".body")) (.reference made.body)
      return .loop made.check made.body ((← compiler).groupValue made.tail)
  | .forLoop range delay index name body => do
      let made ← Build.forLoop range (← loopDelay delay) fun made => do
        bindTo index (.counter made)
        execAll body
      bindTo name (.counter made)
      return .counter made
  | .sequence steps mode minInterval restart name => do
      let group ← Build.sequence (← resolveSteps steps) mode minInterval restart
      bindTo name (.sequence group)
      return .reference group
  | .callSequence name => done do
      Build.call (← lookup Binding.toSequence? name) .zero
  | .remappable parameters name body => do
      let made ← Build.remappable parameters.length fun slots => do
        bindCounters parameters slots
        execAll body
      bindTo name (.remappable made)
      bindTo (name.map (· ++ ".group")) (.reference made.group)
      return .remappable made
  | .callRemapped name arguments => done do
      let f ← lookup Binding.toRemappable? name
      Build.callRemapped f (← resolveCounters arguments)
  | .counter settings name => do
      let made ← newCounter settings
      bindTo name (.counter made)
      return .counter made
  | .change left op right => done do
      let left ← Build.counter left
      changeCounter left op (← resolve Binding.toAmount? right)
  | .reset left => done do resetCounter (← Build.counter left)
  | .transfer way left right => done do
      let left ← Build.counter left
      Build.transfer way left (← Build.counter right)
  | .ifIs left target comparator threshold => done do
      let left ← Build.counter left
      compare ⟨left, comparator, threshold⟩ (← reference target)
  | .condition operand target => done do
      let held ← Build.condition operand
      compare held (← reference target)
  | .dispatch left values value body => done do
      let left ← Build.counter left
      Build.dispatch left (fun n => do
        bindTo value (.integer n)
        execAll body) values
  | .fail message => throw (.unknownContext message)
  | .attempt body => Build.attempt (execAll body)

/-- The action of a body. -/
def execAll : List Statement → Build Unit
  | [] => pure ()
  | statement :: rest => do
      record statement (exec statement)
      execAll rest

end

end Statement

namespace Run

/-- A run in which nothing has been done. -/
def start (compiler : Compiler) : Run := ⟨compiler, [], []⟩

/-- The run after one more statement, whether or not it fails. -/
def step (run : Run) (statement : Statement) : Run :=
  ((Build.record statement statement.exec).run.run run).2

/-- The run after a script. -/
def steps (run : Run) (script : List Statement) : Run := script.foldl step run

/-- The finished statements in the order they finished. -/
def log (run : Run) : List Entry := run.finished.reverse

end Run
end TriggerGraph
