import TriggerGraph.Script.Build

/-!
# Control flow

Delays, loops, branches, sequences and functions with parameters.  The game knows none of them: each
becomes contexts that activate each other by spawns and comparisons.
-/

namespace TriggerGraph

/-- A delay is finite and not negative. -/
def Double.isDelay (seconds : Double) : Bool := seconds.isFinite && seconds.isNonnegative

namespace LoopRange

/-- Whether the step leads away from the end. -/
def leadsAway (range : LoopRange) : Bool :=
  (0 < range.step && range.stop < range.start) || (range.step < 0 && range.start < range.stop)

/-- A loop must move, and towards its end. -/
def check (range : LoopRange) : Except CompileError Unit :=
  if range.step = 0 then .error .zeroStep
  else if range.leadsAway then .error (.unreachable range.step range.stop range.start)
  else .ok ()

/-- The condition for going on. -/
def condition (range : LoopRange) (counter : Counter) : Condition where
  counter
  comparator := if 0 < range.step then .smaller else .larger
  threshold := .ofInt range.stop.toInt

end LoopRange

/-- What a loop was made into. -/
structure CompiledLoop where
  /-- The group of the check; activating it starts an iteration. -/
  check : Reference
  /-- The group of the body. -/
  body : Reference
  /-- The context that holds the activation of the next check. -/
  tail : Nat

namespace Build

/-- Fail on a delay that is none. -/
def checkDelay (seconds : Double) : Build Unit :=
  if seconds.isDelay then pure () else throw (.delay seconds)

/-- Activate a group after a delay. -/
def call (group : Reference) (delay : Double) : Build Unit := do
  checkDelay delay
  addMade (Trigger.spawn group delay)

/-- Let everything that follows run in a context activated after a delay. -/
def wait (seconds : Double) : Build Unit := do
  checkDelay seconds
  let source := (← compiler).current
  let opened ← commit Compiler.openAnonymous
  addMade (Trigger.spawn opened.group seconds)
  change fun compiler => (compiler.link source opened.id).switchTo opened.id

/-- Activate a group when a condition holds. -/
def compare (condition : Condition) (target : Reference) : Build Unit :=
  addMade (Trigger.compare condition target)

/-- Run a body as long as a condition holds, with a delay before each new check.  The check has a
context of its own, so that checking again runs nothing else. -/
def repeatWhile (condition : Condition) (delay : Double) (body : Reference → Build Unit) :
    Build CompiledLoop := do
  checkDelay delay
  let check ← commit Compiler.openAnonymous
  let inner ← commit Compiler.openAnonymous
  within check.id (compare condition inner.group)
  addMade (Trigger.spawn check.group .zero)
  within inner.id (body inner.group)
  let tail := (← compiler).chain.terminal inner.id
  match Trigger.spawn check.group delay with
  | .error error => throw (.field error)
  | .ok object => change (·.addTo tail object)
  return ⟨check.group, inner.group, tail⟩

/-- Append a change of a counter. -/
def changeCounter (counter : Counter) (op : CounterOp) (amount : Amount) : Build Unit :=
  add (Trigger.change counter op amount)

/-- Set a counter to zero. -/
def resetCounter (counter : Counter) : Build Unit :=
  changeCounter counter .set (.constant .zero)

/-- Carry a counter over to another; unless it is copied it is zero afterwards. -/
def transfer (way : Transfer) (counter other : Counter) : Build Unit :=
  match way with
  | .copy => changeCounter other .set (.counter counter)
  | .add => do
      changeCounter other .add (.counter counter)
      resetCounter counter
  | .subtract => do
      changeCounter other .subtract (.counter counter)
      resetCounter counter

/-- The slot of a new counter: the one asked for, which is taken from now on, or a fresh one. -/
def slot (options : CounterOptions) : Build UInt32 :=
  match options.existing with
  | some item => do
      change (·.reserveItem item)
      return item
  | none => draw Compiler.nextItem

/-- A new counter.  A persistent one is also restored by the global context. -/
def newCounter (options : CounterOptions) : Build Counter := do
  let counter : Counter := ⟨← slot options, if options.timer then .timer else .item⟩
  if options.existing.isNone && !options.initial.isZero then
    changeCounter counter .set (.constant options.initial)
  if options.persistent then
    add (Trigger.persist counter)
    change (·.addTo 0 (Trigger.persist counter))
  return counter

/-- Run a body for each value of a range.  The counter is set even to zero, because the loop may be
run again. -/
def forLoop (range : LoopRange) (delay : Double) (body : Counter → Build Unit) :
    Build Counter := do
  match range.check with
  | .error error => throw error
  | .ok () => pure ()
  checkDelay delay
  let counter ← newCounter .plain
  changeCounter counter .set (.constant (.ofInt range.start.toInt))
  let _ ← repeatWhile (range.condition counter) delay fun _ => do
    body counter
    changeCounter counter .add (.constant (.ofInt range.step.toInt))
  return counter

/-- Fail on a step that is no group. -/
def checkSteps : List (Reference × UInt32) → Build Unit
  | [] => pure ()
  | (group, _) :: rest =>
      match Trigger.spawn group .zero with
      | .error error => throw (.field error)
      | .ok _ => checkSteps rest

/-- A function that takes one step of a sequence at each call. -/
def sequence (steps : List (Reference × UInt32)) (mode : SequenceMode) (minInterval : Double)
    (reset : SequenceReset) : Build Reference := do
  checkDelay minInterval
  checkSteps steps
  function fun _ => add (Trigger.sequence steps mode minInterval reset)

/-- Fresh placeholder slots. -/
def placeholders : (count : Nat) → Build (List Counter)
  | 0 => pure []
  | count + 1 => do
      let item ← draw Compiler.nextItem
      return ⟨item, .item⟩ :: (← placeholders count)

/-- A function with parameters, written against placeholder slots. -/
def remappable (count : Nat) (body : List Counter → Build Unit) : Build Remappable := do
  let slots ← placeholders count
  let group ← function fun _ => body slots
  return ⟨group, slots⟩

/-- Call a function with parameters. -/
def callRemapped (f : Remappable) (arguments : List Counter) : Build Unit :=
  addMade (Trigger.remapSpawn f.group
    ((f.placeholders.zip arguments).flatMap fun (placeholder, argument) =>
      [Int64.ofNat placeholder.item.toNat, Int64.ofNat argument.item.toNat]))

/-- Branch on the value of a counter: for each value a function that is called on it. -/
def dispatch (counter : Counter) (body : Int64 → Build Unit) : List Int64 → Build Unit
  | [] => pure ()
  | value :: values => do
      let branch ← function fun _ => body value
      compare ⟨counter, .equal, .ofInt value.toInt⟩ branch
      dispatch counter body values

end Build
end TriggerGraph
