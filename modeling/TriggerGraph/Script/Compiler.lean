import TriggerGraph.Ids.Allocator
import TriggerGraph.Object.Groups
import TriggerGraph.Script.Chain
import TriggerGraph.Script.Error

/-!
# The compiler

A context binds a name to a group of its own and collects the objects that run when the group is
activated.  Contexts are numbered as they are opened; number zero is the global context, whose
objects run at the start.  Two indexes lead from names and from groups to the numbers of contexts,
and a compiler carries the proof that they list every context.  A stack holds the contexts being
filled, and its top is the current one.
-/

namespace TriggerGraph

/-- A scope of compilation. -/
structure Context where
  /-- The name, unique among all contexts. -/
  name : String
  /-- The group whose activation runs the objects. -/
  group : Reference
  /-- The objects in the order they were added. -/
  objects : List Object
  /-- The context that was current when this one was opened. -/
  parent : Option Nat
  deriving DecidableEq

/-- What is seen of contexts without a look at their objects stays when objects change. -/
theorem Context.map_modify {α : Type} {view : Context → α}
    (blind : ∀ context objects, view { context with objects } = view context)
    (contexts : List Context) (id : Nat) (change : Context → List Object) :
    (contexts.modify id fun context => { context with objects := change context }).map view =
      contexts.map view := by
  refine List.ext_getElem? fun index => ?_
  rw [List.getElem?_map, List.getElem?_map, List.getElem?_modify]
  cases contexts[index]? with
  | none => rfl
  | some context =>
      split
      · exact congrArg some (blind context _)
      · rfl

/-- The settings of one compilation. -/
structure CompilerOptions where
  /-- Seconds between two checks of a loop. -/
  loopDelay : Double
  /-- A group that is never handed out, kept for marking the output. -/
  markerGroup : Option UInt32
  deriving DecidableEq

/-- Loops are checked every twentieth of a second, and no group is kept back. -/
def CompilerOptions.standard : CompilerOptions := ⟨(Decimal.mk 5 (-2)).toDouble false, none⟩

/-- The state of one compilation. -/
structure Compiler where
  /-- The ids handed out so far. -/
  ids : Allocator
  /-- All contexts in the order they were opened. -/
  contexts : List Context
  /-- The numbers of the contexts by name, the newest first; the first pair of a name counts. -/
  byName : List (String × Nat)
  /-- The numbers of the contexts by the id of their group, the newest first. -/
  byGroup : List (UInt32 × Nat)
  /-- The numbers of the contexts being filled, the current one first. -/
  stack : List Nat
  /-- The continuations made by waits. -/
  chain : Chain
  /-- The settings. -/
  options : CompilerOptions
  /-- The name of an anonymous context, by its number. -/
  names : Nat → String
  /-- Every context is listed under its name. -/
  named : byName = (contexts.map (·.name)).zipIdx.reverse
  /-- Every context is listed under its group. -/
  owned : byGroup = (contexts.map (·.group.value)).zipIdx.reverse

/-- A context just opened. -/
structure Opened where
  /-- Its number. -/
  id : Nat
  /-- Its group. -/
  group : Reference

namespace Compiler

/-- The name of the context that is there from the start. -/
def globalName : String := "global"

/-- The context that is there from the start. -/
def globalContext : Context := ⟨globalName, .group 1, [], none⟩

/-- The ids at the start: the global group and the marker are taken. -/
def startIds (options : CompilerOptions) : Allocator :=
  let ids := (Allocator.empty.reserve .group 1).2
  match options.markerGroup with
  | some marker => (ids.reserve .group marker).2
  | none => ids

/-- A compilation in which only the global context is open. -/
def start (options : CompilerOptions) (names : Nat → String) : Compiler where
  ids := startIds options
  contexts := [globalContext]
  byName := [(globalName, 0)]
  byGroup := [(1, 0)]
  stack := [0]
  chain := .empty
  options
  names
  named := rfl
  owned := rfl

/-! ## Looking -/

/-- The number of the current context. -/
def current (compiler : Compiler) : Nat := compiler.stack.headD 0

/-- The context with a number. -/
def context? (compiler : Compiler) (id : Nat) : Option Context := compiler.contexts[id]?

/-- The number of the context with a name. -/
def find? (compiler : Compiler) (name : String) : Option Nat := compiler.byName.lookup name

/-- The number of the context that owns a group. -/
def owner? (compiler : Compiler) (group : Reference) : Option Nat :=
  if group.isGroup then compiler.byGroup.lookup group.value else none

/-- Whether a group id addresses something: it was handed out or a context owns it. -/
def isGroupInUse (compiler : Compiler) (value : UInt32) : Bool :=
  compiler.ids.isIssued .group value || (compiler.byGroup.lookup value).isSome

/-! ## Changing -/

/-- A fresh reference. -/
def next (compiler : Compiler) (domain : Domain) : Reference × Compiler :=
  let (reference, ids) := compiler.ids.next domain
  (reference, { compiler with ids })

/-- Take an id, so that it is not handed out from now on. -/
def reserve (compiler : Compiler) (domain : Domain) (value : UInt32) : Reference × Compiler :=
  let (reference, ids) := compiler.ids.reserve domain value
  (reference, { compiler with ids })

/-- A fresh item slot. -/
def nextItem (compiler : Compiler) : UInt32 × Compiler :=
  let (item, ids) := compiler.ids.nextItem
  (item, { compiler with ids })

/-- Take an item slot. -/
def reserveItem (compiler : Compiler) (item : UInt32) : Compiler :=
  { compiler with ids := compiler.ids.reserveItem item }

/-- Put a context behind the others and list it under its name and its group. -/
def register (compiler : Compiler) (context : Context) : Compiler :=
  { compiler with
    contexts := compiler.contexts ++ [context]
    byName := (context.name, compiler.contexts.length) :: compiler.byName
    byGroup := (context.group.value, compiler.contexts.length) :: compiler.byGroup
    named := by simp [List.zipIdx_append, compiler.named]
    owned := by simp [List.zipIdx_append, compiler.owned] }

/-- Open a context with a fresh group, unless the name is taken. -/
def openContext (compiler : Compiler) (name : String) : Except CompileError Opened × Compiler :=
  if (compiler.find? name).isSome then (.error (.duplicateContext name), compiler)
  else
    let (group, compiler) := compiler.next .group
    (.ok ⟨compiler.contexts.length, group⟩,
      compiler.register ⟨name, group, [], some compiler.current⟩)

/-- Open a context whose name comes from the supply. -/
def openAnonymous (compiler : Compiler) : Except CompileError Opened × Compiler :=
  compiler.openContext (compiler.names compiler.contexts.length)

/-- Put a context in the place of the current one. -/
def switchTo (compiler : Compiler) (id : Nat) : Compiler :=
  { compiler with stack := id :: compiler.stack.tail }

/-- Put a context on top of the current one. -/
def enter (compiler : Compiler) (id : Nat) : Compiler :=
  { compiler with stack := id :: compiler.stack }

/-- Return to the context below the current one. -/
def leave (compiler : Compiler) : Compiler := { compiler with stack := compiler.stack.tail }

/-- Append an object to a context. -/
def addTo (compiler : Compiler) (id : Nat) (object : Object) : Compiler :=
  { compiler with
    contexts := compiler.contexts.modify id fun context =>
      { context with objects := context.objects ++ [object] }
    named := by rw [Context.map_modify fun _ _ => rfl, compiler.named]
    owned := by rw [Context.map_modify fun _ _ => rfl, compiler.owned] }

/-- Append an object to the current context. -/
def add (compiler : Compiler) (object : Object) : Compiler :=
  compiler.addTo compiler.current object

/-- Continue one context in another. -/
def link (compiler : Compiler) (source target : Nat) : Compiler :=
  { compiler with chain := compiler.chain.link source target }

/-! ## Results -/

/-- An object as it leaves a context other than the global one: it joins the group and runs whenever
that is activated. -/
def triggered (group : Reference) (object : Object) : Object :=
  ((object.addGroup group).insert Field.spawnTriggered (.boolean true)).insert
    Field.multiTriggered (.boolean true)

/-- All objects, those of the global context first, then context by context. -/
def flush (compiler : Compiler) : List Object :=
  match compiler.contexts with
  | [] => []
  | first :: others =>
      first.objects ++ others.flatMap fun context => context.objects.map (triggered context.group)

/-- The level string of all objects. -/
def exportLevel (compiler : Compiler) (table : Table) : Except CompileError String :=
  (Level.encode table compiler.flush).mapError .level

end Compiler
end TriggerGraph
