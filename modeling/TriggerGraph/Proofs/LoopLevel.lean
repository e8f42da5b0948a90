import TriggerGraph.Proofs.Freshness
import TriggerGraph.Proofs.Game
import TriggerGraph.Proofs.LoopTail

/-!
# What a counting loop is made into

A counting loop at the outermost level whose body only appends objects that do nothing and waits:
the global context sets the counter and activates the check, the check fires the body, the body runs
through a chain of contexts, and the last of them advances the counter and activates the check
again.
-/

namespace TriggerGraph

/-! ## Bodies that only wait -/

namespace Statement

/-- The statement appends an object that does nothing, or waits. -/
def isInert : Statement → Bool
  | .add object => object.isInert
  | .wait seconds => seconds.isDelay
  | _ => false

/-- Whether the statement is a wait. -/
def isWait : Statement → Bool
  | .wait _ => true
  | _ => false

/-- The object the statement appends. -/
def object? : Statement → Option Object
  | .add object => some object
  | _ => none

theorem isLocal_of_isInert {statement : Statement} (inert : statement.isInert = true) :
    statement.Everywhere (·.isLocal = true) := by
  cases statement with
  | add | wait => exact .intro rfl (by simp [body])
  | _ => cases inert

end Statement

/-- The contexts a body runs through: all objects do nothing, but each context ends by activating
the next one after a delay.  The last one is kept apart, since it is still being filled. -/
inductive Chained (inner : Reference) : List Context → Context → Prop where
  | first {context : Context} (group : context.group = inner)
      (inert : ∀ object ∈ context.objects, object.isInert = true) : Chained inner [] context
  | next {earlier : List Context} {last context : Context} {seconds : Double} {object : Object}
      (chained : Chained inner earlier last) (valid : seconds.isDelay = true)
      (isGroup : context.group.domain = .group)
      (spawned : Trigger.spawn context.group seconds = .ok object)
      (inert : ∀ object ∈ context.objects, object.isInert = true) :
      Chained inner (earlier ++ [{ last with objects := last.objects ++ [object] }]) context

/-- The objects that do nothing, in the order of their contexts. -/
def inertObjects (contexts : List Context) : List Object :=
  (contexts.flatMap (·.objects)).filter Object.isInert

theorem inertObjects_append (earlier : List Context) (last : Context) (objects : List Object) :
    inertObjects (earlier ++ [{ last with objects := last.objects ++ objects }]) =
      inertObjects (earlier ++ [last]) ++ objects.filter Object.isInert := by
  simp [inertObjects]

namespace Chained

variable {inner : Reference} {earlier : List Context} {last : Context}

theorem inert (chained : Chained inner earlier last) :
    ∀ object ∈ last.objects, object.isInert = true := by
  cases chained with
  | first _ inert => exact inert
  | next _ _ _ _ inert => exact inert

theorem add (chained : Chained inner earlier last) {object : Object}
    (inert : object.isInert = true) :
    Chained inner earlier { last with objects := last.objects ++ [object] } := by
  have all : ∀ other ∈ last.objects ++ [object], other.isInert = true := by
    intro other member
    rcases List.mem_append.1 member with old | new
    · exact chained.inert other old
    · exact List.mem_singleton.1 new ▸ inert
  cases chained with
  | first group _ => exact .first group all
  | next chained valid isGroup spawned _ => exact .next chained valid isGroup spawned all

end Chained

theorem modify_append_cons {α : Type} (before : List α) (here : α) (after : List α) (f : α → α) :
    (before ++ here :: after).modify before.length f = before ++ f here :: after := by
  simpa [List.modify] using List.modifyTailIdx_add (List.modifyHead f) 0 before (here :: after)

/-- The compiler while the body of a loop at the outermost level is being compiled. -/
structure Filling (global check : Context) (inner : Reference) (earlier : List Context)
    (last : Context) (compiler : Compiler) : Prop where
  contexts : compiler.contexts = (global :: check :: earlier) ++ [last]
  stack : compiler.stack = [earlier.length + 2, 0]
  chained : Chained inner earlier last
  tidy : compiler.Tidy
  supply : Compiler.Supply compiler.names

namespace Filling

variable {global check last : Context} {inner : Reference} {earlier : List Context}
  {compiler : Compiler}

theorem current (filling : Filling global check inner earlier last compiler) :
    compiler.current = (global :: check :: earlier).length := by
  simp [Compiler.current, filling.stack]

theorem contexts_add (filling : Filling global check inner earlier last compiler)
    (object : Object) :
    (compiler.add object).contexts = (global :: check :: earlier) ++
      [{ last with objects := last.objects ++ [object] }] := by
  change compiler.contexts.modify compiler.current _ = _
  rw [filling.current, filling.contexts, modify_append_cons]

theorem add (filling : Filling global check inner earlier last compiler) {object : Object}
    (inert : object.isInert = true) :
    Filling global check inner earlier { last with objects := last.objects ++ [object] }
      (compiler.add object) where
  contexts := filling.contexts_add object
  stack := filling.stack
  chained := filling.chained.add inert
  tidy := filling.tidy.of_same (Compiler.heads_addTo _ _ _) rfl rfl
  supply := filling.supply

theorem wait (filling : Filling global check inner earlier last compiler) {opened : Opened}
    {next : Compiler} {object : Object} {seconds : Double} (valid : seconds.isDelay = true)
    (room : compiler.contexts.length + 4 < 2 ^ 32)
    (opens : compiler.Opens (compiler.names compiler.contexts.length) opened next)
    (spawned : Trigger.spawn opened.group seconds = .ok object) :
    Filling global check inner (earlier ++ [{ last with objects := last.objects ++ [object] }])
      ⟨compiler.names compiler.contexts.length, opened.group, [], some compiler.current⟩
      (((next.add object).link compiler.current opened.id).switchTo opened.id) := by
  have length : compiler.contexts.length = earlier.length + 3 := by simp [filling.contexts]
  have tidy := filling.tidy.of_opens (by omega) room opens
  refine ⟨?_, ?_, .next filling.chained valid opens.domain spawned (by simp), ?_, ?_⟩
  · have current : next.current = compiler.current := by simp [Compiler.current, opens.stack]
    change next.contexts.modify next.current _ = _
    rw [current, opens.contexts, filling.current, filling.contexts, List.append_assoc,
      List.singleton_append, modify_append_cons]
    simp
  · change opened.id :: next.stack.tail = _
    rw [opens.id, opens.stack, filling.stack, length]
    simp
  · exact tidy.of_same (Compiler.heads_addTo _ _ _) rfl rfl
  · change Compiler.Supply next.names
    rw [opens.names]
    exact filling.supply

end Filling

namespace Build

theorem outcome_execAll_cons {statement : Statement} {rest : List Statement} {run after : Run}
    {result : Outcome} (ended : outcome statement.exec run = (.ok result, after)) :
    outcome (Statement.execAll (statement :: rest)) run =
      outcome (Statement.execAll rest) { after with finished := ⟨statement, .ok result,
        after.compiler.groupValue after.compiler.current, after.compiler.currentSize⟩ ::
          after.finished } :=
  outcome_bind_of_ok (outcome_record ended)

/-- A body of objects that do nothing and waits succeeds and leaves a chain of contexts. -/
theorem filling_execAll {global check : Context} {inner : Reference} {body : List Statement}
    (inert : ∀ statement ∈ body, statement.isInert = true) {run : Run} {earlier : List Context}
    {last : Context} (filling : Filling global check inner earlier last run.compiler)
    (room : run.compiler.contexts.length + body.countP Statement.isWait + 3 < 2 ^ 32) :
    ∃ left earlier' last', outcome (Statement.execAll body) run = (.ok (), left) ∧
      Filling global check inner earlier' last' left.compiler ∧
      inertObjects (earlier' ++ [last']) =
        inertObjects (earlier ++ [last]) ++ body.filterMap Statement.object? := by
  induction body generalizing run earlier last with
  | nil => exact ⟨run, earlier, last, rfl, filling, by simp⟩
  | cons statement rest ih =>
      rw [List.forall_mem_cons] at inert
      obtain ⟨here, later⟩ := inert
      cases statement with
      | add object =>
          have ended : outcome (Statement.add object).exec run =
              (.ok .done, run.withCompiler (run.compiler.add object)) := rfl
          have more : (run.compiler.add object).contexts.length +
              rest.countP Statement.isWait + 3 < 2 ^ 32 := by
            rw [Compiler.add, Compiler.length_addTo]
            simpa [Statement.isWait] using room
          have kept : object.isInert = true := here
          have held : inertObjects (earlier ++ [last]) ++
              (Statement.add object :: rest).filterMap Statement.object? =
                inertObjects (earlier ++ [{ last with objects := last.objects ++ [object] }]) ++
                  rest.filterMap Statement.object? := by
            rw [inertObjects_append]
            simp [kept, Statement.object?]
          rw [outcome_execAll_cons ended, held]
          exact ih later (filling.add here) more
      | wait seconds =>
          have more : run.compiler.contexts.length + (rest.countP Statement.isWait + 1) + 3 <
              2 ^ 32 := by
            simpa [List.countP_cons, Statement.isWait] using room
          obtain ⟨opened, next, made⟩ := filling.tidy.opens filling.supply
          have opens := Compiler.opens_of_openContext made
          obtain ⟨object, spawned, waited⟩ := outcome_wait_of_opens here made
          have ended : outcome (Statement.wait seconds).exec run = (.ok .done, run.withCompiler
              (((next.add object).link run.compiler.current opened.id).switchTo opened.id)) :=
            (outcome_bind_of_ok waited).trans rfl
          have enough : (next.add object).contexts.length +
              rest.countP Statement.isWait + 3 < 2 ^ 32 := by
            rw [Compiler.add, Compiler.length_addTo, opens.length]
            omega
          have active : object.isInert = false :=
            Object.not_isInert_of_type? (Trigger.type?_of_spawn opens.domain spawned) (by decide)
          have held : inertObjects (earlier ++ [last]) = inertObjects
              (earlier ++ [{ last with objects := last.objects ++ [object] }] ++
                [⟨run.compiler.names run.compiler.contexts.length, opened.group, [],
                  some run.compiler.current⟩]) := by
            simp [inertObjects, active]
          rw [outcome_execAll_cons ended, List.filterMap_cons_none rfl, held]
          exact ih later (filling.wait here (by omega) opens spawned) enough
      | _ => cases here

end Build

/-! ## The compiled loop -/

/-- The contexts a counting loop is made into. -/
structure LoopLevel (range : LoopRange) (delay : Double) (item : UInt32) where
  /-- The global context. -/
  global : Context
  /-- The context of the check. -/
  check : Context
  /-- The group of the body. -/
  inner : Reference
  /-- The contexts the body runs through before the last one. -/
  earlier : List Context
  /-- The context in which the body ends, as the body left it. -/
  last : Context
  /-- The object that activates the check at the start. -/
  spawn : Object
  /-- The object of the check. -/
  comparison : Object
  /-- The object that activates the check again. -/
  again : Object
  globalObjects : global.objects = [Trigger.pickupSet item (.ofInt range.start.toInt), spawn]
  checkObjects : check.objects = [comparison]
  chained : Chained inner earlier last
  isCheck : check.group.domain = .group
  isInner : inner.domain = .group
  spawns : Trigger.spawn check.group .zero = .ok spawn
  compares : Trigger.compare (range.condition ⟨item, .item⟩) inner = .ok comparison
  spawnsAgain : Trigger.spawn check.group delay = .ok again

namespace LoopLevel

variable {range : LoopRange} {delay : Double} {item : UInt32}

/-- The context in which the body ends, with what the loop appends. -/
def ending (level : LoopLevel range delay item) : Context :=
  { level.last with objects := level.last.objects ++
      [Trigger.pickupAdd item (.ofInt range.step.toInt), level.again] }

/-- All contexts but the global one. -/
def others (level : LoopLevel range delay item) : List Context :=
  level.check :: (level.earlier ++ [level.ending])

/-- The loop appends no objects that do nothing. -/
theorem inertObjects_ending (level : LoopLevel range delay item) :
    inertObjects (level.earlier ++ [level.ending]) =
      inertObjects (level.earlier ++ [level.last]) := by
  have add : (Trigger.pickupAdd item (.ofInt range.step.toInt)).isInert = false :=
    Object.not_isInert_of_type? (Trigger.type?_pickupAdd _ _) (by decide)
  have again : level.again.isInert = false :=
    Object.not_isInert_of_type? (Trigger.type?_of_spawn level.isCheck level.spawnsAgain) (by decide)
  rw [ending, inertObjects_append, List.filter_cons_of_neg (by simp [add]),
    List.filter_cons_of_neg (by simp [again]), List.filter_nil, List.append_nil]

end LoopLevel

namespace Compiler

/-- A fresh compilation whose counter has been set is prepared for a loop. -/
theorem filling_of_loopStart {compiler : Compiler} {condition : Condition} {global : Context}
    (contexts : compiler.contexts = [global]) (stack : compiler.stack = [0])
    (tidy : compiler.Tidy) (supply : Supply compiler.names)
    (start : compiler.LoopStart condition) :
    Filling { global with objects := global.objects ++ [start.spawn] }
      ⟨compiler.names 1, start.check.group, [start.comparison], some 0⟩ start.inner.group []
      ⟨compiler.names 2, start.inner.group, [], some 0⟩ (start.prepared.enter start.inner.id) := by
  have check := opens_of_openContext start.opensCheck
  have inner := opens_of_openContext start.opensInner
  have length : compiler.contexts.length = 1 := by rw [contexts]; rfl
  have current : compiler.current = 0 := by simp [Compiler.current, stack]
  have top : start.second.current = 0 := by
    simp [Compiler.current, inner.stack, check.stack, stack]
  have first : start.first.Tidy := tidy.of_opens (by omega) (by omega) check
  have second : start.second.Tidy :=
    first.of_opens (by rw [check.length]; omega) (by rw [check.length]; omega) inner
  refine ⟨?_, ?_, .first rfl (by simp), ?_, ?_⟩
  · change (start.second.contexts.modify start.check.id _).modify start.second.current _ = _
    rw [start.contexts_second, start.check_id, top, length, current, contexts]
    rfl
  · change start.inner.id :: start.prepared.stack = _
    rw [start.fills.stack, stack, start.inner_id, length]
    rfl
  · refine second.of_same ?_ rfl rfl
    change ((start.second.addTo _ _).addTo _ _).heads = _
    rw [heads_addTo, heads_addTo]
  · change Supply start.second.names
    rw [inner.names, check.names]
    exact supply

end Compiler

namespace Build

theorem outcome_newCounter_plain (run : Run) :
    outcome (newCounter .plain) run =
      (.ok ⟨run.compiler.nextItem.1, .item⟩, run.withCompiler run.compiler.nextItem.2) := rfl

theorem outcome_changeItem_set (item : UInt32) (value : Double) (run : Run) :
    outcome (changeCounter ⟨item, .item⟩ .set (.constant value)) run =
      (.ok (), run.withCompiler (run.compiler.add (Trigger.pickupSet item value))) := rfl

theorem outcome_changeItem_add (item : UInt32) (value : Double) (run : Run) :
    outcome (changeCounter ⟨item, .item⟩ .add (.constant value)) run =
      (.ok (), run.withCompiler (run.compiler.add (Trigger.pickupAdd item value))) := rfl

/-- A counting loop is a loop over a counter that was set to the first value. -/
theorem outcome_forLoop {range : LoopRange} (valid : range.check = .ok ()) {delay : Double}
    (isDelay : delay.isDelay = true) (body : Counter → Build Unit) (run : Run) {item : UInt32}
    {next : Compiler} (slot : run.compiler.nextItem = (item, next)) :
    outcome (forLoop range delay body) run =
      match outcome (repeatWhile (range.condition ⟨item, .item⟩) delay fun _ => do
          body ⟨item, .item⟩
          changeCounter ⟨item, .item⟩ .add (.constant (.ofInt range.step.toInt)))
        (run.withCompiler (next.add (Trigger.pickupSet item (.ofInt range.start.toInt)))) with
      | (.ok _, after) => (.ok ⟨item, .item⟩, after)
      | (.error error, after) => (.error error, after) := by
  have counted := outcome_newCounter_plain run
  rw [slot] at counted
  rw [forLoop, valid]
  dsimp only
  rw [outcome_bind_of_ok (outcome_checkDelay_of_delay isDelay run), outcome_bind_of_ok counted,
    outcome_bind_of_ok (outcome_changeItem_set _ _ _), outcome_bind]
  simp only [Run.compiler_withCompiler, Run.withCompiler_withCompiler, outcome_pure]
  generalize outcome (repeatWhile _ _ _) _ = ending
  rcases ending with ⟨_ | _, after⟩ <;> rfl

/-- The body of a counting loop ends in the last context of a chain, where the counter is advanced
and to which the continuations of the first one lead. -/
theorem filling_countedBody {run : Run} {condition : Condition}
    (start : run.compiler.LoopStart condition) (ordered : run.compiler.Ordered)
    {global check last : Context}
    (filling : Filling global check start.inner.group [] last (start.prepared.enter start.inner.id))
    {body : List Statement} (inert : ∀ statement ∈ body, statement.isInert = true)
    (room : body.countP Statement.isWait + 6 < 2 ^ 32) (item : UInt32) (step : Double) :
    ∃ (left : Run) (earlier : List Context) (last' : Context), outcome (do
        Statement.execAll body
        changeCounter ⟨item, .item⟩ .add (.constant step))
          (run.withCompiler (start.prepared.enter start.inner.id)) =
        (.ok (), left.withCompiler (left.compiler.add (Trigger.pickupAdd item step))) ∧
      Filling global check start.inner.group earlier last' left.compiler ∧
      inertObjects (earlier ++ [last']) =
        inertObjects [last] ++ body.filterMap Statement.object? ∧
      left.compiler.chain.terminal start.inner.id = left.compiler.current := by
  let entered := run.withCompiler (start.prepared.enter start.inner.id)
  have few : entered.compiler.contexts.length + body.countP Statement.isWait + 3 < 2 ^ 32 := by
    have three : entered.compiler.contexts.length = 3 := congrArg List.length filling.contexts
    omega
  obtain ⟨left, earlier, last', bodied, filled, holds⟩ := filling_execAll inert filling few
  have followed := follows_execAll
    (fun statement member => Statement.isLocal_of_isInert (inert statement member)) entered
  rw [bodied] at followed
  exact ⟨left, earlier, last', (outcome_bind_of_ok bodied).trans (outcome_changeItem_add _ _ _),
    filled, holds, terminal_of_follows ordered start followed⟩

/-- The loop of a counting loop at the outermost level, once the counter has been set. -/
theorem exists_loopLevel_of_set {run : Run} {range : LoopRange} {delay : Double} {item : UInt32}
    {global : Context} (contexts : run.compiler.contexts = [global])
    (objects : global.objects = [Trigger.pickupSet item (.ofInt range.start.toInt)])
    (stack : run.compiler.stack = [0]) (ordered : run.compiler.Ordered)
    (tidy : run.compiler.Tidy) (supply : Compiler.Supply run.compiler.names)
    (isDelay : delay.isDelay = true) {body : List Statement}
    (inert : ∀ statement ∈ body, statement.isInert = true)
    (room : body.countP Statement.isWait + 6 < 2 ^ 32) :
    ∃ (loop : CompiledLoop) (after : Run) (level : LoopLevel range delay item),
      outcome (repeatWhile (range.condition ⟨item, .item⟩) delay fun _ => do
        Statement.execAll body
        changeCounter ⟨item, .item⟩ .add (.constant (.ofInt range.step.toInt))) run =
          (.ok loop, after) ∧
      after.compiler.contexts = level.global :: level.others ∧
      (level.others.map (·.group.value)).Nodup ∧
      inertObjects (level.earlier ++ [level.ending]) = body.filterMap Statement.object? := by
  obtain ⟨check, first, opensCheck⟩ := tidy.opens supply
  have opens := Compiler.opens_of_openContext opensCheck
  have firstTidy : first.Tidy := tidy.of_opens (by simp [contexts]) (by simp [contexts]) opens
  obtain ⟨inner, second, opensInner⟩ := firstTidy.opens (opens.names ▸ supply)
  obtain ⟨start⟩ := Compiler.nonempty_loopStart opensCheck opensInner
    (range.condition ⟨item, .item⟩)
  have filling := Compiler.filling_of_loopStart contexts stack tidy supply start
  obtain ⟨left, earlier, last, returned, filled, holds, tail⟩ :=
    filling_countedBody start ordered filling inert room item (.ofInt range.step.toInt)
  obtain ⟨again, spawnsAgain, looped⟩ := outcome_repeatWhile_of_start isDelay (fun _ => do
    Statement.execAll body
    changeCounter ⟨item, .item⟩ .add (.constant (.ofInt range.step.toInt))) start
  rw [returned] at looped
  let level : LoopLevel range delay item :=
    { global := { global with objects := global.objects ++ [start.spawn] }
      check := ⟨run.compiler.names 1, start.check.group, [start.comparison], some 0⟩
      inner := start.inner.group
      earlier := earlier
      last := last
      spawn := start.spawn
      comparison := start.comparison
      again := again
      globalObjects := by simp [objects]
      checkObjects := rfl
      chained := filled.chained
      isCheck := (Compiler.opens_of_openContext start.opensCheck).domain
      isInner := (Compiler.opens_of_openContext start.opensInner).domain
      spawns := start.spawns
      compares := start.compares
      spawnsAgain := spawnsAgain }
  refine ⟨_, _, level, looped, ?_, ?_, level.inertObjects_ending.trans holds⟩
  · change (left.compiler.add _).contexts.modify (left.compiler.chain.terminal start.inner.id) _ = _
    rw [tail, filled.current, filled.contexts_add, modify_append_cons]
    simp [level, LoopLevel.others, LoopLevel.ending]
  · have distinct := filled.tidy.nodup_groups
    rw [filled.contexts] at distinct
    simpa [level, LoopLevel.others, LoopLevel.ending] using distinct

/-- A counting loop at the outermost level of a fresh compilation succeeds, and what it is made
into. -/
theorem exists_loopLevel (options : CompilerOptions) {names : Nat → String}
    (supply : Compiler.Supply names) {range : LoopRange} (valid : range.check = .ok ())
    {delay : Double} (isDelay : delay.isDelay = true) {body : Counter → List Statement}
    (inert : ∀ counter, ∀ statement ∈ body counter, statement.isInert = true)
    (room : ∀ counter, (body counter).countP Statement.isWait + 6 < 2 ^ 32) :
    ∃ (item : UInt32) (after : Run) (level : LoopLevel range delay item),
      outcome (forLoop range delay fun counter => Statement.execAll (body counter))
        (.start (.start options names)) = (.ok ⟨item, .item⟩, after) ∧
      after.compiler.contexts = level.global :: level.others ∧
      (level.others.map (·.group.value)).Nodup ∧
      inertObjects (level.earlier ++ [level.ending]) =
        (body ⟨item, .item⟩).filterMap Statement.object? := by
  obtain ⟨item, next, slot⟩ : ∃ item next,
      (Compiler.start options names).nextItem = (item, next) := ⟨_, _, rfl⟩
  have fresh : next = ((Compiler.start options names).nextItem).2 := by rw [slot]
  have same : next.heads = (Compiler.start options names).heads ∧
      next.ids.groups = (Compiler.start options names).ids.groups ∧
      next.contexts = [Compiler.globalContext] ∧ next.stack = [0] ∧ next.chain = .empty ∧
      next.names = names := by
    rw [fresh]
    exact ⟨rfl, rfl, rfl, rfl, rfl, rfl⟩
  obtain ⟨heads, groups, contexts, stack, chain, supplied⟩ := same
  let object := Trigger.pickupSet item (.ofInt range.start.toInt)
  let set : Run := (Run.start (.start options names)).withCompiler (next.add object)
  have setContexts : set.compiler.contexts =
      [{ Compiler.globalContext with objects := [object] }] := by
    change next.contexts.modify (next.stack.headD 0) _ = _
    rw [contexts, stack]
    rfl
  have setTidy : set.compiler.Tidy :=
    (Compiler.tidy_start options names).of_same ((Compiler.heads_addTo _ _ _).trans heads) groups
      supplied
  have setOrdered : set.compiler.Ordered := by
    refine (Compiler.ordered_start options names).of_fills ⟨stack, chain, ?_⟩
    rw [setContexts]
    exact Nat.le_refl 1
  obtain ⟨loop, after, level, ended, split, distinct, holds⟩ :=
    exists_loopLevel_of_set setContexts rfl stack setOrdered setTidy (supplied ▸ supply)
      isDelay (inert ⟨item, .item⟩) (room ⟨item, .item⟩)
  refine ⟨item, after, level, ?_, split, distinct, holds⟩
  rw [outcome_forLoop valid isDelay _ _ slot, ended]

end Build
end TriggerGraph
