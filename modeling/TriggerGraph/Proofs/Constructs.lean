import TriggerGraph.Proofs.Indexes
import TriggerGraph.Proofs.Steps
import TriggerGraph.Proofs.Triggers

/-!
# How the constructs run

What opening a context changes, and how a wait, a function and a loop end, in terms of how their
bodies end.  A construct fails before its body is run or runs it in a context that is on top of the
stack for as long as the body runs.
-/

namespace TriggerGraph

/-! ## Opening contexts -/

namespace Compiler

/-- What opening a context changes: it takes a group and stands last among the contexts. -/
structure Opens (before : Compiler) (name : String) (opened : Opened) (after : Compiler) :
    Prop where
  unused : before.find? name = none
  id : opened.id = before.contexts.length
  group : opened.group = (before.ids.next .group).1
  ids : after.ids = (before.ids.next .group).2
  contexts : after.contexts = before.contexts ++ [⟨name, opened.group, [], some before.current⟩]
  stack : after.stack = before.stack
  chain : after.chain = before.chain
  options : after.options = before.options
  names : after.names = before.names

theorem opens_of_openContext {before after : Compiler} {name : String} {opened : Opened}
    (made : before.openContext name = (.ok opened, after)) : Opens before name opened after := by
  unfold openContext at made
  split at made
  · cases made
  · rename_i unused
    cases made
    exact ⟨by simpa using unused, rfl, rfl, rfl, rfl, rfl, rfl, rfl, rfl⟩

theorem Opens.domain {before after : Compiler} {name : String} {opened : Opened}
    (opens : Opens before name opened after) : opened.group.domain = .group := by
  rw [opens.group]
  rfl

theorem Opens.length {before after : Compiler} {name : String} {opened : Opened}
    (opens : Opens before name opened after) :
    after.contexts.length = before.contexts.length + 1 := by
  simp [opens.contexts]

/-- The beginning of a loop: the check and the body have contexts of their own, the check holds the
comparison that fires the body, and the current context activates the check at once. -/
structure LoopStart (before : Compiler) (condition : Condition) where
  /-- The context of the check. -/
  check : Opened
  /-- The context of the body. -/
  inner : Opened
  /-- The compiler after the first opening. -/
  first : Compiler
  /-- The compiler after the second opening. -/
  second : Compiler
  /-- The object of the check. -/
  comparison : Object
  /-- The object that activates the check at once. -/
  spawn : Object
  opensCheck : before.openAnonymous = (.ok check, first)
  opensInner : first.openAnonymous = (.ok inner, second)
  compares : Trigger.compare condition inner.group = .ok comparison
  spawns : Trigger.spawn check.group .zero = .ok spawn

theorem nonempty_loopStart {before first second : Compiler} {check inner : Opened}
    (opensCheck : before.openAnonymous = (.ok check, first))
    (opensInner : first.openAnonymous = (.ok inner, second)) (condition : Condition) :
    Nonempty (before.LoopStart condition) := by
  obtain ⟨comparison, compares⟩ :=
    Trigger.compare_of_group (opens_of_openContext opensInner).domain condition
  exact ⟨⟨check, inner, first, second, comparison, _, opensCheck, opensInner, compares,
    Trigger.spawn_of_group (opens_of_openContext opensCheck).domain .zero⟩⟩

/-- The compiler when the loop has been prepared and its body is about to be entered. -/
def LoopStart.prepared {before : Compiler} {condition : Condition}
    (start : LoopStart before condition) : Compiler :=
  (start.second.addTo start.check.id start.comparison).add start.spawn

end Compiler

namespace Build

/-! ## Constructs -/

theorem outcome_checkDelay_of_delay {seconds : Double} (valid : seconds.isDelay = true)
    (run : Run) :
    outcome (checkDelay seconds) run = (.ok (), run) := by
  simp [checkDelay, valid]

theorem outcome_checkDelay_of_not_delay {seconds : Double} (invalid : seconds.isDelay = false)
    (run : Run) : outcome (checkDelay seconds) run = (.error (.delay seconds), run) := by
  simp [checkDelay, invalid]

/-- A function ends as its body does in the context opened for it. -/
theorem outcome_function_of_opens (body : Reference → Build Unit) {run : Run} {opened : Opened}
    {next : Compiler} (made : run.compiler.openAnonymous = (.ok opened, next)) :
    outcome (function body) run =
      match outcome (body opened.group) (run.withCompiler (next.enter opened.id)) with
      | (.error error, after) => (.error error, after.leave)
      | (.ok (), after) => (.ok opened.group, after.leave) := by
  rw [function, outcome_bind_of_ok (outcome_commit_of_ok made), outcome_within_bind]
  simp only [Run.compiler_withCompiler, Run.withCompiler_withCompiler]
  rcases outcome (body opened.group) _ with ⟨_ | _, after⟩ <;> rfl

/-- A function fails to open its context, or can run its body. -/
theorem outcome_function (body : Reference → Build Unit) (run : Run) :
    (∃ error, outcome (function body) run = (.error error, run)) ∨
    ∃ opened next, run.compiler.openAnonymous = (.ok opened, next) ∧
      outcome (function body) run =
        match outcome (body opened.group) (run.withCompiler (next.enter opened.id)) with
        | (.error error, after) => (.error error, after.leave)
        | (.ok (), after) => (.ok opened.group, after.leave) := by
  rcases run.compiler.openAnonymous_ends with ⟨error, failed⟩ | ⟨opened, next, made⟩
  · exact .inl ⟨error, outcome_bind_of_error (outcome_commit_of_error failed)⟩
  · exact .inr ⟨opened, next, made, outcome_function_of_opens body made⟩

/-- A wait makes a context activated after the delay the continuation of the current one and puts it
in its place. -/
theorem outcome_wait_of_opens {seconds : Double} (valid : seconds.isDelay = true) {run : Run}
    {opened : Opened} {next : Compiler}
    (made : run.compiler.openAnonymous = (.ok opened, next)) :
    ∃ object, Trigger.spawn opened.group seconds = .ok object ∧
      outcome (wait seconds) run = (.ok (), run.withCompiler
        (((next.add object).link run.compiler.current opened.id).switchTo opened.id)) := by
  have spawned := Trigger.spawn_of_group (Compiler.opens_of_openContext made).domain seconds
  refine ⟨_, spawned, ?_⟩
  rw [wait, outcome_bind_of_ok (outcome_checkDelay_of_delay valid run),
    outcome_bind_of_ok (outcome_compiler run), outcome_bind_of_ok (outcome_commit_of_ok made),
    outcome_bind_of_ok (outcome_addMade_of_ok spawned _)]
  rfl

theorem outcome_wait (seconds : Double) (run : Run) :
    (∃ error, outcome (wait seconds) run = (.error error, run)) ∨
    ∃ opened next object, run.compiler.openAnonymous = (.ok opened, next) ∧
      Trigger.spawn opened.group seconds = .ok object ∧
      outcome (wait seconds) run = (.ok (), run.withCompiler
        (((next.add object).link run.compiler.current opened.id).switchTo opened.id)) := by
  cases valid : seconds.isDelay with
  | false => exact .inl ⟨_, outcome_bind_of_error (outcome_checkDelay_of_not_delay valid run)⟩
  | true =>
      rcases run.compiler.openAnonymous_ends with ⟨error, failed⟩ | ⟨opened, next, made⟩
      · refine .inl ⟨error, ?_⟩
        rw [wait, outcome_bind_of_ok (outcome_checkDelay_of_delay valid run),
          outcome_bind_of_ok (outcome_compiler run)]
        exact outcome_bind_of_error (outcome_commit_of_error failed)
      · obtain ⟨object, spawned, ended⟩ := outcome_wait_of_opens valid made
        exact .inr ⟨opened, next, object, made, spawned, ended⟩

/-- A loop that can be prepared ends as its body does in the second of the two contexts opened; if
the body succeeds, the end of its chain activates the check again. -/
theorem outcome_repeatWhile_of_start {condition : Condition} {delay : Double}
    (valid : delay.isDelay = true) (body : Reference → Build Unit) {run : Run}
    (start : run.compiler.LoopStart condition) :
    ∃ next, Trigger.spawn start.check.group delay = .ok next ∧
      outcome (repeatWhile condition delay body) run =
        match outcome (body start.inner.group)
          (run.withCompiler (start.prepared.enter start.inner.id)) with
        | (.error error, after) => (.error error, after.leave)
        | (.ok (), after) =>
            let tail := after.compiler.chain.terminal start.inner.id
            (.ok ⟨start.check.group, start.inner.group, tail⟩,
              after.leave.withCompiler (after.leave.compiler.addTo tail next)) := by
  obtain ⟨check, inner, first, second, comparison, spawn, opensCheck, opensInner, compares,
    spawns⟩ := start
  have next := Trigger.spawn_of_group (Compiler.opens_of_openContext opensCheck).domain delay
  refine ⟨_, next, ?_⟩
  have checked : outcome (within check.id (compare condition inner.group))
      ((run.withCompiler first).withCompiler second) =
        (.ok (), run.withCompiler (second.addTo check.id comparison)) := by
    rw [outcome_within, compare, outcome_addMade_of_ok compares]
    rfl
  rw [repeatWhile, outcome_bind_of_ok (outcome_checkDelay_of_delay valid run),
    outcome_bind_of_ok (outcome_commit_of_ok opensCheck),
    outcome_bind_of_ok (outcome_commit_of_ok opensInner), outcome_bind_of_ok checked,
    outcome_bind_of_ok (outcome_addMade_of_ok spawns _), outcome_within_bind]
  simp only [next, Compiler.LoopStart.prepared, Run.compiler_withCompiler,
    Run.withCompiler_withCompiler]
  rcases outcome (body inner.group) _ with ⟨_ | _, after⟩ <;> rfl

/-- A loop fails before its body is run, or can be prepared. -/
theorem outcome_repeatWhile (condition : Condition) (delay : Double)
    (body : Reference → Build Unit) (run : Run) :
    (∃ error after, outcome (repeatWhile condition delay body) run = (.error error, after) ∧
      (after = run ∨
        ∃ check first, run.compiler.openAnonymous = (.ok check, first) ∧
          after = run.withCompiler first)) ∨
    delay.isDelay = true ∧ Nonempty (run.compiler.LoopStart condition) := by
  cases valid : delay.isDelay with
  | false =>
      exact .inl ⟨_, run, outcome_bind_of_error (outcome_checkDelay_of_not_delay valid run),
        .inl rfl⟩
  | true =>
      have begun : outcome (repeatWhile condition delay body) run = _ :=
        outcome_bind_of_ok (outcome_checkDelay_of_delay valid run)
      rcases run.compiler.openAnonymous_ends with ⟨error, failed⟩ | ⟨check, first, opensCheck⟩
      · exact .inl ⟨error, run,
          begun.trans (outcome_bind_of_error (outcome_commit_of_error failed)), .inl rfl⟩
      · rw [outcome_bind_of_ok (outcome_commit_of_ok opensCheck)] at begun
        rcases first.openAnonymous_ends with ⟨error, failed⟩ | ⟨inner, second, opensInner⟩
        · refine .inl ⟨error, run.withCompiler first, begun.trans ?_,
            .inr ⟨check, first, opensCheck, rfl⟩⟩
          exact outcome_bind_of_error (outcome_commit_of_error failed)
        · exact .inr ⟨rfl, Compiler.nonempty_loopStart opensCheck opensInner condition⟩

/-! ## Relations kept by the constructs -/

/-- The laws under which a relation `R`, kept by the bodies, gives a relation `S` kept by the
statements that do not move and draw from the given domains only. -/
structure Scopes (R S : Run → Run → Prop) (draws : Domain → Prop) : Prop where
  widen {before after : Run} : S before after → R before after
  refl (run : Run) : S run run
  trans {first second third : Run} : S first second → S second third → S first third
  transInner {first second third : Run} : R first second → R second third → R first third
  name (run : Run) (bindings : List (String × Binding)) : S run { run with bindings }
  next (run : Run) (domain : Domain) :
    draws domain → S run (run.withCompiler (run.compiler.next domain).2)
  reserve (run : Run) (domain : Domain) (value : UInt32) :
    S run (run.withCompiler (run.compiler.reserve domain value).2)
  nextItem (run : Run) : S run (run.withCompiler run.compiler.nextItem.2)
  reserveItem (run : Run) (item : UInt32) :
    S run (run.withCompiler (run.compiler.reserveItem item))
  opening (run : Run) {name : String} {opened : Opened} {next : Compiler} :
    run.compiler.Opens name opened next → S run (run.withCompiler next)
  append (run : Run) (object : Object) : S run (run.withCompiler (run.compiler.add object))
  appendGlobal (run : Run) (object : Object) :
    S run (run.withCompiler (run.compiler.addTo 0 object))
  scope {run after : Run} {name : String} {opened : Opened} {next : Compiler} :
    run.compiler.Opens name opened next →
      R (run.withCompiler (next.enter opened.id)) after → S run after.leave
  failing {run after : Run} {condition : Condition} (start : run.compiler.LoopStart condition) :
    R (run.withCompiler (start.prepared.enter start.inner.id)) after → S run after.leave
  closing {run after : Run} {condition : Condition} (start : run.compiler.LoopStart condition)
    (next : Object) : R (run.withCompiler (start.prepared.enter start.inner.id)) after →
      S run (after.leave.withCompiler
        (after.leave.compiler.addTo (after.compiler.chain.terminal start.inner.id) next))

namespace Scopes

variable {R S : Run → Run → Prop} {draws : Domain → Prop}

theorem chain (scopes : Scopes R S draws) {α β : Type} {action : Build α} {next : α → Build β}
    (first : Keeps S action) (second : ∀ result, Keeps S (next result)) :
    Keeps S (action >>= next) :=
  first.chain second fun _ _ _ => scopes.trans

theorem function (scopes : Scopes R S draws) {body : Reference → Build Unit}
    (inside : ∀ group, Keeps R (body group)) : Keeps S (Build.function body) := by
  intro run
  rcases outcome_function body run with ⟨error, failed⟩ | ⟨opened, next, made, ended⟩
  · rw [failed]
    exact scopes.refl run
  · have kept := inside opened.group (run.withCompiler (next.enter opened.id))
    rw [ended]
    generalize outcome (body opened.group) _ = ending at kept ⊢
    rcases ending with ⟨_ | _, after⟩ <;>
      exact scopes.scope (Compiler.opens_of_openContext made) kept

theorem repeatWhile (scopes : Scopes R S draws) (condition : Condition) (delay : Double)
    {body : Reference → Build Unit} (inside : ∀ group, Keeps R (body group)) :
    Keeps S (Build.repeatWhile condition delay body) := by
  intro run
  rcases outcome_repeatWhile condition delay body run with
    ⟨error, after, failed, rfl | ⟨check, first, made, rfl⟩⟩ | ⟨valid, ⟨start⟩⟩
  · rw [failed]
    exact scopes.refl _
  · rw [failed]
    exact scopes.opening run (Compiler.opens_of_openContext made)
  · obtain ⟨next, _, ended⟩ := outcome_repeatWhile_of_start valid body start
    have kept := inside start.inner.group (run.withCompiler (start.prepared.enter start.inner.id))
    rw [ended]
    generalize outcome (body start.inner.group) _ = ending at kept ⊢
    rcases ending with ⟨_ | _, after⟩
    · exact scopes.failing start kept
    · exact scopes.closing start next kept

theorem inner (scopes : Scopes R S draws) : Scopes R R draws where
  widen kept := kept
  refl run := scopes.widen (scopes.refl run)
  trans := scopes.transInner
  transInner := scopes.transInner
  name run bindings := scopes.widen (scopes.name run bindings)
  next run domain drawn := scopes.widen (scopes.next run domain drawn)
  reserve run domain value := scopes.widen (scopes.reserve run domain value)
  nextItem run := scopes.widen (scopes.nextItem run)
  reserveItem run item := scopes.widen (scopes.reserveItem run item)
  opening run _ _ _ opens := scopes.widen (scopes.opening run opens)
  append run object := scopes.widen (scopes.append run object)
  appendGlobal run object := scopes.widen (scopes.appendGlobal run object)
  scope opens kept := scopes.widen (scopes.scope opens kept)
  failing start kept := scopes.widen (scopes.failing start kept)
  closing start next kept := scopes.widen (scopes.closing start next kept)

/-- With the laws for the statements that move, the relations have all laws. -/
theorem laws (scopes : Scopes R S draws) {allows : Statement → Prop}
    (drawn : ∀ domain name, allows (.fresh domain name) → draws domain)
    (moves : ∀ statement : Statement, statement.moves = true → allows statement →
      Keeps R (Statement.execAll statement.body) → Keeps S statement.exec) :
    Laws (fun _ => Keeps R) (fun _ => Keeps S) allows where
  widen kept run := scopes.widen (kept run)
  chain := scopes.chain
  chainInner first second := first.chain second fun _ _ _ => scopes.transInner
  read reads := reads.keeps scopes.refl
  name _ _ run := scopes.name run _
  next domain name allowed run := scopes.next run domain (drawn domain name allowed)
  reserve domain value run := scopes.reserve run domain value
  nextItem := scopes.nextItem
  reserveItem item run := scopes.reserveItem run item
  create _ := keeps_openContext scopes.refl _ fun run _ _ made =>
    scopes.opening run (Compiler.opens_of_openContext made)
  append object run := scopes.append run object
  appendGlobal object run := scopes.appendGlobal run object
  scope := scopes.function
  loop := scopes.repeatWhile
  moves := moves

end Scopes
end Build
end TriggerGraph
