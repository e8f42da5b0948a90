import TriggerGraph.Proofs.LoopTail
import TriggerGraph.Proofs.Refusals
import TriggerGraph.Proofs.Strands

/-!
# Waits as delays

The body of a function that adds objects, waits and makes functions is spread over a strand of
contexts: a wait appends a spawn to the current context and goes on in a new one, and everything
else stays where it is.  So an object is reached from the context of the function by exactly the
delays waited for before it was added, however many functions were made in between.
-/

namespace TriggerGraph

/-! ## Timed bodies -/

namespace Statement

/-- The statement adds an object that is no spawn, waits for a delay, or makes a function. -/
def isTimed : Statement → Bool
  | .add object => object.type? != some ObjectType.spawn
  | .wait seconds => seconds.isDelay
  | .function .. => true
  | _ => false

/-- The delay of a wait. -/
def delay? : Statement → Option Double
  | .wait seconds => some seconds
  | _ => none

/-- The delays of the waits in a body, those inside functions not counted. -/
def delays (body : List Statement) : List ℚ := (body.filterMap delay?).map Double.toRat

theorem isLocal_of_isTimed {statement : Statement}
    (timed : statement.Everywhere (·.isTimed = true)) :
    statement.Everywhere (·.isLocal = true) := by
  refine timed.mono fun inner here => ?_
  cases inner with
  | add | wait | function => rfl
  | _ => cases here

end Statement

/-! ## The scope of a function -/

/-- The context that a function opens in a run. -/
structure Run.Scope (run : Run) where
  /-- The context. -/
  opened : Opened
  /-- The compiler after the opening. -/
  next : Compiler
  opens : run.compiler.openAnonymous = (.ok opened, next)

namespace Run.Scope

variable {run : Run}

/-- The moment in which the body of the function begins: the context is current, and the name that
the body has for the function is bound. -/
def entered (scope : run.Scope) (own : Option String) : Run where
  compiler := scope.next.enter scope.opened.id
  bindings := (own.map (·, .reference scope.opened.group)).toList ++ run.bindings
  finished := run.finished

theorem id_eq (scope : run.Scope) : scope.opened.id = run.compiler.contexts.length :=
  (Compiler.opens_of_openContext scope.opens).id

theorem ordered (scope : run.Scope) (ordered : run.compiler.Ordered) (own : Option String) :
    (scope.entered own).compiler.Ordered := by
  have opens := Compiler.opens_of_openContext scope.opens
  exact (ordered.of_fills opens.fills).enter (by rw [opens.id, opens.length]; omega)

theorem freshNames (scope : run.Scope) (fresh : run.compiler.FreshNames) (own : Option String) :
    (scope.entered own).compiler.FreshNames :=
  (fresh.of_opens (Compiler.opens_of_openContext scope.opens)).of_same rfl rfl

/-- Nothing has been added to the context when the body begins. -/
theorem context?_entered (scope : run.Scope) (own : Option String) :
    ∃ context, (scope.entered own).compiler.context? scope.opened.id = some context ∧
      context.objects = [] := by
  have opens := Compiler.opens_of_openContext scope.opens
  have found : scope.next.contexts[scope.opened.id]? = some ⟨run.compiler.names
      run.compiler.contexts.length, scope.opened.group, [], some run.compiler.current⟩ := by
    rw [opens.contexts, opens.id]
    exact List.getElem?_concat_length
  exact ⟨_, found, rfl⟩

theorem outcome_exec (scope : run.Scope) (own name : Option String) (body : List Statement) :
    Build.outcome (Statement.function own name body).exec run =
      match Build.outcome (Statement.execAll body) (scope.entered own) with
      | (.error error, after) => (.error error, after.leave)
      | (.ok (), after) => Build.outcome (Build.named name scope.opened.group) after.leave := by
  have inside : Build.outcome (do
      Build.bindTo own (.reference scope.opened.group)
      Statement.execAll body) (run.withCompiler (scope.next.enter scope.opened.id)) =
        Build.outcome (Statement.execAll body) (scope.entered own) := by
    cases own <;> rfl
  have function := Build.outcome_function_of_opens (fun group => do
    Build.bindTo own (.reference group)
    Statement.execAll body) scope.opens
  rw [inside] at function
  rcases ended : Build.outcome (Statement.execAll body) (scope.entered own) with ⟨error | _, after⟩
  · rw [ended] at function
    exact Build.outcome_bind_of_error function
  · rw [ended] at function
    exact Build.outcome_bind_of_ok function

/-- Leaving the body and naming the function do not touch the contexts. -/
theorem contexts_exec (scope : run.Scope) (own name : Option String) (body : List Statement) :
    (Build.outcome (Statement.function own name body).exec run).2.compiler.contexts =
      (Build.outcome (Statement.execAll body) (scope.entered own)).2.compiler.contexts := by
  rw [scope.outcome_exec]
  rcases Build.outcome (Statement.execAll body) (scope.entered own) with ⟨error | _, after⟩
  · rfl
  · cases name <;> rfl

end Run.Scope

namespace Build

open Statement

/-- A function fills new contexts only.  The global context is left out, since persistent counters
fill it from anywhere. -/
theorem context?_function (own name : Option String) {body : List Statement}
    (isLocal : ∀ statement ∈ body, statement.Everywhere (·.isLocal = true)) {run : Run}
    (ordered : run.compiler.Ordered) {id : Nat} (old : id < run.compiler.contexts.length)
    (inner : id ≠ 0) :
    (outcome (Statement.function own name body).exec run).2.compiler.context? id =
      run.compiler.context? id := by
  rcases run.compiler.openAnonymous_ends with ⟨error, refused⟩ | ⟨opened, next, made⟩
  · have failed : outcome (Statement.function own name body).exec run = (.error error, run) :=
      outcome_bind_of_error (outcome_bind_of_error (outcome_commit_of_error refused))
    rw [failed]
  · have scope : run.Scope := ⟨opened, next, made⟩
    have opens := Compiler.opens_of_openContext scope.opens
    have entered := scope.ordered ordered own
    have kept := ((follows_execAll isLocal (scope.entered own)).continues entered).kept id
      (by change id < scope.next.contexts.length; rw [opens.length]; omega) inner
      (by change id ≠ scope.opened.id; rw [scope.id_eq]; omega)
    rw [Compiler.context?, scope.contexts_exec]
    refine Eq.trans kept ?_
    change scope.next.contexts[id]? = _
    rw [opens.contexts, List.getElem?_append_left old]
    rfl

end Build

/-! ## One statement of a timed body -/

namespace Compiler

/-- The current context is not the global one, and no spawn has been added to it. -/
structure Resting (compiler : Compiler) : Prop where
  ordered : compiler.Ordered
  inner : compiler.current ≠ 0
  silent : ∃ context, compiler.context? compiler.current = some context ∧ context.IsSilent

/-- What a wait does: the current context ends with a spawn, and a new one takes its place. -/
structure Proceeds (before after : Compiler) (seconds : Double) : Prop where
  valid : seconds.isDelay = true
  current : after.current = before.contexts.length
  spawn : ∃ context object owner, before.context? before.current = some context ∧
    after.context? before.current =
      some { context with objects := context.objects ++ [object] } ∧
    after.context? after.current = some owner ∧ owner.group.domain = .group ∧
    Trigger.spawn owner.group seconds = .ok object

theorem Opens.proceeds {before next : Compiler} {name : String} {opened : Opened}
    (opens : Opens before name opened next) (ordered : before.Ordered) {context : Context}
    (found : before.context? before.current = some context) {seconds : Double}
    (valid : seconds.isDelay = true) {object : Object}
    (spawned : Trigger.spawn opened.group seconds = .ok object) :
    before.Proceeds (((next.add object).link before.current opened.id).switchTo opened.id) seconds ∧
      (next.add object).context? opened.id =
        some ⟨name, opened.group, [], some before.current⟩ := by
  have present := ordered.current_lt
  have current : next.current = before.current := by simp [Compiler.current, opens.stack]
  have ended : (next.add object).context? before.current =
      some { context with objects := context.objects ++ [object] } := by
    have old : next.context? before.current = some context := by
      rw [context?, opens.contexts, List.getElem?_append_left present]
      exact found
    rw [add, current, context?_addTo_self, old]
    rfl
  have new : (next.add object).context? opened.id =
      some ⟨name, opened.group, [], some before.current⟩ := by
    rw [add, context?_addTo_of_ne _ _ (by rw [current, opens.id]; omega), context?, opens.contexts,
      opens.id]
    simp
  exact ⟨⟨valid, opens.id, context, object, _, found, ended, new, opens.domain, spawned⟩, new⟩

end Compiler

namespace Build

open Statement Compiler

theorem resting_add {run : Run} (resting : run.compiler.Resting) {object : Object}
    (other : object.type? ≠ some ObjectType.spawn) :
    (run.step (.add object)).compiler.Resting := by
  obtain ⟨context, found, silent⟩ := resting.silent
  have ordered := (advances_record (.add object) (advances_exec _) run).ordered resting.ordered
  refine ⟨ordered, resting.inner, { context with objects := context.objects ++ [object] }, ?_, ?_⟩
  · have filled : (run.compiler.addTo run.compiler.current object).context? run.compiler.current =
        some { context with objects := context.objects ++ [object] } := by
      rw [context?_addTo_self, found]
      rfl
    exact filled
  · intro added member
    rcases List.mem_append.1 member with old | new
    · exact silent added old
    · rw [List.mem_singleton.1 new]
      exact other

theorem resting_function {run : Run} (resting : run.compiler.Resting) (own name : Option String)
    {body : List Statement}
    (isLocal : ∀ statement ∈ body, statement.Everywhere (·.isLocal = true)) :
    (run.step (.function own name body)).compiler.Resting ∧
      (run.step (.function own name body)).compiler.current = run.compiler.current := by
  obtain ⟨context, found, silent⟩ := resting.silent
  have restores := restores_laws.exec (.function own name body) rfl (advances_execAll body) run
  have current : (run.step (.function own name body)).compiler.current = run.compiler.current :=
    congrArg (·.headD 0) restores.stack
  refine ⟨⟨restores.ordered resting.ordered, ?_, context, ?_, silent⟩, current⟩
  · rw [current]
    exact resting.inner
  · rw [current, ← found]
    exact context?_function own name isLocal resting.ordered resting.ordered.current_lt
      resting.inner

/-- A wait fails and changes nothing but the record, or proceeds. -/
theorem resting_wait {run : Run} (resting : run.compiler.Resting) {seconds : Double}
    (valid : seconds.isDelay = true) :
    ((∃ error, (outcome (record (.wait seconds) (exec (.wait seconds))) run).1 = .error error) ∧
      (run.step (.wait seconds)).compiler = run.compiler) ∨
    (outcome (record (.wait seconds) (exec (.wait seconds))) run).1 = .ok () ∧
      (run.step (.wait seconds)).compiler.Resting ∧
      run.compiler.Proceeds (run.step (.wait seconds)).compiler seconds := by
  rcases outcome_wait seconds run with
    ⟨error, failed⟩ | ⟨opened, next, object, made, spawned, ended⟩
  · have stopped : outcome (exec (.wait seconds)) run = (.error error, run) :=
      outcome_bind_of_error failed
    have recorded : outcome (record (.wait seconds) (exec (.wait seconds))) run = _ :=
      outcome_record stopped
    refine .inl ⟨⟨error, by rw [recorded]; rfl⟩, ?_⟩
    exact congrArg (·.2.compiler) recorded
  · have done : outcome (exec (.wait seconds)) run = _ := outcome_bind_of_ok ended
    have recorded : outcome (record (.wait seconds) (exec (.wait seconds))) run = _ :=
      outcome_record done
    have opens := opens_of_openContext made
    obtain ⟨context, found, silent⟩ := resting.silent
    obtain ⟨proceeds, new⟩ := opens.proceeds resting.ordered found valid spawned
    have stepped : (run.step (.wait seconds)).compiler =
        ((next.add object).link run.compiler.current opened.id).switchTo opened.id :=
      congrArg (·.2.compiler) recorded
    have ordered := (advances_record (.wait seconds) (advances_exec _) run).ordered resting.ordered
    refine .inr ⟨by rw [recorded]; rfl, ⟨ordered, ?_, ?_⟩, stepped ▸ proceeds⟩
    · rw [stepped, proceeds.current]
      have := resting.ordered.current_lt
      omega
    · rw [stepped]
      exact ⟨_, new, fun _ member => nomatch member⟩

end Build

/-! ## A timed body -/

namespace Run

open SpawnEdge Statement

/-- What becomes of a body in the contexts of the final compiler: a strand from the current context,
of which the statements up to some moment take the edges of their waits, so that the context then
current is where these end.  No edge leads to a context that was opened by anything but a wait. -/
structure Course (final : Compiler) (run : Run) (body : List Statement) (links : List SpawnEdge) :
    Prop where
  strand : final.Strand run.compiler.current links
  later : ∀ edge ∈ links, run.compiler.contexts.length ≤ edge.target
  moments : ∀ before rest moment, body = before ++ rest →
    Build.outcome (execAll before) run = (.ok (), moment) →
      ∃ taken left, links = taken ++ left ∧
        ending run.compiler.current taken = moment.compiler.current ∧
        taken.map (·.delay) = delays before
  apart : ∀ before nested rest begun, body = before ++ nested :: rest → nested.delay? = none →
    Build.outcome (execAll before) run = (.ok (), begun) → ∀ edge ∈ links,
      edge.target < begun.compiler.contexts.length ∨
        (begun.step nested).compiler.contexts.length ≤ edge.target

namespace Course

variable {final : Compiler} {run : Run} {statement : Statement} {rest : List Statement}
  {links : List SpawnEdge}

theorem nil (strand : final.Strand run.compiler.current []) : Course final run [] [] where
  strand := strand
  later := by simp
  moments before rest moment split ended := by
    obtain ⟨rfl, rfl⟩ := List.append_eq_nil_iff.1 split.symm
    cases ended
    exact ⟨[], [], rfl, rfl, rfl⟩
  apart _ _ _ _ _ _ _ _ member := nomatch member

/-- Nothing follows a statement that failed. -/
theorem stop {error : CompileError} (strand : final.Strand run.compiler.current [])
    (failed : (Build.outcome (Build.record statement statement.exec) run).1 = .error error) :
    Course final run (statement :: rest) [] where
  strand := strand
  later := by simp
  moments before rest moment split ended := by
    cases before with
    | nil =>
        cases ended
        exact ⟨[], [], rfl, rfl, rfl⟩
    | cons first before =>
        cases split
        have succeeded := (Build.step_of_execAll ended).1
        rw [failed] at succeeded
        cases succeeded
  apart _ _ _ _ _ _ _ _ member := nomatch member

/-- A statement that is no wait stays in the context. -/
theorem stay (course : Course final (run.step statement) rest links)
    (current : (run.step statement).compiler.current = run.compiler.current)
    (grows : run.compiler.contexts.length ≤ (run.step statement).compiler.contexts.length)
    (other : statement.delay? = none) : Course final run (statement :: rest) links where
  strand := current ▸ course.strand
  later edge member := Nat.le_trans grows (course.later edge member)
  moments before rest moment split ended := by
    cases before with
    | nil =>
        cases ended
        exact ⟨[], links, rfl, rfl, rfl⟩
    | cons first before =>
        cases split
        obtain ⟨taken, left, same, reached, labels⟩ :=
          course.moments before rest moment rfl (Build.step_of_execAll ended).2
        refine ⟨taken, left, same, current ▸ reached, labels.trans ?_⟩
        rw [delays, delays, List.filterMap_cons_none other]
  apart before nested rest begun split plain ended edge member := by
    cases before with
    | nil =>
        cases split
        cases ended
        exact .inr (course.later edge member)
    | cons first before =>
        cases split
        exact course.apart before nested rest begun rfl plain (Build.step_of_execAll ended).2 edge
          member

/-- A wait takes the first edge. -/
theorem proceed {edge : SpawnEdge} {seconds : Double}
    (course : Course final (run.step (.wait seconds)) rest links)
    (strand : final.Strand run.compiler.current (edge :: links))
    (target : edge.target = run.compiler.contexts.length)
    (current : (run.step (.wait seconds)).compiler.current = edge.target)
    (present : edge.target < (run.step (.wait seconds)).compiler.contexts.length)
    (delay : edge.delay = seconds.toRat) :
    Course final run (.wait seconds :: rest) (edge :: links) where
  strand := strand
  later other member := by
    rcases List.mem_cons.1 member with rfl | further
    · exact Nat.le_of_eq target.symm
    · have := course.later other further
      omega
  moments before rest moment split ended := by
    cases before with
    | nil =>
        cases ended
        exact ⟨[], edge :: links, rfl, rfl, rfl⟩
    | cons first before =>
        cases split
        obtain ⟨taken, left, same, reached, labels⟩ :=
          course.moments before rest moment rfl (Build.step_of_execAll ended).2
        refine ⟨edge :: taken, left, by rw [same]; rfl, ?_, ?_⟩
        · rw [ending, ← current]
          exact reached
        · rw [List.map_cons, labels, delay]
          rfl
  apart before nested rest begun split plain ended other member := by
    cases before with
    | nil =>
        cases split
        cases plain
    | cons first before =>
        cases split
        have begins := (Build.step_of_execAll ended).2
        rcases List.mem_cons.1 member with rfl | further
        · have grows := (Build.advances_execAll before (run.step (.wait seconds))).grows
          rw [begins] at grows
          exact .inl (Nat.lt_of_lt_of_le present grows)
        · exact course.apart before nested rest begun rfl plain begins other further

end Course

/-- The course of a timed body that begins in a context without spawns, in a compiler that has the
contexts it leaves. -/
theorem exists_course {body : List Statement}
    (timed : ∀ statement ∈ body, statement.Everywhere (·.isTimed = true)) {run : Run}
    (resting : run.compiler.Resting) {final : Compiler} (registered : final.Registered)
    (left : final.contexts = (Build.outcome (execAll body) run).2.compiler.contexts) :
    ∃ links, Course final run body links := by
  have context? {compiler : Compiler} (same : final.contexts = compiler.contexts) (id : Nat) :
      final.context? id = compiler.context? id := by
    rw [Compiler.context?, same]
    rfl
  have silent {compiler : Compiler} (resting : compiler.Resting)
      (same : final.contexts = compiler.contexts) : final.Strand compiler.current [] := by
    obtain ⟨context, found, quiet⟩ := resting.silent
    exact .nil (Compiler.noEdge_of_silent ((context? same _).trans found) quiet)
  induction body generalizing run with
  | nil => exact ⟨[], .nil (silent resting left)⟩
  | cons statement rest ih =>
      rw [List.forall_mem_cons] at timed
      obtain ⟨here, later⟩ := timed
      have isLocal := isLocal_of_isTimed here
      have grows := (Build.follows_step isLocal run).grows
      -- what a statement that stays leaves to be shown
      have stays (rests : (run.step statement).compiler.Resting)
          (current : (run.step statement).compiler.current = run.compiler.current)
          (other : statement.delay? = none) :
          ∃ links, Course final run (statement :: rest) links := by
        cases ended : (Build.outcome (Build.record statement statement.exec) run).1 with
        | error error =>
            rw [Build.outcome_execAll_of_stop ended] at left
            exact ⟨[], .stop (current ▸ silent rests left) ended⟩
        | ok _ =>
            rw [Build.outcome_execAll_of_step ended] at left
            obtain ⟨links, course⟩ := ih later rests left
            exact ⟨links, course.stay current grows other⟩
      obtain ⟨timedHere, inside⟩ := here
      cases statement with
      | add object =>
          have other : object.type? ≠ some ObjectType.spawn := by simpa [isTimed] using timedHere
          exact stays (Build.resting_add resting other) rfl rfl
      | function own name body =>
          obtain ⟨rests, current⟩ := Build.resting_function resting own name fun inner member =>
            isLocal_of_isTimed (inside inner member)
          exact stays rests current rfl
      | wait seconds =>
          rcases Build.resting_wait resting timedHere with
            ⟨⟨error, failed⟩, same⟩ | ⟨succeeded, rests, proceeds⟩
          · rw [Build.outcome_execAll_of_stop failed] at left
            exact ⟨[], .stop (silent resting (left.trans (congrArg _ same))) failed⟩
          · rw [Build.outcome_execAll_of_step succeeded] at left
            obtain ⟨links, course⟩ := ih later rests left
            have continues := (Build.follows_execAll (fun inner member =>
              isLocal_of_isTimed (later inner member)) (run.step (.wait seconds))).continues
                rests.ordered
            have old := resting.ordered.current_lt
            obtain ⟨valid, current, context, object, owner, found, ended, new, isGroup, spawned⟩ :=
              proceeds
            obtain ⟨same, held, quiet⟩ := resting.silent
            obtain rfl : same = context := Option.some.inj (held.symm.trans found)
            -- the context with the spawn is left for good, and the new one keeps its group
            have kept := (context? left _).trans ((continues.kept run.compiler.current (by omega)
              resting.inner (by omega)).trans ended)
            obtain ⟨more, filled⟩ := continues.filled _ owner new
            obtain ⟨edge, only⟩ := Compiler.onlyEdge_of_spawn registered kept rfl quiet
              ((context? left _).trans filled) isGroup valid spawned
            have forward : run.compiler.current < (run.step (.wait seconds)).compiler.current := by
              omega
            have strand := Compiler.Strand.cons edge rfl only forward course.strand
            exact ⟨_, course.proceed strand current rfl rests.ordered.current_lt rfl⟩
      | _ => cases timedHere

end Run

namespace Build

open Statement

/-- An object stays where it was added. -/
theorem context?_added {before rest : List Statement} {object : Object} {run moment : Run}
    (isLocal : ∀ statement ∈ rest, statement.Everywhere (·.isLocal = true))
    (ordered : moment.compiler.Ordered)
    (ended : outcome (execAll before) run = (.ok (), moment)) {final : Compiler}
    (left : final.contexts =
      (outcome (execAll (before ++ .add object :: rest)) run).2.compiler.contexts) :
    ∃ context, final.context? moment.compiler.current = some context ∧
      context.objects[moment.compiler.currentSize]? = some object := by
  obtain ⟨context, found⟩ : ∃ context,
      moment.compiler.context? moment.compiler.current = some context :=
    ⟨_, List.getElem?_eq_getElem ordered.current_lt⟩
  have added : (moment.step (.add object)).compiler.context? moment.compiler.current =
      some { context with objects := context.objects ++ [object] } := by
    change (moment.compiler.addTo moment.compiler.current object).context? _ = _
    rw [Compiler.context?_addTo_self, found]
    rfl
  have stepped : (outcome (record (.add object) (exec (.add object))) moment).1 = .ok () := rfl
  rw [outcome_execAll_append ended, outcome_execAll_of_step stepped] at left
  have continues := (follows_execAll isLocal (moment.step (.add object))).continues
    ((advances_record (.add object) (advances_exec _) moment).ordered ordered)
  obtain ⟨more, filled⟩ := continues.filled _ _ added
  refine ⟨{ context with objects := context.objects ++ [object] ++ more }, ?_, ?_⟩
  · rw [Compiler.context?, left]
    exact filled
  · have size : moment.compiler.currentSize = context.objects.length := by
      rw [Compiler.currentSize, found]
      rfl
    simp [size]

/-! ## Timed bodies succeed -/

/-- With fresh names the action succeeds, and names are still fresh. -/
def Prospers {α : Type} (action : Build α) : Prop :=
  ∀ run : Run, run.compiler.FreshNames →
    ∃ result after, outcome action run = (.ok result, after) ∧ after.compiler.FreshNames

theorem prospers_execAll {body : List Statement}
    (each : ∀ statement ∈ body, Prospers statement.exec) : Prospers (execAll body) := by
  induction body with
  | nil => exact fun run fresh => ⟨(), run, rfl, fresh⟩
  | cons statement rest ih =>
      rw [List.forall_mem_cons] at each
      intro run fresh
      obtain ⟨result, after, ended, still⟩ := each.1 run fresh
      obtain ⟨_, final, succeeded, last⟩ := ih each.2 (run.step statement)
        (by rw [← congrArg (·.2.compiler) ended] at still; exact still)
      have stepped : (outcome (record statement statement.exec) run).1 = .ok () := by
        rw [outcome_record ended]
        rfl
      exact ⟨(), final, (outcome_execAll_of_step stepped rest).trans succeeded, last⟩

theorem prospers_wait {seconds : Double} (valid : seconds.isDelay = true) :
    Prospers (exec (.wait seconds)) := by
  intro run fresh
  obtain ⟨opened, next, made⟩ := fresh.opens
  have opens := Compiler.opens_of_openContext made
  obtain ⟨object, _, ended⟩ := outcome_wait_of_opens valid made
  refine ⟨_, _, outcome_bind_of_ok ended, ?_⟩
  exact (fresh.of_opens opens).of_same (Compiler.heads_addTo _ _ _) rfl

/-- A function whose body succeeds gives its group. -/
theorem outcome_function_of_prospers (own name : Option String) {body : List Statement}
    (inside : Prospers (execAll body)) {run : Run} (fresh : run.compiler.FreshNames) :
    ∃ group after, outcome (exec (.function own name body)) run = (.ok (.reference group), after) ∧
      after.compiler.FreshNames := by
  obtain ⟨opened, next, made⟩ := fresh.opens
  have scope : run.Scope := ⟨opened, next, made⟩
  obtain ⟨_, after, ended, still⟩ := inside (scope.entered own) (scope.freshNames fresh own)
  have left : after.leave.compiler.FreshNames := still.of_same rfl rfl
  rw [scope.outcome_exec, ended]
  cases name with
  | none => exact ⟨scope.opened.group, after.leave, rfl, left⟩
  | some name => exact ⟨scope.opened.group, _, rfl, left⟩

theorem prospers_timed {statement : Statement}
    (timed : statement.Everywhere (·.isTimed = true)) : Prospers statement.exec := by
  induction timed with
  | @intro statement here _ ih =>
      cases statement with
      | add object =>
          exact fun run fresh => ⟨_, _, rfl, fresh.of_same (Compiler.heads_addTo _ _ _) rfl⟩
      | wait seconds => exact prospers_wait here
      | function own name body =>
          intro run fresh
          obtain ⟨group, after, ended, still⟩ :=
            outcome_function_of_prospers own name (prospers_execAll ih) fresh
          exact ⟨_, after, ended, still⟩
      | _ => cases here

end Build

/-! ## Objects of a function -/

namespace Run.Scope

variable {run : Run}

theorem resting (scope : run.Scope) (ordered : run.compiler.Ordered) (own : Option String) :
    (scope.entered own).compiler.Resting := by
  obtain ⟨context, found, empty⟩ := scope.context?_entered own
  refine ⟨scope.ordered ordered own, ?_, context, found, ?_⟩
  · change scope.opened.id ≠ 0
    have := ordered.current_lt
    rw [scope.id_eq]
    omega
  · rw [Context.IsSilent, empty]
    exact List.forall_mem_nil _

/-- The moment of the body that comes after some of its statements. -/
def Arrives (scope : run.Scope) (own : Option String) (before : List Statement) (moment : Run) :
    Prop :=
  Build.outcome (Statement.execAll before) (scope.entered own) = (.ok (), moment)

end Run.Scope

/-- A function whose body adds objects that are no spawns, waits and makes functions of the same
kind.  From the context of the function there is one path of spawns to the context that holds an
object which the body added itself, and its delays are those waited for before.  The contexts that
the body itself fills have spawns only to later contexts that no function inside it opened. -/
theorem waits_become_delays (run : Run) (reachable : run.Reachable) (own name : Option String)
    (body : List Statement) (timed : ∀ statement ∈ body, statement.Everywhere (·.isTimed = true))
    (fits : (run.step (.function own name body)).GroupsFit) :
    let final := (run.step (.function own name body)).compiler
    (run.compiler.FreshNames → ∃ group,
      (Build.outcome (Statement.function own name body).exec run).1 = .ok (.reference group)) ∧
    ∀ scope : run.Scope,
      (∀ before object rest moment, body = before ++ .add object :: rest →
        scope.Arrives own before moment → ∃ context path,
          final.context? moment.compiler.current = some context ∧
          context.objects[moment.compiler.currentSize]? = some object ∧
          final.Path scope.opened.id path moment.compiler.current ∧
          path.map (·.delay) = Statement.delays before ∧
          ∀ other, final.Path scope.opened.id other moment.compiler.current → other = path) ∧
      ∀ before rest moment, body = before ++ rest → scope.Arrives own before moment →
        ∀ edge, final.HasEdge edge → edge.source = moment.compiler.current →
          edge.source < edge.target ∧
          ∀ earlier ownInner nameInner nested later begun,
            body = earlier ++ .function ownInner nameInner nested :: later →
            scope.Arrives own earlier begun →
              edge.target < begun.compiler.contexts.length ∨
              (begun.step (.function ownInner nameInner nested)).compiler.contexts.length ≤
                edge.target := by
  intro final
  obtain ⟨options, names, reached⟩ := reachable.reaches
  have registered : final.Registered :=
    (Run.registered_of_reaches (reached.trans (run.reaches_step _)) fits).1
  refine ⟨fun fresh => ?_, fun scope => ?_⟩
  · have inside := Build.prospers_execAll fun statement member =>
      Build.prospers_timed (timed statement member)
    obtain ⟨group, after, ended, _⟩ := Build.outcome_function_of_prospers own name inside fresh
    exact ⟨group, by rw [ended]⟩
  have resting := scope.resting reachable.ordered own
  have left := scope.contexts_exec own name body
  obtain ⟨links, course⟩ := Run.exists_course timed resting registered left
  constructor
  · intro before object rest moment split arrives
    obtain ⟨taken, further, rfl, reached, labels⟩ := course.moments before _ moment split arrives
    subst split
    have advances := Build.advances_execAll before (scope.entered own)
    rw [arrives] at advances
    obtain ⟨context, found, placed⟩ := Build.context?_added
      (fun statement member => Statement.isLocal_of_isTimed (timed statement (by simp [member])))
      (advances.ordered resting.ordered) arrives left
    refine ⟨context, taken, found, placed, ?_, labels, fun other path => ?_⟩
    · rw [← reached]
      exact course.strand.path
    · rw [← reached] at path
      exact course.strand.eq_of_path path
  · intro before rest moment split arrives edge here source
    obtain ⟨taken, further, rfl, reached, _⟩ := course.moments before rest moment split arrives
    obtain ⟨member, forward⟩ := course.strand.edge_mem here (source.trans reached.symm)
    refine ⟨forward, fun earlier ownInner nameInner nested later begun holds begins => ?_⟩
    exact course.apart earlier _ later begun holds rfl begins edge (List.mem_append_right _ member)

/-- A body with a function that waits and adds objects in between its own waits, one of which is for
the zero with a minus sign. -/
def Statement.woven : List Statement :=
  [.add (.ofType 1), .wait (.ofInt 1),
    .function none none [.add (.ofType 2), .wait (.ofInt 2), .function none none [.wait .zero],
      .add (.ofType 3)],
    .add (.ofType 4), .wait (Double.neg .zero), .add (.ofType 5)]

theorem woven_waits_become_delays :
    ∃ (scope : Run.busy.Scope) (moment : Run) (path : List SpawnEdge),
      scope.Arrives none (Statement.woven.take 5) moment ∧ path.map (·.delay) = [1, 0] ∧
      ∀ other, (Run.busy.step (.function none none Statement.woven)).compiler.Path
        scope.opened.id other moment.compiler.current ↔ other = path := by
  have object (type : UInt32) (here : (Statement.add (.ofType type)).isTimed = true) :
      (Statement.add (.ofType type)).Everywhere (·.isTimed = true) :=
    Statement.everywhere_of_bodiless rfl here
  have wait (seconds : Double) (here : seconds.isDelay = true) :
      (Statement.wait seconds).Everywhere (·.isTimed = true) :=
    Statement.everywhere_of_bodiless rfl here
  have function {body : List Statement}
      (inside : ∀ statement ∈ body, statement.Everywhere (·.isTimed = true)) :
      (Statement.function none none body).Everywhere (·.isTimed = true) := .intro rfl inside
  have timed : ∀ statement ∈ Statement.woven, statement.Everywhere (·.isTimed = true) := by
    simp only [Statement.woven, List.forall_mem_cons]
    refine ⟨object 1 (by decide +kernel), wait _ (by decide +kernel), function ?_,
      object 4 (by decide +kernel), wait _ rfl, object 5 (by decide +kernel), List.forall_mem_nil _⟩
    simp only [List.forall_mem_cons]
    refine ⟨object 2 (by decide +kernel), wait _ (by decide +kernel), function ?_,
      object 3 (by decide +kernel), List.forall_mem_nil _⟩
    simp only [List.forall_mem_cons]
    exact ⟨wait _ rfl, List.forall_mem_nil _⟩
  have fits : (Run.busy.step (.function none none Statement.woven)).GroupsFit := by decide +kernel
  obtain ⟨opened, next, made⟩ := Run.freshNames_busy.opens
  have scope : Run.busy.Scope := ⟨opened, next, made⟩
  have first : Build.Prospers (Statement.execAll (Statement.woven.take 5)) :=
    Build.prospers_execAll fun statement member =>
      Build.prospers_timed (timed statement (List.mem_of_mem_take member))
  obtain ⟨_, moment, arrives, _⟩ := first _ (scope.freshNames Run.freshNames_busy none)
  obtain ⟨_, path, _, _, leads, labels, only⟩ := ((waits_become_delays Run.busy
    (Run.Reachable.steps (.start _ _) _) none none Statement.woven timed fits).2 scope).1
      (Statement.woven.take 5) (.ofType 5) [] moment rfl arrives
  have one : (Double.ofInt 1).toRat = 1 := Double.toRat_ofInt (by decide)
  have zero : (Double.neg .zero).toRat = 0 := Double.toRat_of_isZero rfl
  have waited : Statement.delays (Statement.woven.take 5) = [1, 0] := by
    change [(Double.ofInt 1).toRat, (Double.neg .zero).toRat] = _
    rw [one, zero]
  refine ⟨scope, moment, path, arrives, labels.trans waited, fun other => ⟨only other, ?_⟩⟩
  rintro rfl
  exact leads

end TriggerGraph
