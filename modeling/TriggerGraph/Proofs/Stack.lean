import TriggerGraph.Proofs.Constructs

/-!
# The stack of contexts

Every construct that runs a body gives the stack back as it was, whatever the body does and whether
or not it fails, and hands on the failure of its body.  The other statements change at most the top.
So the stack is never empty, it holds contexts that exist, and continuations lead forward.
-/

namespace TriggerGraph

/-! ## Ordered compilers -/

namespace Compiler

/-- The stack is not empty, it holds contexts that exist, and every continuation was opened after
the context it continues. -/
structure Ordered (compiler : Compiler) : Prop where
  filling : compiler.stack ≠ []
  opened : ∀ id ∈ compiler.stack, id < compiler.contexts.length
  forward : ∀ link ∈ compiler.chain.links,
    link.1 < link.2 ∧ link.2 < compiler.contexts.length

/-- The compiler gained contexts and objects at most: no context was entered, left or continued. -/
structure Fills (before after : Compiler) : Prop where
  stack : after.stack = before.stack
  chain : after.chain = before.chain
  grows : before.contexts.length ≤ after.contexts.length

theorem Fills.trans {first second third : Compiler} (one : Fills first second)
    (two : Fills second third) : Fills first third :=
  ⟨two.stack.trans one.stack, two.chain.trans one.chain, Nat.le_trans one.grows two.grows⟩

theorem fills_addTo (compiler : Compiler) (id : Nat) (object : Object) :
    Fills compiler (compiler.addTo id object) :=
  ⟨rfl, rfl, by simp [addTo]⟩

theorem Opens.fills {before after : Compiler} {name : String} {opened : Opened}
    (opens : Opens before name opened after) : Fills before after :=
  ⟨opens.stack, opens.chain, by simp [opens.length]⟩

theorem LoopStart.fills {before : Compiler} {condition : Condition}
    (start : LoopStart before condition) : Fills before start.prepared :=
  (((opens_of_openContext start.opensCheck).fills.trans
    (opens_of_openContext start.opensInner).fills).trans (fills_addTo _ _ _)).trans
      (fills_addTo _ _ _)

theorem length_addTo (compiler : Compiler) (id : Nat) (object : Object) :
    (compiler.addTo id object).contexts.length = compiler.contexts.length := by
  simp [addTo]

theorem LoopStart.check_id {before : Compiler} {condition : Condition}
    (start : LoopStart before condition) : start.check.id = before.contexts.length :=
  (opens_of_openContext start.opensCheck).id

theorem LoopStart.inner_id {before : Compiler} {condition : Condition}
    (start : LoopStart before condition) : start.inner.id = before.contexts.length + 1 := by
  rw [(opens_of_openContext start.opensInner).id, (opens_of_openContext start.opensCheck).length]

theorem LoopStart.length_prepared {before : Compiler} {condition : Condition}
    (start : LoopStart before condition) :
    start.prepared.contexts.length = before.contexts.length + 2 := by
  rw [prepared, add, length_addTo, length_addTo, (opens_of_openContext start.opensInner).length,
    (opens_of_openContext start.opensCheck).length]

theorem ordered_start (options : CompilerOptions) (names : Nat → String) :
    (start options names).Ordered where
  filling := by simp [start]
  opened := by simp [start]
  forward := by simp [start, Chain.empty]

theorem Ordered.current_mem {compiler : Compiler} (ordered : compiler.Ordered) :
    compiler.current ∈ compiler.stack := by
  obtain ⟨top, rest, split⟩ := List.exists_cons_of_ne_nil ordered.filling
  simp [current, split]

theorem Ordered.current_lt {compiler : Compiler} (ordered : compiler.Ordered) :
    compiler.current < compiler.contexts.length :=
  ordered.opened _ ordered.current_mem

theorem Ordered.of_fills {before after : Compiler} (ordered : before.Ordered)
    (fills : Fills before after) : after.Ordered where
  filling := fills.stack ▸ ordered.filling
  opened id member := Nat.lt_of_lt_of_le (ordered.opened id (fills.stack ▸ member)) fills.grows
  forward link member :=
    have ⟨less, valid⟩ := ordered.forward link (fills.chain ▸ member)
    ⟨less, Nat.lt_of_lt_of_le valid fills.grows⟩

theorem Ordered.enter {compiler : Compiler} (ordered : compiler.Ordered) {id : Nat}
    (valid : id < compiler.contexts.length) : (compiler.enter id).Ordered where
  filling := List.cons_ne_nil _ _
  opened := List.forall_mem_cons.2 ⟨valid, ordered.opened⟩
  forward := ordered.forward

theorem Ordered.switchTo {compiler : Compiler} (ordered : compiler.Ordered) {id : Nat}
    (valid : id < compiler.contexts.length) : (compiler.switchTo id).Ordered where
  filling := List.cons_ne_nil _ _
  opened := List.forall_mem_cons.2
    ⟨valid, fun other member => ordered.opened other (List.mem_of_mem_tail member)⟩
  forward := ordered.forward

theorem Ordered.link {compiler : Compiler} (ordered : compiler.Ordered) {source target : Nat}
    (less : source < target) (valid : target < compiler.contexts.length) :
    (compiler.link source target).Ordered where
  filling := ordered.filling
  opened := ordered.opened
  forward := List.forall_mem_cons.2 ⟨⟨less, valid⟩, ordered.forward⟩

theorem LoopStart.ordered {before : Compiler} {condition : Condition}
    (start : LoopStart before condition) (ordered : before.Ordered) :
    (start.prepared.enter start.inner.id).Ordered := by
  refine (ordered.of_fills start.fills).enter ?_
  rw [start.inner_id, start.length_prepared]
  omega

end Compiler

/-! ## Nothing below the top changes -/

/-- The statements that can put another context in the place of the current one. -/
def Statement.movesTop : Statement → Bool
  | .wait _ | .switchTo _ | .switchToOwner _ | .createContext _ true _ | .attempt _ => true
  | _ => false

namespace Run

/-- What every statement keeps: the stack below its top, the contexts and the log so far. -/
structure Advances (before after : Run) : Prop where
  below : after.compiler.stack.tail = before.compiler.stack.tail
  grows : before.compiler.contexts.length ≤ after.compiler.contexts.length
  log : before.finished <:+ after.finished
  ordered : before.compiler.Ordered → after.compiler.Ordered

/-- What is kept by the statements that do not put another context in the place of the current one:
all of the stack. -/
structure Restores (before after : Run) : Prop extends Advances before after where
  stack : after.compiler.stack = before.compiler.stack

namespace Advances

theorem refl (run : Run) : Advances run run := ⟨rfl, Nat.le_refl _, List.suffix_rfl, id⟩

theorem trans {first second third : Run} (one : Advances first second)
    (two : Advances second third) : Advances first third where
  below := two.below.trans one.below
  grows := Nat.le_trans one.grows two.grows
  log := one.log.trans two.log
  ordered := two.ordered ∘ one.ordered

theorem switchTo (run : Run) {id : Nat} (valid : id < run.compiler.contexts.length) :
    Advances run (run.withCompiler (run.compiler.switchTo id)) where
  below := rfl
  grows := Nat.le_refl _
  log := List.suffix_rfl
  ordered ordered := ordered.switchTo valid

theorem stack_leave {run after : Run} {prepared : Compiler} {id : Nat}
    (inside : Advances (run.withCompiler (prepared.enter id)) after) :
    after.leave.compiler.stack = prepared.stack := inside.below

end Advances

namespace Restores

theorem trans {first second third : Run} (one : Restores first second)
    (two : Restores second third) : Restores first third :=
  ⟨one.toAdvances.trans two.toAdvances, two.stack.trans one.stack⟩

theorem of_fills (run : Run) {compiler : Compiler} (fills : run.compiler.Fills compiler) :
    Restores run (run.withCompiler compiler) where
  below := congrArg List.tail fills.stack
  grows := fills.grows
  log := List.suffix_rfl
  ordered ordered := ordered.of_fills fills
  stack := fills.stack

/-- Entering a context, running a body and leaving it again. -/
theorem of_scope {run after : Run} {prepared : Compiler} {id : Nat}
    (fills : run.compiler.Fills prepared) (valid : id < prepared.contexts.length)
    (inside : Advances (run.withCompiler (prepared.enter id)) after) :
    Restores run after.leave := by
  have restored : after.leave.compiler.stack = run.compiler.stack :=
    inside.stack_leave.trans fills.stack
  have grows : run.compiler.contexts.length ≤ after.compiler.contexts.length :=
    Nat.le_trans fills.grows inside.grows
  refine ⟨⟨by rw [restored], grows, inside.log, fun ordered => ?_⟩, restored⟩
  have kept := inside.ordered ((ordered.of_fills fills).enter valid)
  refine ⟨restored ▸ ordered.filling, ?_, kept.forward⟩
  rw [restored]
  exact fun other member => Nat.lt_of_lt_of_le (ordered.opened other member) grows

theorem of_loop {run after : Run} {condition : Condition}
    (start : run.compiler.LoopStart condition)
    (inside : Advances (run.withCompiler (start.prepared.enter start.inner.id)) after) :
    Restores run after.leave := by
  refine of_scope start.fills ?_ inside
  rw [start.inner_id, start.length_prepared]
  omega

end Restores
end Run

namespace Build

open Run in
/-- Whatever a body does, if it keeps what is below the top then the statement that holds it keeps
all of the stack. -/
theorem restores_scopes : Scopes Advances Restores fun _ => True where
  widen := Restores.toAdvances
  refl run := ⟨.refl run, rfl⟩
  trans := Restores.trans
  transInner := Advances.trans
  name run _ := ⟨⟨rfl, Nat.le_refl _, List.suffix_rfl, id⟩, rfl⟩
  next run _ _ := .of_fills run ⟨rfl, rfl, Nat.le_refl _⟩
  reserve run _ _ := .of_fills run ⟨rfl, rfl, Nat.le_refl _⟩
  nextItem run := .of_fills run ⟨rfl, rfl, Nat.le_refl _⟩
  reserveItem run _ := .of_fills run ⟨rfl, rfl, Nat.le_refl _⟩
  opening run _ _ _ opens := .of_fills run opens.fills
  append run _ := .of_fills run (Compiler.fills_addTo _ _ _)
  appendGlobal run _ := .of_fills run (Compiler.fills_addTo _ _ _)
  scope opens inside := .of_scope opens.fills (by rw [opens.id, opens.length]; omega) inside
  failing start inside := .of_loop start inside
  closing start _ inside :=
    (Restores.of_loop start inside).trans (.of_fills _ (Compiler.fills_addTo _ _ _))

theorem outcome_contextNamed (label : String) (run : Run) :
    (∃ error, outcome (contextNamed label) run = (.error error, run)) ∨
    ∃ id, id < run.compiler.contexts.length ∧ outcome (contextNamed label) run = (.ok id, run) := by
  rw [contextNamed, outcome_bind_of_ok (outcome_compiler run)]
  cases found : run.compiler.find? label with
  | none => exact .inl ⟨_, rfl⟩
  | some id => exact .inr ⟨id, Compiler.find?_lt found, rfl⟩

theorem outcome_owner (group : Reference) (run : Run) :
    (∃ error, outcome (owner group) run = (.error error, run)) ∨
    ∃ id, id < run.compiler.contexts.length ∧ outcome (owner group) run = (.ok id, run) := by
  rw [owner, outcome_bind_of_ok (outcome_compiler run)]
  cases found : run.compiler.owner? group with
  | none => exact .inl ⟨_, rfl⟩
  | some id => exact .inr ⟨id, Compiler.owner?_lt found, rfl⟩

theorem keeps_of_found {R : Run → Run → Prop} (refl : ∀ run, R run run) {find : Build Nat}
    {next : Nat → Build Unit}
    (finds : ∀ run, (∃ error, outcome find run = (.error error, run)) ∨
      ∃ id, id < run.compiler.contexts.length ∧ outcome find run = (.ok id, run))
    (found : ∀ run id, id < run.compiler.contexts.length → R run (outcome (next id) run).2) :
    Keeps R (find >>= next) := by
  intro run
  rcases finds run with ⟨error, failed⟩ | ⟨id, valid, ended⟩
  · rw [outcome_bind_of_error failed]
    exact refl run
  · rw [outcome_bind_of_ok ended]
    exact found run id valid

theorem outcome_attempt (body : Build Unit) (run : Run) :
    outcome (attempt body) run =
      match outcome body run with
      | (.ok (), after) => (.ok .done, after)
      | (.error error, after) => (.ok (.failed error), after) := rfl

theorem keeps_attempt {R : Run → Run → Prop} {body : Build Unit} (inside : Keeps R body) :
    Keeps R (attempt body) := by
  intro run
  have kept := inside run
  rw [outcome_attempt]
  generalize outcome body run = ending at kept ⊢
  rcases ending with ⟨_ | _, after⟩ <;> exact kept

namespace Scopes

variable {R : Run → Run → Prop} {draws : Domain → Prop}

theorem create (scopes : Scopes R R draws)
    (switch : ∀ (run : Run) {id : Nat}, id < run.compiler.contexts.length →
      R run (run.withCompiler (run.compiler.switchTo id)))
    (label : String) (name : Option String) :
    Keeps R (Statement.createContext label true name).exec := by
  intro run
  rcases run.compiler.openContext_ends label with ⟨error, refused⟩ | ⟨opened, next, made⟩
  · have failed : outcome (Statement.createContext label true name).exec run =
        (.error error, run) := outcome_bind_of_error (outcome_commit_of_error refused)
    rw [failed]
    exact scopes.refl run
  · have opens := Compiler.opens_of_openContext made
    have valid : opened.id < next.contexts.length := by
      rw [opens.id, opens.length]
      omega
    have ended : outcome (Statement.createContext label true name).exec run =
        outcome (named name opened.group) (run.withCompiler (next.switchTo opened.id)) :=
      outcome_bind_of_ok (outcome_commit_of_ok made)
    have switched : R run (run.withCompiler (next.switchTo opened.id)) :=
      scopes.trans (scopes.opening run opens) (switch (run.withCompiler next) valid)
    rw [ended]
    refine scopes.trans switched ?_
    cases name with
    | none => exact scopes.refl _
    | some name => exact scopes.name _ _

/-- A relation that scopes keep is kept by every allowed statement as soon as it is kept by a
switch, by a body that runs in an older context, and by a wait. -/
theorem moving_laws (scopes : Scopes R R draws)
    (switch : ∀ (run : Run) {id : Nat}, id < run.compiler.contexts.length →
      R run (run.withCompiler (run.compiler.switchTo id)))
    (reenter : ∀ {run after : Run} {id : Nat}, id < run.compiler.contexts.length →
      R (run.withCompiler (run.compiler.enter id)) after → R run after.leave)
    (waiting : ∀ seconds, Keeps R (wait seconds)) {allows : Statement → Prop}
    (drawn : ∀ domain name, allows (.fresh domain name) → draws domain) :
    Laws (fun _ => Keeps R) (fun _ => Keeps R) allows := by
  have finish {action : Build Unit} (kept : Keeps R action) : Keeps R (done action) :=
    scopes.chain kept fun _ => (reads_pure _).keeps scopes.refl
  have owned (group : Operand Reference) {next : Nat → Build Unit}
      (kept : ∀ run id, id < run.compiler.contexts.length → R run (outcome (next id) run).2) :
      Keeps R (done do next (← owner (← reference group))) :=
    finish (scopes.chain ((reads_resolve _ group).keeps scopes.refl) fun reference =>
      keeps_of_found scopes.refl (outcome_owner reference) kept)
  refine scopes.laws drawn fun statement moves _ inside => ?_
  cases statement with
  | extend group body => exact owned group fun run _ valid => reenter valid (inside _)
  | wait seconds => exact finish (waiting seconds)
  | createContext label switched name =>
      cases switched with
      | false => cases moves
      | true => exact scopes.create switch label name
  | switchTo label =>
      exact finish (keeps_of_found scopes.refl (outcome_contextNamed label) fun run _ =>
        switch run)
  | switchToOwner group => exact owned group fun run _ => switch run
  | attempt body => exact keeps_attempt inside
  | _ => cases moves

end Scopes

theorem restores_extend (group : Operand Reference) {body : List Statement}
    (inside : Keeps Run.Advances (Statement.execAll body)) :
    Keeps Run.Restores (Statement.extend group body).exec := by
  have scopes := restores_scopes
  refine scopes.chain (scopes.chain ((reads_resolve _ group).keeps scopes.refl) fun reference => ?_)
    fun _ => (reads_pure _).keeps scopes.refl
  exact keeps_of_found scopes.refl (outcome_owner reference) fun run _ valid =>
    Run.Restores.of_scope ⟨rfl, rfl, Nat.le_refl _⟩ valid (inside _)

/-- A statement that puts no other context in the place of the current one keeps the stack. -/
theorem restores_laws : Laws (fun _ => Keeps Run.Advances) (fun _ => Keeps Run.Restores)
    (fun statement => statement.movesTop = false) := by
  refine restores_scopes.laws (fun _ _ _ => trivial) fun statement moves fixed inside => ?_
  cases statement with
  | extend group body => exact restores_extend group inside
  | createContext label switch name =>
      cases switch with
      | false => cases moves
      | true => cases fixed
  | wait | switchTo | switchToOwner | attempt => cases fixed
  | _ => cases moves

theorem advances_wait (seconds : Double) : Keeps Run.Advances (wait seconds) := by
  intro run
  rcases outcome_wait seconds run with ⟨error, failed⟩ | ⟨opened, next, object, made, _, ended⟩
  · rw [failed]
    exact .refl run
  · have opens := Compiler.opens_of_openContext made
    have fills : run.compiler.Fills (next.add object) :=
      opens.fills.trans (Compiler.fills_addTo _ _ _)
    have valid : opened.id < (next.add object).contexts.length := by
      rw [Compiler.add, Compiler.length_addTo, opens.length, opens.id]
      omega
    have below : (next.add object).stack.tail = run.compiler.stack.tail := by rw [fills.stack]
    rw [ended]
    refine ⟨below, fills.grows, List.suffix_rfl, fun ordered => ?_⟩
    have less : run.compiler.current < opened.id := opens.id ▸ ordered.current_lt
    exact ((ordered.of_fills fills).link less valid).switchTo valid

/-- Every statement advances, whatever stands in its bodies. -/
theorem advances_laws :
    Laws (fun _ => Keeps Run.Advances) (fun _ => Keeps Run.Advances) (fun _ => True) :=
  restores_scopes.inner.moving_laws Run.Advances.switchTo
    (fun valid inside => (Run.Restores.of_scope ⟨rfl, rfl, Nat.le_refl _⟩ valid inside).toAdvances)
    advances_wait fun _ _ _ => trivial

theorem advances_record (statement : Statement) (kept : Keeps Run.Advances statement.exec) :
    Keeps Run.Advances (record statement statement.exec) := by
  intro run
  obtain ⟨below, grows, log, ordered⟩ := kept run
  exact ⟨below, grows, log.trans (List.suffix_cons _ _), ordered⟩

theorem advances_exec (statement : Statement) : Keeps Run.Advances statement.exec :=
  advances_laws.exec_everywhere advances_record
    (Statement.everywhere_of_forall (fun _ => trivial) statement)

theorem advances_execAll (body : List Statement) : Keeps Run.Advances (Statement.execAll body) :=
  advances_laws.execAll body fun statement _ => advances_record statement (advances_exec statement)

/-! ## Failures of bodies -/

/-- No statement has finished in between. -/
def SameLog (before after : Run) : Prop := after.finished = before.finished

/-- If the last statement that finished during the action failed, then the action fails with the
same error. -/
def PassesErrors {α : Type} (action : Build α) : Prop :=
  ∀ run, ∃ inner, (outcome action run).2.finished = inner ++ run.finished ∧
    ∀ entry ∈ inner.head?, ∀ error, entry.result = .error error →
      (outcome action run).1 = .error error

theorem passesErrors_of_quiet {α : Type} {action : Build α}
    (quiet : Keeps SameLog action) : PassesErrors action :=
  fun run => ⟨[], quiet run, by simp⟩

theorem Reads.passesErrors {α : Type} {action : Build α} (reads : Reads action) :
    PassesErrors action :=
  passesErrors_of_quiet (reads.keeps (R := SameLog) fun _ => rfl)

theorem PassesErrors.chain {α β : Type} {action : Build α} {next : α → Build β}
    (first : PassesErrors action) (second : ∀ result, PassesErrors (next result)) :
    PassesErrors (action >>= next) := by
  intro run
  obtain ⟨inner, log, passed⟩ := first run
  rcases ended : outcome action run with ⟨result, after⟩
  rw [ended] at log passed
  cases result with
  | error error =>
      rw [outcome_bind_of_error ended]
      refine ⟨inner, log, fun entry member cause failed => ?_⟩
      cases passed entry member cause failed
      rfl
  | ok result =>
      rw [outcome_bind_of_ok ended]
      obtain ⟨later, laterLog, laterPassed⟩ := second result after
      refine ⟨later ++ inner, ?_, fun entry member error failed => ?_⟩
      · rw [laterLog, List.append_assoc, ← log]
      · cases later with
        | nil => cases passed entry member error failed
        | cons newest rest => exact laterPassed entry member error failed

theorem passesErrors_within {α : Type} (id : Nat) {body : Build α} (inside : PassesErrors body) :
    PassesErrors (within id body) :=
  fun run => inside (run.withCompiler (run.compiler.enter id))

theorem passesErrors_open (name : Compiler → String) :
    PassesErrors (commit fun compiler => compiler.openContext (name compiler)) :=
  passesErrors_of_quiet (keeps_openContext (R := SameLog) (fun _ => rfl) name fun _ _ _ _ => rfl)

theorem passesErrors_function {body : Reference → Build Unit}
    (inside : ∀ group, PassesErrors (body group)) : PassesErrors (function body) := by
  refine (passesErrors_open _).chain fun opened => ?_
  exact (passesErrors_within _ (inside _)).chain fun _ => passesErrors_of_quiet fun _ => rfl

theorem passesErrors_addMade (made : Except FieldError Object) : PassesErrors (addMade made) := by
  cases made with
  | error error => exact passesErrors_of_quiet fun _ => rfl
  | ok object => exact passesErrors_of_quiet fun _ => rfl

theorem passesErrors_repeatWhile (condition : Condition) (delay : Double)
    {body : Reference → Build Unit} (inside : ∀ group, PassesErrors (body group)) :
    PassesErrors (repeatWhile condition delay body) := by
  refine (reads_checkDelay delay).passesErrors.chain fun _ =>
    (passesErrors_open _).chain fun check => (passesErrors_open _).chain fun inner => ?_
  refine (passesErrors_within _ (passesErrors_addMade _)).chain fun _ =>
    (passesErrors_addMade _).chain fun _ => (passesErrors_within _ (inside _)).chain fun _ => ?_
  refine PassesErrors.chain (passesErrors_of_quiet fun _ => rfl) fun compiler => ?_
  cases Trigger.spawn check.group delay with
  | error error => exact passesErrors_of_quiet fun _ => rfl
  | ok object => exact passesErrors_of_quiet fun _ => rfl

end Build

/-- The statements that run a body, or make a function, in a context entered for it. -/
def Statement.isScoped : Statement → Bool
  | .function .. | .extend .. | .repeatWhile .. | .forLoop .. | .sequence .. | .remappable ..
  | .dispatch .. => true
  | _ => false

namespace Build

theorem passesErrors_laws : Laws (fun _ => PassesErrors) (fun _ => PassesErrors)
    (fun statement => statement.isScoped = true) where
  widen passes := passes
  chain := PassesErrors.chain
  chainInner := PassesErrors.chain
  read := Reads.passesErrors
  name _ _ := passesErrors_of_quiet fun _ => rfl
  next _ _ _ := passesErrors_of_quiet fun _ => rfl
  reserve _ _ := passesErrors_of_quiet fun _ => rfl
  nextItem := passesErrors_of_quiet fun _ => rfl
  reserveItem _ := passesErrors_of_quiet fun _ => rfl
  create name := passesErrors_open fun _ => name
  append _ := passesErrors_of_quiet fun _ => rfl
  appendGlobal _ := passesErrors_of_quiet fun _ => rfl
  scope := passesErrors_function
  loop := passesErrors_repeatWhile
  moves statement moves allowed inside := by
    cases statement with
    | extend group body =>
        refine PassesErrors.chain ?_ fun _ => (reads_pure _).passesErrors
        exact (reads_resolve _ group).passesErrors.chain fun reference =>
          (reads_owner reference).passesErrors.chain fun id => passesErrors_within id inside
    | wait | switchTo | switchToOwner | createContext | attempt => cases allowed
    | _ => cases moves

/-- A statement in a body enters its own failure into the log, as the last that finished. -/
theorem passesErrors_record (statement : Statement) :
    PassesErrors (record statement statement.exec) := by
  intro run
  obtain ⟨inner, log⟩ := (advances_exec statement run).log
  rcases ended : outcome statement.exec run with ⟨result, after⟩
  rw [ended] at log
  rw [outcome_record ended]
  refine ⟨_ :: inner, congrArg (List.cons _) log.symm, fun entry member error failed => ?_⟩
  cases member
  cases failed
  rfl

theorem passesErrors_exec {statement : Statement} (isScoped : statement.isScoped = true) :
    PassesErrors statement.exec :=
  passesErrors_laws.exec statement isScoped
    (passesErrors_laws.execAll _ fun inner _ => passesErrors_record inner)

end Build

/-! ## Runs in which a statement begins -/

namespace Run

/-- The runs in which a statement can begin, at the outermost level or inside bodies: whole
statements may have run before, and the constructs around it have bound names, drawn slots, opened
contexts, appended objects and entered contexts. -/
inductive Reachable : Run → Prop where
  | start (options : CompilerOptions) (names : Nat → String) :
      Reachable (.start (.start options names))
  | step {run : Run} (statement : Statement) : Reachable run → Reachable (run.step statement)
  | name {run : Run} (name : String) (binding : Binding) :
      Reachable run → Reachable { run with bindings := (name, binding) :: run.bindings }
  | slot {run : Run} : Reachable run → Reachable (run.withCompiler run.compiler.nextItem.2)
  | opening {run : Run} {opened : Opened} {next : Compiler} :
      Reachable run → run.compiler.openAnonymous = (.ok opened, next) →
        Reachable (run.withCompiler next)
  | append {run : Run} (id : Nat) (object : Object) :
      Reachable run → Reachable (run.withCompiler (run.compiler.addTo id object))
  | enter {run : Run} {id : Nat} :
      Reachable run → id < run.compiler.contexts.length →
        Reachable (run.withCompiler (run.compiler.enter id))

theorem Reachable.steps {run : Run} (reachable : run.Reachable) (script : List Statement) :
    (run.steps script).Reachable := by
  induction script generalizing run with
  | nil => exact reachable
  | cons statement rest ih => exact ih (reachable.step statement)

theorem Reachable.ordered {run : Run} (reachable : run.Reachable) : run.compiler.Ordered := by
  induction reachable with
  | start options names => exact Compiler.ordered_start options names
  | step statement _ ih =>
      exact (Build.advances_record statement (Build.advances_exec statement) _).ordered ih
  | name name binding _ ih => exact ih
  | slot _ ih => exact ih.of_fills ⟨rfl, rfl, Nat.le_refl _⟩
  | opening _ made ih => exact ih.of_fills (Compiler.opens_of_openContext made).fills
  | append id object _ ih => exact ih.of_fills (Compiler.fills_addTo _ id object)
  | enter _ valid ih => exact ih.enter valid

end Run

/-- A statement that runs a body in a context of its own gives the stack back as it was and fails
with the error its body failed with; a wait or a switch changes the top entry only; every other
statement leaves the stack alone; and the stack is never empty. -/
theorem stack_restored_by_scoped_statements (run : Run) (reachable : run.Reachable)
    (statement : Statement) :
    let ended := Build.outcome statement.exec run
    run.compiler.stack ≠ [] ∧ ended.2.compiler.stack ≠ [] ∧
      (statement.isScoped = true →
        ended.2.compiler.stack = run.compiler.stack ∧
        ∃ inner, ended.2.finished = inner ++ run.finished ∧
          ∀ entry ∈ inner.head?, ∀ error, entry.result = .error error →
            ended.1 = .error error) ∧
      (statement.movesTop = true → ended.2.compiler.stack.tail = run.compiler.stack.tail) ∧
      (statement.movesTop = false → ended.2.compiler.stack = run.compiler.stack) := by
  have advances := Build.advances_exec statement run
  have restores (fixed : statement.movesTop = false) :
      (Build.outcome statement.exec run).2.compiler.stack = run.compiler.stack :=
    (Build.restores_laws.exec statement fixed (Build.advances_execAll statement.body) run).stack
  refine ⟨reachable.ordered.filling, (advances.ordered reachable.ordered).filling,
    fun isScoped => ⟨restores ?_, Build.passesErrors_exec isScoped run⟩,
    fun _ => advances.below, restores⟩
  cases statement with
  | createContext | wait | switchTo | switchToOwner | attempt => cases isScoped
  | _ => rfl

/-- A function whose body waits, moves to another context and fails in a loop after a wait. -/
def Statement.unruly : Statement :=
  .function none none [.wait .zero, .createContext "side" true none,
    .repeatWhile ⟨.literal ⟨1, .item⟩, .smaller, .zero⟩ (some .zero) none none
      [.wait .zero, .fail "stop"]]

/-- A run in which nothing has been done, with anonymous contexts named by their length. -/
def Run.blank : Run :=
  .start (.start .standard fun number => String.ofList (.replicate number 'a'))

theorem stack_restored_by_unruly :
    Run.blank.Reachable ∧ Statement.unruly.isScoped = true ∧
      (Build.outcome Statement.unruly.exec Run.blank).2.compiler.stack = [0] ∧
      (Build.outcome Statement.unruly.exec Run.blank).1 = .error (.unknownContext "stop") := by
  have reachable : Run.blank.Reachable := .start _ _
  obtain ⟨stack, inner, log, passed⟩ :=
    (stack_restored_by_scoped_statements Run.blank reachable Statement.unruly).2.2.1 rfl
  have failed : ((Build.outcome Statement.unruly.exec Run.blank).2.finished.head?.bind fun entry =>
      match entry.result with
      | .error error => some error
      | .ok _ => none) = some (.unknownContext "stop") := by decide +kernel
  have before : Run.blank.finished = [] := rfl
  have top : Run.blank.compiler.stack = [0] := rfl
  rw [log, before, List.append_nil] at failed
  obtain ⟨entry, newest, result⟩ := Option.bind_eq_some_iff.1 failed
  refine ⟨reachable, rfl, stack.trans top, passed entry newest _ ?_⟩
  cases ended : entry.result with
  | error error => simpa [ended] using result
  | ok outcome => simp [ended] at result

end TriggerGraph
