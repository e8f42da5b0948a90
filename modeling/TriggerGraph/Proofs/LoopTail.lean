import Mathlib.Logic.Relation
import TriggerGraph.Proofs.Stack

/-!
# Where a loop continues

The end of a loop's body is found by following continuations from the context in which the body
began.  As long as the body stays with new contexts and continuations, this walk ends in the context
that was current when the body returned.
-/

namespace TriggerGraph

/-! ## Following forward links -/

namespace Chain

/-- Every link leads to a later context. -/
def Forward (links : List (Nat × Nat)) : Prop := ∀ link ∈ links, link.1 < link.2

theorem Forward.lt {links : List (Nat × Nat)} (forward : Forward links) {source target : Nat}
    (found : links.lookup source = some target) : source < target := by
  obtain ⟨before, after, split, _⟩ := List.lookup_eq_some_iff.1 found
  exact forward (source, target) (by simp [split])

theorem Forward.without {links : List (Nat × Nat)} (forward : Forward links) (source : Nat) :
    Forward (Chain.without links source) :=
  fun link member => forward link ((List.mem_filter.1 member).1)

theorem lookup_without {links : List (Nat × Nat)} {source other : Nat} (apart : other ≠ source) :
    (without links source).lookup other = links.lookup other := by
  induction links with
  | nil => rfl
  | cons link rest ih =>
      obtain ⟨from', to'⟩ := link
      unfold without at ih ⊢
      by_cases same : from' = source
      · have skipped : (other == from') = false := by simp [same, apart]
        simp only [List.filter_cons, same, bne_self_eq_false, Bool.false_eq_true, if_false, ih]
        rw [← same, List.lookup_cons, skipped]
      · simp [same, List.lookup_cons, ih]

theorem without_comm (links : List (Nat × Nat)) (one two : Nat) :
    without (without links one) two = without (without links two) one := by
  simp [without, List.filter_filter, Bool.and_comm]

theorem follow_of_none {links : List (Nat × Nat)} {start : Nat}
    (absent : links.lookup start = none) : follow links start = start := by
  rw [follow]
  split
  · rfl
  · simp_all

theorem follow_of_some {links : List (Nat × Nat)} {start next : Nat}
    (found : links.lookup start = some next) :
    follow links start = follow (without links start) next := by
  rw [follow]
  split
  · simp_all
  · simp_all

/-- Links that leave earlier contexts play no part in a forward walk. -/
theorem follow_without {links : List (Nat × Nat)} (forward : Forward links) {source start : Nat}
    (less : source < start) : follow (without links source) start = follow links start := by
  induction links, start using follow.induct with
  | case1 links start absent =>
      have apart : start ≠ source := by omega
      rw [follow_of_none absent, follow_of_none ((lookup_without apart).trans absent)]
  | case2 links start next found ih =>
      have apart : start ≠ source := by omega
      have later : start < next := forward.lt found
      rw [follow_of_some found, follow_of_some ((lookup_without apart).trans found), without_comm]
      exact ih (forward.without start) (by omega)

theorem follow_next {links : List (Nat × Nat)} (forward : Forward links) {start next : Nat}
    (found : links.lookup start = some next) : follow links start = follow links next := by
  rw [follow_of_some found, follow_without forward (forward.lt found)]

theorem le_follow {links : List (Nat × Nat)} (forward : Forward links) (start : Nat) :
    start ≤ follow links start := by
  induction links, start using follow.induct with
  | case1 links start absent => exact Nat.le_of_eq (follow_of_none absent).symm
  | case2 links start next found ih =>
      have later : start < next := forward.lt found
      have further := ih (forward.without start)
      rw [follow_of_some found]
      omega

theorem next?_link (chain : Chain) (source target id : Nat) :
    (chain.link source target).next? id = if id = source then some target else chain.next? id := by
  unfold next? link
  rw [List.lookup_cons]
  by_cases same : id = source
  · simp [same]
  · simp [beq_false_of_ne same, same]

/-- Continuations lead from one context to another. -/
def Leads (chain : Chain) : Nat → Nat → Prop :=
  Relation.ReflTransGen fun source target => chain.next? source = some target

/-- A forward walk to a context without a continuation ends there. -/
theorem terminal_of_leads {chain : Chain} (forward : Forward chain.links) {start stop : Nat}
    (leads : chain.Leads start stop) (ends : chain.next? stop = none) :
    chain.terminal start = stop := by
  induction leads using Relation.ReflTransGen.head_induction_on with
  | refl => exact follow_of_none ends
  | head step _ ih => exact (follow_next forward step).trans ih

end Chain

/-! ## Continuing a context -/

namespace Compiler

/-- What statements that stay with new contexts do: they fill the current context and new ones, and
add continuations to the end of the current context only.  Persistent counters also fill the global
context. -/
structure Continues (before after : Compiler) : Prop where
  moved : after.current = before.current ∨ before.contexts.length ≤ after.current
  kept : ∀ id < before.contexts.length, id ≠ 0 → id ≠ before.current →
    after.context? id = before.context? id
  filled : ∀ id context, before.context? id = some context →
    ∃ more, after.context? id = some { context with objects := context.objects ++ more }
  linked : ∀ id < before.contexts.length, id ≠ before.current →
    after.chain.next? id = before.chain.next? id
  leads : before.chain.next? before.current = none →
    after.chain.Leads before.current after.current ∧ after.chain.next? after.current = none

theorem Ordered.isForward {compiler : Compiler} (ordered : compiler.Ordered) :
    Chain.Forward compiler.chain.links :=
  fun link member => (ordered.forward link member).1

theorem Ordered.next?_lt {compiler : Compiler} (ordered : compiler.Ordered) {source target : Nat}
    (found : compiler.chain.next? source = some target) :
    source < compiler.contexts.length := by
  obtain ⟨before, after, split, _⟩ := List.lookup_eq_some_iff.1 found
  have link := ordered.forward (source, target) (by simp [split])
  omega

theorem Ordered.next?_of_le {compiler : Compiler} (ordered : compiler.Ordered) {id : Nat}
    (beyond : compiler.contexts.length ≤ id) : compiler.chain.next? id = none := by
  cases found : compiler.chain.next? id with
  | none => rfl
  | some target =>
      have := ordered.next?_lt found
      omega

theorem context?_addTo_of_ne (compiler : Compiler) {id other : Nat} (object : Object)
    (apart : other ≠ id) : (compiler.addTo id object).context? other = compiler.context? other := by
  simp [context?, addTo, Ne.symm apart]

theorem context?_addTo_self (compiler : Compiler) (id : Nat) (object : Object) :
    (compiler.addTo id object).context? id =
      (compiler.context? id).map fun context =>
        { context with objects := context.objects ++ [object] } := by
  simp [context?, addTo]

namespace Continues

theorem refl (compiler : Compiler) : Continues compiler compiler where
  moved := .inl rfl
  kept _ _ _ _ := rfl
  filled id context found := ⟨[], by simp [found]⟩
  linked _ _ _ := rfl
  leads ends := ⟨.refl, ends⟩

/-- A walk that ends in the current context is not touched by what follows. -/
theorem leads_of_leads {first second : Compiler} (ordered : first.Ordered)
    (continues : Continues first second) {start : Nat}
    (leads : first.chain.Leads start first.current)
    (ends : first.chain.next? first.current = none) :
    second.chain.Leads start first.current := by
  induction leads using Relation.ReflTransGen.head_induction_on with
  | refl => exact .refl
  | head step _ ih =>
      rename_i source next _
      have apart : source ≠ first.current := by
        rintro rfl
        rw [ends] at step
        cases step
      refine .head ?_ ih
      rw [continues.linked source (ordered.next?_lt step) apart]
      exact step

theorem trans {first second third : Compiler} (ordered : second.Ordered)
    (grows : first.contexts.length ≤ second.contexts.length) (one : Continues first second)
    (two : Continues second third) : Continues first third := by
  have apart {id : Nat} (old : id < first.contexts.length) (other : id ≠ first.current) :
      id ≠ second.current := by
    rcases one.moved with same | new
    · rwa [same]
    · omega
  refine ⟨?_, fun id old global other => ?_, fun id context found => ?_, fun id old other => ?_,
    fun ends => ?_⟩
  · rcases two.moved with same | new
    · rw [same]
      exact one.moved
    · exact .inr (by omega)
  · rw [two.kept id (by omega) global (apart old other), one.kept id old global other]
  · obtain ⟨more, filled⟩ := one.filled id context found
    obtain ⟨further, refilled⟩ := two.filled id _ filled
    exact ⟨more ++ further, by simpa using refilled⟩
  · rw [two.linked id (by omega) (apart old other), one.linked id old other]
  · obtain ⟨leads, ends'⟩ := one.leads ends
    obtain ⟨further, ends''⟩ := two.leads ends'
    exact ⟨(leads_of_leads ordered two leads ends').trans further, ends''⟩

theorem of_same {before after : Compiler} (contexts : after.contexts = before.contexts)
    (stack : after.stack = before.stack) (chain : after.chain = before.chain) :
    Continues before after := by
  obtain ⟨ids, contexts', stack', chain', options, names⟩ := after
  subst contexts stack chain
  have same := refl before
  exact ⟨same.moved, same.kept, same.filled, same.linked, same.leads⟩

theorem addTo {before after : Compiler} (continues : Continues before after) {id : Nat}
    (object : Object)
    (reached : id = 0 ∨ id = before.current ∨ before.contexts.length ≤ id) :
    Continues before (after.addTo id object) where
  moved := continues.moved
  kept other old global apart := by
    rw [context?_addTo_of_ne _ _ (by omega)]
    exact continues.kept other old global apart
  filled other context found := by
    obtain ⟨more, filled⟩ := continues.filled other context found
    by_cases same : other = id
    · subst same
      refine ⟨more ++ [object], ?_⟩
      rw [context?_addTo_self, filled, ← List.append_assoc]
      rfl
    · exact ⟨more, by rw [context?_addTo_of_ne _ _ same, filled]⟩
  linked := continues.linked
  leads := continues.leads

theorem of_opens {before after : Compiler} {name : String} {opened : Opened}
    (opens : Opens before name opened after) : Continues before after := by
  have current : after.current = before.current := by simp [Compiler.current, opens.stack]
  have old {id : Nat} (less : id < before.contexts.length) :
      after.context? id = before.context? id := by
    simp [context?, opens.contexts, List.getElem?_append_left less]
  refine ⟨.inl current, fun id less _ _ => old less, fun id context found => ?_, ?_, ?_⟩
  · have less : id < before.contexts.length := (List.getElem?_eq_some_iff.1 found).1
    exact ⟨[], by simp [old less, found]⟩
  · rw [opens.chain]
    exact fun _ _ _ => rfl
  · rw [opens.chain, current]
    exact fun ends => ⟨.refl, ends⟩

/-- A body that runs in a new context and is left again. -/
theorem of_scope {before prepared after : Compiler} {id : Nat} (ordered : before.Ordered)
    (fills : before.Fills prepared) (fresh : before.contexts.length ≤ id)
    (begun : Continues before prepared) (inside : Continues (prepared.enter id) after)
    (restored : after.leave.stack = before.stack) : Continues before after.leave := by
  have current : after.leave.current = before.current := by simp [Compiler.current, restored]
  have present := ordered.current_lt
  have grows := fills.grows
  refine ⟨.inl current, fun other old global apart => ?_, fun other context found => ?_,
    fun other old apart => ?_, fun ends => ?_⟩
  · have inner : other ≠ (prepared.enter id).current := by
      change other ≠ id
      omega
    exact (inside.kept other (by change _ < prepared.contexts.length; omega) global inner).trans
      (begun.kept other old global apart)
  · obtain ⟨more, filled⟩ := begun.filled other context found
    obtain ⟨further, refilled⟩ := inside.filled other _ filled
    refine ⟨more ++ further, ?_⟩
    rw [← List.append_assoc]
    exact refilled
  · have inner : other ≠ (prepared.enter id).current := by
      change other ≠ id
      omega
    exact (inside.linked other (by change _ < prepared.contexts.length; omega) inner).trans
      (begun.linked other old apart)
  · have inner : before.current ≠ (prepared.enter id).current := by
      change before.current ≠ id
      omega
    have unlinked : after.chain.next? before.current = none := by
      rw [inside.linked _ (by change _ < prepared.contexts.length; omega) inner]
      change prepared.chain.next? before.current = none
      rwa [fills.chain]
    rw [current]
    exact ⟨.refl, unlinked⟩

theorem of_loopStart {before : Compiler} {condition : Condition} (ordered : before.Ordered)
    (start : LoopStart before condition) : Continues before start.prepared := by
  have check := opens_of_openContext start.opensCheck
  have inner := opens_of_openContext start.opensInner
  have opened : Continues before start.second :=
    (of_opens check).trans (ordered.of_fills check.fills) check.fills.grows (of_opens inner)
  have compared : Continues before (start.second.addTo start.check.id start.comparison) :=
    opened.addTo start.comparison (by rw [start.check_id]; omega)
  refine compared.addTo start.spawn ?_
  right; left
  simp [Compiler.current, Compiler.addTo, inner.stack, check.stack]

theorem of_loop {before after : Compiler} {condition : Condition} (ordered : before.Ordered)
    (start : LoopStart before condition)
    (inside : Continues (start.prepared.enter start.inner.id) after)
    (restored : after.leave.stack = before.stack) : Continues before after.leave := by
  refine of_scope ordered start.fills ?_ (of_loopStart ordered start) inside restored
  rw [start.inner_id]
  omega

theorem of_wait {before next : Compiler} {opened : Opened} (ordered : before.Ordered)
    {name : String} (opens : Opens before name opened next) (object : Object) :
    Continues before
      (((next.add object).link before.current opened.id).switchTo opened.id) := by
  have present := ordered.current_lt
  have current : next.current = before.current := by simp [Compiler.current, opens.stack]
  have added : Continues before (next.add object) :=
    (of_opens opens).addTo object (.inr (.inl current))
  have chain (id : Nat) : (((next.add object).link before.current opened.id).switchTo
      opened.id).chain.next? id =
        if id = before.current then some opened.id else before.chain.next? id := by
    change ((next.add object).chain.link _ _).next? id = _
    rw [Chain.next?_link, ← opens.chain]
    rfl
  refine ⟨.inr (Nat.le_of_eq opens.id.symm), added.kept, added.filled, fun id old apart => ?_,
    fun _ => ⟨.single ?_, ?_⟩⟩
  · rw [chain, if_neg apart]
  · rw [chain, if_pos rfl]
    rfl
  · change Chain.next? _ opened.id = none
    rw [chain, opens.id, if_neg (by omega)]
    exact ordered.next?_of_le (Nat.le_refl _)

end Continues

namespace LoopStart

variable {before : Compiler} {condition : Condition}

theorem context?_prepared (start : LoopStart before condition) {id : Nat}
    (apart : id ≠ before.current) :
    start.prepared.context? id =
      (start.second.addTo start.check.id start.comparison).context? id := by
  have current : start.second.current = before.current := by
    simp [Compiler.current, (opens_of_openContext start.opensInner).stack,
      (opens_of_openContext start.opensCheck).stack]
  refine context?_addTo_of_ne _ _ ?_
  change id ≠ start.second.current
  rwa [current]

theorem contexts_second (start : LoopStart before condition) :
    start.second.contexts = before.contexts ++
      [⟨before.names before.contexts.length, start.check.group, [], some before.current⟩,
        ⟨before.names (before.contexts.length + 1), start.inner.group, [],
          some before.current⟩] := by
  have check := opens_of_openContext start.opensCheck
  have inner := opens_of_openContext start.opensInner
  have current : start.first.current = before.current := by simp [Compiler.current, check.stack]
  rw [inner.contexts, check.names, check.length, current, check.contexts, List.append_assoc]
  rfl

/-- The check holds the comparison and nothing else. -/
theorem context?_check (start : LoopStart before condition) (ordered : before.Ordered) :
    start.prepared.context? before.contexts.length =
      some ⟨before.names before.contexts.length, start.check.group, [start.comparison],
        some before.current⟩ := by
  have present := ordered.current_lt
  rw [start.context?_prepared (by omega), start.check_id, context?_addTo_self, context?,
    start.contexts_second]
  simp

/-- The body begins in an empty context. -/
theorem context?_inner (start : LoopStart before condition) (ordered : before.Ordered) :
    start.prepared.context? start.inner.id =
      some ⟨before.names (before.contexts.length + 1), start.inner.group, [],
        some before.current⟩ := by
  have present := ordered.current_lt
  rw [start.inner_id, start.context?_prepared (by omega), start.check_id,
    context?_addTo_of_ne _ _ (by omega), context?, start.contexts_second]
  simp

/-- The context around the loop has been given the activation of the check. -/
theorem context?_current (start : LoopStart before condition) (ordered : before.Ordered)
    {context : Context} (found : before.context? before.current = some context) :
    start.prepared.context? before.current =
      some { context with objects := context.objects ++ [start.spawn] } := by
  have present := ordered.current_lt
  have current : start.second.current = before.current := by
    simp [Compiler.current, (opens_of_openContext start.opensInner).stack,
      (opens_of_openContext start.opensCheck).stack]
  have old : (start.second.addTo start.check.id start.comparison).context? before.current =
      some context := by
    rw [start.check_id, context?_addTo_of_ne _ _ (by omega), context?, start.contexts_second,
      List.getElem?_append_left present]
    exact found
  change ((start.second.addTo start.check.id start.comparison).addTo start.second.current
    start.spawn).context? before.current = _
  rw [current, context?_addTo_self, old]
  rfl

end LoopStart
end Compiler

/-! ## Local statements -/

/-- The statements that fill only the current context and new ones. -/
def Statement.isLocal : Statement → Bool
  | .extend .. | .switchTo .. | .switchToOwner .. | .createContext _ true _ => false
  | _ => true

/-- The run advances and continues its current context. -/
structure Run.Follows (before after : Run) : Prop extends Run.Advances before after where
  continues : before.compiler.Ordered → before.compiler.Continues after.compiler

namespace Build

open Run in
theorem follows_scopes : Scopes Follows Follows fun _ => True := by
  have advances := restores_scopes.inner
  refine
    { widen := id
      refl := fun run => ⟨.refl run, fun _ => .refl _⟩
      trans := ?trans
      transInner := ?trans
      name := fun run bindings => ⟨advances.name run bindings, fun _ => .refl _⟩
      next := fun run domain drawn =>
        ⟨advances.next run domain drawn, fun _ => .of_same rfl rfl rfl⟩
      reserve := fun run domain value =>
        ⟨advances.reserve run domain value, fun _ => .of_same rfl rfl rfl⟩
      nextItem := fun run => ⟨advances.nextItem run, fun _ => .of_same rfl rfl rfl⟩
      reserveItem := fun run item => ⟨advances.reserveItem run item, fun _ => .of_same rfl rfl rfl⟩
      opening := fun run _ _ _ opens => ⟨advances.opening run opens, fun _ => .of_opens opens⟩
      append := fun run object =>
        ⟨advances.append run object, fun _ => (Compiler.Continues.refl _).addTo object (by simp)⟩
      appendGlobal := fun run object =>
        ⟨advances.appendGlobal run object, fun _ =>
          (Compiler.Continues.refl _).addTo object (by simp)⟩
      scope := ?scope
      failing := ?failing
      closing := ?closing }
  case trans =>
    intro first second third one two
    refine ⟨one.toAdvances.trans two.toAdvances, fun ordered => ?_⟩
    exact (one.continues ordered).trans (one.ordered ordered) one.grows
      (two.continues (one.ordered ordered))
  case scope =>
    intro run after name opened next opens inside
    refine ⟨advances.scope opens inside.toAdvances, fun ordered => ?_⟩
    have entered : (next.enter opened.id).Ordered :=
      (ordered.of_fills opens.fills).enter (by rw [opens.id, opens.length]; omega)
    exact .of_scope ordered opens.fills (Nat.le_of_eq opens.id.symm) (.of_opens opens)
      (inside.continues entered) (inside.stack_leave.trans opens.stack)
  case failing =>
    intro run after condition start inside
    refine ⟨advances.failing start inside.toAdvances, fun ordered => ?_⟩
    exact .of_loop ordered start (inside.continues (start.ordered ordered))
      (inside.stack_leave.trans start.fills.stack)
  case closing =>
    intro run after condition start next inside
    refine ⟨advances.closing start next inside.toAdvances, fun ordered => ?_⟩
    have entered := start.ordered ordered
    have continues := Compiler.Continues.of_loop ordered start (inside.continues entered)
      (inside.stack_leave.trans start.fills.stack)
    have fresh := start.inner_id
    have later : start.inner.id ≤ after.compiler.chain.terminal start.inner.id :=
      Chain.le_follow (inside.ordered entered).isForward _
    exact continues.addTo next (.inr (.inr (by omega)))

theorem follows_wait (seconds : Double) : Keeps Run.Follows (wait seconds) := by
  intro run
  refine ⟨advances_wait seconds run, fun ordered => ?_⟩
  rcases outcome_wait seconds run with ⟨error, failed⟩ | ⟨opened, next, object, made, _, ended⟩
  · rw [failed]
    exact .refl _
  · rw [ended]
    exact .of_wait ordered (Compiler.opens_of_openContext made) object

theorem follows_laws : Laws (fun _ => Keeps Run.Follows) (fun _ => Keeps Run.Follows)
    (fun statement => statement.isLocal = true) := by
  refine follows_scopes.laws (fun _ _ _ => trivial) fun statement moves isLocal inside => ?_
  cases statement with
  | wait seconds =>
      exact follows_scopes.chain (follows_wait seconds) fun _ =>
        (reads_pure _).keeps follows_scopes.refl
  | attempt body => exact keeps_attempt inside
  | createContext label switch name =>
      cases switch with
      | false => cases moves
      | true => cases isLocal
  | extend | switchTo | switchToOwner => cases isLocal
  | _ => cases moves

theorem follows_record (statement : Statement) (kept : Keeps Run.Follows statement.exec) :
    Keeps Run.Follows (record statement statement.exec) :=
  fun run => ⟨advances_record statement (advances_exec statement) run, (kept run).continues⟩

/-- A local body continues the context it begins in. -/
theorem follows_execAll {body : List Statement}
    (isLocal : ∀ statement ∈ body, statement.Everywhere (·.isLocal = true)) :
    Keeps Run.Follows (Statement.execAll body) := by
  refine follows_laws.execAll body fun statement member => ?_
  exact follows_record statement (follows_laws.exec_everywhere follows_record (isLocal _ member))

theorem follows_step {statement : Statement} (isLocal : statement.Everywhere (·.isLocal = true))
    (run : Run) : run.Follows (run.step statement) :=
  follows_record statement (follows_laws.exec_everywhere follows_record isLocal) run

/-- Where the body of a loop ends is where the walk from its context ends. -/
theorem terminal_of_follows {run left : Run} {condition : Condition}
    (ordered : run.compiler.Ordered) (start : run.compiler.LoopStart condition)
    (inside : Run.Follows (run.withCompiler (start.prepared.enter start.inner.id)) left) :
    left.compiler.chain.terminal start.inner.id = left.compiler.current := by
  have entered := start.ordered ordered
  have unlinked : start.prepared.chain.next? start.inner.id = none := by
    rw [start.fills.chain]
    exact ordered.next?_of_le (by rw [start.inner_id]; omega)
  obtain ⟨leads, ends⟩ := (inside.continues entered).leads unlinked
  exact Chain.terminal_of_leads (inside.ordered entered).isForward leads ends

end Build

/-- The tail of a loop with a local body is the context that was current when the body returned, and
it ends with the delayed activation of the check; the check holds the comparison that fires the body
and nothing else; and the context around the loop activates the check at once, before anything that
the body emits. -/
theorem loop_tail_is_where_the_body_ends (run : Run) (reachable : run.Reachable)
    (condition : Condition) (delay : Double) (own : Option String) (body : List Statement)
    (isLocal : ∀ statement ∈ body, statement.Everywhere (·.isLocal = true))
    (loop : CompiledLoop) (after : Run)
    (succeeded : Build.outcome (Build.repeatWhile condition delay fun group => do
      Build.bindTo own (.reference group)
      Statement.execAll body) run = (.ok loop, after)) :
    ∃ (entered left : Run) (caller last : Context) (spawn comparison next : Object),
      -- before the body
      run.compiler.context? run.compiler.current = some caller ∧
      Trigger.spawn loop.check .zero = .ok spawn ∧
      entered.compiler.context? run.compiler.current =
        some { caller with objects := caller.objects ++ [spawn] } ∧
      entered.compiler.context? entered.compiler.current =
        some ⟨run.compiler.names (run.compiler.contexts.length + 1), loop.body, [],
          some run.compiler.current⟩ ∧
      -- the body
      Build.outcome (do
        Build.bindTo own (.reference loop.body)
        Statement.execAll body) entered = (.ok (), left) ∧
      loop.tail = left.compiler.current ∧
      -- after the body
      left.compiler.context? loop.tail = some last ∧
      Trigger.spawn loop.check delay = .ok next ∧
      after.compiler.context? loop.tail =
        some { last with objects := last.objects ++ [next] } ∧
      Trigger.compare condition loop.body = .ok comparison ∧
      after.compiler.context? run.compiler.contexts.length =
        some ⟨run.compiler.names run.compiler.contexts.length, loop.check, [comparison],
          some run.compiler.current⟩ ∧
      ∃ more, after.compiler.context? run.compiler.current =
        some { caller with objects := caller.objects ++ [spawn] ++ more } := by
  have ordered := reachable.ordered
  have present := ordered.current_lt
  rcases Build.outcome_repeatWhile condition delay _ run with
    ⟨error, failed, ended, _⟩ | ⟨valid, ⟨start⟩⟩
  · rw [ended] at succeeded
    cases succeeded
  obtain ⟨next, spawns, ended⟩ := Build.outcome_repeatWhile_of_start valid _ start
  have followed := Build.follows_laws.chain
    (Build.follows_laws.bindTo own (.reference start.inner.group))
    (fun _ => Build.follows_execAll isLocal)
    (run.withCompiler (start.prepared.enter start.inner.id))
  rw [ended] at succeeded
  rcases returned : Build.outcome (do
    Build.bindTo own (.reference start.inner.group)
    Statement.execAll body) (run.withCompiler (start.prepared.enter start.inner.id))
    with ⟨error | ⟨⟩, left⟩
  · rw [returned] at succeeded
    cases succeeded
  rw [returned] at succeeded followed
  cases succeeded
  have entered := start.ordered ordered
  have continues := followed.continues entered
  have tail := Build.terminal_of_follows ordered start followed
  have fresh := start.inner_id
  have later : start.inner.id ≤ left.compiler.chain.terminal start.inner.id :=
    Chain.le_follow (followed.ordered entered).isForward _
  obtain ⟨caller, called⟩ : ∃ caller, run.compiler.context? run.compiler.current = some caller :=
    ⟨_, List.getElem?_eq_getElem present⟩
  obtain ⟨last, lasting⟩ : ∃ last, left.compiler.context?
      (left.compiler.chain.terminal start.inner.id) = some last := by
    rw [tail]
    exact ⟨_, List.getElem?_eq_getElem (followed.ordered entered).current_lt⟩
  -- The delayed activation goes to the tail, which is later than the check and the caller.
  have elsewhere {id : Nat} (old : id ≤ run.compiler.contexts.length) :
      (left.compiler.leave.addTo (left.compiler.chain.terminal start.inner.id) next).context? id =
        left.compiler.context? id :=
    Compiler.context?_addTo_of_ne _ _ (by omega)
  refine ⟨_, left, caller, last, start.spawn, start.comparison, next, called, start.spawns,
    start.context?_current ordered called, start.context?_inner ordered, returned, tail, lasting,
    spawns, ?_, start.compares, ?_, ?_⟩
  · refine (Compiler.context?_addTo_self _ _ next).trans ?_
    change (left.compiler.context? _).map _ = _
    rw [lasting]
    rfl
  · refine (elsewhere (Nat.le_refl _)).trans ?_
    rw [continues.kept _ _ _ _]
    · exact start.context?_check ordered
    · change _ < start.prepared.contexts.length
      rw [start.length_prepared]
      omega
    · omega
    · change _ ≠ start.inner.id
      omega
  · obtain ⟨more, filled⟩ := continues.filled _ _ (start.context?_current ordered called)
    exact ⟨more, (elsewhere (Nat.le_of_lt present)).trans filled⟩

/-- A body that waits, runs another loop that waits, and waits again. -/
def Statement.waiting : List Statement :=
  [.wait .zero, .repeatWhile ⟨.literal ⟨1, .item⟩, .smaller, .zero⟩ none none none [.wait .zero],
    .wait .zero]

theorem loop_tail_after_waiting :
    Run.blank.Reachable ∧
    (∀ statement ∈ Statement.waiting, statement.Everywhere (·.isLocal = true)) ∧
    ∃ (loop : CompiledLoop) (after : Run) (last : Context) (next : Object),
      Build.outcome (Build.repeatWhile ⟨⟨2, .item⟩, .larger, .zero⟩ .zero fun group => do
        Build.bindTo none (.reference group)
        Statement.execAll Statement.waiting) Run.blank = (.ok loop, after) ∧
      loop.tail = 7 ∧ Trigger.spawn loop.check .zero = .ok next ∧
      after.compiler.context? 7 = some { last with objects := last.objects ++ [next] } := by
  have isLocal : ∀ statement ∈ Statement.waiting, statement.Everywhere (·.isLocal = true) := by
    have wait (seconds : Double) : (Statement.wait seconds).Everywhere (·.isLocal = true) :=
      .intro rfl (by simp [Statement.body])
    simp only [Statement.waiting, List.forall_mem_cons]
    exact ⟨wait _, .intro rfl (by simpa [Statement.body] using wait _), wait _, by simp⟩
  have tail : ((Build.outcome (Build.repeatWhile ⟨⟨2, .item⟩, .larger, .zero⟩ .zero fun group => do
      Build.bindTo none (.reference group)
      Statement.execAll Statement.waiting) Run.blank).1.toOption.map CompiledLoop.tail) =
        some 7 := by
    decide +kernel
  rcases ended : Build.outcome (Build.repeatWhile ⟨⟨2, .item⟩, .larger, .zero⟩ .zero fun group => do
      Build.bindTo none (.reference group)
      Statement.execAll Statement.waiting) Run.blank with ⟨error | loop, after⟩
  · rw [ended] at tail
    cases tail
  · rw [ended] at tail
    have seven : loop.tail = 7 := by simpa [Except.toOption] using tail
    obtain ⟨_, _, _, last, _, _, next, _, _, _, _, _, _, _, spawned, ending, _⟩ :=
      loop_tail_is_where_the_body_ends Run.blank (.start _ _) _ _ none Statement.waiting isLocal
        loop after ended
    exact ⟨.start _ _, isLocal, loop, after, last, next, rfl, seven, spawned, seven ▸ ending⟩

end TriggerGraph
