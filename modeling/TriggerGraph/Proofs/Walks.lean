import TriggerGraph.Proofs.Game
import TriggerGraph.Proofs.LoopTail
import TriggerGraph.Proofs.Registry

/-!
# Walks along continuations

A walk follows continuations from one context to the next.  Its end is the last context of the walk,
and if the walk never ends, the first one that lies on a cycle.  In a compilation no walk goes round
in a cycle: a context is continued in a later one that was opened in it and that it spawns.
-/

namespace TriggerGraph

namespace Chain

/-! ## Walks -/

/-- The chain made by a row of links, given the first one first. -/
def ofLinks (calls : List (Nat × Nat)) : Chain :=
  calls.foldl (fun chain call => chain.link call.1 call.2) .empty

/-- Where the walk from a context is after a number of steps, unless it has ended before. -/
def walk (chain : Chain) (start : Nat) : Nat → Option Nat
  | 0 => some start
  | steps + 1 => (chain.walk start steps).bind chain.next?

/-- Continuations lead from a context back to itself. -/
def OnCycle (chain : Chain) (id : Nat) : Prop :=
  Relation.TransGen (fun source target => chain.next? source = some target) id id

theorem links_ofLinks (calls : List (Nat × Nat)) : (ofLinks calls).links = calls.reverse := by
  have links (chain : Chain) :
      (calls.foldl (fun chain call => chain.link call.1 call.2) chain).links =
        calls.reverse ++ chain.links := by
    induction calls generalizing chain with
    | nil => rfl
    | cons call rest ih =>
        rw [List.foldl_cons, ih, List.reverse_cons, List.append_assoc]
        rfl
  exact (links .empty).trans (List.append_nil _)

section Walks

variable {chain : Chain} {start : Nat}

theorem walk_succ {steps id : Nat} (here : chain.walk start steps = some id) :
    chain.walk start (steps + 1) = chain.next? id := by
  rw [walk, here, Option.bind_some]

theorem walk_head {next : Nat} (found : chain.next? start = some next) (steps : Nat) :
    chain.walk start (steps + 1) = chain.walk next steps := by
  induction steps with
  | zero => exact found
  | succ steps ih =>
      rw [walk, ih]
      rfl

theorem exists_walk_of_le {steps stop : Nat} (reached : chain.walk start steps = some stop)
    {early : Nat} (before : early ≤ steps) : ∃ id, chain.walk start early = some id := by
  induction steps generalizing stop with
  | zero =>
      obtain rfl : early = 0 := by omega
      exact ⟨stop, reached⟩
  | succ steps ih =>
      rcases Nat.lt_or_eq_of_le before with less | rfl
      · obtain ⟨middle, passed, _⟩ := Option.bind_eq_some_iff.1 reached
        exact ih passed (by omega)
      · exact ⟨stop, reached⟩

theorem leads_of_walk {early late source target : Nat} (before : early ≤ late)
    (first : chain.walk start early = some source) (second : chain.walk start late = some target) :
    chain.Leads source target := by
  induction late, before using Nat.le_induction generalizing target with
  | base =>
      obtain rfl : source = target := Option.some.inj (first.symm.trans second)
      exact .refl
  | succ late _ ih =>
      obtain ⟨middle, passed, step⟩ := Option.bind_eq_some_iff.1 second
      exact (ih passed).tail step

/-- A context that a walk visits twice lies on a cycle. -/
theorem onCycle_of_walk {early late id : Nat} (before : early < late)
    (first : chain.walk start early = some id) (second : chain.walk start late = some id) :
    chain.OnCycle id := by
  obtain ⟨late, rfl⟩ : ∃ middle, late = middle + 1 := ⟨late - 1, by omega⟩
  obtain ⟨middle, passed, step⟩ := Option.bind_eq_some_iff.1 second
  exact .tail' (leads_of_walk (by omega) first passed) step

theorem exists_walk_of_leads {steps source target : Nat}
    (here : chain.walk start steps = some source) (leads : chain.Leads source target) :
    ∃ late, steps ≤ late ∧ chain.walk start late = some target := by
  induction leads with
  | refl => exact ⟨steps, Nat.le_refl _, here⟩
  | tail _ step ih =>
      obtain ⟨late, after, there⟩ := ih
      exact ⟨late + 1, by omega, (walk_succ there).trans step⟩

/-- Whatever can be reached from a cycle lies on it. -/
theorem OnCycle.leads_back {source target : Nat} (cycle : chain.OnCycle source)
    (leads : chain.Leads source target) : chain.Leads target source := by
  induction leads with
  | refl => exact .refl
  | tail _ step ih =>
      have onwards : Relation.TransGen (fun source target => chain.next? source = some target) _
          source := Relation.TransGen.trans_right ih cycle
      obtain ⟨next, first, rest⟩ := Relation.TransGen.head'_iff.1 onwards
      rw [step] at first
      cases first
      exact rest

end Walks

/-! ## Where following links stops -/

/-- A walk stops after a number of steps, in which it has visited no context twice: in a context
without a continuation, or in one that it has visited before. -/
structure Stops (chain : Chain) (start stop steps : Nat) : Prop where
  reached : chain.walk start steps = some stop
  distinct : ∀ early late id, early < late → late < steps →
    chain.walk start early = some id → chain.walk start late ≠ some id
  closed : chain.next? stop = none ∨ ∃ early < steps, chain.walk start early = some stop

theorem lookup_without_self (links : List (Nat × Nat)) (source : Nat) :
    (without links source).lookup source = none := by
  rw [without, List.lookup_eq_none_iff]
  intro link member
  have other : link.1 ≠ source := by simpa using (List.mem_filter.1 member).2
  simpa using other.symm

theorem walk_of_without {links : List (Nat × Nat)} {source start steps stop : Nat}
    (reached : walk ⟨without links source⟩ start steps = some stop) :
    walk ⟨links⟩ start steps = some stop := by
  induction steps generalizing stop with
  | zero => exact reached
  | succ steps ih =>
      obtain ⟨middle, passed, step⟩ := Option.bind_eq_some_iff.1 reached
      have apart : middle ≠ source := by
        rintro rfl
        rw [next?, lookup_without_self] at step
        cases step
      exact (walk_succ (ih passed)).trans ((lookup_without apart).symm.trans step)

/-- One step before a walk that does without the link of that step. -/
theorem Stops.head {links : List (Nat × Nat)} {start next stop steps : Nat}
    (found : links.lookup start = some next)
    (stops : Stops ⟨without links start⟩ next stop steps) :
    Stops ⟨links⟩ start stop (steps + 1) := by
  have onwards (steps : Nat) : walk ⟨links⟩ start (steps + 1) = walk ⟨links⟩ next steps :=
    walk_head found steps
  -- the contexts visited before the stop are those of the shorter walk, which are not the start
  have visited {early : Nat} (before : early < steps) :
      ∃ id, id ≠ start ∧ walk ⟨without links start⟩ next early = some id := by
    obtain ⟨id, here⟩ := exists_walk_of_le stops.reached (Nat.le_of_lt before)
    obtain ⟨after, there⟩ := exists_walk_of_le stops.reached (show early + 1 ≤ steps by omega)
    refine ⟨id, ?_, here⟩
    rintro rfl
    rw [walk_succ here, next?, lookup_without_self] at there
    cases there
  constructor
  · exact (onwards steps).trans (walk_of_without stops.reached)
  · intro early late id before short first second
    obtain ⟨late, rfl⟩ : ∃ middle, late = middle + 1 := ⟨late - 1, by omega⟩
    obtain ⟨other, apart, there⟩ := visited (show late < steps by omega)
    rw [onwards, walk_of_without there] at second
    cases second
    cases early with
    | zero => exact apart (Option.some.inj first).symm
    | succ early =>
        obtain ⟨same, _, here⟩ := visited (show early < steps by omega)
        rw [onwards, walk_of_without here] at first
        cases first
        exact stops.distinct early late id (by omega) (by omega) here there
  · rcases stops.closed with ends | ⟨early, before, again⟩
    · by_cases same : stop = start
      · exact .inr ⟨0, by omega, congrArg some same.symm⟩
      · exact .inl ((lookup_without same).symm.trans ends)
    · exact .inr ⟨early + 1, by omega, (onwards early).trans (walk_of_without again)⟩

theorem exists_stops (links : List (Nat × Nat)) (start : Nat) :
    ∃ steps ≤ links.length, Stops ⟨links⟩ start (follow links start) steps := by
  induction links, start using follow.induct with
  | case1 links start absent =>
      refine ⟨0, Nat.zero_le _, ?_⟩
      rw [follow_of_none absent]
      exact ⟨rfl, fun _ _ _ _ short => absurd short (Nat.not_lt_zero _), .inl absent⟩
  | case2 links start next found ih =>
      obtain ⟨steps, short, stops⟩ := ih
      have fewer := length_without_lt found
      rw [follow_of_some found]
      exact ⟨steps + 1, by omega, stops.head found⟩

section Stops

variable {chain : Chain} {start stop steps early : Nat}

/-- A walk that has come back to a context goes round from there. -/
theorem Stops.repeats (stops : Stops chain start stop steps) (before : early < steps)
    (again : chain.walk start early = some stop) {late : Nat} (after : early ≤ late) :
    ∃ between, early ≤ between ∧ between < steps ∧
      chain.walk start late = chain.walk start between := by
  induction late, after using Nat.le_induction with
  | base => exact ⟨early, Nat.le_refl _, before, rfl⟩
  | succ late _ ih =>
      obtain ⟨between, lower, upper, same⟩ := ih
      have next : chain.walk start (late + 1) = chain.walk start (between + 1) := by
        rw [walk, same, walk]
      rcases Nat.lt_or_eq_of_le (show between + 1 ≤ steps by omega) with less | closing
      · exact ⟨between + 1, by omega, less, next⟩
      · refine ⟨early, Nat.le_refl _, before, ?_⟩
        rw [next, closing, stops.reached, again]

theorem Stops.walk_ne_none (stops : Stops chain start stop steps) (before : early < steps)
    (again : chain.walk start early = some stop) (late : Nat) :
    chain.walk start late ≠ none := by
  have defined {middle : Nat} (short : middle ≤ steps) : chain.walk start middle ≠ none := by
    obtain ⟨id, here⟩ := exists_walk_of_le stops.reached short
    simp [here]
  rcases Nat.lt_or_ge late early with less | after
  · exact defined (by omega)
  · obtain ⟨between, _, upper, same⟩ := stops.repeats before again after
    rw [same]
    exact defined (Nat.le_of_lt upper)

/-- The contexts in front of the one that the walk comes back to lie on no cycle. -/
theorem Stops.not_onCycle (stops : Stops chain start stop steps) (before : early < steps)
    (again : chain.walk start early = some stop) {first id : Nat} (front : first < early)
    (here : chain.walk start first = some id) : ¬chain.OnCycle id := by
  intro cycle
  have back : chain.Leads stop id :=
    cycle.leads_back (leads_of_walk (Nat.le_of_lt front) here again)
  obtain ⟨late, after, there⟩ := exists_walk_of_leads again back
  obtain ⟨between, lower, upper, same⟩ := stops.repeats before again after
  exact stops.distinct first between id (by omega) upper here (same.symm.trans there)

end Stops

/-- The walk is in a context after a number of steps, and this is its last context if the walk is
finite, and otherwise its first context that lies on a cycle. -/
structure Ends (chain : Chain) (start stop steps : Nat) : Prop where
  reached : chain.walk start steps = some stop
  last : (∃ late, chain.walk start late = none) → chain.walk start (steps + 1) = none
  cyclic : (∀ late, chain.walk start late ≠ none) → chain.OnCycle stop ∧
    ∀ early < steps, ∀ id, chain.walk start early = some id → ¬chain.OnCycle id

/-- Following links ends after no more steps than there are links. -/
theorem exists_ends_terminal (chain : Chain) (start : Nat) :
    ∃ steps ≤ chain.links.length, chain.Ends start (chain.terminal start) steps := by
  obtain ⟨steps, short, stops⟩ := exists_stops chain.links start
  rcases stops.closed with ends | ⟨early, before, again⟩
  · have last : chain.walk start (steps + 1) = none := (walk_succ stops.reached).trans ends
    exact ⟨steps, short, stops.reached, fun _ => last, fun endless => absurd last (endless _)⟩
  · refine ⟨early, by omega, again, fun finite => ?_, fun _ => ⟨?_, fun first front id => ?_⟩⟩
    · obtain ⟨late, ended⟩ := finite
      exact absurd ended (stops.walk_ne_none before again late)
    · exact onCycle_of_walk before again stops.reached
    · exact stops.not_onCycle before again front

theorem Forward.lt_of_transGen {chain : Chain} (forward : Forward chain.links) {source target : Nat}
    (leads : Relation.TransGen (fun source target => chain.next? source = some target) source
      target) : source < target := by
  induction leads with
  | single step => exact forward.lt step
  | tail _ step ih => exact ih.trans (forward.lt step)

/-- Where links lead to later contexts only, every walk ends. -/
theorem Forward.walk_ends {chain : Chain} (forward : Forward chain.links) (start : Nat) :
    (∃ steps, chain.walk start steps = none) ∧ chain.next? (chain.terminal start) = none := by
  obtain ⟨steps, _, ends⟩ := chain.exists_ends_terminal start
  have finite : ∃ late, chain.walk start late = none := by
    by_contra never
    have cycle := (ends.cyclic fun late ended => never ⟨late, ended⟩).1
    exact Nat.lt_irrefl _ (forward.lt_of_transGen cycle)
  exact ⟨finite, (walk_succ ends.reached).symm.trans (ends.last finite)⟩

end Chain

/-! ## Continuations in a compilation -/

/-- A spawn of a group holds a reference to it. -/
theorem Trigger.target_of_spawn {target : Reference} {delay : Double} {object : Object}
    (isGroup : target.domain = .group) (made : spawn target delay = .ok object) :
    object.get? Field.target = some (.reference target) := by
  rw [spawn_of_group isGroup] at made
  obtain rfl := Except.ok.inj made
  cases delay.isPositive <;> rfl

namespace Compiler

/-- One context was opened in another, which holds a spawn of its group. -/
def Spawns (compiler : Compiler) (source target : Nat) : Prop :=
  ∃ (opener opened : Context) (spawn : Object),
    compiler.context? source = some opener ∧ compiler.context? target = some opened ∧
    opened.parent = some source ∧ spawn ∈ opener.objects ∧
    spawn.type? = some ObjectType.spawn ∧
    spawn.get? Field.target = some (.reference opened.group)

/-- Every continuation was opened in the context that it continues and is spawned there. -/
def Threaded (compiler : Compiler) : Prop :=
  ∀ link ∈ compiler.chain.links, compiler.Spawns link.1 link.2

/-- Contexts that only gain objects go on spawning. -/
theorem Spawns.of_extends {before after : Compiler} {source target : Nat}
    (spawns : before.Spawns source target) (growing : before.Extends after) :
    after.Spawns source target := by
  obtain ⟨opener, opened, spawn, holds, owns, parent, member, type, aims⟩ := spawns
  obtain ⟨more, holding⟩ := growing source opener holds
  obtain ⟨others, owning⟩ := growing target opened owns
  exact ⟨_, _, spawn, holding, owning, parent, List.mem_append_left more member, type, aims⟩

theorem LoopStart.extends {before : Compiler} {condition : Condition}
    (start : LoopStart before condition) : before.Extends start.prepared :=
  (((opens_of_openContext start.opensCheck).extends.trans
    (opens_of_openContext start.opensInner).extends).trans
      (extends_addTo _ _ _)).trans (extends_addTo _ _ _)

theorem Threaded.of_extends {before after : Compiler} (threaded : before.Threaded)
    (chain : after.chain = before.chain) (growing : before.Extends after) : after.Threaded := by
  intro link member
  rw [chain] at member
  exact (threaded link member).of_extends growing

/-- A context opened in the current one, and spawned there. -/
theorem Opens.spawns {before after : Compiler} {name : String} {opened : Opened}
    (opens : Opens before name opened after) (present : before.current < before.contexts.length)
    {seconds : Double} {object : Object} (made : Trigger.spawn opened.group seconds = .ok object) :
    (after.add object).Spawns before.current opened.id := by
  have current : after.current = before.current := by simp [Compiler.current, opens.stack]
  obtain ⟨opener, holds⟩ : ∃ opener, after.context? before.current = some opener := by
    refine ⟨_, List.getElem?_eq_getElem ?_⟩
    rw [opens.length]
    omega
  have owns : after.context? opened.id =
      some ⟨name, opened.group, [], some before.current⟩ := by
    rw [context?, opens.contexts, opens.id]
    simp
  refine ⟨{ opener with objects := opener.objects ++ [object] },
    ⟨name, opened.group, [], some before.current⟩, object, ?_, ?_, rfl, by simp,
    Trigger.type?_of_spawn opens.domain made, Trigger.target_of_spawn opens.domain made⟩
  · rw [add, current, context?_addTo_self, holds]
    rfl
  · rw [add, current, context?_addTo_of_ne _ _ (by rw [opens.id]; omega)]
    exact owns

end Compiler

/-- The run advances and keeps every continuation spawned by the context that it continues. -/
structure Run.Threads (before after : Run) : Prop extends Run.Advances before after where
  threaded : before.compiler.Ordered → before.compiler.Threaded → after.compiler.Threaded

namespace Build

open Run in
theorem threads_of_extends {run : Run} {compiler : Compiler}
    (advances : Advances run (run.withCompiler compiler))
    (chain : compiler.chain = run.compiler.chain) (growing : run.compiler.Extends compiler) :
    Threads run (run.withCompiler compiler) :=
  ⟨advances, fun _ threaded => threaded.of_extends chain growing⟩

open Run in
/-- What a body threads in a context that it enters stays so when the context is left. -/
theorem threads_of_scope {run after : Run} {prepared : Compiler} {id : Nat}
    (fills : run.compiler.Fills prepared) (growing : run.compiler.Extends prepared)
    (valid : id < prepared.contexts.length)
    (inside : Threads (run.withCompiler (prepared.enter id)) after) : Threads run after.leave := by
  refine ⟨(Restores.of_scope fills valid inside.toAdvances).toAdvances, fun ordered threaded => ?_⟩
  have entered : (prepared.enter id).Threaded := threaded.of_extends fills.chain growing
  exact inside.threaded ((ordered.of_fills fills).enter valid) entered

open Run in
theorem threads_scopes : Scopes Threads Threads fun _ => True := by
  have advances := restores_scopes.inner
  have looped {run after : Run} {condition : Condition} (start : run.compiler.LoopStart condition)
      (inside : Threads (run.withCompiler (start.prepared.enter start.inner.id)) after) :
      Threads run after.leave := by
    refine threads_of_scope start.fills start.extends ?_ inside
    rw [start.inner_id, start.length_prepared]
    omega
  have same {run : Run} {compiler : Compiler} (kept : Advances run (run.withCompiler compiler))
      (chain : compiler.chain = run.compiler.chain)
      (contexts : compiler.contexts = run.compiler.contexts) :
      Threads run (run.withCompiler compiler) :=
    threads_of_extends kept chain (Compiler.extends_of_contexts contexts)
  have joined {first second third : Run} (one : Threads first second) (two : Threads second third) :
      Threads first third :=
    ⟨one.toAdvances.trans two.toAdvances, fun ordered threaded =>
      two.threaded (one.ordered ordered) (one.threaded ordered threaded)⟩
  exact
    { widen := id
      refl := fun run => ⟨.refl run, fun _ threaded => threaded⟩
      trans := joined
      transInner := joined
      name := fun run bindings => ⟨advances.name run bindings, fun _ threaded => threaded⟩
      next := fun run domain drawn => same (advances.next run domain drawn) rfl rfl
      reserve := fun run domain value => same (advances.reserve run domain value) rfl rfl
      nextItem := fun run => same (advances.nextItem run) rfl rfl
      reserveItem := fun run item => same (advances.reserveItem run item) rfl rfl
      opening := fun run _ _ _ opens =>
        threads_of_extends (advances.opening run opens) opens.chain opens.extends
      append := fun run object =>
        threads_of_extends (advances.append run object) rfl (Compiler.extends_addTo _ _ _)
      appendGlobal := fun run object =>
        threads_of_extends (advances.appendGlobal run object) rfl (Compiler.extends_addTo _ _ _)
      scope := fun opens inside =>
        threads_of_scope opens.fills opens.extends (by rw [opens.id, opens.length]; omega) inside
      failing := looped
      closing := fun start next inside =>
        have closed := looped start inside
        ⟨advances.closing start next inside.toAdvances, fun ordered threaded =>
          (closed.threaded ordered threaded).of_extends rfl (Compiler.extends_addTo _ _ _)⟩ }

/-- A wait continues the current context in one that is opened and spawned there. -/
theorem threads_wait (seconds : Double) : Keeps Run.Threads (wait seconds) := by
  intro run
  refine ⟨advances_wait seconds run, fun ordered threaded => ?_⟩
  rcases outcome_wait seconds run with ⟨error, failed⟩ | ⟨opened, next, object, made, spawn, ended⟩
  · rw [failed]
    exact threaded
  · have opens := Compiler.opens_of_openContext made
    have added : (next.add object).Threaded :=
      threaded.of_extends opens.chain (opens.extends.trans (Compiler.extends_addTo _ _ _))
    rw [ended]
    exact List.forall_mem_cons.2 ⟨opens.spawns ordered.current_lt spawn, added⟩

theorem threads_laws :
    Laws (fun _ => Keeps Run.Threads) (fun _ => Keeps Run.Threads) (fun _ => True) :=
  threads_scopes.moving_laws
    (fun run _ valid => ⟨Run.Advances.switchTo run valid, fun _ threaded => threaded⟩)
    (fun valid inside => threads_of_scope ⟨rfl, rfl, Nat.le_refl _⟩
      (Compiler.extends_of_contexts rfl) valid inside)
    threads_wait fun _ _ _ => trivial

theorem threads_record (statement : Statement) :
    Keeps Run.Threads (record statement statement.exec) := by
  have recorded (statement : Statement) (kept : Keeps Run.Threads statement.exec) :
      Keeps Run.Threads (record statement statement.exec) :=
    fun run => ⟨advances_record statement (advances_exec statement) run, (kept run).threaded⟩
  exact recorded statement (threads_laws.exec_everywhere recorded
    (Statement.everywhere_of_forall (fun _ => trivial) statement))

end Build

theorem Run.Reachable.threaded {run : Run} (reachable : run.Reachable) : run.compiler.Threaded := by
  induction reachable with
  | start options names => exact List.forall_mem_nil _
  | step statement before ih => exact (Build.threads_record statement _).threaded before.ordered ih
  | name name binding _ ih => exact ih
  | slot _ ih => exact ih.of_extends rfl (Compiler.extends_of_contexts rfl)
  | opening _ made ih =>
      have opens := Compiler.opens_of_openContext made
      exact ih.of_extends opens.chain opens.extends
  | append id object _ ih => exact ih.of_extends rfl (Compiler.extends_addTo _ id object)
  | enter _ valid ih => exact ih

/-- In a chain of any links, of which the latest of each context counts, following links from a
context ends after no more steps than there are links.  It ends in the last context of the walk if
the walk is finite, and otherwise in the first one that lies on a cycle.  In a compilation a
continuation is a later context that was opened in the context it continues, where a spawn activates
it.  So every walk is finite, and it ends in a context without a continuation. -/
theorem walks_end_where_following_stops (calls : List (Nat × Nat)) (start : Nat) (run : Run)
    (reachable : run.Reachable) :
    (∀ source, (Chain.ofLinks calls).next? source = calls.reverse.lookup source) ∧
    (∃ steps ≤ calls.length,
      (Chain.ofLinks calls).Ends start ((Chain.ofLinks calls).terminal start) steps) ∧
    (∀ source target, run.compiler.chain.next? source = some target →
      source < target ∧ run.compiler.Spawns source target) ∧
    (∃ steps, run.compiler.chain.walk start steps = none) ∧
    run.compiler.chain.next? (run.compiler.chain.terminal start) = none := by
  have links := Chain.links_ofLinks calls
  have forward := reachable.ordered.isForward
  refine ⟨fun source => by rw [Chain.next?, links], ?_, fun source target found => ?_,
    forward.walk_ends start⟩
  · have ends := (Chain.ofLinks calls).exists_ends_terminal start
    rwa [links, List.length_reverse] at ends
  · obtain ⟨before, after, split, _⟩ := List.lookup_eq_some_iff.1 found
    exact ⟨forward.lt found, reachable.threaded (source, target) (by simp [split])⟩

/-- A function that waits twice and is continued anew, in itself and then in the middle of that. -/
def Script.rethreaded : List Statement :=
  [.function none (some "f") [.wait .zero, .wait .zero],
    .extend (.named "f") [.wait .zero, .extend (.named "f") [.wait .zero]]]

/-- The walk from context one goes round in a cycle that begins with context two. -/
theorem walks_end_in_rethreaded :
    (Run.blank.steps Script.rethreaded).Reachable ∧
    (∃ steps ≤ 5, (Chain.ofLinks [(1, 3), (3, 4), (4, 2), (2, 3), (1, 2)]).Ends 1 2 steps) ∧
    (Run.blank.steps Script.rethreaded).compiler.chain.links = [(1, 5), (1, 4), (2, 3), (1, 2)] ∧
    (Run.blank.steps Script.rethreaded).compiler.Spawns 1 5 ∧
    (Run.blank.steps Script.rethreaded).compiler.chain.next?
      ((Run.blank.steps Script.rethreaded).compiler.chain.terminal 1) = none := by
  have reachable : (Run.blank.steps Script.rethreaded).Reachable :=
    Run.Reachable.steps (.start _ _) _
  have stop : (Chain.ofLinks [(1, 3), (3, 4), (4, 2), (2, 3), (1, 2)]).terminal 1 = 2 := by
    decide +kernel
  have links : (Run.blank.steps Script.rethreaded).compiler.chain.links =
      [(1, 5), (1, 4), (2, 3), (1, 2)] := by decide +kernel
  obtain ⟨_, ends, spawned, _, last⟩ :=
    walks_end_where_following_stops [(1, 3), (3, 4), (4, 2), (2, 3), (1, 2)] 1 _ reachable
  rw [stop] at ends
  refine ⟨reachable, ends, links, (spawned 1 5 ?_).2, last⟩
  rw [Chain.next?, links]
  rfl

end TriggerGraph
