import TriggerGraph.Proofs.Arithmetic
import TriggerGraph.Proofs.LoopTail
import TriggerGraph.Proofs.Strands

/-!
# Branching on a counter

A dispatch compiles its body once for each value, each time into a context of its own, and compares
the counter with the value in the context that it was called in.  Whatever the body does, as long as
it appends nothing there itself, the calling context gets a table: one comparison for each value, in
order, that activates the context in which the body was run for that value.
-/

namespace TriggerGraph

/-! ## What comparisons do -/

/-- The fields of a trigger stand as they were given, behind its type. -/
theorem Trigger.get?_make {type : UInt32} {fields : List (String × Value)} {object : Object}
    (made : make type fields = object) {keys : List String} (named : fields.map Prod.fst = keys)
    (distinct : (Field.objectId :: keys).Nodup) (key : String) :
    object.get? key = ((Field.objectId, Value.ofUInt32 type) :: fields).lookup key := by
  have kept : ((Field.objectId, Value.ofUInt32 type) :: fields |>.map Prod.fst).Nodup := by
    rwa [List.map_cons, named]
  rw [← made]
  exact congrArg (List.lookup key) (Object.fields_ofFields kept)

namespace Store

/-- One side of an item comparison: a counter, or zero if none is given, times or plus a number. -/
def side (store : Store) (object : Object) (slot kind op number : String) : ℚ :=
  let operand := if (object.get? slot).isSome then store (object.cell slot kind) else 0
  if object.amount op = Trigger.multiplyCode then operand * object.amount number
  else operand + object.amount number

/-- Whether the sides of an item comparison compare, by the code of the comparison. -/
def sidesCompare (code left right : ℚ) : Bool :=
  if code = 0 then left = right
  else if code = 1 then right < left
  else if code = 3 then left < right
  else false

/-- Whether the condition of an object holds. -/
def meets (store : Store) (object : Object) : Bool :=
  if object.type? = some ObjectType.instantCount then
    object.flag Field.activateGroup && Game.compares (object.amount Field.comparison)
      (store ⟨object.id Field.item, .item⟩) (object.amount Field.count)
  else if object.type? = some ObjectType.itemCompare then
    sidesCompare (object.amount Field.compareOp)
      (store.side object Field.firstItem Field.firstType Field.firstOp Field.factor)
      (store.side object Field.secondItem Field.secondType Field.secondOp Field.secondFactor)
  else false

/-- The group that a comparison activates. -/
def activated? (store : Store) (object : Object) : Option UInt32 :=
  if store.meets object then some (object.id Field.target) else none

theorem sidesCompare_compareCode (comparator : Comparator) (left right : ℚ) :
    sidesCompare ((Trigger.compareCode comparator : Int) : ℚ) left right =
      comparator.holds left right := by
  cases comparator <;> simp [sidesCompare, Trigger.compareCode, Comparator.holds]

theorem activated?_instantCount (store : Store) {item : UInt32} {count : Double}
    {comparator : Comparator} {target : Reference} {object : Object}
    (isGroup : target.domain = .group)
    (made : Trigger.instantCount item count comparator target = .ok object) :
    store.activated? object =
      if comparator.holds (store ⟨item, .item⟩) count.toRat then some target.value else none := by
  rw [Trigger.instantCount_of_group isGroup] at made
  have get := Trigger.get?_make (Except.ok.inj made)
    (show _ = [Field.item, Field.count, Field.comparison, Field.target, Field.activateGroup] from
      rfl) (by decide)
  have type : object.type? = some ObjectType.instantCount :=
    Object.type?_of_get? (get Field.objectId)
  have flag : object.flag Field.activateGroup = true :=
    Object.flag_of_true (get Field.activateGroup)
  have slot : object.id Field.item = item := Object.id_of_get? (get Field.item)
  have amount : object.amount Field.count = count.toRat :=
    Object.amount_of_number (get Field.count)
  have code : object.amount Field.comparison = (Trigger.countCode comparator : Int) :=
    Object.amount_of_ofInt (get Field.comparison) (by cases comparator <;> decide)
  have aim : object.id Field.target = target.value := Object.id_of_reference (get Field.target)
  rw [activated?, meets, if_pos type, flag, slot, amount, code, Game.compares_countCode, aim,
    Bool.true_and]

theorem activated?_itemCompare (store : Store) {counter : Counter} {value : Double}
    {comparator : Comparator} {target : Reference} {object : Object}
    (isGroup : target.domain = .group)
    (made : Trigger.itemCompare counter value comparator target = .ok object) :
    store.activated? object =
      if comparator.holds (store counter) value.toRat then some target.value else none := by
  rw [Trigger.itemCompare_of_group isGroup] at made
  have get := Trigger.get?_make (Except.ok.inj made)
    (show _ = [Field.firstItem, Field.firstType, Field.factor, Field.firstOp, Field.secondFactor,
      Field.secondOp, Field.compareOp, Field.target] from rfl) (by decide)
  have type : object.type? = some ObjectType.itemCompare :=
    Object.type?_of_get? (get Field.objectId)
  have other : object.type? ≠ some ObjectType.instantCount := by
    rw [type]
    decide
  have code : object.amount Field.compareOp = (Trigger.compareCode comparator : Int) :=
    Object.amount_of_ofInt (get Field.compareOp) (by cases comparator <;> decide)
  have aim : object.id Field.target = target.value := Object.id_of_reference (get Field.target)
  -- the left side is the counter times one, and the right side nothing plus the value
  have left : store.side object Field.firstItem Field.firstType Field.firstOp Field.factor =
      store counter := by
    have cell : object.cell Field.firstItem Field.firstType = counter :=
      Object.cell_of_get? (get Field.firstItem) (get Field.firstType)
    have factor : object.amount Field.factor = (1 : Int) :=
      Object.amount_of_ofInt (get Field.factor) (by decide)
    have times : object.amount Field.firstOp = Trigger.multiplyCode :=
      Object.amount_of_ofInt (get Field.firstOp) (by decide)
    have present : (object.get? Field.firstItem).isSome = true := by
      rw [get]
      rfl
    rw [side, if_pos present, if_pos times, cell, factor, Int.cast_one, mul_one]
  have right : store.side object Field.secondItem Field.secondType Field.secondOp
      Field.secondFactor = value.toRat := by
    have number : object.amount Field.secondFactor = value.toRat :=
      Object.amount_of_number (get Field.secondFactor)
    have plus : object.amount Field.secondOp = Trigger.addCode :=
      Object.amount_of_ofInt (get Field.secondOp) (by decide)
    have absent : ¬(object.get? Field.secondItem).isSome = true := by
      rw [get]
      exact Bool.false_ne_true
    have apart : (Trigger.addCode : ℚ) ≠ Trigger.multiplyCode := by
      simp [Trigger.addCode, Trigger.multiplyCode]
    rw [side, if_neg absent, plus, if_neg apart, number, zero_add]
  rw [activated?, meets, if_neg other, if_pos type, code, left, right, sidesCompare_compareCode,
    aim]

/-- The comparison of a counter of either kind activates its target if the condition holds. -/
theorem activated?_compare (store : Store) {condition : Condition} {target : Reference}
    {object : Object} (isGroup : target.domain = .group)
    (made : Trigger.compare condition target = .ok object) :
    store.activated? object =
      if condition.comparator.holds (store condition.counter) condition.threshold.toRat then
        some target.value
      else none := by
  obtain ⟨⟨item, kind⟩, comparator, threshold⟩ := condition
  cases kind with
  | item => exact store.activated?_instantCount isGroup made
  | timer => exact store.activated?_itemCompare isGroup made

end Store

/-! ## Bodies -/

namespace Build

theorem exists_steps_of_execAll (body : List Statement) (run : Run) :
    ∃ script, (outcome (Statement.execAll body) run).2 = run.steps script := by
  induction body generalizing run with
  | nil => exact ⟨[], rfl⟩
  | cons statement rest ih =>
      cases first : (outcome (record statement statement.exec) run).1 with
      | error error =>
          rw [outcome_execAll_of_stop first]
          exact ⟨[statement], rfl⟩
      | ok _ =>
          rw [outcome_execAll_of_step first]
          obtain ⟨script, ended⟩ := ih (run.step statement)
          exact ⟨statement :: script, ended⟩

/-- The action works through statements: it may look at the run, bind names, choose statements and
end with any result, but what it does to the compilation a script can do. -/
def Scripted (action : Build Unit) : Prop :=
  ∀ run : Run, ∃ bindings script, (outcome action run).2 = Run.steps { run with bindings } script

theorem scripted_body (name : Option String) (binding : Binding) (body : List Statement) :
    Scripted (do bindTo name binding; Statement.execAll body) := by
  intro run
  cases name with
  | none =>
      obtain ⟨script, ended⟩ := exists_steps_of_execAll body run
      exact ⟨run.bindings, script, ended⟩
  | some name =>
      exact ⟨(name, binding) :: run.bindings, exists_steps_of_execAll body _⟩

theorem Scripted.reaches {action : Build Unit} (scripted : Scripted action) :
    Keeps Run.Reaches action := by
  intro run
  obtain ⟨bindings, script, ended⟩ := scripted run
  rw [ended]
  exact (Relation.ReflTransGen.single (.name run bindings)).trans (Run.reaches_steps _ script)

theorem Scripted.advances {action : Build Unit} (scripted : Scripted action) :
    Keeps Run.Advances action := by
  have steps (script : List Statement) (run : Run) : run.Advances (run.steps script) := by
    induction script generalizing run with
    | nil => exact .refl run
    | cons statement rest ih =>
        exact (advances_record statement (advances_exec statement) run).trans (ih _)
  intro run
  obtain ⟨bindings, script, ended⟩ := scripted run
  rw [ended]
  exact (restores_scopes.name run bindings).toAdvances.trans (steps script _)

end Build

/-! ## Branches -/

/-- One branch of a dispatch. -/
structure Branch where
  /-- The value that the counter is compared with. -/
  value : Int64
  /-- The context opened for the body. -/
  opened : Opened
  /-- The run in which the body began. -/
  entered : Run
  /-- The run in which the body returned. -/
  left : Run
  /-- The comparison. -/
  test : Object

/-- The run after the comparison has been appended. -/
def Branch.after (branch : Branch) : Run :=
  branch.left.leave.withCompiler (branch.left.leave.compiler.add branch.test)

namespace Build

variable {counter : Counter} {body : Int64 → Build Unit}

/-- The branch is made in a run: a context is opened, the body runs there for the value and returns,
and the counter is tested for the value, which activates the context. -/
structure Makes (counter : Counter) (body : Int64 → Build Unit) (run : Run) (branch : Branch) :
    Prop where
  opens : ∃ next, run.compiler.openAnonymous = (.ok branch.opened, next) ∧
    branch.entered = run.withCompiler (next.enter branch.opened.id)
  returns : outcome (body branch.value) branch.entered = (.ok (), branch.left)
  tests : Trigger.compare ⟨counter, .equal, .ofInt branch.value.toInt⟩ branch.opened.group =
    .ok branch.test

/-- Branches are made one after the other, from a run to a later one. -/
inductive Branches (counter : Counter) (body : Int64 → Build Unit) : Run → List Branch → Run → Prop
  where
  | nil (run : Run) : Branches counter body run [] run
  | cons {run after : Run} {branch : Branch} {rest : List Branch}
      (makes : Makes counter body run branch)
      (onwards : Branches counter body branch.after rest after) :
      Branches counter body run (branch :: rest) after

/-- A function fails because its context cannot be opened or because its body fails there. -/
theorem outcome_function_of_error {action : Build Unit} {run after : Run} {error : CompileError}
    (failed : outcome (function fun _ => action) run = (.error error, after)) :
    run.compiler.openAnonymous = (.error error, run.compiler) ∧ after = run ∨
    ∃ opened next left, run.compiler.openAnonymous = (.ok opened, next) ∧
      outcome action (run.withCompiler (next.enter opened.id)) = (.error error, left) ∧
      after = left.leave := by
  rcases run.compiler.openAnonymous_ends with ⟨cause, refused⟩ | ⟨opened, next, made⟩
  · have ended : outcome (function fun _ => action) run = (.error cause, run) :=
      outcome_bind_of_error (outcome_commit_of_error refused)
    rw [ended] at failed
    cases failed
    exact .inl ⟨refused, rfl⟩
  · rw [outcome_function_of_opens _ made] at failed
    rcases returned : outcome action (run.withCompiler (next.enter opened.id)) with ⟨_ | _, left⟩
    · rw [returned] at failed
      cases failed
      exact .inr ⟨opened, next, left, made, returned, rfl⟩
    · rw [returned] at failed
      cases failed

/-- The body for a value fails, or its context cannot be opened; or the branch is made. -/
theorem makes_or_fails (counter : Counter) (body : Int64 → Build Unit) (value : Int64) (run : Run) :
    (∃ error after, outcome (function fun _ => body value) run = (.error error, after)) ∨
    ∃ branch : Branch, branch.value = value ∧ Makes counter body run branch := by
  rcases outcome_function (fun _ => body value) run with
    ⟨error, failed⟩ | ⟨opened, next, made, ended⟩
  · exact .inl ⟨error, run, failed⟩
  · rcases returned : outcome (body value) (run.withCompiler (next.enter opened.id)) with
      ⟨error | ⟨⟩, left⟩
    · rw [returned] at ended
      exact .inl ⟨error, left.leave, ended⟩
    · obtain ⟨test, tests⟩ := Trigger.compare_of_group (Compiler.opens_of_openContext made).domain
        ⟨counter, .equal, .ofInt value.toInt⟩
      exact .inr ⟨⟨value, opened, _, left, test⟩, rfl, ⟨next, made, rfl⟩, returned, tests⟩

namespace Makes

variable {run : Run} {branch : Branch}

theorem outcome_function (makes : Makes counter body run branch) :
    outcome (function fun _ => body branch.value) run =
      (.ok branch.opened.group, branch.left.leave) := by
  obtain ⟨next, made, entered⟩ := makes.opens
  rw [outcome_function_of_opens _ made, ← entered, makes.returns]

theorem outcome_compare (makes : Makes counter body run branch) :
    outcome (compare ⟨counter, .equal, .ofInt branch.value.toInt⟩ branch.opened.group)
      branch.left.leave = (.ok (), branch.after) :=
  outcome_addMade_of_ok makes.tests _

theorem outcome_dispatch (makes : Makes counter body run branch) (values : List Int64) :
    outcome (dispatch counter body (branch.value :: values)) run =
      outcome (dispatch counter body values) branch.after := by
  rw [dispatch, outcome_bind_of_ok makes.outcome_function,
    outcome_bind_of_ok makes.outcome_compare]

end Makes

/-- A dispatch makes branches for its values, one after the other, until a branch fails. -/
theorem exists_branches (counter : Counter) (body : Int64 → Build Unit) (values : List Int64)
    (run : Run) :
    ∃ branches moment rest, Branches counter body run branches moment ∧
      values = branches.map (·.value) ++ rest ∧
      (rest = [] ∧ outcome (dispatch counter body values) run = (.ok (), moment) ∨
        ∃ value later error after, rest = value :: later ∧
          outcome (function fun _ => body value) moment = (.error error, after) ∧
          outcome (dispatch counter body values) run = (.error error, after)) := by
  induction values generalizing run with
  | nil => exact ⟨[], run, [], .nil run, rfl, .inl ⟨rfl, rfl⟩⟩
  | cons value values ih =>
      rcases makes_or_fails counter body value run with
        ⟨error, after, failed⟩ | ⟨branch, rfl, makes⟩
      · exact ⟨[], run, value :: values, .nil run, rfl,
          .inr ⟨value, values, error, after, rfl, failed, outcome_bind_of_error failed⟩⟩
      · obtain ⟨branches, moment, rest, onwards, split, ended⟩ := ih branch.after
        refine ⟨branch :: branches, moment, rest, .cons makes onwards, by rw [split]; rfl, ?_⟩
        rwa [makes.outcome_dispatch]

end Build

/-! ## The table -/

/-- The objects of a context. -/
def Compiler.objects? (compiler : Compiler) (id : Nat) : Option (List Object) :=
  (compiler.context? id).map (·.objects)

/-- A context that has gained no objects has not changed. -/
theorem Compiler.Extends.context?_eq {before after : Compiler} (growing : before.Extends after)
    {id : Nat} {context : Context} (found : before.context? id = some context)
    (same : after.objects? id = before.objects? id) : after.context? id = some context := by
  obtain ⟨more, now⟩ := growing id context found
  have none : more = [] := by simpa [objects?, found, now] using same
  rw [now, none, List.append_nil]

namespace Build

/-- The runs of the body for the values, one after the other up to the first that fails, append
nothing to a context. -/
def staysAside (counter : Counter) (body : Int64 → Build Unit) (id : Nat) : List Int64 → Run → Bool
  | [], _ => true
  | value :: values, run =>
      let ended := outcome (function fun _ => body value) run
      decide (ended.2.compiler.objects? id = run.compiler.objects? id) &&
        match ended.1 with
        | .error _ => true
        | .ok group => staysAside counter body id values
            (outcome (compare ⟨counter, .equal, .ofInt value.toInt⟩ group) ended.2).2

theorem objects?_of_staysAside {counter : Counter} {body : Int64 → Build Unit} {id : Nat}
    {value : Int64} {values : List Int64} {run : Run}
    (aside : staysAside counter body id (value :: values) run = true) :
    (outcome (function fun _ => body value) run).2.compiler.objects? id =
      run.compiler.objects? id := by
  rw [staysAside, Bool.and_eq_true] at aside
  exact of_decide_eq_true aside.1

namespace Makes

variable {counter : Counter} {body : Int64 → Build Unit} {run : Run} {branch : Branch}

theorem staysAside_after (makes : Makes counter body run branch) {id : Nat} {values : List Int64}
    (aside : staysAside counter body id (branch.value :: values) run = true) :
    branch.left.leave.compiler.objects? id = run.compiler.objects? id ∧
      staysAside counter body id values branch.after = true := by
  rw [staysAside, Bool.and_eq_true, makes.outcome_function] at aside
  refine ⟨of_decide_eq_true aside.1, ?_⟩
  simpa only [makes.outcome_compare] using aside.2

variable (makes : Makes counter body run branch) (scripted : Scripted (body branch.value))
include makes

theorem id_eq : branch.opened.id = run.compiler.contexts.length := by
  obtain ⟨next, made, _⟩ := makes.opens
  exact (Compiler.opens_of_openContext made).id

theorem isGroup : branch.opened.group.domain = .group := by
  obtain ⟨next, made, _⟩ := makes.opens
  exact (Compiler.opens_of_openContext made).domain

/-- The comparison activates the context exactly if the counter has the value. -/
theorem activated?_test (small : branch.value.toInt.natAbs ≤ 2 ^ 53) (store : Store) :
    store.activated? branch.test =
      if store counter = branch.value.toInt then some branch.opened.group.value else none := by
  rw [store.activated?_compare makes.isGroup makes.tests]
  simp [Comparator.holds, Double.toRat_ofInt small]

include scripted

theorem restores : Run.Restores run branch.left.leave := by
  have kept : Keeps Run.Restores (function fun _ => body branch.value) :=
    restores_scopes.function fun _ => scripted.advances
  simpa only [makes.outcome_function] using kept run

theorem reaches_leave : run.Reaches branch.left.leave := by
  have kept : Keeps Run.Reaches (function fun _ => body branch.value) :=
    reaches_scopes.function fun _ => scripted.reaches
  simpa only [makes.outcome_function] using kept run

theorem reaches : run.Reaches branch.after :=
  (makes.reaches_leave scripted).tail (.append _ _ branch.test)

theorem current_leave : branch.left.leave.compiler.current = run.compiler.current := by
  rw [Compiler.current, (makes.restores scripted).stack, Compiler.current]

theorem current_after : branch.after.compiler.current = run.compiler.current :=
  makes.current_leave scripted

theorem length_lt : run.compiler.contexts.length < branch.after.compiler.contexts.length := by
  obtain ⟨next, made, entered⟩ := makes.opens
  have opened := (Compiler.opens_of_openContext made).length
  have grows := (scripted.advances branch.entered).grows
  rw [makes.returns, entered] at grows
  change next.contexts.length ≤ branch.left.compiler.contexts.length at grows
  change _ < (branch.left.leave.compiler.add branch.test).contexts.length
  rw [Compiler.add, Compiler.length_addTo]
  change _ < branch.left.compiler.contexts.length
  omega

/-- The context of the branch was opened in the calling one, and keeps its group. -/
theorem exists_context : ∃ name objects, branch.after.compiler.context? branch.opened.id =
    some ⟨name, branch.opened.group, objects, some run.compiler.current⟩ := by
  obtain ⟨next, made, entered⟩ := makes.opens
  have opens := Compiler.opens_of_openContext made
  have found : branch.entered.compiler.context? branch.opened.id =
      some ⟨run.compiler.names run.compiler.contexts.length, branch.opened.group, [],
        some run.compiler.current⟩ := by
    rw [entered, opens.id]
    change next.contexts[_]? = _
    rw [opens.contexts, List.getElem?_concat_length]
  have inside : branch.entered.Reaches branch.left := by
    have kept := scripted.reaches branch.entered
    rwa [makes.returns] at kept
  have left : branch.entered.Reaches branch.after :=
    (inside.tail (.leave _)).tail (.append _ _ branch.test)
  obtain ⟨more, now⟩ := left.extends _ _ found
  exact ⟨_, _, now⟩

/-- If the body stays aside, the calling context gains the comparison and nothing else. -/
theorem context?_after {caller : Context}
    (called : run.compiler.context? run.compiler.current = some caller)
    (aside : branch.left.leave.compiler.objects? run.compiler.current =
      run.compiler.objects? run.compiler.current) :
    branch.after.compiler.context? run.compiler.current =
      some { caller with objects := caller.objects ++ [branch.test] } := by
  have kept := (makes.reaches_leave scripted).extends.context?_eq called aside
  change (branch.left.leave.compiler.addTo _ branch.test).context? _ = _
  rw [makes.current_leave scripted, Compiler.context?_addTo_self, kept]
  rfl

end Makes

namespace Branches

variable {counter : Counter} {body : Int64 → Build Unit} {run moment : Run}
  {branches : List Branch} (made : Branches counter body run branches moment)
  (scripted : ∀ value, Scripted (body value))
include made scripted

theorem reaches : run.Reaches moment := by
  induction made with
  | nil run => exact .refl
  | cons makes _ ih => exact (makes.reaches (scripted _)).trans ih

/-- The contexts of the branches are new and numbered in the order of the branches. -/
theorem ids_lt : (branches.map (·.opened.id)).Pairwise (· < ·) ∧
    ∀ branch ∈ branches, run.compiler.contexts.length ≤ branch.opened.id := by
  induction made with
  | nil run => exact ⟨.nil, List.forall_mem_nil _⟩
  | @cons run _ branch rest makes _ ih =>
      obtain ⟨ordered, later⟩ := ih
      have grown := makes.length_lt (scripted _)
      have first := makes.id_eq
      have after (other : Branch) (member : other ∈ rest) :
          run.compiler.contexts.length < other.opened.id := by
        have := later other member
        omega
      refine ⟨?_, List.forall_mem_cons.2 ⟨Nat.le_of_eq first.symm, fun other member =>
        Nat.le_of_lt (after other member)⟩⟩
      rw [List.map_cons, List.pairwise_cons, List.forall_mem_map]
      exact ⟨fun other member => first ▸ after other member, ordered⟩

/-- Every branch was made in between, called from the same context. -/
theorem exists_makes {branch : Branch} (member : branch ∈ branches) :
    ∃ before, Makes counter body before branch ∧
      before.compiler.current = run.compiler.current ∧ branch.after.Reaches moment := by
  induction made with
  | nil run => cases member
  | @cons run _ first rest makes onwards ih =>
      rcases List.mem_cons.1 member with rfl | later
      · exact ⟨run, makes, rfl, onwards.reaches scripted⟩
      · obtain ⟨before, made, current, reached⟩ := ih later
        exact ⟨before, made, current.trans (makes.current_after (scripted _)), reached⟩

/-- The calling context gains one comparison for each branch. -/
theorem context?_moment {caller : Context} {rest : List Int64}
    (called : run.compiler.context? run.compiler.current = some caller)
    (aside : staysAside counter body run.compiler.current (branches.map (·.value) ++ rest) run =
      true) :
    moment.compiler.context? run.compiler.current =
        some { caller with objects := caller.objects ++ branches.map (·.test) } ∧
      staysAside counter body run.compiler.current rest moment = true := by
  induction made generalizing caller with
  | nil run => exact ⟨by simpa using called, aside⟩
  | @cons run _ branch _ makes _ ih =>
      obtain ⟨kept, onwards⟩ := makes.staysAside_after aside
      have current := makes.current_after (scripted _)
      have tested := makes.context?_after (scripted _) called kept
      rw [current] at ih
      obtain ⟨found, further⟩ := ih tested onwards
      refine ⟨?_, further⟩
      rw [found, List.map_cons, List.append_assoc]
      rfl

end Branches
end Build

/-- Whatever the body of a dispatch does through statements, if it appends nothing to the calling
context itself, then this context is current again afterwards and has gained exactly one comparison
for each value, in order, up to the first value for which the body fails.  A comparison activates
its target if the counter has exactly the value, and the target is the context that was opened for
the body to run in for that value.  These contexts are new and opened in the order of the values,
and as long as group ids fit, no other context is activated with them. -/
theorem dispatch_builds_faithful_table (run : Run) (reachable : run.Reachable) (counter : Counter)
    (values : List Int64) (small : ∀ value ∈ values, value.toInt.natAbs ≤ 2 ^ 53)
    (body : Int64 → Build Unit) (scripted : ∀ value, Build.Scripted (body value))
    (aside : Build.staysAside counter body run.compiler.current values run = true)
    (result : Except CompileError Unit) (after : Run)
    (ended : Build.outcome (Build.dispatch counter body values) run = (result, after)) :
    ∃ (caller : Context) (branches : List Branch) (moment : Run) (rest : List Int64),
      run.compiler.context? run.compiler.current = some caller ∧
      Build.Branches counter body run branches moment ∧
      values = branches.map (·.value) ++ rest ∧
      -- the calling context
      after.compiler.stack = run.compiler.stack ∧
      after.compiler.current = run.compiler.current ∧
      after.compiler.context? run.compiler.current =
        some { caller with objects := caller.objects ++ branches.map (·.test) } ∧
      -- the comparisons and their targets
      (∀ branch ∈ branches, ∀ store : Store, store.activated? branch.test =
        if store counter = branch.value.toInt then some branch.opened.group.value else none) ∧
      (∀ branch ∈ branches, run.compiler.contexts.length ≤ branch.opened.id ∧
        ∃ name objects, after.compiler.context? branch.opened.id =
          some ⟨name, branch.opened.group, objects, some run.compiler.current⟩) ∧
      (branches.map (·.opened.id)).Pairwise (· < ·) ∧
      (after.GroupsFit → ∀ branch ∈ branches, ∀ id context,
        after.compiler.context? id = some context →
          context.group.value = branch.opened.group.value → id = branch.opened.id) ∧
      -- the end
      (result = .ok () → rest = [] ∧ after = moment) ∧
      ∀ error, result = .error error → ∃ value later, rest = value :: later ∧
        (moment.compiler.openAnonymous = (.error error, moment.compiler) ∨
          ∃ opened next left, moment.compiler.openAnonymous = (.ok opened, next) ∧
            Build.outcome (body value) (moment.withCompiler (next.enter opened.id)) =
              (.error error, left)) := by
  obtain ⟨branches, moment, rest, made, rfl, ending⟩ :=
    Build.exists_branches counter body values run
  obtain ⟨caller, called⟩ : ∃ caller, run.compiler.context? run.compiler.current = some caller :=
    ⟨_, List.getElem?_eq_getElem reachable.ordered.current_lt⟩
  have restored : Run.Restores run after := by
    have kept := Build.restores_laws.dispatch counter (branches.map (·.value) ++ rest)
      (fun value => (scripted value).advances) run
    rwa [ended] at kept
  have current : after.compiler.current = run.compiler.current := by
    rw [Compiler.current, restored.stack, Compiler.current]
  obtain ⟨tested, further⟩ := made.context?_moment scripted called aside
  rw [ended] at ending
  -- a branch that fails appends nothing to the calling context
  have closing : moment.Reaches after ∧
      after.compiler.objects? run.compiler.current =
        moment.compiler.objects? run.compiler.current := by
    rcases ending with ⟨_, same⟩ | ⟨value, later, error, stopped, rfl, failed, same⟩
    · cases same
      exact ⟨.refl, rfl⟩
    · cases same
      have kept := Build.reaches_scopes.function (fun _ => (scripted value).reaches) moment
      have objects := Build.objects?_of_staysAside further
      rw [failed] at kept objects
      exact ⟨kept, objects⟩
  obtain ⟨ordered, new⟩ := made.ids_lt scripted
  have contexts (branch : Branch) (member : branch ∈ branches) :
      ∃ name objects, after.compiler.context? branch.opened.id =
        some ⟨name, branch.opened.group, objects, some run.compiler.current⟩ := by
    obtain ⟨before, makes, same, reached⟩ := made.exists_makes scripted member
    obtain ⟨name, objects, found⟩ := makes.exists_context (scripted _)
    have onwards : branch.after.Reaches after := reached.trans closing.1
    obtain ⟨more, now⟩ := onwards.extends _ _ found
    exact ⟨name, objects ++ more, same ▸ now⟩
  refine ⟨caller, branches, moment, rest, called, made, rfl, restored.stack, current,
    closing.1.extends.context?_eq tested closing.2, fun branch member => ?_,
    fun branch member => ⟨new branch member, contexts branch member⟩, ordered,
    fun fits branch member id context found same => ?_, fun succeeded => ?_, fun error failed => ?_⟩
  · obtain ⟨before, makes, _⟩ := made.exists_makes scripted member
    exact makes.activated?_test (small _ (List.mem_append_left _ (List.mem_map_of_mem member)))
  · obtain ⟨options, names, begun⟩ := reachable.reaches
    have reached := (begun.trans (made.reaches scripted)).trans closing.1
    obtain ⟨name, objects, owned⟩ := contexts branch member
    exact (Run.registered_of_reaches reached fits).1.context?_inj found owned same
  · rcases ending with ⟨none, same⟩ | ⟨value, later, error, stopped, _, _, same⟩
    · cases same
      exact ⟨none, rfl⟩
    · rw [succeeded] at same
      cases same
  · rcases ending with ⟨_, same⟩ | ⟨value, later, cause, stopped, split, stops, same⟩
    · rw [failed] at same
      cases same
    · rw [failed] at same
      cases same
      refine ⟨value, later, split, ?_⟩
      rcases Build.outcome_function_of_error stops with ⟨refused, _⟩ | ⟨opened, next, left, made,
        failing, _⟩
      · exact .inl refused
      · exact .inr ⟨opened, next, left, made, failing⟩

/-- A body that waits, fills a function, makes a persistent counter and moves to the function; for
one value it fails after a wait. -/
def Build.unsteady (value : Int64) : Build Unit := do
  bindTo (some "value") (.integer value)
  Statement.execAll (if value = 3 then [.wait .zero, .fail "stop"] else
    [.wait .zero, .function none (some "f") [.wait .zero, .add (.ofType 5)],
      .counter ⟨.zero, none, true, false⟩ none, .switchToOwner (.named "f"), .add (.ofType 6)])

/-- Values with one repeated; the last is the one for which the body fails. -/
def Build.unsteadyValues : List Int64 := [9007199254740992, -7, -7, 3]

/-- A run whose current context is not the global one. -/
def Run.calling : Run := Run.blank.step (.createContext "caller" true none)

/-- How the dispatch of a timer with that body ends there. -/
def Run.dispatched : Except CompileError Unit × Run :=
  Build.outcome (Build.dispatch ⟨4, .timer⟩ Build.unsteady Build.unsteadyValues) Run.calling

theorem unsteady_branches_are_tested :
    Run.calling.Reachable ∧ Run.calling.compiler.current = 1 ∧
    Build.staysAside ⟨4, .timer⟩ Build.unsteady 1 Build.unsteadyValues Run.calling = true ∧
    Run.dispatched.1 = .error (.unknownContext "stop") ∧
    ∃ branches : List Branch, branches.map (·.value) = [9007199254740992, -7, -7] ∧
      Run.dispatched.2.compiler.objects? 1 = some (branches.map (·.test)) ∧
      ∀ branch ∈ branches, ∀ store : Store, store.activated? branch.test =
        if store ⟨4, .timer⟩ = branch.value.toInt then
          some branch.opened.group.value
        else none := by
  have reachable : Run.calling.Reachable := .step _ (.start _ _)
  have current : Run.calling.compiler.current = 1 := by decide +kernel
  have aside : Build.staysAside ⟨4, .timer⟩ Build.unsteady 1 Build.unsteadyValues Run.calling =
      true := by decide +kernel
  have small : ∀ value ∈ Build.unsteadyValues, value.toInt.natAbs ≤ 2 ^ 53 := by
    simp only [Build.unsteadyValues, List.forall_mem_cons]
    exact ⟨by decide, by decide, by decide, by decide, List.forall_mem_nil _⟩
  have scripted (value : Int64) : Build.Scripted (Build.unsteady value) :=
    Build.scripted_body _ _ _
  obtain ⟨caller, branches, _, rest, called, _, split, _, _, objects, tests, _⟩ :=
    dispatch_builds_faithful_table Run.calling reachable ⟨4, .timer⟩ Build.unsteadyValues small
      Build.unsteady scripted (current.symm ▸ aside) Run.dispatched.1 Run.dispatched.2
      Prod.mk.eta.symm
  rw [current] at called objects
  have empty : caller.objects = [] := by
    have before : Run.calling.compiler.objects? 1 = some [] := by decide +kernel
    simpa [Compiler.objects?, called] using before
  have gained : Run.dispatched.2.compiler.objects? 1 = some (branches.map (·.test)) := by
    simp [Compiler.objects?, objects, empty]
  have count : (branches.map (·.value)).length = 3 := by
    have three : (Run.dispatched.2.compiler.objects? 1).map List.length = some 3 := by
      decide +kernel
    simpa [gained] using three
  refine ⟨reachable, current, aside, by decide +kernel, branches, ?_, gained, tests⟩
  calc
    branches.map (·.value) =
        (branches.map (·.value) ++ rest).take (branches.map (·.value)).length := List.take_left.symm
    _ = Build.unsteadyValues.take 3 := by rw [count, ← split]
    _ = [9007199254740992, -7, -7] := rfl

end TriggerGraph
