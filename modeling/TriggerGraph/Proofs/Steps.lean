import TriggerGraph.Script.Exec

/-!
# What a statement can do

An action on a run is followed to its end whether or not it fails.  A relation between runs is kept
by every statement as soon as it is reflexive and transitive and is kept by the elementary changes
of the compiler and by the ways in which a construct opens a scope, runs its body there and closes
it.  The main theorem of this file makes the case analysis over all statements once, for any such
relation.
-/

namespace TriggerGraph

/-- The same run with another compiler. -/
def Run.withCompiler (run : Run) (compiler : Compiler) : Run := { run with compiler }

@[simp]
theorem Run.compiler_withCompiler (run : Run) (compiler : Compiler) :
    (run.withCompiler compiler).compiler = compiler := rfl

@[simp]
theorem Run.withCompiler_withCompiler (run : Run) (first second : Compiler) :
    (run.withCompiler first).withCompiler second = run.withCompiler second := rfl

/-- A context is opened, or it is refused and the compiler is as it was, its indexes included. -/
theorem Compiler.openContext_ends (compiler : Compiler) (name : String) :
    (∃ error, compiler.openContext name = (.error error, compiler)) ∨
    ∃ opened next, compiler.openContext name = (.ok opened, next) := by
  unfold Compiler.openContext
  split
  · exact .inl ⟨_, rfl⟩
  · exact .inr ⟨_, _, rfl⟩

theorem Compiler.openAnonymous_ends (compiler : Compiler) :
    (∃ error, compiler.openAnonymous = (.error error, compiler)) ∨
    ∃ opened next, compiler.openAnonymous = (.ok opened, next) :=
  compiler.openContext_ends _

/-- The run with the current context left. -/
def Run.leave (run : Run) : Run := run.withCompiler run.compiler.leave

namespace Build

/-! ## Running actions -/

/-- How an action ends: its result and the run it leaves. -/
def outcome {α : Type} (action : Build α) (run : Run) : Except CompileError α × Run :=
  action.run.run run

@[simp]
theorem outcome_pure {α : Type} (result : α) (run : Run) :
    outcome (pure result) run = (.ok result, run) := rfl

@[simp]
theorem outcome_throw {α : Type} (error : CompileError) (run : Run) :
    outcome (throw error : Build α) run = (.error error, run) := rfl

theorem outcome_bind {α β : Type} (action : Build α) (next : α → Build β) (run : Run) :
    outcome (action >>= next) run =
      match outcome action run with
      | (.ok result, after) => outcome (next result) after
      | (.error error, after) => (.error error, after) := by
  simp only [outcome, ExceptT.run_bind, StateT.run_bind]
  rcases ended : action.run.run run with ⟨result, after⟩
  cases result with
  | error error => rfl
  | ok result => rfl

theorem outcome_bind_of_ok {α β : Type} {action : Build α} {next : α → Build β} {run after : Run}
    {result : α} (ended : outcome action run = (.ok result, after)) :
    outcome (action >>= next) run = outcome (next result) after := by
  rw [outcome_bind, ended]

theorem outcome_bind_of_error {α β : Type} {action : Build α} {next : α → Build β}
    {run after : Run} {error : CompileError} (ended : outcome action run = (.error error, after)) :
    outcome (action >>= next) run = (.error error, after) := by
  rw [outcome_bind, ended]

@[simp]
theorem outcome_compiler (run : Run) : outcome compiler run = (.ok run.compiler, run) := rfl

theorem outcome_draw {α : Type} (f : Compiler → α × Compiler) (run : Run) :
    outcome (draw f) run = (.ok (f run.compiler).1, run.withCompiler (f run.compiler).2) := rfl

theorem outcome_commit {α : Type} (f : Compiler → Except CompileError α × Compiler) (run : Run) :
    outcome (commit f) run = ((f run.compiler).1, run.withCompiler (f run.compiler).2) := by
  rw [commit, outcome_bind_of_ok (outcome_draw f run)]
  cases (f run.compiler).1 with
  | error error => rfl
  | ok made => rfl

theorem outcome_commit_of_ok {α : Type} {f : Compiler → Except CompileError α × Compiler}
    {run : Run} {result : α} {next : Compiler} (made : f run.compiler = (.ok result, next)) :
    outcome (commit f) run = (.ok result, run.withCompiler next) := by
  rw [outcome_commit, made]

theorem outcome_commit_of_error {α : Type} {f : Compiler → Except CompileError α × Compiler}
    {run : Run} {error : CompileError} (failed : f run.compiler = (.error error, run.compiler)) :
    outcome (commit f) run = (.error error, run) := by
  rw [outcome_commit, failed]
  rfl

theorem outcome_within {α : Type} (id : Nat) (body : Build α) (run : Run) :
    outcome (within id body) run =
      ((outcome body (run.withCompiler (run.compiler.enter id))).1,
        (outcome body (run.withCompiler (run.compiler.enter id))).2.leave) := rfl

theorem outcome_within_bind {α β : Type} (id : Nat) (body : Build α) (next : α → Build β)
    (run : Run) :
    outcome (within id body >>= next) run =
      match outcome body (run.withCompiler (run.compiler.enter id)) with
      | (.ok result, after) => outcome (next result) after.leave
      | (.error error, after) => (.error error, after.leave) := by
  rw [outcome_bind, outcome_within]
  rcases outcome body (run.withCompiler (run.compiler.enter id)) with ⟨_ | _, after⟩ <;> rfl

theorem outcome_addMade_of_ok {made : Except FieldError Object} {object : Object}
    (accepted : made = .ok object) (run : Run) :
    outcome (addMade made) run = (.ok (), run.withCompiler (run.compiler.add object)) := by
  rw [accepted]
  rfl

theorem outcome_record {statement : Statement} {action : Build Outcome} {run after : Run}
    {result : Except CompileError Outcome} (ended : outcome action run = (result, after)) :
    outcome (record statement action) run =
      (result.map fun _ => (), { after with finished := ⟨statement, result,
        after.compiler.groupValue after.compiler.current, after.compiler.currentSize⟩ ::
          after.finished }) := by
  change action.run.run run = _ at ended
  simp only [outcome, record, ExceptT.run_mk, StateT.run] at ended ⊢
  rw [ended]

/-! ## Running a body -/

theorem outcome_execAll_of_step {statement : Statement} {run : Run}
    (succeeded : (outcome (record statement statement.exec) run).1 = .ok ())
    (rest : List Statement) :
    outcome (Statement.execAll (statement :: rest)) run =
      outcome (Statement.execAll rest) (run.step statement) :=
  outcome_bind_of_ok (Prod.ext succeeded rfl)

theorem outcome_execAll_of_stop {statement : Statement} {run : Run} {error : CompileError}
    (failed : (outcome (record statement statement.exec) run).1 = .error error)
    (rest : List Statement) :
    outcome (Statement.execAll (statement :: rest)) run = (.error error, run.step statement) :=
  outcome_bind_of_error (Prod.ext failed rfl)

theorem step_of_execAll {statement : Statement} {rest : List Statement} {run moment : Run}
    (ended : outcome (Statement.execAll (statement :: rest)) run = (.ok (), moment)) :
    (outcome (record statement statement.exec) run).1 = .ok () ∧
      outcome (Statement.execAll rest) (run.step statement) = (.ok (), moment) := by
  cases first : (outcome (record statement statement.exec) run).1 with
  | error error =>
      rw [outcome_execAll_of_stop first] at ended
      cases ended
  | ok _ => exact ⟨rfl, (outcome_execAll_of_step first rest).symm.trans ended⟩

theorem outcome_execAll_append {before : List Statement} {run moment : Run}
    (ended : outcome (Statement.execAll before) run = (.ok (), moment)) (rest : List Statement) :
    outcome (Statement.execAll (before ++ rest)) run = outcome (Statement.execAll rest) moment := by
  induction before generalizing run with
  | nil =>
      cases ended
      rfl
  | cons statement before ih =>
      obtain ⟨succeeded, ended⟩ := step_of_execAll ended
      rw [List.cons_append, outcome_execAll_of_step succeeded]
      exact ih ended

/-! ## Kept relations -/

/-- However the action ends, the run it leaves is related to the run it began with. -/
def Keeps {α : Type} (R : Run → Run → Prop) (action : Build α) : Prop :=
  ∀ run, R run (outcome action run).2

theorem Keeps.chain {R : Run → Run → Prop} {α β : Type} {action : Build α} {next : α → Build β}
    (first : Keeps R action) (second : ∀ result, Keeps R (next result))
    (trans : ∀ a b c, R a b → R b c → R a c) : Keeps R (action >>= next) := by
  intro run
  have begun := first run
  rcases ended : outcome action run with ⟨result, after⟩
  rw [ended] at begun
  cases result with
  | error error => rwa [outcome_bind_of_error ended]
  | ok result =>
      rw [outcome_bind_of_ok ended]
      exact trans _ _ _ begun (second result after)

theorem keeps_openContext {R : Run → Run → Prop} (refl : ∀ run, R run run)
    (name : Compiler → String)
    (made : ∀ run opened next, run.compiler.openContext (name run.compiler) = (.ok opened, next) →
      R run (run.withCompiler next)) :
    Keeps R (commit fun compiler => compiler.openContext (name compiler)) := by
  intro run
  rcases run.compiler.openContext_ends (name run.compiler) with
    ⟨error, failed⟩ | ⟨opened, next, opens⟩
  · rw [outcome_commit, failed]
    exact refl run
  · rw [outcome_commit, opens]
    exact made run opened next opens

/-- The action reads the run and leaves it as it is. -/
def Reads {α : Type} (action : Build α) : Prop := ∀ run, (outcome action run).2 = run

theorem Reads.keeps {R : Run → Run → Prop} (refl : ∀ run, R run run) {α : Type}
    {action : Build α} (reads : Reads action) : Keeps R action := by
  intro run
  rw [reads run]
  exact refl run

theorem reads_pure {α : Type} (result : α) : Reads (pure result : Build α) := fun _ => rfl

theorem reads_demand {α : Type} (error : CompileError) (result : Option α) :
    Reads (demand error result) := by
  cases result with
  | none => exact fun _ => rfl
  | some result => exact fun _ => rfl

theorem Reads.bind {α β : Type} {action : Build α} {next : α → Build β} (first : Reads action)
    (second : ∀ result, Reads (next result)) : Reads (action >>= next) := by
  intro run
  have same := first run
  rcases ended : outcome action run with ⟨result, after⟩
  rw [ended] at same
  cases result with
  | error error => rwa [outcome_bind_of_error ended]
  | ok result =>
      rw [outcome_bind_of_ok ended, second result after]
      exact same

theorem reads_lookup {α : Type} (kind : Binding → Option α) (name : String) :
    Reads (lookup kind name) :=
  Reads.bind (fun _ => rfl) fun _ => reads_demand _ _

theorem reads_resolve {α : Type} (kind : Binding → Option α) (operand : Operand α) :
    Reads (resolve kind operand) := by
  cases operand with
  | literal value => exact reads_pure value
  | named name => exact reads_lookup kind name

theorem reads_condition (operand : ConditionOperand) : Reads (condition operand) :=
  (reads_resolve _ _).bind fun _ => reads_pure _

theorem reads_contextNamed (name : String) : Reads (contextNamed name) :=
  Reads.bind (fun _ => rfl) fun _ => reads_demand _ _

theorem reads_owner (group : Reference) : Reads (owner group) :=
  Reads.bind (fun _ => rfl) fun _ => reads_demand _ _

theorem reads_describe (id : Nat) : Reads (describe id) := fun _ => rfl

theorem reads_loopDelay (delay : Option Double) : Reads (loopDelay delay) := by
  cases delay with
  | none => exact fun _ => rfl
  | some delay => exact reads_pure delay

theorem reads_checkDelay (seconds : Double) : Reads (checkDelay seconds) := by
  unfold checkDelay
  split
  · exact reads_pure ()
  · exact fun _ => rfl

theorem reads_checkSteps (steps : List (Reference × UInt32)) : Reads (checkSteps steps) := by
  induction steps with
  | nil => exact reads_pure ()
  | cons step rest ih =>
      unfold checkSteps
      split
      · exact fun _ => rfl
      · exact ih

theorem reads_resolveSteps (steps : List (Operand Reference × UInt32)) :
    Reads (resolveSteps steps) := by
  induction steps with
  | nil => exact reads_pure []
  | cons step rest ih => exact (reads_resolve _ _).bind fun _ => ih.bind fun _ => reads_pure _

theorem reads_resolveCounters (operands : List (Operand Counter)) :
    Reads (resolveCounters operands) := by
  induction operands with
  | nil => exact reads_pure []
  | cons operand rest ih => exact (reads_resolve _ _).bind fun _ => ih.bind fun _ => reads_pure _

end Build

/-! ## Statements and their bodies -/

namespace Statement

/-- The statements written inside a statement. -/
def body : Statement → List Statement
  | .function _ _ body | .extend _ body | .repeatWhile _ _ _ _ body | .forLoop _ _ _ _ body
  | .remappable _ _ body | .dispatch _ _ _ body | .attempt body => body
  | _ => []

/-- The statements that fill a context other than the current one or a new one, put another context
in the place of the current one, or catch a failure. -/
def moves : Statement → Bool
  | .extend .. | .wait .. | .createContext _ true _ | .switchTo .. | .switchToOwner ..
  | .attempt .. => true
  | _ => false

theorem sizeOf_lt_of_mem_body {statement inner : Statement} (member : inner ∈ statement.body) :
    sizeOf inner < sizeOf statement := by
  have smaller := List.sizeOf_lt_of_mem member
  cases statement <;> simp_all [body] <;> omega

/-- The statement and all statements inside it, to any depth, have a property. -/
inductive Everywhere (allows : Statement → Prop) : Statement → Prop where
  | intro {statement : Statement} (here : allows statement)
      (inside : ∀ inner ∈ statement.body, Everywhere allows inner) :
      Everywhere allows statement

theorem everywhere_of_forall {allows : Statement → Prop} (every : ∀ statement, allows statement)
    (statement : Statement) : Everywhere allows statement :=
  .intro (every statement) fun inner _ => everywhere_of_forall every inner
termination_by sizeOf statement
decreasing_by exact sizeOf_lt_of_mem_body ‹_›

theorem everywhere_of_bodiless {allows : Statement → Prop} {statement : Statement}
    (bodiless : statement.body = []) (here : allows statement) : Everywhere allows statement := by
  refine .intro here ?_
  rw [bodiless]
  exact List.forall_mem_nil _

theorem Everywhere.mono {some more : Statement → Prop} (wider : ∀ inner, some inner → more inner)
    {statement : Statement} (everywhere : statement.Everywhere some) :
    statement.Everywhere more := by
  induction everywhere with
  | intro here _ ih => exact .intro (wider _ here) ih

end Statement

namespace Build

/-- The laws under which a property `inner` of bodies gives a property `outer` of the statements
that hold them.  A statement that moves or draws needs its law only if it is allowed. -/
structure Laws (inner outer : (α : Type) → Build α → Prop) (allows : Statement → Prop) : Prop where
  widen {α : Type} {action : Build α} : outer α action → inner α action
  chain {α β : Type} {action : Build α} {next : α → Build β} :
    outer α action → (∀ result, outer β (next result)) → outer β (action >>= next)
  chainInner {α β : Type} {action : Build α} {next : α → Build β} :
    inner α action → (∀ result, inner β (next result)) → inner β (action >>= next)
  read {α : Type} {action : Build α} : Reads action → outer α action
  name (name : String) (binding : Binding) : outer _ (bind name binding)
  next (domain : Domain) (name : Option String) :
    allows (.fresh domain name) → outer _ (draw (·.next domain))
  reserve (domain : Domain) (value : UInt32) : outer _ (draw (·.reserve domain value))
  nextItem : outer _ (draw Compiler.nextItem)
  reserveItem (item : UInt32) : outer _ (change (·.reserveItem item))
  create (name : String) : outer _ (commit (·.openContext name))
  append (object : Object) : outer _ (add object)
  appendGlobal (object : Object) : outer _ (change (·.addTo 0 object))
  scope {body : Reference → Build Unit} :
    (∀ group, inner _ (body group)) → outer _ (function body)
  loop (condition : Condition) (delay : Double) {body : Reference → Build Unit} :
    (∀ group, inner _ (body group)) → outer _ (repeatWhile condition delay body)
  moves (statement : Statement) :
    statement.moves = true → allows statement → inner _ (Statement.execAll statement.body) →
      outer _ statement.exec

namespace Laws

variable {inner outer : (α : Type) → Build α → Prop} {allows : Statement → Prop}

theorem ret (laws : Laws inner outer allows) {α : Type} (result : α) :
    outer _ (pure result : Build α) :=
  laws.read (reads_pure result)

theorem finish (laws : Laws inner outer allows) {action : Build Unit} (first : outer _ action) :
    outer _ (done action) :=
  laws.chain first fun _ => laws.ret _

theorem bindTo (laws : Laws inner outer allows) (name : Option String) (binding : Binding) :
    outer _ (Build.bindTo name binding) := by
  cases name with
  | none => exact laws.ret ()
  | some name => exact laws.name name binding

theorem named (laws : Laws inner outer allows) (name : Option String) (reference : Reference) :
    outer _ (Build.named name reference) :=
  laws.chain (laws.bindTo name _) fun _ => laws.ret _

theorem bindCounters (laws : Laws inner outer allows) (names : List String)
    (counters : List Counter) : outer _ (Build.bindCounters names counters) := by
  induction names generalizing counters with
  | nil => exact laws.ret ()
  | cons name names ih =>
      cases counters with
      | nil => exact laws.ret ()
      | cons counter counters => exact laws.chain (laws.name name _) fun _ => ih counters

theorem addMade (laws : Laws inner outer allows) (made : Except FieldError Object) :
    outer _ (Build.addMade made) := by
  cases made with
  | error error => exact laws.read fun _ => rfl
  | ok object => exact laws.append object

theorem call (laws : Laws inner outer allows) (group : Reference) (delay : Double) :
    outer _ (Build.call group delay) :=
  laws.chain (laws.read (reads_checkDelay delay)) fun _ => laws.addMade _

theorem branch (laws : Laws inner outer allows) {β : Type} (condition : Prop)
    [Decidable condition] {first : Build Unit} {rest : Unit → Build β} (one : outer _ first)
    (both : outer _ (rest ())) : outer _ (if condition then first >>= rest else rest ()) := by
  split
  · exact laws.chain one fun _ => both
  · exact both

theorem slot (laws : Laws inner outer allows) (options : CounterOptions) :
    outer _ (Build.slot options) := by
  unfold Build.slot
  split
  · exact laws.chain (laws.reserveItem _) fun _ => laws.ret _
  · exact laws.nextItem

theorem newCounter (laws : Laws inner outer allows) (options : CounterOptions) :
    outer _ (Build.newCounter options) := by
  refine laws.chain (laws.slot options) fun item => laws.branch _ (laws.append _) ?_
  cases options.persistent with
  | true =>
      exact laws.chain (laws.append _) fun _ => laws.chain (laws.appendGlobal _) fun _ => laws.ret _
  | false => exact laws.ret _

theorem transfer (laws : Laws inner outer allows) (way : Transfer) (counter other : Counter) :
    outer _ (Build.transfer way counter other) := by
  cases way with
  | copy => exact laws.append _
  | add => exact laws.chain (laws.append _) fun _ => laws.append _
  | subtract => exact laws.chain (laws.append _) fun _ => laws.append _

theorem forLoop (laws : Laws inner outer allows) (range : LoopRange) (delay : Double)
    {body : Counter → Build Unit} (inside : ∀ counter, inner _ (body counter)) :
    outer _ (Build.forLoop range delay body) := by
  unfold Build.forLoop
  cases range.check with
  | error error => exact laws.read fun _ => rfl
  | ok _ =>
      refine laws.chain (laws.read (reads_checkDelay delay)) fun _ =>
        laws.chain (laws.newCounter _) fun counter => laws.chain (laws.append _) fun _ =>
          laws.chain (laws.loop _ _ fun _ => ?_) fun _ => laws.ret _
      exact laws.chainInner (inside counter) fun _ => laws.widen (laws.append _)

theorem sequence (laws : Laws inner outer allows) (steps : List (Reference × UInt32))
    (mode : SequenceMode) (minInterval : Double) (reset : SequenceReset) :
    outer _ (Build.sequence steps mode minInterval reset) :=
  laws.chain (laws.read (reads_checkDelay minInterval)) fun _ =>
    laws.chain (laws.read (reads_checkSteps steps)) fun _ =>
      laws.scope fun _ => laws.widen (laws.append _)

theorem placeholders (laws : Laws inner outer allows) (count : Nat) :
    outer _ (Build.placeholders count) := by
  induction count with
  | zero => exact laws.ret []
  | succ count ih => exact laws.chain laws.nextItem fun _ => laws.chain ih fun _ => laws.ret _

theorem remappable (laws : Laws inner outer allows) (count : Nat)
    {body : List Counter → Build Unit} (inside : ∀ slots, inner _ (body slots)) :
    outer _ (Build.remappable count body) :=
  laws.chain (laws.placeholders count) fun slots =>
    laws.chain (laws.scope fun _ => inside slots) fun _ => laws.ret _

theorem dispatch (laws : Laws inner outer allows) (counter : Counter) (values : List Int64)
    {body : Int64 → Build Unit} (inside : ∀ value, inner _ (body value)) :
    outer _ (Build.dispatch counter body values) := by
  induction values with
  | nil => exact laws.ret ()
  | cons value values ih =>
      exact laws.chain (laws.scope fun _ => inside value) fun _ =>
        laws.chain (laws.addMade _) fun _ => ih

/-- The property of a body reaches the statement that holds it. -/
theorem exec (laws : Laws inner outer allows) (statement : Statement)
    (allowed : allows statement) (inside : inner _ (Statement.execAll statement.body)) :
    outer _ statement.exec := by
  have bound (name : Option String) (binding : Binding) :
      inner _ (do Build.bindTo name binding; Statement.execAll statement.body) :=
    laws.chainInner (laws.widen (laws.bindTo name binding)) fun _ => inside
  cases statement with
  | fresh domain name =>
      exact laws.chain (laws.next domain name allowed) fun _ => laws.named name _
  | reserve domain value name =>
      exact laws.chain (laws.reserve domain value) fun _ => laws.named name _
  | groupInUse value => exact laws.read fun _ => rfl
  | options => exact laws.read fun _ => rfl
  | createContext label switch name =>
      cases switch with
      | true => exact laws.moves _ rfl allowed inside
      | false =>
          exact laws.chain (laws.create label) fun opened => laws.named name opened.group
  | switchTo label => exact laws.moves _ rfl allowed inside
  | switchToOwner group => exact laws.moves _ rfl allowed inside
  | current => exact laws.read fun _ => rfl
  | context label => exact laws.read ((reads_contextNamed label).bind fun _ => reads_describe _)
  | owner group =>
      exact laws.read ((reads_resolve _ group).bind fun _ =>
        (reads_owner _).bind fun _ => reads_describe _)
  | chainOf group =>
      exact laws.read ((reads_resolve _ group).bind fun _ =>
        (reads_owner _).bind fun _ => fun _ => rfl)
  | add object => exact laws.finish (laws.append object)
  | addChecked fields => exact laws.finish (laws.addMade _)
  | function own name body =>
      exact laws.chain (laws.scope fun _ => bound _ _) fun _ => laws.named name _
  | extend group body => exact laws.moves _ rfl allowed inside
  | call group delay =>
      exact laws.finish (laws.chain (laws.read (reads_resolve _ group)) fun _ => laws.call _ _)
  | wait seconds => exact laws.moves _ rfl allowed inside
  | repeatWhile operand delay own name body =>
      exact laws.chain (laws.read (reads_condition operand)) fun _ =>
        laws.chain (laws.read (reads_loopDelay delay)) fun _ =>
          laws.chain (laws.loop _ _ fun _ => bound _ _) fun _ =>
            laws.chain (laws.bindTo _ _) fun _ => laws.chain (laws.bindTo _ _) fun _ =>
              laws.read fun _ => rfl
  | forLoop range delay index name body =>
      exact laws.chain (laws.read (reads_loopDelay delay)) fun _ =>
        laws.chain (laws.forLoop range _ fun _ => bound _ _) fun _ =>
          laws.chain (laws.bindTo _ _) fun _ => laws.ret _
  | sequence steps mode minInterval reset name =>
      exact laws.chain (laws.read (reads_resolveSteps steps)) fun _ =>
        laws.chain (laws.sequence _ _ _ _) fun _ =>
          laws.chain (laws.bindTo _ _) fun _ => laws.ret _
  | callSequence name =>
      exact laws.finish (laws.chain (laws.read (reads_lookup _ name)) fun _ => laws.call _ _)
  | remappable parameters name body =>
      refine laws.chain (laws.remappable _ fun slots => ?_) fun _ =>
        laws.chain (laws.bindTo _ _) fun _ => laws.chain (laws.bindTo _ _) fun _ => laws.ret _
      exact laws.chainInner (laws.widen (laws.bindCounters parameters slots)) fun _ => inside
  | callRemapped name arguments =>
      exact laws.finish (laws.chain (laws.read (reads_lookup _ name)) fun _ =>
        laws.chain (laws.read (reads_resolveCounters arguments)) fun _ => laws.addMade _)
  | counter settings name =>
      exact laws.chain (laws.newCounter settings) fun _ =>
        laws.chain (laws.bindTo _ _) fun _ => laws.ret _
  | change left op right =>
      exact laws.finish (laws.chain (laws.read (reads_resolve _ left)) fun _ =>
        laws.chain (laws.read (reads_resolve _ right)) fun _ => laws.append _)
  | reset left =>
      exact laws.finish (laws.chain (laws.read (reads_resolve _ left)) fun _ => laws.append _)
  | transfer way left right =>
      exact laws.finish (laws.chain (laws.read (reads_resolve _ left)) fun _ =>
        laws.chain (laws.read (reads_resolve _ right)) fun _ => laws.transfer _ _ _)
  | ifIs left target comparator threshold =>
      exact laws.finish (laws.chain (laws.read (reads_resolve _ left)) fun _ =>
        laws.chain (laws.read (reads_resolve _ target)) fun _ => laws.addMade _)
  | condition operand target =>
      exact laws.finish (laws.chain (laws.read (reads_condition operand)) fun _ =>
        laws.chain (laws.read (reads_resolve _ target)) fun _ => laws.addMade _)
  | dispatch left values value body =>
      exact laws.finish (laws.chain (laws.read (reads_resolve _ left)) fun _ =>
        laws.dispatch _ values fun _ => bound _ _)
  | fail message => exact laws.read fun _ => rfl
  | attempt body => exact laws.moves _ rfl allowed inside

theorem execAll (laws : Laws inner outer allows) (statements : List Statement)
    (recorded : ∀ statement ∈ statements, inner _ (record statement statement.exec)) :
    inner _ (Statement.execAll statements) := by
  induction statements with
  | nil => exact laws.widen (laws.ret ())
  | cons statement rest ih =>
      rw [List.forall_mem_cons] at recorded
      exact laws.chainInner recorded.1 fun _ => ih recorded.2

/-- A property that its own laws carry from bodies to statements holds of every statement that is
allowed at every depth. -/
theorem exec_everywhere (laws : Laws inner inner allows)
    (recorded : ∀ statement : Statement, inner _ statement.exec →
      inner _ (record statement statement.exec))
    {statement : Statement} (every : statement.Everywhere allows) : inner _ statement.exec := by
  induction every with
  | intro here _ ih =>
      exact laws.exec _ here (laws.execAll _ fun _ member => recorded _ (ih _ member))

/-- A statement that is not allowed may have the property as soon as it is recorded. -/
theorem record_everywhere (laws : Laws inner inner allows)
    (recorded : ∀ statement : Statement, allows statement → inner _ statement.exec →
      inner _ (record statement statement.exec))
    (otherwise : ∀ statement : Statement, ¬allows statement →
      inner _ (record statement statement.exec))
    (statement : Statement) : inner _ (record statement statement.exec) := by
  by_cases allowed : allows statement
  · apply recorded statement allowed
    apply laws.exec statement allowed
    apply laws.execAll
    intro inside member
    exact record_everywhere laws recorded otherwise inside
  · exact otherwise statement allowed
termination_by sizeOf statement
decreasing_by exact Statement.sizeOf_lt_of_mem_body member

end Laws
end Build
end TriggerGraph
