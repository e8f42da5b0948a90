import TriggerGraph.Proofs.Freshness
import TriggerGraph.Proofs.Reach

/-!
# Statements that are refused

A statement checks its arguments before it takes an id, opens a context or appends an object.  What
it does after these checks fails only if a statement of its body does.  So a statement that fails
before any statement of its body was run leaves the whole run as it was.
-/

namespace TriggerGraph
namespace Build

/-! ## Actions that succeed and actions that are refused -/

/-- The action removes nothing from the log.  If no statement finishes on the way, it succeeds, and
names that were fresh still are. -/
structure Sure {α : Type} (action : Build α) : Prop where
  logs (run : Run) : run.finished.length ≤ (outcome action run).2.finished.length
  succeeds {run : Run} : run.compiler.FreshNames →
    (outcome action run).2.finished.length = run.finished.length →
      (∃ result, (outcome action run).1 = .ok result) ∧
        (outcome action run).2.compiler.FreshNames

/-- The action removes nothing from the log.  If no statement finishes on the way, it succeeds or
changes nothing. -/
structure Guarded {α : Type} (action : Build α) : Prop where
  logs (run : Run) : run.finished.length ≤ (outcome action run).2.finished.length
  refused {run : Run} {error : CompileError} : run.compiler.FreshNames →
    (outcome action run).2.finished.length = run.finished.length →
      (outcome action run).1 = .error error → (outcome action run).2 = run

theorem Sure.guarded {α : Type} {action : Build α} (sure : Sure action) : Guarded action where
  logs := sure.logs
  refused fresh quiet failed := by
    obtain ⟨⟨result, succeeded⟩, _⟩ := sure.succeeds fresh quiet
    rw [succeeded] at failed
    cases failed

theorem Reads.guarded {α : Type} {action : Build α} (reads : Reads action) : Guarded action where
  logs run := by rw [reads run]
  refused _ _ _ := reads _

/-- If the action succeeds, its result has the property. -/
def Gives {α : Type} (holds : α → Prop) (action : Build α) : Prop :=
  ∀ run result after, outcome action run = (.ok result, after) → holds result

theorem Sure.bindGiving {α β : Type} {holds : α → Prop} {action : Build α} {next : α → Build β}
    (first : Sure action) (gives : Gives holds action)
    (second : ∀ result, holds result → Sure (next result)) : Sure (action >>= next) := by
  have split (run : Run) : (∃ result after, holds result ∧
        outcome action run = (.ok result, after) ∧
        outcome (action >>= next) run = outcome (next result) after) ∨
      ∃ error after, outcome action run = (.error error, after) ∧
        outcome (action >>= next) run = (.error error, after) := by
    rcases ended : outcome action run with ⟨error | result, after⟩
    · exact .inr ⟨error, after, rfl, outcome_bind_of_error ended⟩
    · exact .inl ⟨result, after, gives run result after ended, rfl, outcome_bind_of_ok ended⟩
  constructor
  · intro run
    have begun := first.logs run
    rcases split run with ⟨result, after, held, ended, joined⟩ | ⟨error, after, ended, joined⟩
    · rw [joined]
      rw [ended] at begun
      exact Nat.le_trans begun ((second result held).logs after)
    · rw [joined]
      rwa [ended] at begun
  · intro run fresh quiet
    have begun := first.logs run
    have succeeds := first.succeeds fresh
    rcases split run with ⟨result, after, held, ended, joined⟩ | ⟨error, after, ended, joined⟩
    · rw [joined] at quiet ⊢
      rw [ended] at begun succeeds
      have later := (second result held).logs after
      -- nothing was recorded in the end, so nothing had been recorded in between
      have still : after.finished.length = run.finished.length := by
        dsimp only at begun
        omega
      exact (second result held).succeeds (succeeds still).2 (quiet.trans still.symm)
    · rw [joined] at quiet
      rw [ended] at succeeds
      obtain ⟨⟨result, impossible⟩, _⟩ := succeeds quiet
      cases impossible

theorem Sure.bind {α β : Type} {action : Build α} {next : α → Build β} (first : Sure action)
    (second : ∀ result, Sure (next result)) : Sure (action >>= next) :=
  have any : Gives (fun _ => True) action := fun _ _ _ _ => trivial
  first.bindGiving any fun result _ => second result

/-- Reading first what is needed later does no harm. -/
theorem Reads.thenGuarded {α β : Type} {action : Build α} {next : α → Build β}
    (reads : Reads action) (second : ∀ result, Guarded (next result)) :
    Guarded (action >>= next) := by
  have split (run : Run) : (∃ result, outcome (action >>= next) run = outcome (next result) run) ∨
      ∃ error, outcome (action >>= next) run = (.error error, run) := by
    have same := reads run
    rcases ended : outcome action run with ⟨error | result, after⟩
    · rw [ended] at same
      exact .inr ⟨error, (outcome_bind_of_error ended).trans (by rw [← same])⟩
    · rw [ended] at same
      exact .inl ⟨result, (outcome_bind_of_ok ended).trans (by rw [← same])⟩
  constructor
  · intro run
    rcases split run with ⟨result, joined⟩ | ⟨error, joined⟩
    · rw [joined]
      exact (second result).logs run
    · rw [joined]
  · intro run error fresh quiet failed
    rcases split run with ⟨result, joined⟩ | ⟨error, joined⟩
    · rw [joined] at quiet failed ⊢
      exact (second result).refused fresh quiet failed
    · rw [joined]

/-- What succeeds in every run may follow. -/
theorem Guarded.thenTotal {α β : Type} {action : Build α} {next : α → Build β}
    (first : Guarded action)
    (total : ∀ result run, ∃ value after, outcome (next result) run = (.ok value, after) ∧
      after.finished = run.finished) : Guarded (action >>= next) := by
  have split (run : Run) : (∃ value after, outcome (action >>= next) run = (.ok value, after) ∧
        after.finished = (outcome action run).2.finished) ∨
      ∃ error after, outcome action run = (.error error, after) ∧
        outcome (action >>= next) run = (.error error, after) := by
    rcases ended : outcome action run with ⟨error | result, after⟩
    · exact .inr ⟨error, after, rfl, outcome_bind_of_error ended⟩
    · obtain ⟨value, final, joined, log⟩ := total result after
      exact .inl ⟨value, final, (outcome_bind_of_ok ended).trans joined, log⟩
  constructor
  · intro run
    have begun := first.logs run
    rcases split run with ⟨value, after, joined, log⟩ | ⟨error, after, ended, joined⟩
    · rw [joined, log]
      exact begun
    · rw [joined]
      rwa [ended] at begun
  · intro run error fresh quiet failed
    rcases split run with ⟨value, after, joined, log⟩ | ⟨cause, after, ended, joined⟩
    · rw [joined] at failed
      cases failed
    · rw [joined] at quiet ⊢
      have refused : (outcome action run).2 = run :=
        first.refused fresh (by rw [ended]; exact quiet) (by rw [ended])
      rwa [ended] at refused

theorem Guarded.done {action : Build Unit} (guarded : Guarded action) :
    Guarded (Build.done action) :=
  guarded.thenTotal fun _ run => ⟨_, run, rfl, rfl⟩

/-! ## Elementary actions -/

/-- An action that always succeeds and neither records a statement nor opens a context. -/
theorem sure_of_steady {α : Type} {action : Build α}
    (steady : ∀ run, ∃ result after, outcome action run = (.ok result, after) ∧
      after.finished = run.finished ∧ after.compiler.heads = run.compiler.heads ∧
      after.compiler.names = run.compiler.names) : Sure action := by
  constructor
  · intro run
    obtain ⟨result, after, ended, log, _⟩ := steady run
    rw [ended, log]
  · intro run fresh _
    obtain ⟨result, after, ended, _, heads, names⟩ := steady run
    rw [ended]
    exact ⟨⟨result, rfl⟩, fresh.of_same heads names⟩

theorem sure_pure {α : Type} (result : α) : Sure (pure result : Build α) :=
  sure_of_steady fun run => ⟨result, run, rfl, rfl, rfl, rfl⟩

theorem sure_draw {α : Type} {f : Compiler → α × Compiler}
    (heads : ∀ compiler, (f compiler).2.heads = compiler.heads)
    (names : ∀ compiler, (f compiler).2.names = compiler.names) : Sure (draw f) :=
  sure_of_steady fun run =>
    ⟨_, run.withCompiler (f run.compiler).2, rfl, rfl, heads run.compiler, names run.compiler⟩

theorem sure_change {f : Compiler → Compiler}
    (heads : ∀ compiler, (f compiler).heads = compiler.heads)
    (names : ∀ compiler, (f compiler).names = compiler.names) : Sure (change f) :=
  sure_of_steady fun run =>
    ⟨_, run.withCompiler (f run.compiler), rfl, rfl, heads run.compiler, names run.compiler⟩

theorem sure_addTo (id : Nat) (object : Object) : Sure (change (·.addTo id object)) :=
  sure_change (fun compiler => compiler.heads_addTo id object) fun _ => rfl

theorem sure_switchTo (id : Nat) : Sure (change (·.switchTo id)) :=
  sure_change (fun _ => rfl) fun _ => rfl

theorem sure_add (object : Object) : Sure (add object) :=
  sure_change (fun compiler => compiler.heads_addTo compiler.current object) fun _ => rfl

theorem sure_bindTo (name : Option String) (binding : Binding) : Sure (bindTo name binding) := by
  cases name with
  | none => exact sure_pure ()
  | some name =>
      exact sure_of_steady fun run =>
        ⟨(), { run with bindings := (name, binding) :: run.bindings }, rfl, rfl, rfl, rfl⟩

theorem sure_named (name : Option String) (reference : Reference) : Sure (named name reference) :=
  (sure_bindTo name _).bind fun _ => sure_pure _

theorem sure_bindCounters (names : List String) (counters : List Counter) :
    Sure (bindCounters names counters) := by
  induction names generalizing counters with
  | nil => exact sure_pure ()
  | cons name names ih =>
      cases counters with
      | nil => exact sure_pure ()
      | cons counter counters => exact (sure_bindTo (some name) _).bind fun _ => ih counters

theorem sure_nextItem : Sure (draw Compiler.nextItem) :=
  sure_draw (fun _ => rfl) fun _ => rfl

theorem sure_newCounter (options : CounterOptions) : Sure (newCounter options) := by
  have slot : Sure (slot options) := by
    unfold Build.slot
    split
    · next item _ =>
        have reserve : Sure (change (·.reserveItem item)) := sure_change (fun _ => rfl) fun _ => rfl
        exact reserve.bind fun _ => sure_pure _
    · exact sure_nextItem
  refine slot.bind fun item => ?_
  have rest (counter : Counter) : Sure (do
      if options.persistent then
        add (Trigger.persist counter)
        change (·.addTo 0 (Trigger.persist counter))
      return counter) := by
    cases options.persistent with
    | true => exact (sure_add _).bind fun _ => (sure_addTo 0 _).bind fun _ => sure_pure _
    | false => exact sure_pure _
  dsimp only
  split
  · exact (sure_add _).bind fun _ => rest _
  · exact rest _

theorem sure_transfer (way : Transfer) (counter other : Counter) :
    Sure (transfer way counter other) := by
  cases way with
  | copy => exact sure_add _
  | add => exact (sure_add _).bind fun _ => sure_add _
  | subtract => exact (sure_add _).bind fun _ => sure_add _

theorem sure_placeholders (count : Nat) : Sure (placeholders count) := by
  induction count with
  | zero => exact sure_pure []
  | succ count ih => exact sure_nextItem.bind fun _ => ih.bind fun _ => sure_pure _

theorem guarded_addMade (made : Except FieldError Object) : Guarded (addMade made) := by
  cases made with
  | error error => exact Reads.guarded fun _ => rfl
  | ok object => exact (sure_add object).guarded

theorem guarded_call (group : Reference) (delay : Double) : Guarded (call group delay) :=
  (reads_checkDelay delay).thenGuarded fun _ => guarded_addMade _

theorem guarded_wait (seconds : Double) : Guarded (wait seconds) := by
  constructor
  · intro run
    rcases outcome_wait seconds run with ⟨error, failed⟩ | ⟨opened, next, object, _, _, ended⟩
    · rw [failed]
    · rw [ended]
      exact Nat.le_refl _
  · intro run error _ _ failed
    rcases outcome_wait seconds run with ⟨cause, refused⟩ | ⟨opened, next, object, _, _, ended⟩
    · rw [refused]
    · rw [ended] at failed
      cases failed

/-! ## Bodies and the constructs around them -/

/-- Every statement of a body is recorded, so a body that records nothing is empty. -/
theorem sure_execAll (body : List Statement) : Sure (Statement.execAll body) := by
  cases body with
  | nil => exact sure_pure ()
  | cons statement rest =>
      have grows (run : Run) : run.finished.length <
          (outcome (Statement.execAll (statement :: rest)) run).2.finished.length := by
        have recorded : run.finished.length < (run.step statement).finished.length :=
          Nat.lt_succ_of_le (advances_exec statement run).log.length_le
        cases ended : (outcome (record statement statement.exec) run).1 with
        | error error =>
            rw [outcome_execAll_of_stop ended]
            exact recorded
        | ok _ =>
            rw [outcome_execAll_of_step ended]
            exact Nat.lt_of_lt_of_le recorded (advances_execAll rest _).log.length_le
      constructor
      · exact fun run => Nat.le_of_lt (grows run)
      · intro run _ quiet
        have := grows run
        omega

theorem sure_within {α : Type} (id : Nat) {body : Build α} (inside : Sure body) :
    Sure (within id body) := by
  constructor
  · exact fun run => inside.logs (run.withCompiler (run.compiler.enter id))
  · intro run fresh quiet
    have entered : (run.withCompiler (run.compiler.enter id)).compiler.FreshNames :=
      fresh.of_same rfl rfl
    obtain ⟨success, kept⟩ := inside.succeeds entered quiet
    exact ⟨success, kept.of_same rfl rfl⟩

theorem sure_open : Sure (commit Compiler.openAnonymous) := by
  constructor
  · intro run
    rw [outcome_commit]
    exact Nat.le_refl _
  · intro run fresh _
    obtain ⟨opened, next, made⟩ := fresh.opens
    rw [outcome_commit_of_ok made]
    exact ⟨⟨opened, rfl⟩, fresh.of_opens (Compiler.opens_of_openContext made)⟩

theorem gives_open : Gives (·.group.domain = .group) (commit Compiler.openAnonymous) := by
  intro run opened after ended
  rw [outcome_commit] at ended
  obtain ⟨made, -⟩ := Prod.mk.inj ended
  exact (Compiler.opens_of_openContext (Prod.ext made rfl)).domain

theorem sure_function {body : Reference → Build Unit} (inside : ∀ group, Sure (body group)) :
    Sure (function body) :=
  sure_open.bind fun opened =>
    (sure_within opened.id (inside opened.group)).bind fun _ => sure_pure _

theorem gives_function (body : Reference → Build Unit) :
    Gives (·.domain = .group) (function body) := by
  intro run group after ended
  rcases outcome_function body run with ⟨error, failed⟩ | ⟨opened, next, made, returned⟩
  · rw [failed] at ended
    cases ended
  · rw [returned] at ended
    rcases inside : outcome (body opened.group) (run.withCompiler (next.enter opened.id))
      with ⟨_ | _, left⟩
    · rw [inside] at ended
      cases ended
    · rw [inside] at ended
      cases ended
      exact (Compiler.opens_of_openContext made).domain

theorem sure_spawn {group : Reference} (isGroup : group.domain = .group) (delay : Double) :
    Sure (addMade (Trigger.spawn group delay)) := by
  rw [Trigger.spawn_of_group isGroup]
  exact sure_add _

theorem sure_compare {target : Reference} (isGroup : target.domain = .group)
    (condition : Condition) : Sure (compare condition target) := by
  obtain ⟨object, made⟩ := Trigger.compare_of_group isGroup condition
  rw [compare, made]
  exact sure_add object

/-- Once its delay has been accepted, a loop fails only in its body. -/
theorem sure_repeatWhile (condition : Condition) {delay : Double} (valid : delay.isDelay = true)
    {body : Reference → Build Unit} (inside : ∀ group, Sure (body group)) :
    Sure (repeatWhile condition delay body) := by
  have checked : Sure (checkDelay delay) := by
    rw [checkDelay, if_pos valid]
    exact sure_pure ()
  refine checked.bind fun _ => sure_open.bindGiving gives_open fun check isCheck =>
    sure_open.bindGiving gives_open fun inner isInner => ?_
  refine (sure_within check.id (sure_compare isInner condition)).bind fun _ =>
    (sure_spawn isCheck .zero).bind fun _ => (sure_within inner.id (inside _)).bind fun _ => ?_
  refine Sure.bind (sure_of_steady fun run => ⟨_, run, rfl, rfl, rfl, rfl⟩) fun compiler => ?_
  rw [Trigger.spawn_of_group isCheck]
  exact (sure_addTo _ _).bind fun _ => sure_pure _

theorem guarded_repeatWhile (condition : Condition) (delay : Double)
    {body : Reference → Build Unit} (inside : ∀ group, Sure (body group)) :
    Guarded (repeatWhile condition delay body) := by
  cases valid : delay.isDelay with
  | true => exact (sure_repeatWhile condition valid inside).guarded
  | false =>
      exact Reads.guarded fun run => by
        rw [repeatWhile, outcome_bind_of_error (outcome_checkDelay_of_not_delay valid run)]

theorem guarded_forLoop (range : LoopRange) (delay : Double) {body : Counter → Build Unit}
    (inside : ∀ counter, Sure (body counter)) : Guarded (forLoop range delay body) := by
  unfold forLoop
  cases range.check with
  | error error => exact Reads.guarded fun _ => rfl
  | ok _ =>
      cases valid : delay.isDelay with
      | false =>
          exact Reads.guarded fun run => by
            dsimp only
            rw [outcome_bind_of_error (outcome_checkDelay_of_not_delay valid run)]
      | true =>
          refine (reads_checkDelay delay).thenGuarded fun _ => Sure.guarded ?_
          refine (sure_newCounter _).bind fun counter => (sure_add _).bind fun _ => ?_
          refine (sure_repeatWhile _ valid fun _ => ?_).bind fun _ => sure_pure _
          exact (inside counter).bind fun _ => sure_add _

theorem guarded_sequence (steps : List (Reference × UInt32)) (mode : SequenceMode)
    (minInterval : Double) (reset : SequenceReset) :
    Guarded (sequence steps mode minInterval reset) :=
  (reads_checkDelay minInterval).thenGuarded fun _ => (reads_checkSteps steps).thenGuarded fun _ =>
    (sure_function fun _ => sure_add _).guarded

theorem sure_remappable (count : Nat) {body : List Counter → Build Unit}
    (inside : ∀ slots, Sure (body slots)) : Sure (remappable count body) :=
  (sure_placeholders count).bind fun slots =>
    (sure_function fun _ => inside slots).bind fun _ => sure_pure _

theorem sure_dispatch (counter : Counter) {body : Int64 → Build Unit}
    (inside : ∀ value, Sure (body value)) (values : List Int64) :
    Sure (dispatch counter body values) := by
  induction values with
  | nil => exact sure_pure ()
  | cons value values ih =>
      refine (sure_function fun _ => inside value).bindGiving (gives_function _)
        fun branch isGroup => ?_
      exact (sure_compare isGroup _).bind fun _ => ih

/-! ## Every statement -/

theorem guarded_create (label : String) (switch : Bool) (name : Option String) :
    Guarded (Statement.createContext label switch name).exec := by
  have opening : Guarded (commit (·.openContext label)) := by
    constructor
    · intro run
      rw [outcome_commit]
      exact Nat.le_refl _
    · intro run error _ _ failed
      rcases run.compiler.openContext_ends label with ⟨cause, refused⟩ | ⟨opened, next, made⟩
      · rw [outcome_commit_of_error refused]
      · rw [outcome_commit_of_ok made] at failed
        cases failed
  refine opening.thenTotal fun opened run => ?_
  cases switch <;> cases name <;> exact ⟨_, _, rfl, rfl⟩

/-- An attempt does not fail at all. -/
theorem guarded_attempt {body : Build Unit}
    (logs : ∀ run, run.finished.length ≤ (outcome body run).2.finished.length) :
    Guarded (attempt body) := by
  have ended (run : Run) : ∃ result,
      outcome (attempt body) run = (.ok result, (outcome body run).2) := by
    rw [outcome_attempt]
    rcases outcome body run with ⟨error | _, after⟩
    · exact ⟨.failed error, rfl⟩
    · exact ⟨.done, rfl⟩
  constructor
  · intro run
    obtain ⟨result, ended⟩ := ended run
    rw [ended]
    exact logs run
  · intro run error _ _ failed
    obtain ⟨result, ended⟩ := ended run
    rw [ended] at failed
    cases failed

theorem guarded_exec (statement : Statement) : Guarded statement.exec := by
  have inside := sure_execAll statement.body
  have bound (name : Option String) (binding : Binding) :
      Sure (do Build.bindTo name binding; Statement.execAll statement.body) :=
    (sure_bindTo name binding).bind fun _ => inside
  cases statement with
  | fresh domain name =>
      exact ((sure_draw (fun _ => rfl) fun _ => rfl).bind fun _ => sure_named name _).guarded
  | reserve domain value name =>
      exact ((sure_draw (fun _ => rfl) fun _ => rfl).bind fun _ => sure_named name _).guarded
  | groupInUse value => exact Reads.guarded fun _ => rfl
  | options => exact Reads.guarded fun _ => rfl
  | createContext label switch name => exact guarded_create label switch name
  | switchTo label =>
      exact Guarded.done ((reads_contextNamed label).thenGuarded fun id =>
        (sure_switchTo id).guarded)
  | switchToOwner group =>
      exact Guarded.done ((reads_resolve _ group).thenGuarded fun _ =>
        (reads_owner _).thenGuarded fun id => (sure_switchTo id).guarded)
  | current => exact Reads.guarded fun _ => rfl
  | context label =>
      exact ((reads_contextNamed label).bind fun _ => reads_describe _).guarded
  | owner group =>
      exact ((reads_resolve _ group).bind fun _ =>
        (reads_owner _).bind fun _ => reads_describe _).guarded
  | chainOf group =>
      exact ((reads_resolve _ group).bind fun _ => (reads_owner _).bind fun _ =>
        fun _ => rfl).guarded
  | add object => exact (sure_add object).guarded.done
  | addChecked fields => exact (guarded_addMade _).done
  | function own name body =>
      exact ((sure_function fun _ => bound _ _).bind fun _ => sure_named name _).guarded
  | extend group body =>
      exact Guarded.done ((reads_resolve _ group).thenGuarded fun _ =>
        (reads_owner _).thenGuarded fun id => (sure_within id inside).guarded)
  | call group delay =>
      exact Guarded.done ((reads_resolve _ group).thenGuarded fun _ => guarded_call _ _)
  | wait seconds => exact (guarded_wait seconds).done
  | repeatWhile operand delay own name body =>
      refine (reads_condition operand).thenGuarded fun _ =>
        (reads_loopDelay delay).thenGuarded fun _ =>
        (guarded_repeatWhile _ _ fun _ => bound _ _).thenTotal fun made run => ?_
      cases name <;> exact ⟨_, _, rfl, rfl⟩
  | forLoop range delay index name body =>
      refine (reads_loopDelay delay).thenGuarded fun _ =>
        (guarded_forLoop range _ fun _ => bound _ _).thenTotal fun made run => ?_
      cases name <;> exact ⟨_, _, rfl, rfl⟩
  | sequence steps mode minInterval reset name =>
      refine (reads_resolveSteps steps).thenGuarded fun _ =>
        (guarded_sequence _ _ _ _).thenTotal fun made run => ?_
      cases name <;> exact ⟨_, _, rfl, rfl⟩
  | callSequence name =>
      exact Guarded.done ((reads_lookup _ name).thenGuarded fun _ => guarded_call _ _)
  | remappable parameters name body =>
      refine ((sure_remappable _ fun slots => ?_).bind fun _ => (sure_bindTo _ _).bind fun _ =>
        (sure_bindTo _ _).bind fun _ => sure_pure _).guarded
      exact (sure_bindCounters parameters slots).bind fun _ => inside
  | callRemapped name arguments =>
      exact Guarded.done ((reads_lookup _ name).thenGuarded fun _ =>
        (reads_resolveCounters arguments).thenGuarded fun _ => guarded_addMade _)
  | counter settings name =>
      exact ((sure_newCounter settings).bind fun _ => (sure_bindTo _ _).bind fun _ =>
        sure_pure _).guarded
  | change left op right =>
      exact Guarded.done ((reads_resolve _ left).thenGuarded fun _ =>
        (reads_resolve _ right).thenGuarded fun _ => (sure_add _).guarded)
  | reset left =>
      exact Guarded.done ((reads_resolve _ left).thenGuarded fun _ => (sure_add _).guarded)
  | transfer way left right =>
      exact Guarded.done ((reads_resolve _ left).thenGuarded fun _ =>
        (reads_resolve _ right).thenGuarded fun _ => (sure_transfer _ _ _).guarded)
  | ifIs left target comparator threshold =>
      exact Guarded.done ((reads_resolve _ left).thenGuarded fun _ =>
        (reads_resolve _ target).thenGuarded fun _ => guarded_addMade _)
  | condition operand target =>
      exact Guarded.done ((reads_condition operand).thenGuarded fun _ =>
        (reads_resolve _ target).thenGuarded fun _ => guarded_addMade _)
  | dispatch left values value body =>
      exact Guarded.done ((reads_resolve _ left).thenGuarded fun _ =>
        (sure_dispatch _ (fun _ => bound _ _) values).guarded)
  | fail message => exact Reads.guarded fun _ => rfl
  | attempt body => exact guarded_attempt inside.logs

end Build

/-- A statement that fails before any statement of its body was run changes nothing, as long as the
names of anonymous contexts are fresh: the ids, the contexts with their objects, the two indexes,
the stack, the chain, the bindings and the record are what they were. -/
theorem refused_statement_changes_nothing (run after : Run) (fresh : run.compiler.FreshNames)
    (statement : Statement) (error : CompileError)
    (failed : Build.outcome statement.exec run = (.error error, after))
    (unentered : after.finished = run.finished) : after = run := by
  have ended : (Build.outcome statement.exec run).1 = .error error := by rw [failed]
  have quiet : (Build.outcome statement.exec run).2.finished.length = run.finished.length := by
    rw [failed]
    exact congrArg List.length unentered
  have unchanged := (Build.guarded_exec statement).refused fresh quiet ended
  rwa [failed] at unchanged

/-- Statements of which every one has an argument it refuses, with bodies that would be recorded. -/
def Statement.refusedOnes : List Statement :=
  [.createContext "side" true (some "again"),
    .switchTo "nowhere",
    .extend (.literal (.group 99)) [.wait .zero],
    .call (.literal ⟨.color, 3⟩) .zero,
    .wait (Double.ofInt 1).neg,
    .repeatWhile ⟨.literal ⟨1, .item⟩, .smaller, .zero⟩ (some .nan) none none [.wait .zero],
    .forLoop ⟨0, 5, -1⟩ none none none [.wait .zero],
    .forLoop ⟨0, 5, 1⟩ (some (.infinity false)) none none [.wait .zero],
    .sequence [(.named "f", 1), (.literal ⟨.block, 2⟩, 1)] .loop .zero .never none,
    .ifIs (.literal ⟨1, .timer⟩) (.literal ⟨.color, 1⟩) .equal .zero,
    .condition ⟨.named "unbound", .larger, .zero⟩ (.named "f")]

/-- A run that has made a function with a continuation and stands in a named context. -/
def Run.busy : Run :=
  Run.blank.steps [.function none (some "f") [.wait .zero, .counter .plain (some "c")],
    .createContext "side" true none, .wait .zero]

theorem Run.freshNames_busy : Run.busy.compiler.FreshNames := by
  have names : Run.busy.compiler.names = Run.blank.compiler.names :=
    Run.names_of_reaches (Run.reaches_steps Run.blank _)
  exact Compiler.freshNames_of_lengths names (by decide +kernel)

theorem refused_ones_change_nothing :
    Run.busy.compiler.FreshNames ∧ ∀ statement ∈ Statement.refusedOnes, ∃ error,
      Build.outcome statement.exec Run.busy = (.error error, Run.busy) := by
  have refused : ∀ statement ∈ Statement.refusedOnes,
      (match (Build.outcome statement.exec Run.busy).1 with
      | .error _ => true
      | .ok _ => false) = true ∧
        (Build.outcome statement.exec Run.busy).2.finished.length = Run.busy.finished.length := by
    decide +kernel
  refine ⟨Run.freshNames_busy, fun statement member => ?_⟩
  obtain ⟨fails, quiet⟩ := refused statement member
  have log := (Build.advances_exec statement Run.busy).log
  rcases ended : Build.outcome statement.exec Run.busy with ⟨error | outcome, after⟩
  · rw [ended] at quiet log
    have unentered : after.finished = Run.busy.finished := (log.eq_of_length quiet.symm).symm
    rw [refused_statement_changes_nothing Run.busy after Run.freshNames_busy statement error ended
      unentered]
    exact ⟨error, rfl⟩
  · rw [ended] at fails
    cases fails

end TriggerGraph
