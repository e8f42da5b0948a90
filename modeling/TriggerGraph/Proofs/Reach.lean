import Mathlib.Logic.Relation
import TriggerGraph.Proofs.Stack

/-!
# Runs as elementary changes

Whatever a script does, and wherever it fails, is a row of elementary changes: a name is bound, an
id is taken, a context is opened, filled, entered, left or continued, a finished statement is
recorded. So every property kept by the elementary changes holds between any two moments of a run,
also inside the bodies of statements that have not finished yet.
-/

namespace TriggerGraph

/-- The statements that hand a group to the script. -/
def Statement.drawsGroup : Statement → Bool
  | .fresh .group _ => true
  | _ => false

namespace Run

/-- One elementary change.  A group is handed to the script and recorded at once, so that the record
tells all groups that the script was given. -/
inductive Move : Run → Run → Prop where
  | name (run : Run) (bindings : List (String × Binding)) : Move run { run with bindings }
  | draw (run : Run) (domain : Domain) :
      domain ≠ .group → Move run (run.withCompiler (run.compiler.next domain).2)
  | drawGroup (run : Run) (name : Option String) : Move run (run.step (.fresh .group name))
  | reserve (run : Run) (domain : Domain) (value : UInt32) :
      Move run (run.withCompiler (run.compiler.reserve domain value).2)
  | drawItem (run : Run) : Move run (run.withCompiler run.compiler.nextItem.2)
  | reserveItem (run : Run) (item : UInt32) :
      Move run (run.withCompiler (run.compiler.reserveItem item))
  | opening (run : Run) {name : String} {opened : Opened} {next : Compiler} :
      run.compiler.Opens name opened next → Move run (run.withCompiler next)
  | append (run : Run) (id : Nat) (object : Object) :
      Move run (run.withCompiler (run.compiler.addTo id object))
  | switch (run : Run) {id : Nat} : id < run.compiler.contexts.length →
      Move run (run.withCompiler (run.compiler.switchTo id))
  | proceed (run : Run) {id : Nat} : id < run.compiler.contexts.length →
      Move run (run.withCompiler ((run.compiler.link run.compiler.current id).switchTo id))
  | enter (run : Run) {id : Nat} : id < run.compiler.contexts.length →
      Move run (run.withCompiler (run.compiler.enter id))
  | leave (run : Run) : Move run run.leave
  | record (run : Run) {entry : Entry} : entry.statement.drawsGroup = false →
      Move run { run with finished := entry :: run.finished }

/-- A row of elementary changes leads from one run to another. -/
abbrev Reaches : Run → Run → Prop := Relation.ReflTransGen Move

/-- Entering a context, running a body and leaving it again. -/
theorem reaches_leave {run after : Run} {prepared : Compiler} {id : Nat}
    (begun : Reaches run (run.withCompiler prepared)) (valid : id < prepared.contexts.length)
    (inside : Reaches (run.withCompiler (prepared.enter id)) after) : Reaches run after.leave := by
  have entered : Reaches run (run.withCompiler (prepared.enter id)) :=
    begun.tail (.enter (run.withCompiler prepared) valid)
  exact (entered.trans inside).tail (.leave after)

theorem reaches_prepared {run : Run} {condition : Condition}
    (start : run.compiler.LoopStart condition) :
    Reaches run (run.withCompiler start.prepared) := by
  have first : Reaches run (run.withCompiler start.first) :=
    .single (.opening run (Compiler.opens_of_openContext start.opensCheck))
  have second : Reaches run (run.withCompiler start.second) :=
    first.tail (.opening (run.withCompiler start.first)
      (Compiler.opens_of_openContext start.opensInner))
  have compared := second.tail (.append (run.withCompiler start.second) start.check.id
    start.comparison)
  exact compared.tail (.append _ _ start.spawn)

theorem reaches_of_loop {run after : Run} {condition : Condition}
    (start : run.compiler.LoopStart condition)
    (inside : Reaches (run.withCompiler (start.prepared.enter start.inner.id)) after) :
    Reaches run after.leave := by
  refine reaches_leave (reaches_prepared start) ?_ inside
  rw [start.inner_id, start.length_prepared]
  omega

end Run

namespace Build

open Run in
theorem reaches_scopes : Scopes Reaches Reaches (· ≠ .group) where
  widen reaches := reaches
  refl _ := .refl
  trans := .trans
  transInner := .trans
  name run bindings := .single (.name run bindings)
  next run domain other := .single (.draw run domain other)
  reserve run domain value := .single (.reserve run domain value)
  nextItem run := .single (.drawItem run)
  reserveItem run item := .single (.reserveItem run item)
  opening run _ _ _ opens := .single (.opening run opens)
  append run object := .single (.append run _ object)
  appendGlobal run object := .single (.append run 0 object)
  scope {run} _ _ _ _ opens inside :=
    reaches_leave (.single (.opening run opens)) (by rw [opens.id, opens.length]; omega) inside
  failing start inside := reaches_of_loop start inside
  closing {_ after} _ start next inside :=
    (reaches_of_loop start inside).tail (.append after.leave _ next)

theorem reaches_wait (seconds : Double) : Keeps Run.Reaches (wait seconds) := by
  intro run
  rcases outcome_wait seconds run with ⟨error, failed⟩ | ⟨opened, next, object, made, _, ended⟩
  · rw [failed]
  · have opens := Compiler.opens_of_openContext made
    have appended : Run.Reaches run (run.withCompiler (next.add object)) :=
      (Relation.ReflTransGen.single (.opening run opens)).tail
        (.append (run.withCompiler next) _ object)
    have valid : opened.id < (next.add object).contexts.length := by
      rw [Compiler.add, Compiler.length_addTo, opens.length, opens.id]
      omega
    have current : (next.add object).current = run.compiler.current := by
      simp [Compiler.current, Compiler.add, Compiler.addTo, opens.stack]
    rw [ended, ← current]
    exact appended.tail (.proceed (run.withCompiler (next.add object)) valid)

theorem reaches_laws : Laws (fun _ => Keeps Run.Reaches) (fun _ => Keeps Run.Reaches)
    (fun statement => statement.drawsGroup = false) := by
  refine reaches_scopes.moving_laws (fun run _ valid => .single (.switch run valid))
    (fun valid inside => Run.reaches_leave .refl valid inside) reaches_wait ?_
  rintro domain name allowed rfl
  cases allowed

theorem reaches_record (statement : Statement) :
    Keeps Run.Reaches (record statement statement.exec) := by
  apply reaches_laws.record_everywhere
  · intro statement other kept run
    exact (kept run).tail (.record _ other)
  · intro statement drawn run
    cases statement with
    | fresh domain name =>
        cases domain with
        | group => exact .single (.drawGroup run name)
        | color | block => cases drawn rfl
    | _ => cases drawn rfl

end Build

namespace Run

theorem reaches_step (run : Run) (statement : Statement) : run.Reaches (run.step statement) :=
  Build.reaches_record statement run

theorem reaches_steps (run : Run) (script : List Statement) : run.Reaches (run.steps script) := by
  induction script generalizing run with
  | nil => exact .refl
  | cons statement rest ih => exact (run.reaches_step statement).trans (ih _)

/-- The runs in which a statement can begin are reached from the start. -/
theorem Reachable.reaches {run : Run} (reachable : run.Reachable) :
    ∃ options names, (Run.start (.start options names)).Reaches run := by
  induction reachable with
  | start options names => exact ⟨options, names, .refl⟩
  | step statement _ ih =>
      obtain ⟨options, names, reached⟩ := ih
      exact ⟨options, names, reached.trans (reaches_step _ statement)⟩
  | name name binding _ ih =>
      obtain ⟨options, names, reached⟩ := ih
      exact ⟨options, names, reached.tail (.name _ _)⟩
  | slot _ ih =>
      obtain ⟨options, names, reached⟩ := ih
      exact ⟨options, names, reached.tail (.drawItem _)⟩
  | opening _ made ih =>
      obtain ⟨options, names, reached⟩ := ih
      exact ⟨options, names, reached.tail (.opening _ (Compiler.opens_of_openContext made))⟩
  | append id object _ ih =>
      obtain ⟨options, names, reached⟩ := ih
      exact ⟨options, names, reached.tail (.append _ id object)⟩
  | enter _ valid ih =>
      obtain ⟨options, names, reached⟩ := ih
      exact ⟨options, names, reached.tail (.enter _ valid)⟩

/-- The supply of names is given once and for all. -/
theorem names_of_reaches {before after : Run} (reaches : before.Reaches after) :
    after.compiler.names = before.compiler.names := by
  induction reaches with
  | refl => rfl
  | tail _ move ih =>
      rw [← ih]
      cases move with
      | drawGroup name => cases name <;> rfl
      | opening opens => exact opens.names
      | _ => rfl

end Run
end TriggerGraph
