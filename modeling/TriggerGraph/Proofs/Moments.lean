import TriggerGraph.Proofs.Stack

/-!
# Moments in which a statement begins

What a statement is given may depend on the moment: a name stands for what it was bound to last.  So
a condition on all statements of a script speaks of each statement in the run in which it begins.
Where the body of a statement begins is told by what matters: an action in the place of the body
that does the same in these moments makes no difference.
-/

namespace TriggerGraph
namespace Statement

open Build in
/-- The statement with another action in the place of its body. -/
def around (inside : Build Unit) : Statement → Build Outcome
  | .function own name _ => do
      let group ← Build.function fun group => do
        bindTo own (.reference group)
        inside
      named name group
  | .extend group _ => done do
      let id ← Build.owner (← reference group)
      within id inside
  | .repeatWhile operand delay own name _ => do
      let held ← Build.condition operand
      let made ← Build.repeatWhile held (← loopDelay delay) fun group => do
        bindTo own (.reference group)
        inside
      bindTo (name.map (· ++ ".check")) (.reference made.check)
      bindTo (name.map (· ++ ".body")) (.reference made.body)
      return .loop made.check made.body ((← compiler).groupValue made.tail)
  | .forLoop range delay index name _ => do
      let made ← Build.forLoop range (← loopDelay delay) fun made => do
        bindTo index (.counter made)
        inside
      bindTo name (.counter made)
      return .counter made
  | .remappable parameters name _ => do
      let made ← Build.remappable parameters.length fun slots => do
        bindCounters parameters slots
        inside
      bindTo name (.remappable made)
      bindTo (name.map (· ++ ".group")) (.reference made.group)
      return .remappable made
  | .dispatch left values value _ => done do
      let left ← Build.counter left
      Build.dispatch left (fun n => do
        bindTo value (.integer n)
        inside) values
  | .attempt _ => Build.attempt inside
  | statement => exec statement

theorem around_body (statement : Statement) :
    statement.around (execAll statement.body) = statement.exec := by
  cases statement <;> rfl

/-- Started in the run, the statement begins its body in these moments only. -/
def BeginsBodyIn (statement : Statement) (run : Run) (moments : Run → Prop) : Prop :=
  ∀ inside : Build Unit,
    (∀ moment, moments moment →
      Build.outcome inside moment = Build.outcome (execAll statement.body) moment) →
      Build.outcome (statement.around inside) run = Build.outcome statement.exec run

theorem beginsBodyIn_all (statement : Statement) (run : Run) :
    statement.BeginsBodyIn run fun _ => True := by
  intro inside same
  have equal : inside = execAll statement.body := funext fun moment => same moment trivial
  rw [equal, around_body]

mutual

/-- The statement has a property in the run in which it begins, and so has every statement inside
it. -/
inductive Obeys (law : Run → Statement → Prop) : Run → Statement → Prop where
  | intro {run : Run} {statement : Statement} (moments : Run → Prop) (here : law run statement)
      (begins : statement.BeginsBodyIn run moments)
      (inside : ∀ moment, moments moment → ObeysAll law moment statement.body) :
      Obeys law run statement

/-- The statements of a body have a property in the runs in which they begin.  One that follows a
failure does not begin at all. -/
inductive ObeysAll (law : Run → Statement → Prop) : Run → List Statement → Prop where
  | nil {run : Run} : ObeysAll law run []
  | cons {run : Run} {statement : Statement} {rest : List Statement}
      (first : Obeys law run statement)
      (others : ∀ after,
        Build.outcome (Build.record statement statement.exec) run = (.ok (), after) →
        ObeysAll law after rest) :
      ObeysAll law run (statement :: rest)

end

theorem obeysAll_of_forall {law : Run → Statement → Prop} {statements : List Statement}
    (each : ∀ statement ∈ statements, ∀ run, Obeys law run statement) (run : Run) :
    ObeysAll law run statements := by
  induction statements generalizing run with
  | nil => exact .nil
  | cons statement rest ih =>
      rw [List.forall_mem_cons] at each
      exact .cons (each.1 run) fun after _ => ih each.2 after

/-- A property that a statement and those inside it have in all runs. -/
theorem obeys_of_everywhere {law : Run → Statement → Prop} {statement : Statement}
    (everywhere : statement.Everywhere fun inner => ∀ run, law run inner) (run : Run) :
    Obeys law run statement := by
  induction everywhere generalizing run with
  | @intro statement here _ ih =>
      exact .intro _ (here run) (beginsBodyIn_all statement run) fun moment _ =>
        obeysAll_of_forall ih moment

/-- A statement without a body has to be looked at in one run only. -/
theorem obeys_of_bodiless {law : Run → Statement → Prop} {statement : Statement} {run : Run}
    (bodiless : statement.body = []) (here : law run statement) : Obeys law run statement :=
  .intro _ here (beginsBodyIn_all statement run) fun _ _ => by
    rw [bodiless]
    exact .nil

end Statement

/-- The statements of a script have a property in the runs in which they begin. -/
def Run.Obeys (law : Run → Statement → Prop) : Run → List Statement → Prop
  | _, [] => True
  | run, statement :: rest =>
      Statement.Obeys law run statement ∧ Run.Obeys law (run.step statement) rest

/-! ## What an obedient script keeps -/

namespace Build

open Classical in
/-- The action in some moments, and nothing in all others. -/
noncomputable def onlyIn (moments : Run → Prop) (action : Build Unit) : Build Unit :=
  ExceptT.mk fun run => if moments run then outcome action run else (.ok (), run)

theorem outcome_onlyIn_of_pos {moments : Run → Prop} {run : Run} (begins : moments run)
    (action : Build Unit) : outcome (onlyIn moments action) run = outcome action run :=
  if_pos begins

theorem outcome_onlyIn_of_neg {moments : Run → Prop} {run : Run} (other : ¬ moments run)
    (action : Build Unit) : outcome (onlyIn moments action) run = (.ok (), run) :=
  if_neg other

/-- The laws under which a relation is kept by every script whose statements have a property when
they begin: only bodies that keep the relation have to be looked at. -/
structure Upholds (law : Run → Statement → Prop) (R : Run → Run → Prop) : Prop where
  refl (run : Run) : R run run
  trans {first second third : Run} : R first second → R second third → R first third
  record (run : Run) (entry : Entry) : R run { run with finished := entry :: run.finished }
  around {run : Run} {statement : Statement} {inside : Build Unit} : law run statement →
    Keeps R inside → R run (outcome (statement.around inside) run).2

namespace Upholds

open Statement

variable {law : Run → Statement → Prop} {R : Run → Run → Prop}

theorem recorded (upholds : Upholds law R) {run : Run} {statement : Statement}
    (kept : R run (outcome statement.exec run).2) :
    R run (outcome (Build.record statement statement.exec) run).2 :=
  upholds.trans kept (upholds.record _ _)

theorem statement (upholds : Upholds law R) {run : Run} {statement : Statement}
    {moments : Run → Prop} (here : law run statement) (begins : statement.BeginsBodyIn run moments)
    (inside : ∀ moment, moments moment → R moment (outcome (execAll statement.body) moment).2) :
    R run (outcome statement.exec run).2 := by
  -- a body that does nothing where it never begins keeps the relation everywhere
  have kept : Keeps R (onlyIn moments (execAll statement.body)) := by
    intro moment
    by_cases begun : moments moment
    · rw [outcome_onlyIn_of_pos begun]
      exact inside moment begun
    · rw [outcome_onlyIn_of_neg begun]
      exact upholds.refl moment
  rw [← begins _ fun moment begun => outcome_onlyIn_of_pos begun _]
  exact upholds.around here kept

theorem body (upholds : Upholds law R) {run : Run} {statement : Statement} {rest : List Statement}
    (first : R run (outcome statement.exec run).2)
    (others : ∀ after, outcome (Build.record statement statement.exec) run = (.ok (), after) →
      R after (outcome (execAll rest) after).2) :
    R run (outcome (execAll (statement :: rest)) run).2 := by
  have kept := upholds.recorded first
  cases ended : (outcome (Build.record statement statement.exec) run).1 with
  | error error =>
      rw [outcome_execAll_of_stop ended]
      exact kept
  | ok _ =>
      rw [outcome_execAll_of_step ended]
      exact upholds.trans kept (others _ (Prod.ext ended rfl))

theorem exec (upholds : Upholds law R) {run : Run} {statement : Statement}
    (obeys : Obeys law run statement) : R run (outcome statement.exec run).2 := by
  refine @Obeys.rec law (fun run statement _ => R run (outcome statement.exec run).2)
    (fun run statements _ => R run (outcome (execAll statements) run).2) ?_ ?_ ?_ run statement
    obeys
  · intro run statement moments here begins _ ih
    exact upholds.statement here begins ih
  · intro run
    exact upholds.refl run
  · intro run statement rest _ _ first others
    exact upholds.body first others

theorem steps (upholds : Upholds law R) {run : Run} {script : List Statement}
    (obeys : run.Obeys law script) : R run (run.steps script) := by
  induction script generalizing run with
  | nil => exact upholds.refl run
  | cons statement rest ih =>
      exact upholds.trans (upholds.recorded (upholds.exec obeys.1)) (ih obeys.2)

end Upholds
end Build
end TriggerGraph
