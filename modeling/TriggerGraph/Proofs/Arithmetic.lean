import Mathlib.Tactic.NormNum
import TriggerGraph.Proofs.Game
import TriggerGraph.Proofs.Stack

/-!
# Counters keep what scripts compute

Triggers that change counters are read over a store with one exact number for each counter.  Every
change of a counter becomes a trigger that makes the same change to the store, whatever its kind and
its operand are, so a script of such statements is run by the objects that it is made into.
-/

namespace TriggerGraph

/-! ## What scripts compute -/

/-- The value of each counter; the two kinds of slots hold different cells. -/
abbrev Store := Counter → ℚ

/-- The new value of a counter, from the old one and an operand. -/
def CounterOp.apply : CounterOp → ℚ → ℚ → ℚ
  | .set, _, operand => operand
  | .add, old, operand => old + operand
  | .subtract, old, operand => old - operand
  | .multiply, old, operand => old * operand
  | .divide, old, operand => old / operand

namespace Store

/-- The value of an amount. -/
def value (store : Store) : Amount → ℚ
  | .constant x => x.toRat
  | .counter counter => store counter

/-- Change a counter by an amount. -/
def change (store : Store) (counter : Counter) (op : CounterOp) (amount : Amount) : Store :=
  Function.update store counter (op.apply (store counter) (store.value amount))

/-- Carry a counter over to another; unless it is copied it is zero afterwards. -/
def transfer (store : Store) (counter other : Counter) : Transfer → Store
  | .copy => Function.update store other (store counter)
  | .add =>
      Function.update (Function.update store other (store other + store counter)) counter 0
  | .subtract =>
      Function.update (Function.update store other (store other - store counter)) counter 0

end Store

/-- What an operand stands for among some bindings. -/
def Operand.meaning? {α : Type} (kind : Binding → Option α) (bindings : List (String × Binding)) :
    Operand α → Option α
  | .literal value => some value
  | .named name => (bindings.lookup name).bind kind

/-- The statements that only change counters. -/
def Statement.isArithmetic : Statement → Bool
  | .change .. | .reset .. | .transfer .. => true
  | _ => false

/-- Perform a statement that changes counters; a name that stands for no counter stops it. -/
def Store.perform (bindings : List (String × Binding)) (store : Store) : Statement → Store
  | .change left op right =>
      match left.meaning? Binding.toCounter? bindings,
        right.meaning? Binding.toAmount? bindings with
      | some counter, some amount => store.change counter op amount
      | _, _ => store
  | .reset left =>
      match left.meaning? Binding.toCounter? bindings with
      | some counter => Function.update store counter 0
      | none => store
  | .transfer way left right =>
      match left.meaning? Binding.toCounter? bindings,
        right.meaning? Binding.toCounter? bindings with
      | some counter, some other => store.transfer counter other way
      | _, _ => store
  | _ => store

/-! ## What triggers do -/

/-- The counter whose slot and kind two fields give. -/
def Object.cell (object : Object) (slot kind : String) : Counter :=
  ⟨object.id slot, if object.amount kind = 2 then .timer else .item⟩

namespace Store

/-- Collect an item: its value is multiplied, divided, set or added to. -/
def collect (store : Store) (object : Object) : Store :=
  let item : Counter := ⟨object.id Field.item, .item⟩
  let mode := object.amount Field.multiplyDivide
  Function.update store item
    (if mode = 1 then store item * object.amount Field.modifier
    else if mode = 2 then store item / object.amount Field.modifier
    else if object.flag Field.override then object.amount Field.count
    else store item + object.amount Field.count)

/-- The new value under the code of an assignment. -/
def assign (code old operand : ℚ) : ℚ :=
  if code = 0 then operand
  else if code = 1 then old + operand
  else if code = 2 then old - operand
  else if code = 3 then old * operand
  else if code = 4 then old / operand
  else old

/-- Edit a counter by a factor, or by the multiple of another counter if there is one. -/
def edit (store : Store) (object : Object) : Store :=
  let target := object.cell Field.itemTarget Field.targetType
  let factor := object.amount Field.factor
  let operand :=
    if (object.get? Field.firstItem).isSome then
      store (object.cell Field.firstItem Field.firstType) * factor
    else factor
  Function.update store target
    (assign (object.amount Field.assignOp) (store target) operand)

/-- Run one object. -/
def act (store : Store) (object : Object) : Store :=
  if object.type? = some ObjectType.pickup then store.collect object
  else if object.type? = some ObjectType.itemEdit then store.edit object
  else store

end Store

/-! ## Triggers that change counters -/

theorem Double.toRat_neg (x : Double) : (-x).toRat = -x.toRat := by
  cases x with
  | nan => exact neg_zero.symm
  | infinity negative => exact neg_zero.symm
  | finite negative magnitude =>
      have positive : (finite false magnitude).toRat = (magnitude.units / one : ℚ) := by
        rw [toRat, if_neg Bool.false_ne_true]
      have opposite : (finite true magnitude).toRat = -(magnitude.units / one : ℚ) := by
        rw [toRat, if_pos rfl]
      cases negative with
      | false => exact opposite.trans (congrArg _ positive.symm)
      | true =>
          rw [opposite, neg_neg]
          exact positive

namespace Object

theorem amount_of_ofInt {object : Object} {key : String} {value : Int}
    (found : object.get? key = some (.ofInt value)) (small : value.natAbs ≤ 2 ^ 53) :
    object.amount key = value :=
  (amount_of_number found).trans (Double.toRat_ofInt small)

theorem flag_of_true {object : Object} {key : String}
    (found : object.get? key = some (.boolean true)) : object.flag key = true := by
  have set : object.number? key = some (Double.ofInt 1) := by
    rw [number?, found]
    rfl
  rw [flag, set, Option.any_some, Double.isZero_ofInt (by decide)]
  rfl

theorem cell_of_get? {object : Object} {slot kind : String} {counter : Counter}
    (item : object.get? slot = some (.ofUInt32 counter.item))
    (code : object.get? kind = some (.ofInt (Trigger.kindCode counter.kind))) :
    object.cell slot kind = counter := by
  have small : ∀ kind, (Trigger.kindCode kind).natAbs ≤ 2 ^ 53 := by
    intro kind
    cases kind <;> decide
  rw [cell, id_of_get? item, amount_of_ofInt code (small _)]
  obtain ⟨number, sort⟩ := counter
  cases sort <;> simp [Trigger.kindCode]

end Object

namespace Store

theorem assign_opCode (op : CounterOp) (old operand : ℚ) :
    assign (Trigger.opCode op : Int) old operand = op.apply old operand := by
  cases op <;> simp [assign, Trigger.opCode, CounterOp.apply]

section Triggers

variable (store : Store)

theorem act_of_pickup {object : Object} {item : UInt32}
    (type : object.get? Field.objectId = some (.ofUInt32 ObjectType.pickup))
    (slot : object.get? Field.item = some (.ofUInt32 item)) :
    store.act object = Function.update store ⟨item, .item⟩
      (if object.amount Field.multiplyDivide = 1 then
        store ⟨item, .item⟩ * object.amount Field.modifier
      else if object.amount Field.multiplyDivide = 2 then
        store ⟨item, .item⟩ / object.amount Field.modifier
      else if object.flag Field.override then object.amount Field.count
      else store ⟨item, .item⟩ + object.amount Field.count) := by
  rw [act, if_pos (Object.type?_of_get? type), collect, Object.id_of_get? slot]

theorem act_pickupSet (item : UInt32) (x : Double) :
    store.act (Trigger.pickupSet item x) = store.change ⟨item, .item⟩ .set (.constant x) := by
  have mode : (Trigger.pickupSet item x).amount Field.multiplyDivide = 0 :=
    Object.amount_of_none rfl
  have override : (Trigger.pickupSet item x).flag Field.override = true := Object.flag_of_true rfl
  have count : (Trigger.pickupSet item x).amount Field.count = x.toRat :=
    Object.amount_of_number rfl
  rw [act_of_pickup store rfl rfl, mode, override, count]
  simp [change, CounterOp.apply, value]

theorem act_pickupAdd (item : UInt32) (x : Double) :
    store.act (Trigger.pickupAdd item x) = store.change ⟨item, .item⟩ .add (.constant x) := by
  have mode : (Trigger.pickupAdd item x).amount Field.multiplyDivide = 0 :=
    Object.amount_of_none rfl
  have override : (Trigger.pickupAdd item x).flag Field.override = false := rfl
  have count : (Trigger.pickupAdd item x).amount Field.count = x.toRat :=
    Object.amount_of_number rfl
  rw [act_of_pickup store rfl rfl, mode, override, count]
  simp [change, CounterOp.apply, value]

theorem act_pickupScale (item : UInt32) (x : Double) (divide : Bool) :
    store.act (Trigger.pickupScale item x divide) =
      store.change ⟨item, .item⟩ (if divide then .divide else .multiply) (.constant x) := by
  have mode : (Trigger.pickupScale item x divide).amount Field.multiplyDivide =
      ((if divide then 2 else 1 : Int) : ℚ) :=
    Object.amount_of_ofInt rfl (by cases divide <;> decide)
  have factor : (Trigger.pickupScale item x divide).amount Field.modifier = x.toRat :=
    Object.amount_of_number rfl
  rw [act_of_pickup store rfl rfl, mode, factor]
  cases divide <;> simp [change, CounterOp.apply, value]

theorem act_of_itemEdit {object : Object} {target : Counter} {op : CounterOp}
    (type : object.get? Field.objectId = some (.ofUInt32 ObjectType.itemEdit))
    (slot : object.get? Field.itemTarget = some (.ofUInt32 target.item))
    (kind : object.get? Field.targetType = some (.ofInt (Trigger.kindCode target.kind)))
    (code : object.get? Field.assignOp = some (.ofInt (Trigger.opCode op))) :
    store.act object = Function.update store target (op.apply (store target)
      (if (object.get? Field.firstItem).isSome then
        store (object.cell Field.firstItem Field.firstType) * object.amount Field.factor
      else object.amount Field.factor)) := by
  have isEdit := Object.type?_of_get? type
  have apart : object.type? ≠ some ObjectType.pickup := by
    rw [isEdit]
    decide
  have small : ∀ op, (Trigger.opCode op).natAbs ≤ 2 ^ 53 := by
    intro op
    cases op <;> decide
  rw [act, if_neg apart, if_pos isEdit, edit, Object.cell_of_get? slot kind,
    Object.amount_of_ofInt code (small op), assign_opCode]

theorem act_itemEdit (target source : Counter) (op : CounterOp) :
    store.act (Trigger.itemEdit target source op) = store.change target op (.counter source) := by
  have operand :
      (Trigger.itemEdit target source op).cell Field.firstItem Field.firstType = source :=
    Object.cell_of_get? rfl rfl
  have factor : (Trigger.itemEdit target source op).amount Field.factor = (1 : Int) :=
    Object.amount_of_ofInt rfl (by decide)
  rw [act_of_itemEdit store rfl rfl rfl rfl, operand, factor, Int.cast_one, mul_one]
  rfl

theorem act_itemEditConstant (target : Counter) (x : Double) (op : CounterOp) :
    store.act (Trigger.itemEditConstant target x op) = store.change target op (.constant x) := by
  have factor : (Trigger.itemEditConstant target x op).amount Field.factor = x.toRat :=
    Object.amount_of_number rfl
  rw [act_of_itemEdit store rfl rfl rfl rfl, factor]
  rfl

/-- The trigger of a change makes that change. -/
theorem act_change (counter : Counter) (op : CounterOp) (amount : Amount) :
    store.act (Trigger.change counter op amount) = store.change counter op amount := by
  obtain ⟨item, kind⟩ := counter
  cases amount with
  | counter source => exact act_itemEdit store _ source op
  | constant x =>
      cases kind with
      | timer => exact act_itemEditConstant store _ x op
      | item =>
          cases op with
          | set => exact act_pickupSet store item x
          | add => exact act_pickupAdd store item x
          | subtract =>
              -- an item is lowered by adding the opposite number
              refine (act_pickupAdd store item (-x)).trans ?_
              simp only [change, CounterOp.apply, value, Double.toRat_neg, sub_eq_add_neg]
          | multiply => exact act_pickupScale store item x false
          | divide => exact act_pickupScale store item x true

theorem change_zero (counter : Counter) :
    store.change counter .set (.constant .zero) = Function.update store counter 0 := by
  have zero : Double.zero.toRat = 0 := Double.toRat_of_isZero rfl
  rw [change, CounterOp.apply, value, zero]

end Triggers
end Store

/-! ## Statements that change counters -/

/-- Append objects to the current context. -/
def Compiler.addAll (compiler : Compiler) (objects : List Object) : Compiler :=
  { compiler with
    contexts := compiler.contexts.modify compiler.current fun context =>
      { context with objects := context.objects ++ objects }
    named := by rw [Context.map_modify fun _ _ => rfl, compiler.named]
    owned := by rw [Context.map_modify fun _ _ => rfl, compiler.owned] }

theorem Compiler.addAll_nil (compiler : Compiler) : compiler.addAll [] = compiler := by
  have same : (fun context : Context => { context with objects := context.objects ++ [] }) = id :=
    funext fun context => by rw [List.append_nil]; rfl
  refine ext_of_contexts rfl ?_ rfl rfl rfl rfl
  simp only [addAll, same, List.modify_id]

theorem Compiler.addAll_addAll (compiler : Compiler) (first second : List Object) :
    (compiler.addAll first).addAll second = compiler.addAll (first ++ second) := by
  refine ext_of_contexts rfl ?_ rfl rfl rfl rfl
  simp only [addAll, current, List.modify_modify_eq, Function.comp_def, List.append_assoc]

/-- The run with objects appended to the current context. -/
def Run.emit (run : Run) (objects : List Object) : Run :=
  run.withCompiler (run.compiler.addAll objects)

theorem Run.emit_nil (run : Run) : run.emit [] = run := by
  rw [emit, Compiler.addAll_nil]
  rfl

theorem Run.emit_emit (run : Run) (first second : List Object) :
    (run.emit first).emit second = run.emit (first ++ second) := by
  rw [emit, emit, emit, Run.withCompiler_withCompiler, Run.compiler_withCompiler,
    Compiler.addAll_addAll]

namespace Build

/-- However the action ends, it has appended objects to the current context that do the same to
every store as its meaning. -/
def Emits {α : Type} (run : Run) (action : Build α) (meaning : Store → Store) : Prop :=
  ∃ result objects, outcome action run = (result, run.emit objects) ∧
    ∀ store, objects.foldl Store.act store = meaning store

section Emits

variable {run : Run}

theorem emits_of_error {α : Type} {action : Build α} {error : CompileError}
    (failed : outcome action run = (.error error, run)) : Emits run action id :=
  ⟨.error error, [], by rw [Run.emit_nil, failed], fun _ => rfl⟩

theorem emits_changeCounter (counter : Counter) (op : CounterOp) (amount : Amount) :
    Emits run (changeCounter counter op amount) (·.change counter op amount) :=
  ⟨.ok (), [Trigger.change counter op amount], rfl, fun store => store.act_change counter op amount⟩

theorem emits_resetCounter (counter : Counter) :
    Emits run (resetCounter counter) (Function.update · counter 0) := by
  refine ⟨.ok (), [Trigger.change counter .set (.constant .zero)], rfl, fun store => ?_⟩
  exact (store.act_change counter .set (.constant .zero)).trans (store.change_zero counter)

theorem emits_transfer (way : Transfer) (counter other : Counter) :
    Emits run (transfer way counter other) (·.transfer counter other way) := by
  -- what is carried over is added or subtracted first, and only then is its source set to zero
  have both (op : CounterOp) : Emits run
      (do changeCounter other op (.counter counter); resetCounter counter)
      fun store => Function.update (store.change other op (.counter counter)) counter 0 := by
    refine ⟨.ok (), [Trigger.change other op (.counter counter)] ++
      [Trigger.change counter .set (.constant .zero)], ?_, fun store => ?_⟩
    · rw [← Run.emit_emit]
      rfl
    · rw [List.foldl_append, List.foldl_cons, List.foldl_nil, List.foldl_cons, List.foldl_nil,
        Store.act_change, Store.act_change, Store.change_zero]
  cases way with
  | copy => exact emits_changeCounter other .set (.counter counter)
  | add => exact both .add
  | subtract => exact both .subtract

theorem Emits.done {action : Build Unit} {meaning : Store → Store}
    (emits : Emits run action meaning) : Emits run (Build.done action) meaning := by
  obtain ⟨result, objects, ended, same⟩ := emits
  cases result with
  | error error => exact ⟨.error error, objects, outcome_bind_of_error ended, same⟩
  | ok value => exact ⟨.ok .done, objects, outcome_bind_of_ok ended, same⟩

section Resolve

variable {α β : Type} {kind : Binding → Option α} {operand : Operand α} {next : α → Build β}

/-- What follows a resolved operand emits, or the operand stands for nothing and stops it. -/
theorem emits_resolve {meaning : Store → Store}
    (found : ∀ value, operand.meaning? kind run.bindings = some value →
      Emits run (next value) meaning)
    (missing : operand.meaning? kind run.bindings = none → meaning = id) :
    Emits run (resolve kind operand >>= next) meaning := by
  cases operand with
  | literal value => exact found value rfl
  | named name =>
      have ended : outcome (resolve kind (.named name)) run =
          outcome (demand (.unknownContext ("$" ++ name))
            ((run.bindings.lookup name).bind kind)) run := rfl
      cases stands : (run.bindings.lookup name).bind kind with
      | some value =>
          rw [stands] at ended
          obtain ⟨result, objects, emitted, same⟩ := found value stands
          exact ⟨result, objects, (outcome_bind_of_ok ended).trans emitted, same⟩
      | none =>
          rw [stands] at ended
          rw [missing stands]
          exact emits_of_error (outcome_bind_of_error ended)

end Resolve

/-- A statement that changes counters emits objects that do what it says. -/
theorem emits_exec {statement : Statement} (arithmetic : statement.isArithmetic = true) :
    Emits run statement.exec (·.perform run.bindings statement) := by
  cases statement with
  | change left op right =>
      refine Emits.done (emits_resolve (fun counter found => ?_) fun missing => ?_)
      · refine emits_resolve (fun amount given => ?_) fun missing => ?_
        · simp only [Store.perform, found, given]
          exact emits_changeCounter counter op amount
        · funext store
          simp only [Store.perform, found, missing, id]
      · funext store
        simp only [Store.perform, missing, id]
  | reset left =>
      refine Emits.done (emits_resolve (fun counter found => ?_) fun missing => ?_)
      · simp only [Store.perform, found]
        exact emits_resetCounter counter
      · funext store
        simp only [Store.perform, missing, id]
  | transfer way left right =>
      refine Emits.done (emits_resolve (fun counter found => ?_) fun missing => ?_)
      · refine emits_resolve (fun other given => ?_) fun missing => ?_
        · simp only [Store.perform, found, given]
          exact emits_transfer way counter other
        · funext store
          simp only [Store.perform, found, missing, id]
      · funext store
        simp only [Store.perform, missing, id]
  | _ => cases arithmetic

end Emits
end Build

namespace Run

/-- One statement appends objects that do what it says. -/
theorem step_of_isArithmetic (run : Run) {statement : Statement}
    (arithmetic : statement.isArithmetic = true) :
    ∃ emitted, (run.step statement).compiler = run.compiler.addAll emitted ∧
      (run.step statement).bindings = run.bindings ∧
      ∀ store, emitted.foldl Store.act store = store.perform run.bindings statement := by
  have emits : Build.Emits run statement.exec _ := Build.emits_exec arithmetic
  obtain ⟨result, emitted, ended, same⟩ := emits
  have recorded : run.step statement = _ := congrArg Prod.snd (Build.outcome_record ended)
  rw [recorded]
  exact ⟨emitted, rfl, rfl, same⟩

theorem steps_of_isArithmetic (run : Run) {script : List Statement}
    (arithmetic : ∀ statement ∈ script, statement.isArithmetic = true) :
    ∃ emitted, (run.steps script).compiler = run.compiler.addAll emitted ∧
      ∀ store, emitted.foldl Store.act store =
        script.foldl (Store.perform run.bindings) store := by
  induction script generalizing run with
  | nil => exact ⟨[], run.compiler.addAll_nil.symm, fun _ => rfl⟩
  | cons statement rest ih =>
      rw [List.forall_mem_cons] at arithmetic
      obtain ⟨first, begun, kept, one⟩ := run.step_of_isArithmetic arithmetic.1
      obtain ⟨others, ended, more⟩ := ih (run.step statement) arithmetic.2
      refine ⟨first ++ others, ?_, fun store => ?_⟩
      · rw [← Compiler.addAll_addAll, ← begun]
        exact ended
      · rw [List.foldl_append, one, more, kept, List.foldl_cons]

end Run

/-- A script of changes to counters appends objects to the current context, and these objects do to
every store what the script says. -/
theorem emitted_objects_compute_counters (run : Run) (reachable : run.Reachable)
    (script : List Statement)
    (arithmetic : ∀ statement ∈ script, statement.isArithmetic = true) :
    ∃ context emitted, run.compiler.context? run.compiler.current = some context ∧
      (run.steps script).compiler.context? run.compiler.current =
        some { context with objects := context.objects ++ emitted } ∧
      (run.steps script).compiler = run.compiler.addAll emitted ∧
      ∀ store, emitted.foldl Store.act store =
        script.foldl (Store.perform run.bindings) store := by
  have inside : run.compiler.current < run.compiler.contexts.length := reachable.ordered.current_lt
  obtain ⟨context, here⟩ : ∃ context, run.compiler.context? run.compiler.current = some context :=
    ⟨_, List.getElem?_eq_getElem inside⟩
  obtain ⟨emitted, appended, same⟩ := run.steps_of_isArithmetic arithmetic
  refine ⟨context, emitted, here, ?_, appended, same⟩
  rw [Compiler.context?] at here ⊢
  rw [appended, Compiler.addAll, List.getElem?_modify_eq, here]
  rfl

/-- Double a counter, subtract it from a timer, and add it to itself when it is empty. -/
def Statement.doubling : List Statement :=
  [.change (.named "c") .set (.literal (.constant (.ofInt 7))),
    .change (.named "c") .add (.named "c"),
    .transfer .subtract (.named "c") (.literal ⟨5, .timer⟩),
    .transfer .add (.named "c") (.named "c")]

/-- The timer is lowered by twice the value of the counter. -/
theorem doubled_counter_lowers_timer :
    ∃ run : Run, run.Reachable ∧
      (∀ statement ∈ Statement.doubling, statement.isArithmetic = true) ∧
      ∃ emitted, (run.steps Statement.doubling).compiler = run.compiler.addAll emitted ∧
        ∀ start, emitted.foldl Store.act start =
          Function.update (Function.update start ⟨5, .timer⟩ (start ⟨5, .timer⟩ - 14))
            ⟨1, .item⟩ 0 := by
  let run := Run.blank.step (.counter .plain (some "c"))
  have reachable : run.Reachable := .step _ (.start _ _)
  have arithmetic : ∀ statement ∈ Statement.doubling, statement.isArithmetic = true := by
    simp [Statement.doubling, Statement.isArithmetic]
  have bindings : run.bindings = [("c", .counter ⟨1, .item⟩)] := by decide +kernel
  obtain ⟨context, emitted, -, -, appended, same⟩ :=
    emitted_objects_compute_counters run reachable Statement.doubling arithmetic
  refine ⟨run, reachable, arithmetic, emitted, appended, fun start => ?_⟩
  have seven : (Double.ofInt 7).toRat = 7 := Double.toRat_ofInt (by decide)
  rw [same, bindings]
  funext counter
  simp only [Statement.doubling, List.foldl_cons, List.foldl_nil, Store.perform, Operand.meaning?,
    List.lookup_cons, beq_self_eq_true, Option.bind_some, Binding.toCounter?, Binding.toAmount?,
    Store.change, Store.transfer, Store.value, CounterOp.apply, seven]
  by_cases emptied : counter = ⟨1, .item⟩
  · simp [emptied]
  · by_cases lowered : counter = ⟨5, .timer⟩
    · have apart : (⟨5, .timer⟩ : Counter) ≠ ⟨1, .item⟩ := by decide
      simp only [lowered, Function.update_self, Function.update_of_ne apart]
      norm_num
    · simp [emptied, lowered]

end TriggerGraph
