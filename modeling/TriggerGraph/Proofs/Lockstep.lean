import TriggerGraph.Proofs.Twins

/-!
# Statements in lockstep

Every construct of a script keeps two runs alike, and so does every statement whose own slots and
context names are among those that the runs agree on.  What a statement needs of the item slots is
read off its text.
-/

namespace TriggerGraph

namespace Build

open Twin

/-! ## Constructs -/

section Constructs

variable {twin : Twin} {cost : Nat}

theorem matches_checkDelay (seconds : Double) :
    Matches twin 0 Eq (checkDelay seconds) (checkDelay seconds) := by
  unfold checkDelay
  split
  · exact matches_pure rfl
  · exact matches_throw _

theorem matches_spawn (group : Reference) (delay : Double) :
    Matches twin 0 Eq (addMade (Trigger.spawn group delay))
      (addMade (Trigger.spawn group delay)) := by
  have both : Matches twin 0 Eq _ _ := matches_addMade (Trigger.spawn group delay)
  rwa [Trigger.map_rename_spawn] at both

theorem matches_call (group : Reference) (delay : Double) :
    Matches twin 0 Eq (call group delay) (call group delay) :=
  (matches_checkDelay delay).pass fun _ => matches_spawn group delay

theorem matches_wait (seconds : Double) : Matches twin 0 Eq (wait seconds) (wait seconds) := by
  refine (matches_checkDelay seconds).pass fun _ => ?_
  refine matches_compiler.chain fun one two same => ?_
  refine matches_open.pass fun opened => ?_
  refine (matches_spawn _ _).pass fun _ => ?_
  rw [same.current]
  refine matches_change fun budget first second alike => ?_
  exact ((alike.link _ _).switchTo _).mono (by omega)

theorem matches_compare (condition : Condition) (target : Reference) :
    Matches twin 0 Eq (compare condition target)
      (compare (condition.rename twin.slot) target) := by
  have both : Matches twin 0 Eq _ _ := matches_addMade (Trigger.compare condition target)
  rwa [Trigger.map_rename_compare] at both

theorem matches_repeatWhile (condition : Condition) (delay : Double)
    {one two : Reference → Build Unit}
    (both : ∀ group, Matches twin cost Eq (one group) (two group)) :
    Matches twin cost Eq (repeatWhile condition delay one)
      (repeatWhile (condition.rename twin.slot) delay two) := by
  refine (matches_checkDelay delay).pass fun _ => ?_
  refine matches_open.pass fun check => ?_
  refine matches_open.pass fun inner => ?_
  refine (matches_within _ (matches_compare condition _)).pass fun _ => ?_
  refine (matches_spawn _ _).pass fun _ => ?_
  refine (matches_within _ (both _)).andThen fun _ _ _ => ?_
  refine matches_compiler.chain fun first second same => ?_
  rw [same.chain]
  have spawned := Trigger.map_rename_spawn twin.slot check.group delay
  cases made : Trigger.spawn check.group delay with
  | error error => exact matches_throw _
  | ok object =>
      rw [made] at spawned
      have fixed : object.rename twin.slot = object := Except.ok.inj spawned
      have added : Matches twin 0 Eq _ _ := matches_addTo (first.chain.terminal inner.id) object
      rw [fixed] at added
      exact added.pass fun _ => matches_pure rfl

theorem matches_changeCounter (counter : Counter) (op : CounterOp) (amount : Amount) :
    Matches twin 0 Eq (changeCounter counter op amount)
      (changeCounter (counter.rename twin.slot) op (amount.rename twin.slot)) := by
  have both : Matches twin 0 Eq _ _ := matches_add (Trigger.change counter op amount)
  rwa [Trigger.rename_change] at both

theorem matches_resetCounter (counter : Counter) :
    Matches twin 0 Eq (resetCounter counter) (resetCounter (counter.rename twin.slot)) :=
  matches_changeCounter counter .set (.constant .zero)

theorem matches_transfer (way : Transfer) (counter other : Counter) :
    Matches twin 0 Eq (transfer way counter other)
      (transfer way (counter.rename twin.slot) (other.rename twin.slot)) := by
  cases way with
  | copy => exact matches_changeCounter other .set (.counter counter)
  | add =>
      refine (matches_changeCounter other .add (.counter counter)).pass fun _ => ?_
      exact matches_resetCounter counter
  | subtract =>
      refine (matches_changeCounter other .subtract (.counter counter)).pass fun _ => ?_
      exact matches_resetCounter counter

/-- A counter that is the same in both runs. -/
def Steady (twin : Twin) (left right : Counter) : Prop :=
  right = left ∧ left.rename twin.slot = left

theorem matches_nextItem :
    Matches twin 1 (fun left right => right = left ∧ twin.slot left = left)
      (draw Compiler.nextItem) (draw Compiler.nextItem) := by
  refine matches_draw fun budget one two same => ?_
  obtain ⟨equal, fixed, after⟩ := same.nextItem
  exact ⟨⟨equal, fixed⟩, after⟩

theorem matches_slot {options : CounterOptions} (kept : ∀ item ∈ options.existing, twin.kept item) :
    Matches twin 1 (fun left right => right = left ∧ twin.slot left = left)
      (slot options) (slot options) := by
  unfold slot
  split
  · rename_i item existing
    have reserved : Matches twin 1 Eq (change (·.reserveItem item)) (change (·.reserveItem item)) :=
      matches_change fun _ _ _ same => same.reserveItem item
    refine reserved.andThen fun _ _ _ => matches_pure ⟨rfl, ?_⟩
    exact twin.fixed item (kept item existing)
  · exact matches_nextItem

theorem Matches.branch {β : Type} {result : β → β → Prop} (condition : Prop) [Decidable condition]
    {first last : Build Unit} {next rest : Unit → Build β} (both : Matches twin 0 Eq first last)
    (later : Matches twin cost result (next ()) (rest ())) :
    Matches twin cost result (if condition then first >>= next else next ())
      (if condition then last >>= rest else rest ()) := by
  split
  · exact both.pass fun _ => later
  · exact later

theorem matches_newCounter {options : CounterOptions}
    (kept : ∀ item ∈ options.existing, twin.kept item) :
    Matches twin 1 (Steady twin) (newCounter options) (newCounter options) := by
  refine (matches_slot kept).andThen fun _ item both => ?_
  obtain ⟨rfl, fixed⟩ := both
  generalize made : (⟨item, if options.timer then .timer else .item⟩ : Counter) = counter
  have steady : counter.rename twin.slot = counter := by
    rw [← made]
    exact Counter.rename_of_fixed _ fixed
  have set : Matches twin 0 Eq _ _ :=
    matches_changeCounter counter .set (.constant options.initial)
  have persisted := Trigger.rename_persist twin.slot counter
  rw [steady] at set persisted
  refine Matches.branch _ set ?_
  have here : Matches twin 0 Eq _ _ := matches_add (Trigger.persist counter)
  have there : Matches twin 0 Eq _ _ := matches_addTo 0 (Trigger.persist counter)
  rw [persisted] at here there
  cases options.persistent with
  | false => exact matches_pure ⟨rfl, steady⟩
  | true =>
      refine here.pass fun _ => there.pass fun _ => ?_
      exact matches_pure ⟨rfl, steady⟩

theorem matches_forLoop (range : LoopRange) (delay : Double) {one two : Counter → Build Unit}
    (both : ∀ counter, counter.rename twin.slot = counter →
      Matches twin cost Eq (one counter) (two counter)) :
    Matches twin (1 + cost) (Steady twin) (forLoop range delay one) (forLoop range delay two) := by
  unfold forLoop
  cases range.check with
  | error error => exact (matches_throw error).mono (by omega)
  | ok _ =>
      refine (matches_checkDelay delay).pass fun _ => ?_
      have drawn : Matches twin 1 (Steady twin) (newCounter .plain) (newCounter .plain) :=
        matches_newCounter fun item => by rintro ⟨⟩
      refine drawn.bind fun _ counter known => ?_
      obtain ⟨rfl, steady⟩ := known
      have changed (op : CounterOp) (x : Double) : Matches twin 0 Eq
          (changeCounter counter op (.constant x)) (changeCounter counter op (.constant x)) := by
        have change : Matches twin 0 Eq _ _ := matches_changeCounter counter op (.constant x)
        rwa [steady] at change
      have looped : Matches twin cost Eq _ _ := matches_repeatWhile (range.condition counter) delay
        fun _ => (both counter steady).andThen fun _ _ _ => changed .add (.ofInt range.step.toInt)
      have condition : (range.condition counter).rename twin.slot = range.condition counter :=
        congrArg (fun counter => (⟨counter, _, _⟩ : Condition)) steady
      rw [condition] at looped
      refine (changed .set _).pass fun _ => looped.andThen fun _ _ _ => ?_
      exact matches_pure ⟨rfl, steady⟩

theorem matches_checkSteps (steps : List (Reference × UInt32)) :
    Matches twin 0 Eq (checkSteps steps) (checkSteps steps) := by
  induction steps with
  | nil => exact matches_pure rfl
  | cons step rest ih =>
      unfold checkSteps
      split
      · exact matches_throw _
      · exact ih

theorem matches_sequence (steps : List (Reference × UInt32)) (mode : SequenceMode)
    (minInterval : Double) (reset : SequenceReset) :
    Matches twin 0 Eq (sequence steps mode minInterval reset)
      (sequence steps mode minInterval reset) := by
  refine (matches_checkDelay minInterval).pass fun _ => ?_
  refine (matches_checkSteps steps).pass fun _ => matches_function fun _ => ?_
  have both : Matches twin 0 Eq _ _ :=
    matches_add (Trigger.sequence steps mode minInterval reset)
  rwa [Trigger.rename_sequence] at both

theorem matches_placeholders (count : Nat) :
    Matches twin count (fun left right => right = left ∧
      ∀ counter ∈ left, counter.rename twin.slot = counter) (placeholders count)
      (placeholders count) := by
  induction count with
  | zero => exact matches_pure ⟨rfl, List.forall_mem_nil _⟩
  | succ count ih =>
      refine Matches.mono (Nat.add_comm 1 count).le (matches_nextItem.bind fun _ item known => ?_)
      obtain ⟨rfl, fixed⟩ := known
      refine ih.andThen fun _ slots others => ?_
      obtain ⟨rfl, steady⟩ := others
      refine matches_pure ⟨rfl, List.forall_mem_cons.2 ⟨?_, steady⟩⟩
      exact Counter.rename_of_fixed _ fixed

theorem matches_bindCounters (names : List String) (counters : List Counter) :
    Matches twin 0 Eq (bindCounters names counters)
      (bindCounters names (counters.map (Counter.rename twin.slot))) := by
  induction names generalizing counters with
  | nil => exact matches_pure rfl
  | cons name names ih =>
      cases counters with
      | nil => exact matches_pure rfl
      | cons counter counters =>
          exact (matches_bind name (.counter counter)).pass fun _ => ih counters

theorem matches_remappable (count : Nat) {one two : List Counter → Build Unit}
    (both : ∀ slots, (∀ counter ∈ slots, counter.rename twin.slot = counter) →
      Matches twin cost Eq (one slots) (two slots)) :
    Matches twin (count + cost) Eq (remappable count one) (remappable count two) := by
  refine (matches_placeholders count).bind fun _ slots known => ?_
  obtain ⟨rfl, steady⟩ := known
  refine (matches_function fun _ => both slots steady).andThen fun group _ equal => ?_
  cases equal
  exact matches_pure rfl

theorem matches_callRemapped (f : Remappable) (arguments : List Counter) :
    Matches twin 0 Eq (callRemapped f arguments)
      (callRemapped f (arguments.map (Counter.rename twin.slot))) := by
  have both : Matches twin 0 Eq _ _ :=
    matches_addMade (Trigger.remapSpawn f.group (Trigger.pairs f.placeholders arguments))
  rwa [Trigger.map_rename_remapSpawn] at both

theorem matches_dispatch (counter : Counter) (values : List Int64) {one two : Int64 → Build Unit}
    (both : ∀ value, Matches twin cost Eq (one value) (two value)) :
    Matches twin (values.length * cost) Eq (dispatch counter one values)
      (dispatch (counter.rename twin.slot) two values) := by
  induction values with
  | nil => exact (matches_pure rfl).mono (Nat.zero_le _)
  | cons value values ih =>
      have first : Matches twin cost Eq _ _ := matches_function fun _ => both value
      have all : Matches twin (cost + values.length * cost) Eq
          (dispatch counter one (value :: values))
          (dispatch (counter.rename twin.slot) two (value :: values)) := by
        refine first.bind fun branch _ equal => ?_
        cases equal
        refine (matches_compare ⟨counter, .equal, .ofInt value.toInt⟩ branch).pass fun _ => ?_
        exact ih
      refine all.mono ?_
      rw [List.length_cons, Nat.succ_mul, Nat.add_comm]

end Constructs

/-! ## Operands -/

section Operands

variable {twin : Twin}

theorem matches_resolve {α : Type} {related : α → α → Prop} {kind : Binding → Option α}
    {operand : Operand α} (literal : ∀ value, operand = .literal value → related value value)
    (named : ∀ name, operand = .named name →
      Matches twin 0 related (lookup kind name) (lookup kind name)) :
    Matches twin 0 related (resolve kind operand) (resolve kind operand) := by
  cases operand with
  | literal value => exact matches_pure (literal value rfl)
  | named name => exact named name rfl

theorem matches_reference (operand : Operand Reference) :
    Matches twin 0 Eq (reference operand) (reference operand) :=
  matches_resolve (fun _ _ => rfl) fun name _ =>
    matches_lookup (fun binding => by cases binding <;> rfl) name

end Operands
end Build

/-- A slot or a name that a script may use for a counter. -/
def Vocabulary.AllowsCounter (vocabulary : Vocabulary) : Operand Counter → Prop
  | .literal counter => vocabulary.kept counter.item
  | .named name => vocabulary.clear name

/-- A constant, or a slot or a name that a script may use for a counter. -/
def Vocabulary.AllowsAmount (vocabulary : Vocabulary) : Operand Amount → Prop
  | .literal (.counter counter) => vocabulary.kept counter.item
  | .literal (.constant _) => True
  | .named name => vocabulary.clear name

namespace Build

section Counters

variable {twin : Twin}

theorem matches_counter {operand : Operand Counter} (allowed : twin.AllowsCounter operand) :
    Matches twin 0 (fun left right => right = left.rename twin.slot) (counter operand)
      (counter operand) := by
  refine matches_resolve (fun value equal => ?_) fun name equal => ?_
  · rw [equal] at allowed
    exact (Counter.rename_of_fixed _ (twin.fixed _ allowed)).symm
  · rw [equal] at allowed
    refine matches_lookup_of_clear (fun binding => ?_) allowed
    cases binding with
    | counter c => exact .some rfl
    | _ => exact .none

theorem matches_amount {operand : Operand Amount} (allowed : twin.AllowsAmount operand) :
    Matches twin 0 (fun left right => right = left.rename twin.slot)
      (resolve Binding.toAmount? operand) (resolve Binding.toAmount? operand) := by
  refine matches_resolve (fun value equal => ?_) fun name equal => ?_
  · cases value with
    | constant x => rfl
    | counter c =>
        rw [equal] at allowed
        have steady := Counter.rename_of_fixed _ (twin.fixed c.item allowed)
        exact congrArg Amount.counter steady.symm
  · rw [equal] at allowed
    refine matches_lookup_of_clear (fun binding => ?_) allowed
    cases binding with
    | counter c => exact .some rfl
    | integer n => exact .some rfl
    | _ => exact .none

theorem matches_condition {operand : ConditionOperand}
    (allowed : twin.AllowsCounter operand.counter) :
    Matches twin 0 (fun left right => right = left.rename twin.slot) (condition operand)
      (condition operand) := by
  refine (matches_counter allowed).chain fun _ _ renamed => ?_
  exact matches_pure (congrArg (fun counter => (⟨counter, _, _⟩ : Condition)) renamed)

theorem matches_resolveCounters {operands : List (Operand Counter)}
    (allowed : ∀ operand ∈ operands, twin.AllowsCounter operand) :
    Matches twin 0 (fun left right => right = left.map (Counter.rename twin.slot))
      (resolveCounters operands) (resolveCounters operands) := by
  induction operands with
  | nil => exact matches_pure rfl
  | cons operand rest ih =>
      rw [List.forall_mem_cons] at allowed
      refine (matches_counter allowed.1).chain fun _ _ first => ?_
      refine (ih allowed.2).chain fun _ _ others => matches_pure ?_
      rw [first, others, List.map_cons]

theorem matches_resolveSteps (steps : List (Operand Reference × UInt32)) :
    Matches twin 0 Eq (resolveSteps steps) (resolveSteps steps) := by
  induction steps with
  | nil => exact matches_pure rfl
  | cons step rest ih =>
      refine (matches_reference step.1).chain fun _ _ first => ?_
      refine ih.chain fun _ _ others => matches_pure ?_
      rw [first, others]

end Counters
end Build

/-! ## Statements -/

namespace Statement

mutual

/-- The number of item slots that a statement may take or reserve. -/
def demand : Statement → Nat
  | .counter .. => 1
  | .forLoop _ _ _ _ body => 1 + demandAll body
  | .remappable parameters _ body => parameters.length + demandAll body
  | .dispatch _ values _ body => values.length * demandAll body
  | .function _ _ body | .extend _ body | .repeatWhile _ _ _ _ body | .attempt body =>
      demandAll body
  | _ => 0

/-- The number of item slots that a body may take or reserve. -/
def demandAll : List Statement → Nat
  | [] => 0
  | statement :: rest => demand statement + demandAll rest

end

end Statement

/-- A statement gives contexts only plain names, and its counters and objects name only slots that
are kept. -/
def Vocabulary.Allows (vocabulary : Vocabulary) : Statement → Prop
  | .createContext label _ _ | .switchTo label | .context label => vocabulary.plain label
  | .add object => object.NamesOnly vocabulary.kept
  | .addChecked fields =>
      ∀ object, Object.empty.setAll fields = .ok object → object.NamesOnly vocabulary.kept
  | .repeatWhile operand _ _ _ _ => vocabulary.AllowsCounter operand.counter
  | .callRemapped _ arguments => ∀ operand ∈ arguments, vocabulary.AllowsCounter operand
  | .counter options _ => ∀ item ∈ options.existing, vocabulary.kept item
  | .change left _ right => vocabulary.AllowsCounter left ∧ vocabulary.AllowsAmount right
  | .reset left => vocabulary.AllowsCounter left
  | .transfer _ left right => vocabulary.AllowsCounter left ∧ vocabulary.AllowsCounter right
  | .ifIs left _ _ _ => vocabulary.AllowsCounter left
  | .condition operand _ => vocabulary.AllowsCounter operand.counter
  | .dispatch left _ _ _ => vocabulary.AllowsCounter left
  | _ => True

namespace Build

section Statements

variable {twin : Twin}

theorem matches_done {cost : Nat} {one two : Build Unit} (both : Matches twin cost Eq one two) :
    Matches twin cost (Outcome.Same twin.names twin.other) (done one) (done two) :=
  both.andThen fun _ _ _ => matches_pure (.equal _)

theorem matches_named (name : Option String) (reference : Reference) :
    Matches twin 0 (Outcome.Same twin.names twin.other) (named name reference)
      (named name reference) :=
  (matches_bindTo name (.reference reference)).pass fun _ => matches_pure (.equal _)

theorem matches_describe (id : Nat) :
    Matches twin 0 (Outcome.Same twin.names twin.other) (describe id) (describe id) := by
  refine matches_compiler.chain fun one two same => matches_pure ?_
  have both : Option.Rel (twin.SameContext id) (one.context? id) (two.context? id) :=
    same.contexts id
  generalize one.context? id = first at both ⊢
  generalize two.context? id = second at both ⊢
  cases both with
  | none => exact .equal _
  | some here => exact same.describe here

theorem matches_contextNamed {label : String} (plain : twin.plain label) :
    Matches twin 0 Eq (contextNamed label) (contextNamed label) := by
  refine matches_compiler.chain fun one two same => ?_
  rw [same.find? plain]
  cases one.find? label with
  | none => exact matches_throw _
  | some id => exact matches_pure rfl

theorem matches_owner (group : Reference) :
    Matches twin 0 Eq (owner group) (owner group) := by
  refine matches_compiler.chain fun one two same => ?_
  rw [same.owner?]
  cases one.owner? group with
  | none => exact matches_throw _
  | some id => exact matches_pure rfl

theorem matches_loopDelay (delay : Option Double) :
    Matches twin 0 Eq (loopDelay delay) (loopDelay delay) := by
  cases delay with
  | some delay => exact matches_pure rfl
  | none =>
      refine matches_compiler.chain fun one two same => matches_pure ?_
      rw [same.options]

theorem matches_switchTo (id : Nat) :
    Matches twin 0 Eq (change (·.switchTo id)) (change (·.switchTo id)) :=
  matches_change fun _ _ _ same => (same.switchTo id).mono (by omega)

theorem matches_bindCounter (name : Option String) {counter : Counter}
    (steady : counter.rename twin.slot = counter) :
    Matches twin 0 Eq (bindTo name (.counter counter)) (bindTo name (.counter counter)) := by
  have both : Matches twin 0 Eq _ _ := matches_bindTo name (.counter counter)
  rwa [Binding.rename, steady] at both

theorem matches_bindSlots (names : List String) {slots : List Counter}
    (steady : ∀ counter ∈ slots, counter.rename twin.slot = counter) :
    Matches twin 0 Eq (bindCounters names slots) (bindCounters names slots) := by
  have both : Matches twin 0 Eq _ _ := matches_bindCounters names slots
  rwa [List.map_congr_left steady, List.map_id'] at both

theorem matches_fixed {object : Object} (named : object.NamesOnly twin.kept) :
    Matches twin 0 Eq (add object) (add object) := by
  have both : Matches twin 0 Eq _ _ := matches_add object
  rwa [Object.rename_of_namesOnly twin.fixed named] at both

/-- A statement that is allowed keeps two runs alike if its body does. -/
theorem matches_exec (statement : Statement) (allowed : twin.Allows statement)
    (inside : Matches twin (Statement.demandAll statement.body) Eq
      (Statement.execAll statement.body) (Statement.execAll statement.body)) :
    Matches twin statement.demand (Outcome.Same twin.names twin.other) statement.exec
      statement.exec := by
  have bound (name : Option String) (binding : Binding)
      (same : binding.rename twin.slot = binding) :
      Matches twin (Statement.demandAll statement.body) Eq
        (do bindTo name binding; Statement.execAll statement.body)
        (do bindTo name binding; Statement.execAll statement.body) := by
    have first : Matches twin 0 Eq _ _ := matches_bindTo name binding
    rw [same] at first
    exact first.pass fun _ => inside
  cases statement with
  | fresh domain name =>
      have drawn : Matches twin 0 Eq (draw (·.next domain)) (draw (·.next domain)) :=
        matches_draw fun _ _ _ same =>
          ⟨(same.next domain).1.symm, (same.next domain).2.mono (by omega)⟩
      refine drawn.pass fun reference => ?_
      exact matches_named name reference
  | reserve domain value name =>
      have drawn : Matches twin 0 Eq (draw (·.reserve domain value))
          (draw (·.reserve domain value)) :=
        matches_draw fun _ _ _ same =>
          ⟨(same.reserve domain value).1.symm, (same.reserve domain value).2.mono (by omega)⟩
      refine drawn.pass fun reference => ?_
      exact matches_named name reference
  | groupInUse value =>
      refine matches_compiler.chain fun one two same => ?_
      rw [same.isGroupInUse]
      exact matches_pure (.equal _)
  | options =>
      refine matches_compiler.chain fun one two same => ?_
      rw [same.options]
      exact matches_pure (.equal _)
  | createContext label switch name =>
      have opened : Matches twin 0 Eq (commit (·.openContext label))
          (commit (·.openContext label)) :=
        matches_commit fun _ _ _ same => same.openNamed allowed
      refine opened.pass fun made => ?_
      exact Matches.branch _ (matches_switchTo made.id) (matches_named name made.group)
  | switchTo label =>
      refine matches_done ((matches_contextNamed allowed).pass fun id => ?_)
      exact matches_switchTo id
  | switchToOwner group =>
      refine matches_done ((matches_reference group).pass fun found => ?_)
      refine (matches_owner found).pass fun id => ?_
      exact matches_switchTo id
  | current =>
      refine matches_compiler.chain fun one two same => ?_
      rw [same.current]
      exact matches_describe one.current
  | context label =>
      refine (matches_contextNamed allowed).pass fun id => ?_
      exact matches_describe id
  | owner group =>
      refine (matches_reference group).pass fun found => ?_
      refine (matches_owner found).pass fun id => ?_
      exact matches_describe id
  | chainOf group =>
      refine (matches_reference group).pass fun found => ?_
      refine (matches_owner found).pass fun id => ?_
      refine matches_compiler.chain fun one two same => ?_
      have values : two.groupValue = one.groupValue := funext same.groupValue
      rw [same.chain, values]
      exact matches_pure (.equal _)
  | add object => exact matches_done (matches_fixed allowed)
  | addChecked fields =>
      refine matches_done ?_
      cases made : Object.empty.setAll fields with
      | error error => exact matches_throw _
      | ok object => exact matches_fixed (allowed object made)
  | function own name body =>
      refine (matches_function fun group => bound own (.reference group) rfl).andThen
        fun group _ equal => ?_
      cases equal
      exact matches_named name group
  | extend group body =>
      refine matches_done ((matches_reference group).pass fun found => ?_)
      refine (matches_owner found).pass fun id => ?_
      exact matches_within id inside
  | call group delay =>
      refine matches_done ((matches_reference group).pass fun found => ?_)
      exact matches_call found delay
  | wait seconds => exact matches_done (matches_wait seconds)
  | repeatWhile operand delay own name body =>
      refine (matches_condition allowed).chain fun held _ renamed => ?_
      cases renamed
      refine (matches_loopDelay delay).pass fun seconds => ?_
      have looped : Matches twin (Statement.demandAll body) Eq _ _ :=
        matches_repeatWhile held seconds fun group => bound own (.reference group) rfl
      refine looped.andThen fun made _ equal => ?_
      cases equal
      refine (matches_bindTo _ (.reference made.check)).pass fun _ => ?_
      refine (matches_bindTo _ (.reference made.body)).pass fun _ => ?_
      refine matches_compiler.chain fun one two same => ?_
      rw [same.groupValue]
      exact matches_pure (.equal _)
  | forLoop range delay index name body =>
      refine (matches_loopDelay delay).pass fun seconds => ?_
      have looped : Matches twin (1 + Statement.demandAll body) (Steady twin) _ _ :=
        matches_forLoop range seconds fun counter steady =>
          bound index (.counter counter) (congrArg Binding.counter steady)
      refine looped.andThen fun _ made known => ?_
      obtain ⟨rfl, steady⟩ := known
      exact (matches_bindCounter name steady).pass fun _ => matches_pure (.equal _)
  | sequence steps mode minInterval restart name =>
      refine (matches_resolveSteps steps).pass fun resolved => ?_
      refine (matches_sequence resolved mode minInterval restart).pass fun group => ?_
      exact (matches_bindTo name (.sequence group)).pass fun _ => matches_pure (.equal _)
  | callSequence name =>
      have found : Matches twin 0 Eq (lookup Binding.toSequence? name)
          (lookup Binding.toSequence? name) :=
        matches_lookup (fun binding => by cases binding <;> rfl) name
      refine matches_done (found.pass fun group => ?_)
      exact matches_call group .zero
  | remappable parameters name body =>
      have compiled : Matches twin (parameters.length + Statement.demandAll body) Eq _ _ :=
        matches_remappable parameters.length fun slots steady =>
          (matches_bindSlots parameters steady).pass fun _ => inside
      refine compiled.andThen fun made _ equal => ?_
      cases equal
      refine (matches_bindTo name (.remappable made)).pass fun _ => ?_
      refine (matches_bindTo _ (.reference made.group)).pass fun _ => ?_
      exact matches_pure (.equal _)
  | callRemapped name arguments =>
      have found : Matches twin 0 Eq (lookup Binding.toRemappable? name)
          (lookup Binding.toRemappable? name) :=
        matches_lookup (fun binding => by cases binding <;> rfl) name
      refine matches_done (found.pass fun f => ?_)
      refine (matches_resolveCounters allowed).chain fun counters _ renamed => ?_
      cases renamed
      exact matches_callRemapped f counters
  | counter settings name =>
      refine (matches_newCounter allowed).andThen fun _ made known => ?_
      obtain ⟨rfl, steady⟩ := known
      exact (matches_bindCounter name steady).pass fun _ => matches_pure (.equal _)
  | change left op right =>
      refine matches_done ((matches_counter allowed.1).chain fun counter _ renamed => ?_)
      cases renamed
      refine (matches_amount allowed.2).chain fun amount _ renamed => ?_
      cases renamed
      exact matches_changeCounter counter op amount
  | reset left =>
      refine matches_done ((matches_counter allowed).chain fun counter _ renamed => ?_)
      cases renamed
      exact matches_resetCounter counter
  | transfer way left right =>
      refine matches_done ((matches_counter allowed.1).chain fun counter _ renamed => ?_)
      cases renamed
      refine (matches_counter allowed.2).chain fun other _ renamed => ?_
      cases renamed
      exact matches_transfer way counter other
  | ifIs left target comparator threshold =>
      refine matches_done ((matches_counter allowed).chain fun counter _ renamed => ?_)
      cases renamed
      refine (matches_reference target).pass fun found => ?_
      exact matches_compare ⟨counter, comparator, threshold⟩ found
  | condition operand target =>
      refine matches_done ((matches_condition allowed).chain fun held _ renamed => ?_)
      cases renamed
      refine (matches_reference target).pass fun found => ?_
      exact matches_compare held found
  | dispatch left values value body =>
      refine matches_done ((matches_counter allowed).chain fun counter _ renamed => ?_)
      cases renamed
      exact matches_dispatch counter values fun n => bound value (.integer n) rfl
  | fail message => exact matches_throw _
  | attempt body => exact matches_attempt inside

theorem matches_execAll {statements : List Statement}
    (recorded : ∀ statement ∈ statements, Matches twin statement.demand Eq
      (record statement statement.exec) (record statement statement.exec)) :
    Matches twin (Statement.demandAll statements) Eq (Statement.execAll statements)
      (Statement.execAll statements) := by
  induction statements with
  | nil => exact matches_pure rfl
  | cons statement rest ih =>
      rw [List.forall_mem_cons] at recorded
      exact recorded.1.bind fun _ _ _ => ih recorded.2

/-- A statement that is allowed at every depth keeps two runs alike. -/
theorem matches_everywhere {statement : Statement} (every : statement.Everywhere twin.Allows) :
    Matches twin statement.demand Eq (record statement statement.exec)
      (record statement statement.exec) := by
  induction every with
  | intro here _ ih => exact matches_record _ (matches_exec _ here (matches_execAll ih))

end Statements
end Build

/-- Two runs that agree still do after a script, each statement of which is allowed. -/
theorem Twin.SameRun.steps {twin : Twin} {budget : Nat} {script : List Statement} {one two : Run}
    (same : twin.SameRun (Statement.demandAll script + budget) one two)
    (every : ∀ statement ∈ script, statement.Everywhere twin.Allows) :
    twin.SameRun budget (one.steps script) (two.steps script) := by
  induction script generalizing one two with
  | nil => exact same.mono (by omega)
  | cons statement rest ih =>
      rw [List.forall_mem_cons] at every
      rw [Statement.demandAll, Nat.add_assoc] at same
      exact ih (Build.matches_everywhere every.1 _ one two same).2 every.2

end TriggerGraph
