import TriggerGraph.Proofs.Encodability
import TriggerGraph.Proofs.Moments
import TriggerGraph.Proofs.Registry

/-!
# Well-formed scripts can be exported

A script is well-formed if the numbers it hands to the compiler are finite, the groups it aims at
have ids and the objects it adds can be written.  Whatever fails on the way, the contexts then hold
only objects whose fields can be written or aim at a context, and contexts have ids of their own.
-/

namespace TriggerGraph

/-! ## Compilers that hold nothing else -/

namespace Compiler

/-- The group belongs to a context. -/
def Owns (compiler : Compiler) (group : Reference) : Prop := group ∈ compiler.contexts.map (·.group)

/-- Every object can be written, once the groups of the contexts have ids. -/
def Encodes (compiler : Compiler) : Prop :=
  ∀ context ∈ compiler.contexts, ∀ object ∈ context.objects, object.EncodesUpTo compiler.Owns

/-- Contexts keep their groups, and nothing is added that could not be written. -/
structure Safe (before after : Compiler) : Prop where
  owns {group : Reference} : before.Owns group → after.Owns group
  encodes : before.Encodes → after.Encodes

theorem Safe.trans {first second third : Compiler} (one : Safe first second)
    (two : Safe second third) : Safe first third :=
  ⟨fun owned => two.owns (one.owns owned), fun encodes => two.encodes (one.encodes encodes)⟩

theorem safe_of_contexts {before after : Compiler} (same : after.contexts = before.contexts) :
    Safe before after := by
  have owns : after.Owns = before.Owns := by
    funext group
    rw [Owns, Owns, same]
  refine ⟨fun owned => owns ▸ owned, fun encodes context member => ?_⟩
  rw [owns]
  exact encodes context (same ▸ member)

theorem Opens.safe {before after : Compiler} {name : String} {opened : Opened}
    (opens : Opens before name opened after) : Safe before after := by
  have owns {group : Reference} (owned : before.Owns group) : after.Owns group := by
    rw [Owns, opens.contexts, List.map_append]
    exact List.mem_append_left _ owned
  refine ⟨owns, fun encodes context member => ?_⟩
  rw [opens.contexts] at member
  rcases List.mem_append.1 member with old | new
  · exact fun object present => (encodes context old object present).mono fun _ => owns
  · rw [List.mem_singleton.1 new]
    exact fun _ present => nomatch present

theorem Opens.owns {before after : Compiler} {name : String} {opened : Opened}
    (opens : Opens before name opened after) : after.Owns opened.group := by
  rw [Owns, opens.contexts]
  simp

theorem owns_addTo (compiler : Compiler) (id : Nat) (object : Object) :
    (compiler.addTo id object).Owns = compiler.Owns := by
  have groups := congrArg (List.map Prod.snd) (compiler.heads_addTo id object)
  simp only [heads, List.map_map] at groups
  funext group
  exact congrArg (group ∈ ·) groups

theorem safe_addTo {compiler : Compiler} {object : Object}
    (encodes : object.EncodesUpTo compiler.Owns) (id : Nat) :
    Safe compiler (compiler.addTo id object) := by
  refine ⟨fun owned => (owns_addTo compiler id object).symm ▸ owned, fun all context member => ?_⟩
  rw [owns_addTo]
  obtain ⟨index, found⟩ := List.mem_iff_getElem?.1 member
  rw [addTo, List.getElem?_modify] at found
  obtain ⟨old, present, rfl⟩ := Option.map_eq_some_iff.1 found
  have earlier := all old (List.mem_of_getElem? present)
  intro added member
  by_cases here : id = index
  · rw [if_pos here] at member
    rcases List.mem_append.1 member with before | last
    · exact earlier added before
    · rwa [List.mem_singleton.1 last]
  · rw [if_neg here] at member
    exact earlier added member

theorem LoopStart.safe {before : Compiler} {condition : Condition}
    (start : before.LoopStart condition) (finite : condition.threshold.isFinite = true) :
    before.Safe start.prepared ∧ start.prepared.Owns start.check.group := by
  have check := opens_of_openContext start.opensCheck
  have inner := opens_of_openContext start.opensInner
  have compared := safe_addTo
    (Trigger.encodesUpTo_compare (.inl inner.owns) finite start.compares) start.check.id
  have owned := compared.owns (inner.safe.owns check.owns)
  have spawned := safe_addTo (Trigger.encodesUpTo_spawn (.inl owned) rfl start.spawns)
    (start.second.addTo start.check.id start.comparison).current
  exact ⟨((check.safe.trans inner.safe).trans compared).trans spawned, spawned.owns owned⟩

theorem Encodes.flush {compiler : Compiler} (encodes : compiler.Encodes) :
    ∀ object ∈ compiler.flush, object.EncodesUpTo compiler.Owns := by
  intro object member
  unfold Compiler.flush at member
  split at member
  · cases member
  · rename_i first others contexts
    rcases List.mem_append.1 member with global | later
    · exact encodes first (by rw [contexts]; exact List.mem_cons_self) object global
    · obtain ⟨context, present, mapped⟩ := List.mem_flatMap.1 later
      obtain ⟨added, held, rfl⟩ := List.mem_map.1 mapped
      have known : context ∈ compiler.contexts := by
        rw [contexts]
        exact List.mem_cons_of_mem _ present
      exact (encodes context known added held).triggered context.group

theorem Encodes.exports {compiler : Compiler} (encodes : compiler.Encodes)
    (registered : compiler.Registered) : ∃ level, compiler.exportLevel .builtin = .ok level := by
  have sound (group : Reference) (owned : compiler.Owns group) :
      group.domain = .group ∧ group.value ≠ 0 := by
    obtain ⟨context, member, rfl⟩ := List.mem_map.1 owned
    exact registered.valid context member
  obtain ⟨level, written⟩ := Level.encode_of_encodes fun object member =>
    (encodes.flush object member).encodes sound
  exact ⟨level, by rw [exportLevel, written]; rfl⟩

end Compiler

/-- The compilers of two runs, the second of which follows the first. -/
def Run.Safe (before after : Run) : Prop := before.compiler.Safe after.compiler

namespace Build

open Compiler

/-! ## Elementary actions -/

theorem safe_refl (run : Run) : run.Safe run := safe_of_contexts rfl

theorem Keeps.then {α β : Type} {action : Build α} {next : α → Build β}
    (first : Keeps Run.Safe action) (second : ∀ result, Keeps Run.Safe (next result)) :
    Keeps Run.Safe (action >>= next) :=
  first.chain second fun _ _ _ => Safe.trans

/-- An action that does not touch the contexts. -/
theorem safe_of_untouched {α : Type} {action : Build α}
    (untouched : ∀ run, (outcome action run).2.compiler.contexts = run.compiler.contexts) :
    Keeps Run.Safe action :=
  fun run => safe_of_contexts (untouched run)

theorem safe_reads {α : Type} {action : Build α} (reads : Reads action) : Keeps Run.Safe action :=
  reads.keeps safe_refl

theorem safe_bindTo (name : Option String) (binding : Binding) :
    Keeps Run.Safe (bindTo name binding) := by
  cases name <;> exact safe_of_untouched fun _ => rfl

theorem safe_named (name : Option String) (reference : Reference) :
    Keeps Run.Safe (named name reference) :=
  (safe_bindTo name _).then fun _ => safe_reads (reads_pure _)

theorem safe_bindCounters (names : List String) (counters : List Counter) :
    Keeps Run.Safe (bindCounters names counters) := by
  induction names generalizing counters with
  | nil => exact safe_reads (reads_pure _)
  | cons name names ih =>
      cases counters with
      | nil => exact safe_reads (reads_pure _)
      | cons counter counters => exact (safe_bindTo (some name) _).then fun _ => ih counters

theorem safe_open (name : Compiler → String) :
    Keeps Run.Safe (commit fun compiler => compiler.openContext (name compiler)) :=
  keeps_openContext safe_refl name fun _ _ _ made => (opens_of_openContext made).safe

theorem safe_add {object : Object} (encodes : ∀ groups, object.EncodesUpTo groups) :
    Keeps Run.Safe (add object) :=
  fun run => safe_addTo (encodes _) run.compiler.current

theorem safe_addMade {run : Run} {made : Except FieldError Object}
    (encodes : ∀ object, made = .ok object → object.EncodesUpTo run.compiler.Owns) :
    run.Safe (outcome (addMade made) run).2 := by
  cases made with
  | error error => exact safe_refl run
  | ok object => exact safe_addTo (encodes object rfl) run.compiler.current

theorem safe_change {counter : Counter} {op : CounterOp} {amount : Amount}
    (finite : ∀ x, amount = .constant x → x.isFinite = true) :
    Keeps Run.Safe (changeCounter counter op amount) :=
  safe_add fun _ => Trigger.encodesUpTo_change counter op finite

theorem safe_newCounter {options : CounterOptions} (finite : options.initial.isFinite = true) :
    Keeps Run.Safe (newCounter options) := by
  have slot : Keeps Run.Safe (slot options) := by
    unfold Build.slot
    cases options.existing <;> exact safe_of_untouched fun _ => rfl
  have persist (counter : Counter) : Keeps Run.Safe (do
      if options.persistent then
        add (Trigger.persist counter)
        change (·.addTo 0 (Trigger.persist counter))
      return counter) := by
    have global : Keeps Run.Safe (change (·.addTo 0 (Trigger.persist counter))) :=
      fun _ => safe_addTo (Trigger.encodesUpTo_persist counter) 0
    cases options.persistent with
    | false => exact safe_reads (reads_pure _)
    | true =>
        exact (safe_add fun _ => Trigger.encodesUpTo_persist counter).then fun _ =>
          global.then fun _ => safe_reads (reads_pure _)
  refine slot.then fun item => ?_
  dsimp only
  split
  · exact (safe_change fun x same => by cases same; exact finite).then fun _ => persist _
  · exact persist _

theorem safe_transfer (way : Transfer) (counter other : Counter) :
    Keeps Run.Safe (transfer way counter other) := by
  have moved (op : CounterOp) : Keeps Run.Safe (changeCounter other op (.counter counter)) :=
    safe_change fun _ impossible => nomatch impossible
  have zero : Keeps Run.Safe (resetCounter counter) := safe_change fun x same => by
    cases same
    rfl
  cases way with
  | copy => exact moved .set
  | add => exact (moved .add).then fun _ => zero
  | subtract => exact (moved .subtract).then fun _ => zero

theorem safe_placeholders (count : Nat) : Keeps Run.Safe (placeholders count) := by
  induction count with
  | zero => exact safe_reads (reads_pure _)
  | succ count ih =>
      have item : Keeps Run.Safe (draw Compiler.nextItem) := safe_of_untouched fun _ => rfl
      exact item.then fun _ => ih.then fun _ => safe_reads (reads_pure _)

/-! ## Constructs -/

theorem safe_within {α : Type} (id : Nat) {body : Build α} (inside : Keeps Run.Safe body) :
    Keeps Run.Safe (within id body) := by
  intro run
  have entered : run.Safe (run.withCompiler (run.compiler.enter id)) := safe_of_contexts rfl
  have left (after : Run) : after.Safe after.leave := safe_of_contexts rfl
  rw [outcome_within]
  exact (entered.trans (inside _)).trans (left _)

theorem isFinite_of_isDelay {seconds : Double} (valid : seconds.isDelay = true) :
    seconds.isFinite = true :=
  (Bool.and_eq_true_iff.1 valid).1

/-- What comes after the check of a delay has a finite one. -/
theorem safe_checked {α : Type} {seconds : Double} {next : Unit → Build α} {run : Run}
    (second : seconds.isFinite = true → run.Safe (outcome (next ()) run).2) :
    run.Safe (outcome (checkDelay seconds >>= next) run).2 := by
  cases valid : seconds.isDelay with
  | false =>
      rw [outcome_bind_of_error (outcome_checkDelay_of_not_delay valid run)]
      exact safe_refl run
  | true =>
      rw [outcome_bind_of_ok (outcome_checkDelay_of_delay valid run)]
      exact second (isFinite_of_isDelay valid)

theorem safe_wait (seconds : Double) : Keeps Run.Safe (wait seconds) := by
  intro run
  cases valid : seconds.isDelay with
  | false =>
      rw [wait, outcome_bind_of_error (outcome_checkDelay_of_not_delay valid run)]
      exact safe_refl run
  | true =>
      rcases outcome_wait seconds run with
        ⟨error, failed⟩ | ⟨opened, next, object, made, spawned, ended⟩
      · rw [failed]
        exact safe_refl run
      · have opens := opens_of_openContext made
        have encodes : object.EncodesUpTo next.Owns :=
          Trigger.encodesUpTo_spawn (.inl opens.owns) (isFinite_of_isDelay valid) spawned
        rw [ended]
        exact (opens.safe.trans (safe_addTo encodes _)).trans (safe_of_contexts rfl)

/-- A function leaves a context that owns the group it gives. -/
theorem safe_function {body : Reference → Build Unit}
    (inside : ∀ group, Keeps Run.Safe (body group))
    (run : Run) : run.Safe (outcome (function body) run).2 ∧
      ∀ group, (outcome (function body) run).1 = .ok group →
        (outcome (function body) run).2.compiler.Owns group := by
  rcases outcome_function body run with ⟨error, failed⟩ | ⟨opened, next, made, ended⟩
  · rw [failed]
    exact ⟨safe_refl run, fun _ impossible => nomatch impossible⟩
  · have opens := opens_of_openContext made
    have kept := inside opened.group (run.withCompiler (next.enter opened.id))
    have entered : next.Safe (next.enter opened.id) := safe_of_contexts rfl
    have left (after : Run) : after.Safe after.leave := safe_of_contexts rfl
    rcases returned : outcome (body opened.group) (run.withCompiler (next.enter opened.id))
      with ⟨error | _, after⟩
    · rw [returned] at kept ended
      rw [ended]
      exact ⟨((opens.safe.trans entered).trans kept).trans (left after),
        fun _ impossible => nomatch impossible⟩
    · rw [returned] at kept ended
      rw [ended]
      refine ⟨((opens.safe.trans entered).trans kept).trans (left after), fun group same => ?_⟩
      cases same
      exact kept.owns opens.owns

theorem keeps_function {body : Reference → Build Unit}
    (inside : ∀ group, Keeps Run.Safe (body group)) :
    Keeps Run.Safe (function body) :=
  fun run => (safe_function inside run).1

theorem safe_repeatWhile {condition : Condition} (finite : condition.threshold.isFinite = true)
    (delay : Double) {body : Reference → Build Unit}
    (inside : ∀ group, Keeps Run.Safe (body group)) :
    Keeps Run.Safe (repeatWhile condition delay body) := by
  intro run
  rcases outcome_repeatWhile condition delay body run with
    ⟨error, after, failed, rfl | ⟨check, first, made, rfl⟩⟩ | ⟨valid, ⟨start⟩⟩
  · rw [failed]
    exact safe_refl _
  · rw [failed]
    exact (opens_of_openContext made).safe
  · obtain ⟨next, spawned, ended⟩ := outcome_repeatWhile_of_start valid body start
    obtain ⟨prepared, owned⟩ := start.safe finite
    have kept := inside start.inner.group (run.withCompiler (start.prepared.enter start.inner.id))
    have entered : start.prepared.Safe (start.prepared.enter start.inner.id) := safe_of_contexts rfl
    have left (after : Run) : after.Safe after.leave := safe_of_contexts rfl
    rcases returned : outcome (body start.inner.group)
        (run.withCompiler (start.prepared.enter start.inner.id)) with ⟨error | _, after⟩
    · rw [returned] at kept ended
      rw [ended]
      exact ((prepared.trans entered).trans kept).trans (left after)
    · rw [returned] at kept ended
      rw [ended]
      -- the check is still a context when its body has been compiled
      have encodes : next.EncodesUpTo after.leave.compiler.Owns :=
        Trigger.encodesUpTo_spawn (.inl (kept.owns owned)) (isFinite_of_isDelay valid) spawned
      exact (((prepared.trans entered).trans kept).trans (left after)).trans (safe_addTo encodes _)

theorem isFinite_ofInt64 (value : Int64) : (Double.ofInt value.toInt).isFinite = true :=
  Double.isFinite_ofInt (by
    have lower := value.le_toInt
    have upper := value.toInt_lt
    omega)

theorem safe_forLoop (range : LoopRange) (delay : Double) {body : Counter → Build Unit}
    (inside : ∀ counter, Keeps Run.Safe (body counter)) :
    Keeps Run.Safe (forLoop range delay body) := by
  have constant (counter : Counter) (op : CounterOp) (value : Int64) :
      Keeps Run.Safe (changeCounter counter op (.constant (.ofInt value.toInt))) :=
    safe_change fun x same => by
      cases same
      exact isFinite_ofInt64 value
  unfold forLoop
  cases range.check with
  | error error => exact safe_reads fun _ => rfl
  | ok _ =>
      refine (safe_reads (reads_checkDelay delay)).then fun _ => ?_
      refine (safe_newCounter rfl).then fun counter => (constant counter .set _).then fun _ => ?_
      refine (safe_repeatWhile (isFinite_ofInt64 _) delay fun _ => ?_).then fun _ =>
        safe_reads (reads_pure _)
      exact (inside counter).then fun _ => constant counter .add _

theorem safe_sequence (steps : List (Reference × UInt32)) (mode : SequenceMode)
    (minInterval : Double) (reset : SequenceReset) :
    Keeps Run.Safe (sequence steps mode minInterval reset) := by
  refine fun run => safe_checked fun finite => ?_
  refine (safe_reads (reads_checkSteps steps)).then (fun _ => keeps_function fun _ => ?_) run
  exact safe_add fun _ => Trigger.encodesUpTo_sequence steps mode finite reset

theorem safe_remappable (count : Nat) {body : List Counter → Build Unit}
    (inside : ∀ slots, Keeps Run.Safe (body slots)) : Keeps Run.Safe (remappable count body) :=
  (safe_placeholders count).then fun slots =>
    (keeps_function fun _ => inside slots).then fun _ => safe_reads (reads_pure _)

theorem safe_dispatch (counter : Counter) {body : Int64 → Build Unit}
    (inside : ∀ value, Keeps Run.Safe (body value)) (values : List Int64) :
    Keeps Run.Safe (dispatch counter body values) := by
  induction values with
  | nil => exact safe_reads (reads_pure _)
  | cons value values ih =>
      have branch : Keeps Run.Safe (function (fun _ => body value) >>= fun branch =>
          compare ⟨counter, .equal, .ofInt value.toInt⟩ branch) := by
        intro run
        obtain ⟨kept, owned⟩ := safe_function (fun _ => inside value) run
        rcases ended : outcome (function fun _ => body value) run with ⟨error | group, after⟩
        · rw [outcome_bind_of_error ended]
          rwa [ended] at kept
        · rw [outcome_bind_of_ok ended]
          rw [ended] at kept owned
          refine kept.trans (safe_addMade fun object made => ?_)
          exact Trigger.encodesUpTo_compare (.inl (owned group rfl)) (isFinite_ofInt64 value) made
      have split : dispatch counter body (value :: values) =
          (function (fun _ => body value) >>= fun branch =>
            compare ⟨counter, .equal, .ofInt value.toInt⟩ branch) >>= fun _ =>
              dispatch counter body values := (bind_assoc _ _ _).symm
      rw [split]
      exact branch.then fun _ => ih

/-! ## Actions in one run -/

theorem safe_then {α β : Type} {action : Build α} {next : α → Build β} {run : Run}
    (first : run.Safe (outcome action run).2) (second : ∀ result, Keeps Run.Safe (next result)) :
    run.Safe (outcome (action >>= next) run).2 := by
  rcases ended : outcome action run with ⟨error | result, after⟩
  · rw [outcome_bind_of_error ended]
    rwa [ended] at first
  · rw [outcome_bind_of_ok ended]
    rw [ended] at first
    exact first.trans (second result after)

/-- What comes after an action that only reads may use what was found. -/
theorem safe_found {α β : Type} {action : Build α} {next : α → Build β} {run : Run}
    (reads : Reads action)
    (second : ∀ result, (outcome action run).1 = .ok result →
      run.Safe (outcome (next result) run).2) :
    run.Safe (outcome (action >>= next) run).2 := by
  have same := reads run
  rcases ended : outcome action run with ⟨error | result, after⟩
  · rw [outcome_bind_of_error ended]
    rw [ended] at same
    exact same ▸ safe_refl run
  · rw [outcome_bind_of_ok ended]
    rw [ended] at same
    obtain rfl : after = run := same
    exact second result (by rw [ended])

theorem safe_done {action : Build Unit} {run : Run} (kept : run.Safe (outcome action run).2) :
    run.Safe (outcome (done action) run).2 :=
  safe_then kept fun _ => safe_reads (reads_pure _)

theorem safe_call {run : Run} {group : Reference} (hasId : group.HasId) (delay : Double) :
    run.Safe (outcome (call group delay) run).2 := by
  refine safe_checked fun finite => safe_addMade fun object made => ?_
  exact Trigger.encodesUpTo_spawn (.inr hasId) finite made

end Build

/-! ## Statements -/

/-- Whatever the action finds in the run has a property. -/
def Run.Finds {α : Type} (run : Run) (find : Build α) (holds : α → Prop) : Prop :=
  ∀ found, (Build.outcome find run).1 = .ok found → holds found

open Build in
/-- Amounts, initial values and thresholds are finite, the targets of calls, comparisons and calls
with parameters have ids, and objects to be added can be written by themselves. -/
def Statement.IsWellFormed (run : Run) : Statement → Prop
  | .add object => ∃ text, Level.encodeObject .builtin object = .ok text
  | .addChecked fields => ∀ object, Object.empty.setAll fields = .ok object →
      ∃ text, Level.encodeObject .builtin object = .ok text
  | .counter settings _ => settings.initial.isFinite = true
  | .change _ _ (.literal (.constant x)) => x.isFinite = true
  | .repeatWhile operand _ _ _ _ => operand.threshold.isFinite = true
  | .ifIs _ target _ threshold => threshold.isFinite = true ∧ run.Finds (reference target) (·.HasId)
  | .condition operand target =>
      operand.threshold.isFinite = true ∧ run.Finds (reference target) (·.HasId)
  | .call group _ => run.Finds (reference group) (·.HasId)
  | .callSequence name => run.Finds (lookup Binding.toSequence? name) (·.HasId)
  | .callRemapped name _ => run.Finds (lookup Binding.toRemappable? name) (·.group.HasId)
  | _ => True

namespace Build

open Statement

theorem threshold_of_condition {operand : ConditionOperand} {run : Run} {held : Condition}
    (found : (outcome (condition operand) run).1 = .ok held) :
    held.threshold = operand.threshold := by
  rcases ended : outcome (counter operand.counter) run with ⟨error | counter, after⟩
  · have failed : outcome (condition operand) run = (.error error, after) :=
      outcome_bind_of_error ended
    rw [failed] at found
    cases found
  · have made : outcome (condition operand) run = _ := outcome_bind_of_ok ended
    rw [made] at found
    cases found
    rfl

theorem binding_of_lookup {α : Type} {kind : Binding → Option α} {name : String} {run : Run}
    {value : α} (found : (outcome (lookup kind name) run).1 = .ok value) :
    ∃ binding, kind binding = some value := by
  have looked : outcome (lookup kind name) run = outcome
    (demand (.unknownContext ("$" ++ name)) ((run.bindings.lookup name).bind kind)) run := rfl
  rw [looked] at found
  cases bound : (run.bindings.lookup name).bind kind with
  | none =>
      rw [bound] at found
      cases found
  | some result =>
      rw [bound] at found
      cases found
      obtain ⟨binding, _, isKind⟩ := Option.bind_eq_some_iff.1 bound
      exact ⟨binding, isKind⟩

theorem safe_around {run : Run} {statement : Statement} {inside : Build Unit}
    (wellFormed : statement.IsWellFormed run) (kept : Keeps Run.Safe inside) :
    run.Safe (outcome (statement.around inside) run).2 := by
  have bound (name : Option String) (binding : Binding) :
      Keeps Run.Safe (do bindTo name binding; inside) :=
    (safe_bindTo name binding).then fun _ => kept
  have switch (id : Nat) : Keeps Run.Safe (change (·.switchTo id)) := safe_of_untouched fun _ => rfl
  have returns {α : Type} (result : α) : Keeps Run.Safe (pure result) :=
    safe_reads (reads_pure result)
  cases statement with
  | fresh domain name =>
      have drawn : Keeps Run.Safe (draw (·.next domain)) := safe_of_untouched fun _ => rfl
      exact (drawn.then fun _ => safe_named name _) run
  | reserve domain value name =>
      have drawn : Keeps Run.Safe (draw (·.reserve domain value)) := safe_of_untouched fun _ => rfl
      exact (drawn.then fun _ => safe_named name _) run
  | groupInUse value => exact safe_refl run
  | options => exact safe_refl run
  | createContext label switches name =>
      refine ((safe_open fun _ => label).then fun opened => ?_) run
      cases switches with
      | false => exact safe_named name _
      | true => exact (switch opened.id).then fun _ => safe_named name _
  | switchTo label =>
      exact safe_done (((safe_reads (reads_contextNamed label)).then fun id => switch id) run)
  | switchToOwner group =>
      exact safe_done (((safe_reads (reads_resolve _ group)).then fun _ =>
        (safe_reads (reads_owner _)).then fun id => switch id) run)
  | current => exact safe_refl run
  | context label =>
      exact safe_reads ((reads_contextNamed label).bind fun _ => reads_describe _) run
  | owner group =>
      exact safe_reads ((reads_resolve _ group).bind fun _ =>
        (reads_owner _).bind fun _ => reads_describe _) run
  | chainOf group =>
      exact safe_reads ((reads_resolve _ group).bind fun _ =>
        (reads_owner _).bind fun _ => fun _ => rfl) run
  | add object =>
      exact safe_done (safe_add (fun groups =>
        Object.encodesUpTo_of_encodeObject groups wellFormed) run)
  | addChecked fields =>
      exact safe_done (safe_addMade fun object made =>
        Object.encodesUpTo_of_encodeObject _ (wellFormed object made))
  | function own name body =>
      exact ((keeps_function fun _ => bound own _).then fun _ => safe_named name _) run
  | extend group body =>
      exact safe_done (((safe_reads (reads_resolve _ group)).then fun _ =>
        (safe_reads (reads_owner _)).then fun id => safe_within id kept) run)
  | call group delay =>
      exact safe_done (safe_found (reads_resolve _ group) fun target found =>
        safe_call (wellFormed target found) delay)
  | wait seconds => exact safe_done (safe_wait seconds run)
  | repeatWhile operand delay own name body =>
      refine safe_found (reads_condition operand) fun held found => ?_
      have finite : held.threshold.isFinite = true := by
        rw [threshold_of_condition found]
        exact wellFormed
      refine ((safe_reads (reads_loopDelay delay)).then fun _ =>
        (safe_repeatWhile finite _ fun _ => bound own _).then fun _ => ?_) run
      exact (safe_bindTo _ _).then fun _ => (safe_bindTo _ _).then fun _ => safe_reads fun _ => rfl
  | forLoop range delay index name body =>
      exact ((safe_reads (reads_loopDelay delay)).then fun _ =>
        (safe_forLoop range _ fun _ => bound index _).then fun _ =>
          (safe_bindTo name _).then fun _ => returns _) run
  | sequence steps mode minInterval reset name =>
      exact ((safe_reads (reads_resolveSteps steps)).then fun _ =>
        (safe_sequence _ mode minInterval reset).then fun _ =>
          (safe_bindTo name _).then fun _ => returns _) run
  | callSequence name =>
      exact safe_done (safe_found (reads_lookup _ name) fun target found =>
        safe_call (wellFormed target found) .zero)
  | remappable parameters name body =>
      refine ((safe_remappable _ fun slots => ?_).then fun _ => (safe_bindTo name _).then fun _ =>
        (safe_bindTo _ _).then fun _ => returns _) run
      exact (safe_bindCounters parameters slots).then fun _ => kept
  | callRemapped name arguments =>
      refine safe_done (safe_found (reads_lookup _ name) fun f found => ?_)
      exact safe_found (reads_resolveCounters arguments) fun _ _ => safe_addMade fun object made =>
        Trigger.encodesUpTo_remapSpawn (.inr (wellFormed f found)) made
  | counter settings name =>
      exact ((safe_newCounter wellFormed).then fun _ =>
        (safe_bindTo name _).then fun _ => returns _) run
  | change left op right =>
      refine safe_done (safe_found (reads_resolve _ left) fun counter _ =>
        safe_found (reads_resolve _ right) fun amount found =>
          safe_change (fun x constant => ?_) run)
      subst constant
      cases right with
      | literal amount =>
          cases found
          exact wellFormed
      | named name =>
          -- names stand for counters and integers only
          obtain ⟨binding, isAmount⟩ := binding_of_lookup found
          cases binding <;> cases isAmount
          exact isFinite_ofInt64 _
  | reset left =>
      refine safe_done (safe_found (reads_resolve _ left) fun counter _ =>
        safe_change (fun x zero => ?_) run)
      cases zero
      rfl
  | transfer way left right =>
      exact safe_done (((safe_reads (reads_resolve _ left)).then fun _ =>
        (safe_reads (reads_resolve _ right)).then fun _ => safe_transfer way _ _) run)
  | ifIs left target comparator threshold =>
      exact safe_done (safe_found (reads_resolve _ left) fun _ _ =>
        safe_found (reads_resolve _ target) fun target found => safe_addMade fun object made =>
          Trigger.encodesUpTo_compare (.inr (wellFormed.2 target found)) wellFormed.1 made)
  | condition operand target =>
      refine safe_done (safe_found (reads_condition operand) fun held heldFound =>
        safe_found (reads_resolve _ target) fun target found => safe_addMade fun object made => ?_)
      refine Trigger.encodesUpTo_compare (.inr (wellFormed.2 target found)) ?_ made
      rw [threshold_of_condition heldFound]
      exact wellFormed.1
  | dispatch left values value body =>
      exact safe_done (((safe_reads (reads_resolve _ left)).then fun _ =>
        safe_dispatch _ (fun _ => bound value _) values) run)
  | fail message => exact safe_refl run
  | attempt body => exact keeps_attempt kept run

theorem upholds_safe : Upholds (fun run statement => statement.IsWellFormed run) Run.Safe where
  refl := safe_refl
  trans := Compiler.Safe.trans
  record _ _ := Compiler.safe_of_contexts rfl
  around := safe_around

end Build

/-- Whatever failed on the way, the objects of a well-formed script can be written as a level, as
long as there are group ids left. -/
theorem well_formed_script_exports (options : CompilerOptions) (names : Nat → String)
    (script : List Statement)
    (wellFormed : (Run.start (.start options names)).Obeys
      (fun run statement => statement.IsWellFormed run) script)
    (fits : ((Run.start (.start options names)).steps script).GroupsFit) :
    ∃ level, ((Run.start (.start options names)).steps script).compiler.exportLevel .builtin =
      .ok level := by
  have safe := Build.upholds_safe.steps wellFormed
  have reached := Run.reaches_steps (.start (.start options names)) script
  have empty : (Compiler.start options names).Encodes := by
    intro context member
    rw [List.mem_singleton.1 member]
    exact fun _ present => nomatch present
  exact (safe.encodes empty).exports (Run.registered_of_reaches reached fits).1

/-- A script in which most statements fail: it fills a function and a loop in parts, binds the group
without an id to a name it never aims at, and calls what is no group. -/
def Script.troubled : List Statement :=
  [.reserve .group 0 (some "nothing"),
    .function none (some "f") [.wait (.ofInt 1), .add (.ofType 1)],
    .function none none [.wait .zero, .wait .nan, .wait .zero],
    .forLoop ⟨0, 5, -1⟩ none none none [.wait .zero],
    .repeatWhile ⟨.literal ⟨1, .timer⟩, .smaller, .zero⟩ none none (some "l")
      [.change (.literal ⟨1, .timer⟩) .add (.literal (.constant .zero)), .switchTo "nowhere"],
    .call (.named "f") .zero,
    .call (.literal ⟨.color, 0⟩) .zero]

theorem troubled_script_exports :
    Run.blank.Obeys (fun run statement => statement.IsWellFormed run) Script.troubled ∧
      ∃ level, (Run.blank.steps Script.troubled).compiler.exportLevel .builtin = .ok level := by
  have plain {statement : Statement} (bodiless : statement.body = [])
      (here : ∀ run, statement.IsWellFormed run) :
      statement.Everywhere fun inner => ∀ run, inner.IsWellFormed run :=
    Statement.everywhere_of_bodiless bodiless here
  have written : ∃ text, Level.encodeObject .builtin (.ofType 1) = .ok text := by
    have typed : (Object.ofType 1).EncodesUpTo fun _ => False := Object.encodesUpTo_ofType 1
    obtain ⟨text, fields⟩ := Level.encodeFields_of_encodes (typed.encodes fun _ none => none.elim)
    exact ⟨_, by rw [Level.encodeObject, fields]; rfl⟩
  have called : (Build.outcome (Build.reference (.named "f"))
      (Run.blank.steps (Script.troubled.take 5))).1 = .ok (.group 2) := by decide +kernel
  have wellFormed : Run.blank.Obeys (fun run statement => statement.IsWellFormed run)
      Script.troubled := by
    refine ⟨?_, ?_, ?_, ?_, ?_, ?_, ?_, trivial⟩
    · exact Statement.obeys_of_bodiless rfl trivial
    · refine Statement.obeys_of_everywhere (.intro (fun _ => trivial) ?_) _
      simp only [Statement.body, List.forall_mem_cons]
      exact ⟨plain rfl fun _ => trivial, plain rfl fun _ => written, List.forall_mem_nil _⟩
    · refine Statement.obeys_of_everywhere (.intro (fun _ => trivial) ?_) _
      simp only [Statement.body, List.forall_mem_cons]
      exact ⟨plain rfl fun _ => trivial, plain rfl fun _ => trivial, plain rfl fun _ => trivial,
        List.forall_mem_nil _⟩
    · refine Statement.obeys_of_everywhere (.intro (fun _ => trivial) ?_) _
      simp only [Statement.body, List.forall_mem_cons]
      exact ⟨plain rfl fun _ => trivial, List.forall_mem_nil _⟩
    · refine Statement.obeys_of_everywhere (.intro (fun _ => ?_) ?_) _
      · exact (rfl : Double.zero.isFinite = true)
      simp only [Statement.body, List.forall_mem_cons]
      exact ⟨plain rfl fun _ => rfl, plain rfl fun _ => trivial, List.forall_mem_nil _⟩
    · refine Statement.obeys_of_bodiless rfl fun target found => ?_
      cases called.symm.trans found
      exact fun _ => by decide
    · refine Statement.obeys_of_bodiless rfl fun target found => ?_
      cases found
      intro isGroup
      cases isGroup
  exact ⟨wellFormed, well_formed_script_exports _ _ Script.troubled wellFormed (by decide +kernel)⟩

end TriggerGraph
