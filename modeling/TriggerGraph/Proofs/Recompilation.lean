import TriggerGraph.Proofs.Supplies

/-!
# A remapped call is a recompilation

A function with parameters is compiled once, against placeholder slots, and each call says which
slots to put in their place.  Carrying out that replacement in what the body was compiled into gives
what the body is compiled into against the arguments of the call.
-/

namespace TriggerGraph

/-! ## Replacing placeholders -/

/-- The slot that the pairs of a remapping put in the place of another. -/
def Value.replacement : List Int64 → UInt32 → UInt32
  | placeholder :: argument :: rest, item =>
      if placeholder = Int64.ofNat item.toNat then slotOf argument else replacement rest item
  | _, item => item

namespace Trigger

theorem replacement_pairs_cons (placeholder argument : Counter)
    (placeholders arguments : List Counter) (item : UInt32) :
    Value.replacement (pairs (placeholder :: placeholders) (argument :: arguments)) item =
      if placeholder.item = item then argument.item
      else Value.replacement (pairs placeholders arguments) item := by
  have same : Int64.ofNat placeholder.item.toNat = Int64.ofNat item.toNat ↔
      placeholder.item = item := by
    refine ⟨fun equal => ?_, fun equal => by rw [equal]⟩
    rw [← Value.slotOf_ofNat placeholder.item, equal, Value.slotOf_ofNat]
  change (if Int64.ofNat placeholder.item.toNat = Int64.ofNat item.toNat then
    Value.slotOf (Int64.ofNat argument.item.toNat) else _) = _
  simp only [same, Value.slotOf_ofNat]
  rfl

/-- Only placeholders are replaced. -/
theorem replacement_pairs_of_not_mem {placeholders : List Counter} {item : UInt32}
    (apart : item ∉ placeholders.map (·.item)) (arguments : List Counter) :
    Value.replacement (pairs placeholders arguments) item = item := by
  induction placeholders generalizing arguments with
  | nil => rfl
  | cons placeholder placeholders ih =>
      rw [List.map_cons, List.mem_cons, not_or] at apart
      cases arguments with
      | nil => rfl
      | cons argument arguments =>
          rw [replacement_pairs_cons, if_neg (Ne.symm apart.1)]
          exact ih apart.2 arguments

/-- Each placeholder is replaced by the argument in its position. -/
theorem map_rename_replacement {placeholders arguments : List Counter}
    (distinct : (placeholders.map (·.item)).Nodup)
    (arity : arguments.length = placeholders.length)
    (items : ∀ counter ∈ placeholders ++ arguments, counter.kind = .item) :
    placeholders.map (Counter.rename (Value.replacement (pairs placeholders arguments))) =
      arguments := by
  induction placeholders generalizing arguments with
  | nil => exact (List.length_eq_zero_iff.1 arity).symm
  | cons placeholder placeholders ih =>
      cases arguments with
      | nil => cases arity
      | cons argument arguments =>
          rw [List.map_cons, List.nodup_cons] at distinct
          have kinds : placeholder.kind = argument.kind :=
            (items placeholder (by simp)).trans (items argument (by simp)).symm
          have first : placeholder.rename (Value.replacement
              (pairs (placeholder :: placeholders) (argument :: arguments))) = argument := by
            rw [Counter.rename, replacement_pairs_cons, if_pos rfl, kinds]
          have others : placeholders.map (Counter.rename (Value.replacement
                (pairs (placeholder :: placeholders) (argument :: arguments)))) =
              placeholders.map (Counter.rename (Value.replacement
                (pairs placeholders arguments))) := by
            refine List.map_congr_left fun counter member => ?_
            have apart : placeholder.item ≠ counter.item := fun equal =>
              distinct.1 (equal ▸ List.mem_map_of_mem member)
            rw [Counter.rename, replacement_pairs_cons, if_neg apart, Counter.rename]
          rw [List.map_cons, first, others]
          refine congrArg _ (ih distinct.2 (Nat.succ.inj arity) fun counter member => ?_)
          refine items counter ?_
          simp only [List.cons_append, List.mem_cons, List.mem_append] at member ⊢
          tauto

theorem remapSpawn_of_group {target : Reference} (isGroup : target.domain = .group)
    (numbers : List Int64) :
    remapSpawn target numbers = .ok (make ObjectType.spawn [(Field.target, .reference target),
      (Field.remaps, .integers numbers), (Field.resetRemap, .boolean true)]) := by
  refine Object.setAll_of_accepted _ ?_
  have free : ∀ key ∈ [Field.remaps, Field.resetRemap],
      Table.builtin.explicitDomain? key = none := by decide
  simp_all [Table.checkField_target isGroup, Table.checkField_of_free]

end Trigger

/-! ## Taking placeholders -/

/-- Slots that a pool hands out one after another. -/
structure Pool.Takes (before : Pool) (slots : List Counter) (after : Pool) : Prop where
  items : ∀ counter ∈ slots, counter.kind = .item
  distinct : (slots.map (·.item)).Nodup
  above : ∀ counter ∈ slots, before.last.toNat < counter.item.toNat
  within : ∀ counter ∈ slots, counter.item.toNat ≤ after.last.toNat
  grown : before.last.toNat ≤ after.last.toNat
  reach : after.reach ≤ before.reach + slots.length

namespace Build

theorem takes_placeholders {count : Nat} {run after : Run} {slots : List Counter}
    (taken : outcome (placeholders count) run = (.ok slots, after))
    (room : run.compiler.ids.items.reach + count ≤ Pool.limit) :
    slots.length = count ∧ run.compiler.ids.items.Takes slots after.compiler.ids.items := by
  induction count generalizing run slots with
  | zero =>
      cases taken
      exact ⟨rfl, List.forall_mem_nil _, List.nodup_nil, List.forall_mem_nil _,
        List.forall_mem_nil _, Nat.le_refl _, Nat.le_refl _⟩
  | succ count ih =>
      obtain ⟨above, last, reach⟩ := @Pool.reach_next run.compiler.ids.items (by omega)
      let item := run.compiler.nextItem.1
      let next := run.withCompiler run.compiler.nextItem.2
      have drawn : outcome (draw Compiler.nextItem) run = (.ok item, next) := rfl
      rw [placeholders, outcome_bind_of_ok drawn, outcome_bind] at taken
      rcases ended : outcome (placeholders count) next with ⟨_ | others, later⟩
      · rw [ended] at taken
        cases taken
      · rw [ended] at taken
        cases taken
        have fewer : next.compiler.ids.items.reach ≤ run.compiler.ids.items.reach + 1 := reach
        have here : next.compiler.ids.items.last = item := last
        obtain ⟨length, items, distinct, higher, within, grown, reaches⟩ := ih ended (by omega)
        rw [here] at higher grown
        have fresh : item ∉ others.map (·.item) := by
          intro member
          obtain ⟨counter, found, equal⟩ := List.mem_map.1 member
          have more := higher counter found
          rw [equal] at more
          exact Nat.lt_irrefl _ more
        have total : after.compiler.ids.items.reach ≤
            run.compiler.ids.items.reach + (others.length + 1) := by omega
        exact ⟨congrArg _ length, List.forall_mem_cons.2 ⟨rfl, items⟩,
          List.nodup_cons.2 ⟨fresh, distinct⟩, List.forall_mem_cons.2
            ⟨above, fun counter member => above.trans (higher counter member)⟩,
          List.forall_mem_cons.2 ⟨grown, within⟩, above.le.trans grown, total⟩

end Build

/-! ## Compiling a body against counters -/

/-- Bindings with names for counters in front of them. -/
def Binding.pushCounters : List String → List Counter → List (String × Binding) →
    List (String × Binding)
  | name :: names, first :: counters, bindings =>
      pushCounters names counters ((name, .counter first) :: bindings)
  | _, _, bindings => bindings

/-- The same run with names for counters. -/
def Run.withCounters (run : Run) (names : List String) (counters : List Counter) : Run :=
  { run with bindings := Binding.pushCounters names counters run.bindings }

namespace Build

/-- A body whose parameters stand for some counters. -/
def parametric (parameters : List String) (body : List Statement) (counters : List Counter) :
    Build Unit := do
  bindCounters parameters counters
  Statement.execAll body

theorem outcome_bindCounters (names : List String) (counters : List Counter) (run : Run) :
    outcome (bindCounters names counters) run =
      (.ok (), run.withCounters names counters) := by
  induction names generalizing counters run with
  | nil => rfl
  | cons name names ih =>
      cases counters with
      | nil => rfl
      | cons counter counters =>
          have bound : outcome (Build.bind name (.counter counter)) run =
              (.ok (), { run with bindings := (name, .counter counter) :: run.bindings }) := rfl
          rw [bindCounters, outcome_bind_of_ok bound]
          exact ih counters _

/-- The function that a body becomes against some counters. -/
def instantiate (parameters : List String) (body : List Statement) (counters : List Counter) :
    Build Reference :=
  function fun _ => parametric parameters body counters

/-- It makes no difference whether the parameters are bound inside or outside of the function. -/
theorem outcome_instantiate (parameters : List String) (body : List Statement)
    (counters : List Counter) (run : Run) :
    let inside := outcome (instantiate parameters body counters) run
    let outside := outcome (function fun _ => Statement.execAll body)
      (run.withCounters parameters counters)
    inside.1 = outside.1 ∧ inside.2.compiler = outside.2.compiler := by
  intro inside outside
  rcases run.compiler.openAnonymous_ends with ⟨error, refused⟩ | ⟨opened, next, made⟩
  · have left : inside = (.error error, run) :=
      outcome_bind_of_error (outcome_commit_of_error refused)
    have right : outside = (.error error, _) :=
      outcome_bind_of_error (outcome_commit_of_error refused)
    rw [left, right]
    exact ⟨rfl, rfl⟩
  · have opens : (run.withCounters parameters counters).compiler.openAnonymous =
      (.ok opened, next) := made
    have equal : inside = outside := by
      refine (outcome_function_of_opens _ made).trans ?_
      rw [parametric, outcome_bind_of_ok (outcome_bindCounters _ _ _)]
      exact (outcome_function_of_opens (fun _ => Statement.execAll body) opens).symm
    rw [equal]
    exact ⟨rfl, rfl⟩

end Build

/-- Binding names to counters and to the counters in their place makes them usable. -/
theorem SameBindings.pushCounters {slot : UInt32 → UInt32} {clear : String → Prop}
    {one two : List (String × Binding)} (same : SameBindings slot clear one two)
    {names : List String} {counters : List Counter} (arity : counters.length = names.length) :
    SameBindings slot (fun name => name ∈ names ∨ clear name)
      (Binding.pushCounters names counters one)
      (Binding.pushCounters names (counters.map (Counter.rename slot)) two) := by
  induction names generalizing counters clear one two with
  | nil =>
      obtain rfl := List.length_eq_zero_iff.1 arity
      refine same.mono fun name known => ?_
      exact known.resolve_left List.not_mem_nil
  | cons name names ih =>
      cases counters with
      | nil => cases arity
      | cons counter counters =>
          have later := ih (same.cons name (.counter counter)) (Nat.succ.inj arity)
          refine later.mono fun other known => ?_
          rw [List.mem_cons] at known
          tauto

/-- Bindings agree with themselves in the names that stand for no counter that is moved. -/
theorem sameBindings_refl {slot : UInt32 → UInt32} {kept : UInt32 → Prop}
    (fixed : ∀ item, kept item → slot item = item) (bindings : List (String × Binding)) :
    SameBindings slot (fun name => ∀ counter, bindings.lookup name = some (.counter counter) →
      kept counter.item) bindings bindings := by
  intro name
  by_cases clear : ∀ counter, bindings.lookup name = some (.counter counter) → kept counter.item
  · left
    cases found : bindings.lookup name with
    | none => rfl
    | some binding =>
        cases binding with
        | counter counter =>
            have steady := Counter.rename_of_fixed slot (fixed _ (clear counter found))
            exact congrArg (fun counter => some (Binding.counter counter)) steady.symm
        | _ => rfl
  · exact .inr ⟨clear, rfl⟩

theorem Build.domain_of_function {body : Reference → Build Unit} {run : Run} {group : Reference}
    (made : (outcome (function body) run).1 = .ok group) : group.domain = .group := by
  rcases outcome_function body run with ⟨error, failed⟩ | ⟨opened, next, opens, ended⟩
  · rw [failed] at made
    cases made
  · rw [ended] at made
    rcases within : outcome (body opened.group) _ with ⟨_ | _, after⟩
    all_goals rw [within] at made
    · cases made
    · cases made
      exact (Compiler.opens_of_openContext opens).domain

/-! ## Two compilations of one body -/

/-- A second supply of anonymous names that is the same, or two supplies that give no name twice and
none of a context that is open. -/
def Compiler.AllowsSupply (compiler : Compiler) (other : Nat → String) : Prop :=
  other = compiler.names ∨ ∀ supply ∈ [compiler.names, other], Function.Injective supply ∧
    ∀ number, compiler.contexts.length ≤ number →
      ∀ context ∈ compiler.contexts, supply number ≠ context.name

/-- What a body with parameters may name: no placeholder, neither itself nor by a name that stands
for one already, and no anonymous name of a later context, unless there is one supply. -/
def Run.vocabulary (run : Run) (parameters : List String) (slots : List Counter)
    (other : Nat → String) : Vocabulary where
  kept item := item ∉ slots.map (·.item)
  plain label := other = run.compiler.names ∨ ∀ number, run.compiler.contexts.length ≤ number →
    run.compiler.names number ≠ label ∧ other number ≠ label
  clear name := name ∈ parameters ∨ ∀ counter,
    run.bindings.lookup name = some (.counter counter) → counter.item ∉ slots.map (·.item)

/-- The objects of a context, none if it is not open. -/
def Compiler.objectsOf (compiler : Compiler) (id : Nat) : List Object :=
  ((compiler.context? id).map (·.objects)).getD []

/-- The same run with another supply of anonymous names. -/
def Run.withNames (run : Run) (other : Nat → String) : Run :=
  run.withCompiler { run.compiler with names := other }

/-- Contexts that agree in everything but an anonymous name and the slots in newer objects. -/
structure Context.Recompiles (slot : UInt32 → UInt32) (before : Compiler) (other : Nat → String)
    (id : Nat) (one two : Context) : Prop where
  name : two.name = one.name ∨ one.name = before.names id ∧ two.name = other id
  group : two.group = one.group
  parent : two.parent = one.parent
  objects : ∃ more, one.objects = before.objectsOf id ++ more ∧
    two.objects = before.objectsOf id ++ more.map (·.rename slot)

namespace Twin

variable {start : Run} {other : Nat → String}

theorem plain_of_allowsSupply (supply : start.compiler.AllowsSupply other)
    (parameters : List String) (slots : List Counter) {context : Context}
    (member : context ∈ start.compiler.contexts) :
    (start.vocabulary parameters slots other).plain context.name := by
  rcases supply with shared | fresh
  · exact .inl shared
  · refine .inr fun number beyond => ⟨?_, ?_⟩
    · exact (fresh start.compiler.names (by simp)).2 number beyond context member
    · exact (fresh other (by simp)).2 number beyond context member

/-- Two runs of one body, against the placeholders and against the arguments in their place. -/
def ofCall (parameters : List String) (slots arguments : List Counter)
    (supply : start.compiler.AllowsSupply other) : Twin where
  toVocabulary := start.vocabulary parameters slots other
  slot := Value.replacement (Trigger.pairs slots arguments)
  fixed _ apart := Trigger.replacement_pairs_of_not_mem apart arguments
  names := start.compiler.names
  other
  opened := start.compiler.contexts.length
  before := start.compiler.objectsOf
  empty id beyond := by
    rw [Compiler.objectsOf, Compiler.context?, List.getElem?_eq_none beyond]
    rfl
  supplies := by
    by_cases shared : start.compiler.names = other
    · exact .inl shared
    · have fresh := supply.resolve_left (Ne.symm shared)
      refine .inr fun names member => ⟨(fresh names member).1, fun number beyond plain => ?_⟩
      have apart := plain.resolve_left (Ne.symm shared) number beyond
      simp only [List.mem_cons, List.not_mem_nil, or_false] at member
      rcases member with rfl | rfl
      · exact apart.1 rfl
      · exact apart.2 rfl

/-- Only placeholders are moved, and they were taken before. -/
theorem room_ofCall {items : Pool} {parameters : List String} {slots : List Counter}
    (taken : items.Takes slots start.compiler.ids.items) (arguments : List Counter)
    (supply : start.compiler.AllowsSupply other) {budget : Nat}
    (room : items.reach + slots.length + budget < Pool.limit) :
    (ofCall parameters slots arguments supply).Room budget start.compiler.ids.items := by
  refine .inr ⟨?_, fun item moved => ?_⟩
  · have reach := taken.reach
    omega
  · have member : item ∈ slots.map (·.item) := by
      by_contra apart
      exact moved (Trigger.replacement_pairs_of_not_mem apart arguments)
    obtain ⟨counter, found, rfl⟩ := List.mem_map.1 member
    exact taken.within counter found

theorem sameContext_ofCall {parameters : List String} {slots arguments : List Counter}
    (supply : start.compiler.AllowsSupply other) {id : Nat} {context : Context}
    (found : start.compiler.contexts[id]? = some context) :
    (ofCall parameters slots arguments supply).SameContext id context context := by
  have held : context.objects = start.compiler.objectsOf id ++ [] := by
    rw [Compiler.objectsOf, Compiler.context?, found, List.append_nil]
    rfl
  have plain := plain_of_allowsSupply supply parameters slots (List.mem_of_getElem? found)
  exact ⟨.inl ⟨rfl, plain⟩, rfl, rfl, [], held, held⟩

/-- The two runs begin alike, with the parameters bound to the placeholders and to the arguments. -/
theorem sameRun_ofCall {items : Pool} {parameters : List String} {slots arguments : List Counter}
    (taken : items.Takes slots start.compiler.ids.items)
    (arity : slots.length = parameters.length)
    (renamed : slots.map (Counter.rename (Value.replacement (Trigger.pairs slots arguments))) =
      arguments)
    (supply : start.compiler.AllowsSupply other) {budget : Nat}
    (room : items.reach + slots.length + budget < Pool.limit) :
    (ofCall parameters slots arguments supply).SameRun budget
      (start.withCounters parameters slots)
      ((start.withNames other).withCounters parameters arguments) where
  compiler :=
    { ids := rfl
      contexts := by
        intro id
        change Option.Rel _ start.compiler.contexts[id]? start.compiler.contexts[id]?
        cases found : start.compiler.contexts[id]? with
        | none => exact .none
        | some context => exact .some (sameContext_ofCall supply found)
      stack := rfl
      chain := rfl
      options := rfl
      names := rfl
      other := rfl
      opened := Nat.le_refl _
      room := room_ofCall taken arguments supply room }
  bindings := by
    have unmoved := sameBindings_refl (ofCall parameters slots arguments supply).fixed
      start.bindings
    have same : SameBindings _ _ _ (Binding.pushCounters parameters (slots.map (Counter.rename
        (Value.replacement (Trigger.pairs slots arguments)))) start.bindings) :=
      unmoved.pushCounters arity
    rw [renamed] at same
    exact same
  finished := by
    refine List.forall₂_same.2 fun entry _ => ⟨rfl, ?_, rfl, rfl⟩
    cases entry.result with
    | error error => exact .error error
    | ok outcome => exact .ok (.equal outcome)

theorem SameContext.recompiles {parameters : List String} {slots arguments : List Counter}
    {supply : start.compiler.AllowsSupply other} {id : Nat} {one two : Context}
    (same : (ofCall parameters slots arguments supply).SameContext id one two) :
    one.Recompiles (Value.replacement (Trigger.pairs slots arguments)) start.compiler other id
      two where
  name := same.name.imp (·.1) (·.2)
  group := same.group
  parent := same.parent
  objects := same.objects

end Twin

/-- A function with parameters is compiled against placeholders, and a call of it lists the pairs of
a placeholder and an argument.  Replacing the slots that the pairs say, in all that the body was
compiled into, gives what it is compiled into against the arguments from the same moment on, as long
as the slots do not run out. -/
theorem remapped_call_equals_recompilation (run start : Run) (parameters : List String)
    (body : List Statement) (slots arguments : List Counter) (other : Nat → String)
    (taken : Build.outcome (Build.placeholders parameters.length) run = (.ok slots, start))
    (arity : arguments.length = parameters.length)
    (items : ∀ argument ∈ arguments, argument.kind = .item)
    (supply : start.compiler.AllowsSupply other)
    (allowed : ∀ statement ∈ body,
      statement.Everywhere (start.vocabulary parameters slots other).Allows)
    (room : run.compiler.ids.items.reach + parameters.length + Statement.demandAll body <
      Pool.limit) :
    let numbers := Trigger.pairs slots arguments
    let slot := Value.replacement numbers
    let one := Build.outcome (Build.instantiate parameters body slots) start
    let two := Build.outcome (Build.instantiate parameters body arguments) (start.withNames other)
    slots.map (Counter.rename slot) = arguments ∧
      Build.outcome (Build.remappable parameters.length (Build.parametric parameters body)) run =
        (one.1.map (⟨·, slots⟩), one.2) ∧
      two.1 = one.1 ∧ two.2.compiler.ids = one.2.compiler.ids ∧
      two.2.compiler.stack = one.2.compiler.stack ∧
      two.2.compiler.chain = one.2.compiler.chain ∧
      (∀ id, Option.Rel (Context.Recompiles slot start.compiler other id)
        (one.2.compiler.context? id) (two.2.compiler.context? id)) ∧
      ∀ group, one.1 = .ok group → ∀ later : Run, ∃ spawn,
        Build.outcome (Build.callRemapped ⟨group, slots⟩ arguments) later =
          (.ok (), later.withCompiler (later.compiler.add spawn)) ∧
        spawn.get? Field.target = some (.reference group) ∧
        spawn.get? Field.remaps = some (.integers numbers) := by
  intro numbers slot one two
  obtain ⟨length, takes⟩ := Build.takes_placeholders taken (by omega)
  have renamed : slots.map (Counter.rename slot) = arguments := by
    refine Trigger.map_rename_replacement takes.distinct (arity.trans length.symm) ?_
    exact fun counter member =>
      (List.mem_append.1 member).elim (takes.items counter) (items counter)
  let twin := Twin.ofCall parameters slots arguments supply
  have begins : twin.SameRun (Statement.demandAll body + 0) _ _ :=
    Twin.sameRun_ofCall takes length renamed supply (by omega)
  have bodies : Build.Matches twin (Statement.demandAll body) Eq
      (Build.function fun _ => Statement.execAll body)
      (Build.function fun _ => Statement.execAll body) :=
    Build.matches_function fun _ => Build.matches_execAll fun statement member =>
      Build.matches_everywhere (allowed statement member)
  obtain ⟨results, same⟩ := bodies 0 _ _ begins
  obtain ⟨oneResult, oneCompiler⟩ := Build.outcome_instantiate parameters body slots start
  obtain ⟨twoResult, twoCompiler⟩ :=
    Build.outcome_instantiate parameters body arguments (start.withNames other)
  have compilers : twin.SameCompiler 0 one.2.compiler two.2.compiler := by
    have compilers := same.compiler
    rwa [← oneCompiler, ← twoCompiler] at compilers
  refine ⟨renamed, ?_, ?_, compilers.ids, compilers.stack, compilers.chain, fun id => ?_,
    fun group made later => ?_⟩
  · rw [Build.remappable, Build.outcome_bind_of_ok taken]
    rcases ended : one with ⟨error | group, after⟩
    · exact Build.outcome_bind_of_error ended
    · exact Build.outcome_bind_of_ok ended
  · have equal := results.eq
    rwa [← oneResult, ← twoResult] at equal
  · exact Twin.rel_mono (compilers.contexts id) fun _ _ here => here.recompiles
  · have accepted := Trigger.remapSpawn_of_group (Build.domain_of_function made) numbers
    exact ⟨_, Build.outcome_addMade_of_ok accepted later, rfl, rfl⟩

/-- A body with two parameters: it moves one counter into the other, step by step, and hands the
second to a function of its own. -/
def Statement.pouring : List Statement :=
  [.repeatWhile ⟨.named "p", .larger, .zero⟩ (some .zero) none none
      [.change (.named "p") .subtract (.literal (.constant (.ofInt 1))), .wait .zero,
        .transfer .add (.named "q") (.named "p")],
    .counter .plain (some "left"),
    .remappable ["r"] (some "inner") [.reset (.named "r")],
    .callRemapped "inner" [.named "q"]]

/-- The body is compiled against slots 1 and 2 and, with other anonymous names, against slots 7 and
9. -/
theorem pouring_recompiles :
    let run := Run.start (.start .standard (Compiler.lettered 'a'))
    let start := (Build.outcome (Build.placeholders 2) run).2
    let one := Build.outcome
      (Build.instantiate ["p", "q"] Statement.pouring [⟨1, .item⟩, ⟨2, .item⟩]) start
    let two := Build.outcome
      (Build.instantiate ["p", "q"] Statement.pouring [⟨7, .item⟩, ⟨9, .item⟩])
      (start.withNames (Compiler.lettered 'b'))
    two.1 = one.1 ∧ one.2.compiler.contexts.length = 6 ∧
      (∀ id, Option.Rel (Context.Recompiles (Value.replacement [1, 7, 2, 9]) start.compiler
        (Compiler.lettered 'b') id) (one.2.compiler.context? id) (two.2.compiler.context? id)) ∧
      ∃ spawn, Build.outcome (Build.callRemapped ⟨⟨.group, 2⟩, [⟨1, .item⟩, ⟨2, .item⟩]⟩
          [⟨7, .item⟩, ⟨9, .item⟩]) one.2 =
            (.ok (), one.2.withCompiler (one.2.compiler.add spawn)) ∧
        spawn.get? Field.remaps = some (.integers [1, 7, 2, 9]) := by
  intro run start
  dsimp only
  have slots : (Build.outcome (Build.placeholders 2) run).1 =
      .ok [⟨1, .item⟩, ⟨2, .item⟩] := by decide +kernel
  have taken : Build.outcome (Build.placeholders 2) run =
      (.ok [⟨1, .item⟩, ⟨2, .item⟩], start) := Prod.ext slots rfl
  have supply : start.compiler.AllowsSupply (Compiler.lettered 'b') := by
    have fresh (letter : Char) (apart : letter ≠ 'g') :
        Function.Injective (Compiler.lettered letter) ∧
          ∀ number, start.compiler.contexts.length ≤ number → ∀ context ∈ start.compiler.contexts,
            Compiler.lettered letter number ≠ context.name := by
      refine ⟨(Compiler.supply_lettered apart).injective, fun number _ context member => ?_⟩
      obtain rfl := List.mem_singleton.1 member
      exact (Compiler.supply_lettered apart).apart number
    exact .inr (List.forall_mem_cons.2
      ⟨fresh 'a' (by decide), List.forall_mem_singleton.2 (fresh 'b' (by decide))⟩)
  let vocabulary := start.vocabulary ["p", "q"] [⟨1, .item⟩, ⟨2, .item⟩] (Compiler.lettered 'b')
  have known (name : String) : vocabulary.clear name := .inr fun counter found => by cases found
  have simple {statement : Statement} (bodiless : statement.body = [])
      (here : vocabulary.Allows statement) : statement.Everywhere vocabulary.Allows :=
    Statement.everywhere_of_bodiless bodiless here
  have allowed : ∀ statement ∈ Statement.pouring, statement.Everywhere vocabulary.Allows := by
    simp only [Statement.pouring, List.forall_mem_cons]
    refine ⟨.intro (known "p") ?_, simple rfl fun _ => ?_, .intro trivial ?_,
      simple rfl fun operand member => ?_, List.forall_mem_nil _⟩
    · simp only [Statement.body, List.forall_mem_cons]
      exact ⟨simple rfl ⟨known "p", trivial⟩, simple rfl trivial,
        simple rfl ⟨known "q", known "p"⟩, List.forall_mem_nil _⟩
    · rintro ⟨⟩
    · simp only [Statement.body, List.forall_mem_cons]
      exact ⟨simple rfl (known "r"), List.forall_mem_nil _⟩
    · obtain rfl := List.mem_singleton.1 member
      exact known "q"
  have room : run.compiler.ids.items.reach + ["p", "q"].length +
      Statement.demandAll Statement.pouring < Pool.limit := by decide +kernel
  have numbers : Trigger.pairs [⟨1, .item⟩, ⟨2, .item⟩] [⟨7, .item⟩, ⟨9, .item⟩] =
      [1, 7, 2, 9] := by decide
  have recompiled := remapped_call_equals_recompilation run start ["p", "q"] Statement.pouring
    [⟨1, .item⟩, ⟨2, .item⟩] [⟨7, .item⟩, ⟨9, .item⟩] (Compiler.lettered 'b') taken rfl (by decide)
    supply allowed room
  rw [numbers] at recompiled
  obtain ⟨-, -, results, -, -, -, contexts, called⟩ := recompiled
  have made : (Build.outcome (Build.instantiate ["p", "q"] Statement.pouring
      [⟨1, .item⟩, ⟨2, .item⟩]) start).1 = .ok ⟨.group, 2⟩ := by decide +kernel
  obtain ⟨spawn, appended, -, remaps⟩ := called ⟨.group, 2⟩ made _
  refine ⟨results, ?_, contexts, spawn, appended, remaps⟩
  decide +kernel

end TriggerGraph
