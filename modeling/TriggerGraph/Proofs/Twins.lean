import TriggerGraph.Proofs.Registry
import TriggerGraph.Proofs.Renaming

/-!
# Two runs of one script

Two runs are followed side by side.  They take their anonymous names from different supplies, and
the second uses other slots in the place of some that were taken before; all that they have done
since then is otherwise the same.  One rule for each way in which an action is put together carries
this over to every statement.
-/

namespace TriggerGraph

/-! ## Slots within reach -/

namespace Pool

/-- The last id together with the reserved ids above it; the next id lies at most one further. -/
def reach (pool : Pool) : Nat :=
  pool.last.toNat + pool.reserved.countP (pool.last.toNat < ·.toNat)

theorem advance_reach {last : UInt32} {pending skipped : List UInt32}
    (room : last.toNat + pending.countP (last.toNat < ·.toNat) < limit) :
    last.toNat < (advance last pending skipped).1.toNat ∧
      (advance last pending skipped).1.toNat +
          pending.countP ((advance last pending skipped).1.toNat < ·.toNat) ≤
        last.toNat + pending.countP (last.toNat < ·.toNat) + 1 := by
  rw [limit] at room
  fun_induction advance last pending skipped with
  | case1 last pending skipped found ih =>
      have succ : (last + 1).toNat = last.toNat + 1 := toNat_succ (by omega)
      have split (bound : Nat) : pending.countP (bound < ·.toNat) =
          (pending.erase (last + 1)).countP (bound < ·.toNat) +
            if bound < last.toNat + 1 then 1 else 0 := by
        rw [(List.perm_cons_erase found).countP_eq, List.countP_cons, succ]
        simp
      have fewer : (pending.erase (last + 1)).countP (last.toNat + 1 < ·.toNat) ≤
          (pending.erase (last + 1)).countP (last.toNat < ·.toNat) := by
        refine List.countP_mono_left fun id _ above => ?_
        simp only [decide_eq_true_eq] at above ⊢
        omega
      have here := split last.toNat
      rw [if_pos (by omega)] at here
      rw [succ] at ih
      obtain ⟨above, within⟩ := ih (by omega)
      have there := split (advance (last + 1) (pending.erase (last + 1))
        (skipped.insert (last + 1))).1.toNat
      rw [if_neg (by omega)] at there
      omega
  | case2 last pending skipped absent =>
      have succ : (last + 1).toNat = last.toNat + 1 := toNat_succ (by omega)
      have fewer : pending.countP (last.toNat + 1 < ·.toNat) ≤
          pending.countP (last.toNat < ·.toNat) := by
        refine List.countP_mono_left fun id _ above => ?_
        simp only [decide_eq_true_eq] at above ⊢
        omega
      dsimp only
      rw [succ]
      omega

theorem reach_next {pool : Pool} (room : pool.reach < limit) :
    pool.last.toNat < pool.next.1.toNat ∧ pool.next.2.last = pool.next.1 ∧
      pool.next.2.reach ≤ pool.reach + 1 := by
  obtain ⟨above, within⟩ := @advance_reach pool.last pool.reserved pool.skipped room
  exact ⟨above, rfl, within⟩

theorem reach_reserve (pool : Pool) (item : UInt32) :
    (pool.reserve item).reach ≤ pool.reach + 1 := by
  change pool.last.toNat + (pool.reserved.insert item).countP (pool.last.toNat < ·.toNat) ≤
    pool.last.toNat + pool.reserved.countP (pool.last.toNat < ·.toNat) + 1
  by_cases member : item ∈ pool.reserved
  · rw [List.insert_of_mem member]
    omega
  · rw [List.insert_of_not_mem member, List.countP_cons]
    split <;> omega

end Pool

/-! ## What two runs have in common -/

/-- Names that are the same, or the anonymous names of one number in two supplies. -/
def Alias (names other : Nat → String) (one two : String) : Prop :=
  two = one ∨ ∃ number, one = names number ∧ two = other number

/-- Results that agree in everything but anonymous names. -/
inductive Outcome.Same (names other : Nat → String) : Outcome → Outcome → Prop where
  | equal (outcome : Outcome) : Same names other outcome outcome
  | context {info : ContextInfo} {name : String} (known : Alias names other info.name name) :
      Same names other (.context info) (.context { info with name })

/-- The same failure, or results that are related. -/
inductive SameResult {α : Type} (related : α → α → Prop) :
    Except CompileError α → Except CompileError α → Prop where
  | ok {one two : α} (both : related one two) : SameResult related (.ok one) (.ok two)
  | error (error : CompileError) : SameResult related (.error error) (.error error)

theorem SameResult.eq {α : Type} {one two : Except CompileError α} (same : SameResult Eq one two) :
    two = one := by
  cases same with
  | ok both => rw [both]
  | error error => rfl

/-- Records that agree in everything but anonymous names. -/
structure Entry.Same (names other : Nat → String) (one two : Entry) : Prop where
  statement : two.statement = one.statement
  result : SameResult (Outcome.Same names other) one.result two.result
  group : two.group = one.group
  objects : two.objects = one.objects

/-- Bindings that agree up to slots, except in names that are not used for counters. -/
def SameBindings (slot : UInt32 → UInt32) (clear : String → Prop)
    (one two : List (String × Binding)) : Prop :=
  ∀ name, two.lookup name = (one.lookup name).map (·.rename slot) ∨
    ¬clear name ∧ two.lookup name = one.lookup name

theorem SameBindings.mono {slot : UInt32 → UInt32} {clear fewer : String → Prop}
    {one two : List (String × Binding)} (same : SameBindings slot clear one two)
    (narrow : ∀ name, fewer name → clear name) : SameBindings slot fewer one two := by
  intro name
  exact (same name).imp_right fun hidden => ⟨hidden.1 ∘ narrow name, hidden.2⟩

/-- A name that is bound can be used for a counter from then on. -/
theorem SameBindings.cons {slot : UInt32 → UInt32} {clear : String → Prop}
    {one two : List (String × Binding)} (same : SameBindings slot clear one two) (name : String)
    (binding : Binding) :
    SameBindings slot (fun other => clear other ∨ other = name) ((name, binding) :: one)
      ((name, binding.rename slot) :: two) := by
  intro other
  rw [List.lookup_cons, List.lookup_cons]
  by_cases here : other = name
  · rw [beq_iff_eq.2 here]
    exact .inl rfl
  · rw [beq_false_of_ne here]
    refine (same other).imp_right fun hidden => ⟨?_, hidden.2⟩
    rintro (known | there)
    · exact hidden.1 known
    · exact here there

/-- What a script may name. -/
structure Vocabulary where
  /-- The slots that it may name itself. -/
  kept : UInt32 → Prop
  /-- The names that it may give to contexts. -/
  plain : String → Prop
  /-- The names that may stand for its counters. -/
  clear : String → Prop

/-- How the second of two runs may differ from the first. -/
structure Twin extends Vocabulary where
  /-- The slot that it uses in the place of another. -/
  slot : UInt32 → UInt32
  /-- The slots that a script may name are the same in both runs. -/
  fixed : ∀ item, kept item → slot item = item
  /-- The anonymous names of the first run. -/
  names : Nat → String
  /-- The anonymous names of the second run. -/
  other : Nat → String
  /-- The number of contexts that were open before. -/
  opened : Nat
  /-- The objects that a context held before. -/
  before : Nat → List Object
  /-- A context that was not open held none. -/
  empty : ∀ id, opened ≤ id → before id = []
  /-- There is one supply, or none of the two gives a name twice or one that may be given. -/
  supplies : names = other ∨ ∀ supply ∈ [names, other],
    Function.Injective supply ∧ ∀ number, opened ≤ number → ¬plain (supply number)

namespace Twin

variable (twin : Twin)

/-- The name of a context is the same, or it is the anonymous one of its number. -/
def SameName (id : Nat) (one two : String) : Prop :=
  two = one ∧ twin.plain one ∨ twin.opened ≤ id ∧ one = twin.names id ∧ two = twin.other id

/-- Contexts that agree in everything but an anonymous name and the slots in newer objects. -/
structure SameContext (id : Nat) (one two : Context) : Prop where
  name : twin.SameName id one.name two.name
  group : two.group = one.group
  parent : two.parent = one.parent
  objects : ∃ more, one.objects = twin.before id ++ more ∧
    two.objects = twin.before id ++ more.map (·.rename twin.slot)

/-- There is room for some more slots, none of which is moved. -/
def Room (budget : Nat) (items : Pool) : Prop :=
  (∀ item, twin.slot item = item) ∨
    items.reach + budget < Pool.limit ∧
      ∀ item, twin.slot item ≠ item → item.toNat ≤ items.last.toNat

/-- Compilations that agree up to names and slots. -/
structure SameCompiler (budget : Nat) (one two : Compiler) : Prop where
  ids : two.ids = one.ids
  contexts : ∀ id, Option.Rel (twin.SameContext id) one.contexts[id]? two.contexts[id]?
  stack : two.stack = one.stack
  chain : two.chain = one.chain
  options : two.options = one.options
  names : one.names = twin.names
  other : two.names = twin.other
  opened : twin.opened ≤ one.contexts.length
  room : twin.Room budget one.ids.items

/-- Runs that agree up to names and slots. -/
structure SameRun (budget : Nat) (one two : Run) : Prop where
  compiler : twin.SameCompiler budget one.compiler two.compiler
  bindings : SameBindings twin.slot twin.clear one.bindings two.bindings
  finished : List.Forall₂ (Entry.Same twin.names twin.other) one.finished two.finished

/-! ## Looking at two compilations -/

section Looking

variable {twin : Twin} {budget : Nat} {one two : Compiler}

theorem SameName.alias {id : Nat} {first second : String} (same : twin.SameName id first second) :
    Alias twin.names twin.other first second := by
  rcases same with ⟨equal, -⟩ | ⟨-, left, right⟩
  · exact .inl equal
  · exact .inr ⟨id, left, right⟩

theorem SameContext.length {id : Nat} {first second : Context}
    (same : twin.SameContext id first second) :
    second.objects.length = first.objects.length := by
  obtain ⟨more, left, right⟩ := same.objects
  rw [left, right, List.length_append, List.length_append, List.length_map]

theorem map_of_rel {α β : Type} {related : α → α → Prop} {first second : Option α}
    (both : Option.Rel related first second) {view : α → β}
    (agree : ∀ left right, related left right → view right = view left) :
    second.map view = first.map view := by
  cases both with
  | none => rfl
  | some here => exact congrArg some (agree _ _ here)

theorem rel_mono {α : Type} {related kept : α → α → Prop} {first second : Option α}
    (both : Option.Rel related first second)
    (weaker : ∀ left right, related left right → kept left right) :
    Option.Rel kept first second := by
  cases both with
  | none => exact .none
  | some here => exact .some (weaker _ _ here)

theorem rel_map {α : Type} {related kept : α → α → Prop} {first second : Option α}
    (both : Option.Rel related first second) {f g : α → α}
    (keeps : ∀ left right, related left right → kept (f left) (g right)) :
    Option.Rel kept (first.map f) (second.map g) := by
  cases both with
  | none => exact .none
  | some here => exact .some (keeps _ _ here)

namespace SameCompiler

variable (same : twin.SameCompiler budget one two)
include same

theorem current : two.current = one.current := by
  rw [Compiler.current, same.stack, Compiler.current]

theorem exists_second {id : Nat} {first : Context} (here : one.contexts[id]? = some first) :
    ∃ second, two.contexts[id]? = some second ∧ twin.SameContext id first second := by
  have both := same.contexts id
  rw [here] at both
  generalize two.contexts[id]? = second at both
  cases both with
  | some known => exact ⟨_, rfl, known⟩

theorem exists_first {id : Nat} {second : Context} (here : two.contexts[id]? = some second) :
    ∃ first, one.contexts[id]? = some first ∧ twin.SameContext id first second := by
  have both := same.contexts id
  rw [here] at both
  generalize one.contexts[id]? = first at both
  cases both with
  | some known => exact ⟨_, rfl, known⟩

theorem map_contexts {β : Type} {view : Context → β}
    (agree : ∀ id first second, twin.SameContext id first second → view second = view first) :
    two.contexts.map view = one.contexts.map view := by
  refine List.ext_getElem? fun id => ?_
  rw [List.getElem?_map, List.getElem?_map]
  exact map_of_rel (same.contexts id) (agree id)

theorem length : two.contexts.length = one.contexts.length := by
  have units := same.map_contexts fun _ _ _ _ => (rfl : () = ())
  rw [← List.length_map, units, List.length_map]

theorem map_group (id : Nat) :
    (two.context? id).map (·.group.value) = (one.context? id).map (·.group.value) :=
  map_of_rel (same.contexts id) fun _ _ here => by rw [here.group]

theorem groupValue (id : Nat) : two.groupValue id = one.groupValue id := by
  rw [Compiler.groupValue, same.map_group, Compiler.groupValue]

theorem currentSize : two.currentSize = one.currentSize := by
  have sizes : (two.context? one.current).map (·.objects.length) =
      (one.context? one.current).map (·.objects.length) :=
    map_of_rel (same.contexts one.current) fun _ _ here => here.length
  rw [Compiler.currentSize, Compiler.currentSize, same.current, sizes]

theorem lookup_byGroup (value : UInt32) : two.byGroup.lookup value = one.byGroup.lookup value := by
  rw [two.owned, one.owned, same.map_contexts fun _ _ _ here => congrArg _ here.group]

theorem owner? (group : Reference) : two.owner? group = one.owner? group := by
  rw [Compiler.owner?, same.lookup_byGroup, Compiler.owner?]

theorem isGroupInUse (value : UInt32) : two.isGroupInUse value = one.isGroupInUse value := by
  rw [Compiler.isGroupInUse, same.ids, same.lookup_byGroup, Compiler.isGroupInUse]

theorem find?_of_agree {label : String}
    (agree : ∀ id first second, twin.SameName id first second →
      (second == label) = (first == label)) : two.find? label = one.find? label := by
  have names : two.contexts.map (·.name == label) = one.contexts.map (·.name == label) :=
    same.map_contexts fun id first second here => agree id _ _ here.name
  rw [two.find?_eq_test, names, one.find?_eq_test]

/-- A name that may be given is found in the same place. -/
theorem find? {label : String} (plain : twin.plain label) : two.find? label = one.find? label := by
  refine same.find?_of_agree fun id first second named => ?_
  rcases named with ⟨rfl, -⟩ | ⟨new, rfl, rfl⟩
  · rfl
  · rcases twin.supplies with shared | fresh
    · rw [shared]
    · have apart : ∀ supply ∈ [twin.names, twin.other], (supply id == label) = false := by
        intro supply member
        exact beq_false_of_ne fun given => (fresh supply member).2 id new (given ▸ plain)
      rw [apart _ (by simp), apart _ (by simp)]

theorem describe {id : Nat} {first second : Context} (here : twin.SameContext id first second) :
    Outcome.Same twin.names twin.other (.context (one.describe first))
      (.context (two.describe second)) := by
  have parents : (second.parent.bind two.context?).map (·.group.value) =
      (first.parent.bind one.context?).map (·.group.value) := by
    rw [here.parent]
    cases first.parent with
    | none => rfl
    | some parent => exact same.map_group parent
  have equal : two.describe second = { one.describe first with name := second.name } := by
    rw [Compiler.describe, Compiler.describe, here.group, parents, here.length]
  rw [equal]
  exact .context here.name.alias

end SameCompiler
end Looking

/-! ## Changing two compilations -/

section Changing

variable {twin : Twin} {budget : Nat} {one two : Compiler}

theorem Room.mono {less : Nat} {items : Pool} (fewer : less ≤ budget)
    (room : twin.Room budget items) : twin.Room less items := by
  rcases room with still | ⟨below, moved⟩
  · exact .inl still
  · exact .inr ⟨by omega, moved⟩

/-- The next slot is the same in both runs and does not move. -/
theorem Room.next {items : Pool} (room : twin.Room (1 + budget) items) :
    twin.slot items.next.1 = items.next.1 ∧ twin.Room budget items.next.2 := by
  rcases room with still | ⟨below, moved⟩
  · exact ⟨still _, .inl still⟩
  · have room : items.reach < Pool.limit := by omega
    obtain ⟨above, last, reach⟩ := Pool.reach_next room
    refine ⟨not_not.1 fun away => ?_, .inr ⟨by omega, fun item away => ?_⟩⟩
    · have old := moved _ away
      omega
    · have old := moved item away
      rw [last]
      omega

theorem Room.reserve {items : Pool} (room : twin.Room (1 + budget) items) (item : UInt32) :
    twin.Room budget (items.reserve item) := by
  rcases room with still | ⟨below, moved⟩
  · exact .inl still
  · have reach := items.reach_reserve item
    exact .inr ⟨by omega, moved⟩

namespace SameCompiler

theorem mono {less : Nat} (fewer : less ≤ budget) (same : twin.SameCompiler budget one two) :
    twin.SameCompiler less one two :=
  { same with room := same.room.mono fewer }

theorem withIds {more : Nat} (same : twin.SameCompiler budget one two) {ids : Allocator}
    (room : twin.Room more ids.items) :
    twin.SameCompiler more { one with ids } { two with ids } :=
  { same with ids := rfl, room }

theorem nextItem (same : twin.SameCompiler (1 + budget) one two) :
    two.nextItem.1 = one.nextItem.1 ∧ twin.slot one.nextItem.1 = one.nextItem.1 ∧
      twin.SameCompiler budget one.nextItem.2 two.nextItem.2 := by
  obtain ⟨fixed, room⟩ := same.room.next
  rw [Compiler.nextItem, Compiler.nextItem, same.ids]
  exact ⟨rfl, fixed, same.withIds room⟩

theorem reserveItem (same : twin.SameCompiler (1 + budget) one two) (item : UInt32) :
    twin.SameCompiler budget (one.reserveItem item) (two.reserveItem item) := by
  rw [Compiler.reserveItem, Compiler.reserveItem, same.ids]
  exact same.withIds (same.room.reserve item)

section Same

variable (same : twin.SameCompiler budget one two)
include same

theorem next (domain : Domain) :
    (two.next domain).1 = (one.next domain).1 ∧
      twin.SameCompiler budget (one.next domain).2 (two.next domain).2 := by
  rw [Compiler.next, Compiler.next, same.ids]
  refine ⟨rfl, same.withIds ?_⟩
  cases domain <;> exact same.room

theorem reserve (domain : Domain) (value : UInt32) :
    (two.reserve domain value).1 = (one.reserve domain value).1 ∧
      twin.SameCompiler budget (one.reserve domain value).2 (two.reserve domain value).2 := by
  rw [Compiler.reserve, Compiler.reserve, same.ids]
  refine ⟨rfl, same.withIds ?_⟩
  cases domain <;> exact same.room

theorem switchTo (id : Nat) : twin.SameCompiler budget (one.switchTo id) (two.switchTo id) :=
  { same with stack := congrArg (fun stack : List Nat => id :: stack.tail) same.stack }

theorem enter (id : Nat) : twin.SameCompiler budget (one.enter id) (two.enter id) :=
  { same with stack := congrArg (id :: ·) same.stack }

theorem leave : twin.SameCompiler budget one.leave two.leave :=
  { same with stack := congrArg List.tail same.stack }

theorem link (source target : Nat) :
    twin.SameCompiler budget (one.link source target) (two.link source target) :=
  { same with chain := congrArg (·.link source target) same.chain }

theorem addTo (id : Nat) (object : Object) :
    twin.SameCompiler budget (one.addTo id object) (two.addTo id (object.rename twin.slot)) :=
  { same with
    contexts := by
      intro index
      rw [Compiler.addTo, Compiler.addTo, List.getElem?_modify, List.getElem?_modify]
      refine rel_map (same.contexts index) fun first second here => ?_
      split
      · obtain ⟨more, left, right⟩ := here.objects
        exact { here with objects := ⟨more ++ [object], by simp [left], by simp [right]⟩ }
      · exact here
    opened := by
      rw [Compiler.length_addTo]
      exact same.opened }

theorem register {first second : Context}
    (here : twin.SameContext one.contexts.length first second) :
    twin.SameCompiler budget (one.register first) (two.register second) :=
  { same with
    contexts := by
      intro index
      rw [Compiler.register, Compiler.register]
      rcases Nat.lt_trichotomy index one.contexts.length with below | rfl | above
      · rw [List.getElem?_append_left below, List.getElem?_append_left (same.length ▸ below)]
        exact same.contexts index
      · rw [List.getElem?_concat_length, ← same.length, List.getElem?_concat_length]
        exact .some (same.length ▸ here)
      · rw [List.getElem?_eq_none (by simp; omega),
          List.getElem?_eq_none (by simp [same.length]; omega)]
        exact .none
    opened := by
      have before := same.opened
      simp only [Compiler.register, List.length_append]
      omega }

/-- Two contexts are opened, or there is a context of the name in both runs. -/
theorem openContext {first second : String}
    (named : twin.SameName one.contexts.length first second)
    (found : two.find? second = one.find? first)
    (shared : (one.find? first).isSome = true → second = first) :
    SameResult Eq (one.openContext first).1 (two.openContext second).1 ∧
      twin.SameCompiler budget (one.openContext first).2 (two.openContext second).2 := by
  obtain ⟨group, after⟩ := same.next .group
  rw [Compiler.openContext, Compiler.openContext, found]
  split
  · rename_i present
    rw [shared present]
    exact ⟨.error _, same⟩
  · have empty := twin.empty _ same.opened
    refine ⟨.ok ?_, after.register ⟨named, group, ?_, [], ?_, ?_⟩⟩
    · exact (congrArg₂ Opened.mk after.length group).symm
    · exact congrArg some after.current
    · rw [List.append_nil]
      exact empty.symm
    · rw [List.map_nil, List.append_nil]
      exact empty.symm

/-- Two contexts are opened under a name that may be given, or neither is. -/
theorem openNamed {label : String} (plain : twin.plain label) :
    SameResult Eq (one.openContext label).1 (two.openContext label).1 ∧
      twin.SameCompiler budget (one.openContext label).2 (two.openContext label).2 :=
  same.openContext (.inl ⟨rfl, plain⟩) (same.find? plain) fun _ => rfl

/-- An anonymous name that no context has yet. -/
theorem find?_eq_none {supply : Nat → String} (injective : Function.Injective supply)
    (unplain : ∀ number, twin.opened ≤ number → ¬twin.plain (supply number)) {compiler : Compiler}
    (length : compiler.contexts.length = one.contexts.length)
    (own : ∀ id context, compiler.contexts[id]? = some context →
      twin.plain context.name ∨ context.name = supply id) :
    compiler.find? (supply one.contexts.length) = none := by
  refine Compiler.find?_eq_none_iff.2 fun context member equal => ?_
  obtain ⟨id, here⟩ := List.mem_iff_getElem?.1 member
  rcases own id context here with plain | anonymous
  · exact unplain _ same.opened (equal ▸ plain)
  · have last : id = one.contexts.length := injective (anonymous.symm.trans equal)
    obtain ⟨inside, -⟩ := List.getElem?_eq_some_iff.1 here
    omega

theorem openAnonymous :
    SameResult Eq one.openAnonymous.1 two.openAnonymous.1 ∧
      twin.SameCompiler budget one.openAnonymous.2 two.openAnonymous.2 := by
  rw [Compiler.openAnonymous, Compiler.openAnonymous, same.length, same.names, same.other]
  have named : twin.SameName one.contexts.length (twin.names one.contexts.length)
      (twin.other one.contexts.length) := .inr ⟨same.opened, rfl, rfl⟩
  rcases twin.supplies with shared | fresh
  · refine same.openContext named ?_ fun _ => by rw [shared]
    rw [shared]
    refine same.find?_of_agree fun id first second known => ?_
    rcases known with ⟨rfl, -⟩ | ⟨-, rfl, rfl⟩
    · rfl
    · rw [shared]
  · obtain ⟨injective, unplain⟩ := fresh twin.names (by simp)
    obtain ⟨injective', unplain'⟩ := fresh twin.other (by simp)
    have first : one.find? (twin.names one.contexts.length) = none := by
      refine same.find?_eq_none injective unplain rfl fun id context here => ?_
      obtain ⟨_, _, known⟩ := same.exists_second here
      exact known.name.imp (·.2) (·.2.1)
    have second : two.find? (twin.other one.contexts.length) = none := by
      refine same.find?_eq_none injective' unplain' same.length fun id context here => ?_
      obtain ⟨_, _, known⟩ := same.exists_first here
      rcases known.name with ⟨equal, plain⟩ | ⟨-, -, anonymous⟩
      · exact .inl (equal ▸ plain)
      · exact .inr anonymous
    refine same.openContext named (second.trans first.symm) fun present => ?_
    rw [first] at present
    cases present

end Same
end SameCompiler

theorem SameRun.mono {less : Nat} (fewer : less ≤ budget) {first second : Run}
    (same : twin.SameRun budget first second) : twin.SameRun less first second :=
  { same with compiler := same.compiler.mono fewer }

theorem SameRun.withCompiler {before : Nat} {first second : Run}
    (same : twin.SameRun before first second) (after : twin.SameCompiler budget one two) :
    twin.SameRun budget (first.withCompiler one) (second.withCompiler two) :=
  { same with compiler := after }

end Changing
end Twin

/-! ## Two actions -/

namespace Build

open Twin

/-- From runs that agree, with room for some slots more than are needed, two actions end alike. -/
def Matches (twin : Twin) (cost : Nat) {α : Type} (related : α → α → Prop) (one two : Build α) :
    Prop :=
  ∀ budget first second, twin.SameRun (cost + budget) first second →
    SameResult related (outcome one first).1 (outcome two second).1 ∧
      twin.SameRun budget (outcome one first).2 (outcome two second).2

section Rules

variable {twin : Twin} {cost : Nat} {α β : Type} {related : α → α → Prop}
  {result : β → β → Prop}

theorem matches_pure {left right : α} (both : related left right) :
    Matches twin 0 related (pure left) (pure right) := by
  intro budget first second same
  exact ⟨.ok both, same.mono (by omega)⟩

theorem matches_throw (error : CompileError) :
    Matches twin 0 related (throw error) (throw error) := by
  intro budget first second same
  exact ⟨.error error, same.mono (by omega)⟩

theorem Matches.mono {more : Nat} (fewer : cost ≤ more) {one two : Build α}
    (both : Matches twin cost related one two) : Matches twin more related one two := by
  intro budget first second same
  exact both budget first second (same.mono (by omega))

theorem Matches.bind {more : Nat} {one two : Build α} {next last : α → Build β}
    (both : Matches twin cost related one two)
    (rest : ∀ left right, related left right → Matches twin more result (next left) (last right)) :
    Matches twin (cost + more) result (one >>= next) (two >>= last) := by
  intro budget first second same
  obtain ⟨results, after⟩ := both (more + budget) first second (by rwa [← Nat.add_assoc])
  rcases left : outcome one first with ⟨value, middle⟩
  rcases right : outcome two second with ⟨value', middle'⟩
  rw [left, right] at results after
  cases results with
  | error error =>
      rw [outcome_bind_of_error left, outcome_bind_of_error right]
      exact ⟨.error error, after.mono (by omega)⟩
  | ok values =>
      rw [outcome_bind_of_ok left, outcome_bind_of_ok right]
      exact rest _ _ values budget middle middle' after

/-- A first action that takes no slot. -/
theorem Matches.chain {one two : Build α} {next last : α → Build β}
    (both : Matches twin 0 related one two)
    (rest : ∀ left right, related left right → Matches twin cost result (next left) (last right)) :
    Matches twin cost result (one >>= next) (two >>= last) :=
  (both.bind rest).mono (by omega)

/-- A first action that takes no slot and has one result in both runs. -/
theorem Matches.pass {one two : Build α} {next last : α → Build β}
    (both : Matches twin 0 Eq one two)
    (rest : ∀ value, Matches twin cost result (next value) (last value)) :
    Matches twin cost result (one >>= next) (two >>= last) := by
  refine both.chain fun value _ equal => ?_
  rw [← equal]
  exact rest value

/-- A last action that takes no slot. -/
theorem Matches.andThen {one two : Build α} {next last : α → Build β}
    (both : Matches twin cost related one two)
    (rest : ∀ left right, related left right → Matches twin 0 result (next left) (last right)) :
    Matches twin cost result (one >>= next) (two >>= last) :=
  both.bind rest

theorem matches_compiler : Matches twin 0 (twin.SameCompiler 0) compiler compiler := by
  intro budget first second same
  exact ⟨.ok (same.compiler.mono (by omega)), same.mono (by omega)⟩

theorem matches_change {f g : Compiler → Compiler}
    (keeps : ∀ budget one two, twin.SameCompiler (cost + budget) one two →
      twin.SameCompiler budget (f one) (g two)) :
    Matches twin cost Eq (change f) (change g) := by
  intro budget first second same
  exact ⟨.ok rfl, same.withCompiler (keeps _ _ _ same.compiler)⟩

theorem matches_draw {f g : Compiler → α × Compiler}
    (keeps : ∀ budget one two, twin.SameCompiler (cost + budget) one two →
      related (f one).1 (g two).1 ∧ twin.SameCompiler budget (f one).2 (g two).2) :
    Matches twin cost related (draw f) (draw g) := by
  intro budget first second same
  obtain ⟨results, after⟩ := keeps _ _ _ same.compiler
  exact ⟨.ok results, same.withCompiler after⟩

theorem matches_commit {f g : Compiler → Except CompileError α × Compiler}
    (keeps : ∀ budget one two, twin.SameCompiler budget one two →
      SameResult Eq (f one).1 (g two).1 ∧ twin.SameCompiler budget (f one).2 (g two).2) :
    Matches twin 0 Eq (commit f) (commit g) := by
  intro budget first second same
  obtain ⟨results, after⟩ := keeps _ _ _ same.compiler
  rw [outcome_commit, outcome_commit]
  exact ⟨results, same.withCompiler (after.mono (by omega))⟩

theorem matches_demand (error : CompileError) {left right : Option α}
    (both : Option.Rel related left right) :
    Matches twin 0 related (demand error left) (demand error right) := by
  cases both with
  | none => exact matches_throw error
  | some here => exact matches_pure here

theorem matches_within (id : Nat) {one two : Build α} (both : Matches twin cost related one two) :
    Matches twin cost related (within id one) (within id two) := by
  intro budget first second same
  obtain ⟨results, after⟩ := both budget _ _ (same.withCompiler (same.compiler.enter id))
  exact ⟨results, after.withCompiler after.compiler.leave⟩

theorem matches_open :
    Matches twin 0 Eq (commit Compiler.openAnonymous) (commit Compiler.openAnonymous) :=
  matches_commit fun _ _ _ same => same.openAnonymous

theorem matches_function {one two : Reference → Build Unit}
    (both : ∀ group, Matches twin cost Eq (one group) (two group)) :
    Matches twin cost Eq (function one) (function two) := by
  refine matches_open.pass fun opened => ?_
  exact (matches_within _ (both _)).andThen fun _ _ _ => matches_pure rfl

theorem matches_addTo (id : Nat) (object : Object) :
    Matches twin 0 Eq (change (·.addTo id object))
      (change (·.addTo id (object.rename twin.slot))) :=
  matches_change fun _ _ _ same => (same.addTo id object).mono (by omega)

theorem matches_add (object : Object) :
    Matches twin 0 Eq (add object) (add (object.rename twin.slot)) := by
  refine matches_change fun budget one two same => ?_
  rw [Compiler.add, Compiler.add, same.current]
  exact (same.addTo one.current object).mono (by omega)

theorem matches_addMade (made : Except FieldError Object) :
    Matches twin 0 Eq (addMade made) (addMade (made.map (Object.rename twin.slot))) := by
  cases made with
  | error error => exact matches_throw _
  | ok object => exact matches_add object

theorem matches_bind (name : String) (binding : Binding) :
    Matches twin 0 Eq (Build.bind name binding)
      (Build.bind name (binding.rename twin.slot)) := by
  intro budget first second same
  refine ⟨.ok rfl, { same.mono (by omega) with bindings := ?_ }⟩
  exact (same.bindings.cons name binding).mono fun _ => .inl

theorem matches_bindTo (name : Option String) (binding : Binding) :
    Matches twin 0 Eq (bindTo name binding) (bindTo name (binding.rename twin.slot)) := by
  cases name with
  | none => exact matches_pure rfl
  | some name => exact matches_bind name binding

theorem matches_lookup_of_rel {kind : Binding → Option α} {name : String}
    (both : ∀ one two, SameBindings twin.slot twin.clear one two →
      Option.Rel related ((one.lookup name).bind kind) ((two.lookup name).bind kind)) :
    Matches twin 0 related (lookup kind name) (lookup kind name) := by
  intro budget first second same
  exact matches_demand (.unknownContext ("$" ++ name)) (both _ _ same.bindings) budget first second
    same

/-- What a name stands for, where slots do not matter. -/
theorem matches_lookup {kind : Binding → Option α}
    (blind : ∀ binding : Binding, kind (binding.rename twin.slot) = kind binding) (name : String) :
    Matches twin 0 Eq (lookup kind name) (lookup kind name) := by
  refine matches_lookup_of_rel fun one two same => ?_
  have equal : (two.lookup name).bind kind = (one.lookup name).bind kind := by
    rcases same name with renamed | ⟨-, equal⟩
    · rw [renamed]
      cases one.lookup name with
      | none => rfl
      | some binding => exact blind binding
    · rw [equal]
  rw [equal]
  cases (one.lookup name).bind kind with
  | none => exact .none
  | some value => exact .some rfl

/-- What a name for a counter stands for. -/
theorem matches_lookup_of_clear {kind : Binding → Option α}
    (renamed : ∀ binding : Binding,
      Option.Rel related (kind binding) (kind (binding.rename twin.slot)))
    {name : String} (clear : twin.clear name) :
    Matches twin 0 related (lookup kind name) (lookup kind name) := by
  refine matches_lookup_of_rel fun one two same => ?_
  rcases same name with found | ⟨unclear, -⟩
  · rw [found]
    cases one.lookup name with
    | none => exact .none
    | some binding => exact renamed binding
  · exact absurd clear unclear

theorem matches_record (statement : Statement) {one two : Build Outcome}
    (both : Matches twin cost (Outcome.Same twin.names twin.other) one two) :
    Matches twin cost Eq (record statement one) (record statement two) := by
  intro budget first second same
  obtain ⟨results, after⟩ := both budget first second same
  rcases left : outcome one first with ⟨value, last⟩
  rcases right : outcome two second with ⟨value', last'⟩
  rw [left, right] at results after
  rw [outcome_record left, outcome_record right]
  have entry : Entry.Same twin.names twin.other
      ⟨statement, value, last.compiler.groupValue last.compiler.current,
        last.compiler.currentSize⟩
      ⟨statement, value', last'.compiler.groupValue last'.compiler.current,
        last'.compiler.currentSize⟩ := by
    refine ⟨rfl, results, ?_, after.compiler.currentSize⟩
    rw [after.compiler.current]
    exact after.compiler.groupValue _
  refine ⟨?_, { after with finished := .cons entry after.finished }⟩
  cases results with
  | error error => exact .error error
  | ok _ => exact .ok rfl

theorem matches_attempt {one two : Build Unit} (both : Matches twin cost Eq one two) :
    Matches twin cost (Outcome.Same twin.names twin.other) (attempt one) (attempt two) := by
  intro budget first second same
  obtain ⟨results, after⟩ := both budget first second same
  rw [outcome_attempt, outcome_attempt]
  generalize outcome one first = left at results after
  generalize outcome two second = right at results after
  rcases left with ⟨value, middle⟩
  rcases right with ⟨value', middle'⟩
  cases results with
  | error error => exact ⟨.ok (.equal _), after⟩
  | ok _ => exact ⟨.ok (.equal _), after⟩

end Rules
end Build
end TriggerGraph
