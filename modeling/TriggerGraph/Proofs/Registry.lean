import Mathlib.Data.List.Nodup
import TriggerGraph.Proofs.Freshness
import TriggerGraph.Proofs.Reach

/-!
# The registry of contexts

Contexts are registered under names and groups of their own and never change either.  At every
moment of a run, also in the middle of statements that will fail, a name or a group leads to the one
context that has it.  Groups that were reserved before, or that were handed to the script, are never
given to a new context.
-/

namespace TriggerGraph

/-! ## Ids below the limit -/

namespace Pool

/-- The largest id that fits. -/
def limit : Nat := 2 ^ 32 - 1

theorem subset_advance (last : UInt32) (pending skipped : List UInt32) :
    skipped ⊆ (advance last pending skipped).2 := by
  fun_induction advance last pending skipped with
  | case1 last pending skipped found ih => exact fun id member => ih (List.mem_insert_of_mem member)
  | case2 last pending skipped absent => exact List.Subset.refl _

/-- As long as neither the id handed out nor an id stepped over is the last that fits, ids rise and
the one handed out was not reserved. -/
theorem advance_of_below {last : UInt32} {pending skipped : List UInt32}
    (room : last.toNat < limit) (value : (advance last pending skipped).1.toNat < limit)
    (passed : ∀ id ∈ (advance last pending skipped).2, id.toNat < limit) :
    last.toNat < (advance last pending skipped).1.toNat ∧
      (advance last pending skipped).1 ∉ pending := by
  fun_induction advance last pending skipped with
  | case1 last pending skipped found ih =>
      have succ : (last + 1).toNat = last.toNat + 1 := toNat_succ (by simp [limit] at room; omega)
      have stepped : last + 1 ∈ (advance (last + 1) (pending.erase (last + 1))
          (skipped.insert (last + 1))).2 := subset_advance _ _ _ List.mem_insert_self
      obtain ⟨above, free⟩ := ih (passed _ stepped) value passed
      refine ⟨by omega, fun member => free ?_⟩
      refine (List.mem_erase_of_ne fun same => ?_).2 member
      rw [same] at above
      omega
  | case2 last pending skipped absent =>
      have succ : (last + 1).toNat = last.toNat + 1 := toNat_succ (by simp [limit] at room; omega)
      exact ⟨by simp [succ], absent⟩

end Pool

/-! ## Registered contexts -/

namespace Compiler

/-- The contexts without their objects. -/
def shells (compiler : Compiler) : List Context :=
  compiler.contexts.map fun context => { context with objects := [] }

/-- What holds of the contexts of a compiler, of the contexts being filled and of the continuations
at every moment. -/
structure Registered (compiler : Compiler) : Prop where
  global : ∃ objects, compiler.context? 0 = some { globalContext with objects }
  names : (compiler.contexts.map (·.name)).Nodup
  groups : (compiler.contexts.map (·.group.value)).Nodup
  valid : ∀ context ∈ compiler.contexts, context.group.domain = .group ∧ context.group.value ≠ 0
  parents : ∀ id context, compiler.context? (id + 1) = some context →
    ∃ parent, parent < id + 1 ∧ context.parent = some parent
  filled : ∀ id ∈ compiler.stack, id < compiler.contexts.length
  linked : ∀ link ∈ compiler.chain.links,
    link.1 < compiler.contexts.length ∧ link.2 < compiler.contexts.length

theorem shells_addTo (compiler : Compiler) (id : Nat) (object : Object) :
    (compiler.addTo id object).shells = compiler.shells :=
  Context.map_modify (fun _ _ => rfl) _ _ _

theorem length_shells (compiler : Compiler) :
    compiler.shells.length = compiler.contexts.length := by
  simp [shells]

section Same

variable {before after : Compiler} (same : after.shells = before.shells)
include same

theorem length_of_shells : after.contexts.length = before.contexts.length := by
  rw [← length_shells, same, length_shells]

theorem map_of_shells {α : Type} {view : Context → α}
    (blind : ∀ context objects, view { context with objects } = view context) :
    after.contexts.map view = before.contexts.map view := by
  have seen (compiler : Compiler) : compiler.shells.map view = compiler.contexts.map view := by
    simp [shells, blind]
  rw [← seen, same, seen]

theorem context?_of_shells {id : Nat} {context : Context}
    (found : after.context? id = some context) :
    ∃ objects, before.context? id = some { context with objects } := by
  have shell := congrArg (·[id]?) same
  simp only [shells, List.getElem?_map] at shell
  rw [context?] at found
  rw [found] at shell
  obtain ⟨old, present, equal⟩ := Option.map_eq_some_iff.1 shell.symm
  refine ⟨old.objects, ?_⟩
  rw [context?, present]
  obtain ⟨name, group, objects, parent⟩ := old
  obtain ⟨name', group', objects', parent'⟩ := context
  simp_all

theorem mem_of_shells {context : Context} (member : context ∈ after.contexts) :
    ∃ objects, { context with objects } ∈ before.contexts := by
  obtain ⟨id, found⟩ := List.mem_iff_getElem?.1 member
  obtain ⟨objects, old⟩ := context?_of_shells same found
  exact ⟨objects, List.mem_of_getElem? old⟩

end Same

theorem Registered.of_shells {before after : Compiler} (registered : before.Registered)
    (same : after.shells = before.shells)
    (filled : ∀ id ∈ after.stack, id < before.contexts.length)
    (linked : ∀ link ∈ after.chain.links,
      link.1 < before.contexts.length ∧ link.2 < before.contexts.length) :
    after.Registered := by
  constructor
  · obtain ⟨objects, found⟩ := registered.global
    obtain ⟨others, now⟩ := context?_of_shells same.symm found
    exact ⟨others, now⟩
  · rw [map_of_shells same fun _ _ => rfl]
    exact registered.names
  · rw [map_of_shells same fun _ _ => rfl]
    exact registered.groups
  · intro context member
    obtain ⟨objects, old⟩ := mem_of_shells same member
    have held := registered.valid _ old
    exact held
  · intro id context found
    obtain ⟨objects, old⟩ := context?_of_shells same found
    have held := registered.parents id _ old
    exact held
  · rw [length_of_shells same]
    exact filled
  · rw [length_of_shells same]
    exact linked

theorem Registered.nonempty {compiler : Compiler} (registered : compiler.Registered) :
    0 < compiler.contexts.length := by
  obtain ⟨objects, found⟩ := registered.global
  exact (List.getElem?_eq_some_iff.1 found).1

theorem Registered.current_lt {compiler : Compiler} (registered : compiler.Registered) :
    compiler.current < compiler.contexts.length := by
  unfold current
  cases filled : compiler.stack with
  | nil => exact registered.nonempty
  | cons top rest => exact registered.filled top (by simp [filled])

theorem registered_start (options : CompilerOptions) (names : Nat → String) :
    (start options names).Registered where
  global := ⟨[], rfl⟩
  names := List.nodup_singleton _
  groups := List.nodup_singleton _
  valid context member := by
    obtain rfl := List.mem_singleton.1 member
    exact ⟨rfl, by decide⟩
  parents id context found := by simp [context?, start] at found
  filled := by simp [start]
  linked := by simp [start, Chain.empty]

/-- A new context is registered under a name that no context has and a group that no context has. -/
theorem Registered.of_opens {before after : Compiler} {name : String} {opened : Opened}
    (registered : before.Registered) (opens : Opens before name opened after)
    (nonzero : opened.group.value ≠ 0)
    (unowned : ∀ context ∈ before.contexts, context.group.value ≠ opened.group.value) :
    after.Registered := by
  have present := registered.current_lt
  constructor
  · obtain ⟨objects, found⟩ := registered.global
    refine ⟨objects, ?_⟩
    rw [context?, opens.contexts, List.getElem?_append_left registered.nonempty]
    exact found
  · rw [opens.contexts, List.map_append]
    refine List.nodup_append.2 ⟨registered.names, by simp, ?_⟩
    intro other member new only same
    obtain ⟨context, old, rfl⟩ := List.mem_map.1 member
    simp only [List.map_cons, List.map_nil, List.mem_singleton] at only
    exact find?_eq_none_iff.1 opens.unused context old (same.trans only)
  · rw [opens.contexts, List.map_append]
    refine List.nodup_append.2 ⟨registered.groups, by simp, ?_⟩
    intro other member new only same
    obtain ⟨context, old, rfl⟩ := List.mem_map.1 member
    simp only [List.map_cons, List.map_nil, List.mem_singleton] at only
    exact unowned context old (by rw [same, only])
  · rw [opens.contexts]
    intro context member
    rcases List.mem_append.1 member with old | new
    · exact registered.valid context old
    · obtain rfl := List.mem_singleton.1 new
      exact ⟨opens.domain, nonzero⟩
  · intro id context found
    rw [context?, opens.contexts] at found
    rcases Nat.lt_or_ge (id + 1) before.contexts.length with old | new
    · rw [List.getElem?_append_left old] at found
      exact registered.parents id context found
    · rw [List.getElem?_append_right new] at found
      obtain rfl := List.mem_singleton.1 (List.mem_of_getElem? found)
      exact ⟨before.current, by omega, rfl⟩
  · rw [opens.stack, opens.length]
    intro id member
    have := registered.filled id member
    omega
  · rw [opens.chain, opens.length]
    intro link member
    have := registered.linked link member
    omega

/-! ## Lookups -/

section Lookups

variable {compiler : Compiler} (registered : compiler.Registered)
include registered

theorem Registered.byName : compiler.IndexedBy (·.name) compiler.byName :=
  indexedBy_of_nodup compiler.named registered.names

theorem Registered.byGroup : compiler.IndexedBy (·.group.value) compiler.byGroup :=
  indexedBy_of_nodup compiler.owned registered.groups

theorem Registered.find?_eq_some_iff (name : String) (id : Nat) :
    compiler.find? name = some id ↔
      ∃ context, compiler.context? id = some context ∧ context.name = name :=
  registered.byName.lookup name id

theorem Registered.owner?_eq_some_iff (group : Reference) (id : Nat) :
    compiler.owner? group = some id ↔
      ∃ context, compiler.context? id = some context ∧ context.group = group := by
  have valued := registered.byGroup.lookup group.value id
  have equal {context : Context} (found : compiler.context? id = some context) :
      context.group = group ↔ group.isGroup = true ∧ context.group.value = group.value := by
    have domain := (registered.valid context (List.mem_of_getElem? found)).1
    obtain ⟨name, ⟨_, value⟩, objects, parent⟩ := context
    obtain ⟨other, number⟩ := group
    obtain rfl : _ = Domain.group := domain
    rw [Reference.mk.injEq, Reference.isGroup, beq_iff_eq]
    exact and_congr_left' eq_comm
  unfold owner?
  split
  · rename_i isGroup
    rw [valued]
    constructor
    · rintro ⟨context, found, same⟩
      exact ⟨context, found, (equal found).2 ⟨isGroup, same⟩⟩
    · rintro ⟨context, found, same⟩
      exact ⟨context, found, ((equal found).1 same).2⟩
  · rename_i other
    simp only [reduceCtorEq, false_iff]
    rintro ⟨context, found, same⟩
    exact other ((equal found).1 same).1

end Lookups

end Compiler

namespace Build

theorem outcome_demand_iff {α : Type} (error : CompileError) (result : Option α) (run : Run) :
    (∀ value, outcome (demand error result) run = (.ok value, run) ↔ result = some value) ∧
      (outcome (demand error result) run = (.error error, run) ↔ ∀ value, result ≠ some value) := by
  cases result with
  | none => simp [demand]
  | some value => simp [demand]

/-- The context found under a name is the one that has it, and none is found if none has it. -/
theorem outcome_contextNamed_iff {run : Run} (registered : run.compiler.Registered)
    (name : String) :
    (∀ id, outcome (contextNamed name) run = (.ok id, run) ↔
      ∃ context, run.compiler.context? id = some context ∧ context.name = name) ∧
    (outcome (contextNamed name) run = (.error (.unknownContext name), run) ↔
      ∀ context ∈ run.compiler.contexts, context.name ≠ name) := by
  obtain ⟨found, missing⟩ :=
    outcome_demand_iff (.unknownContext name) (run.compiler.find? name) run
  rw [contextNamed, outcome_bind_of_ok (outcome_compiler run)]
  refine ⟨fun id => (found id).trans (registered.find?_eq_some_iff name id), missing.trans ?_⟩
  simp only [ne_eq, registered.find?_eq_some_iff, Compiler.context?, List.mem_iff_getElem?]
  grind

/-- The context found for a group is the one that owns it, and none is found if none owns it. -/
theorem outcome_owner_iff {run : Run} (registered : run.compiler.Registered)
    (group : Reference) :
    (∀ id, outcome (owner group) run = (.ok id, run) ↔
      ∃ context, run.compiler.context? id = some context ∧ context.group = group) ∧
    (outcome (owner group) run = (.error (.unknownGroup group), run) ↔
      ∀ context ∈ run.compiler.contexts, context.group ≠ group) := by
  obtain ⟨found, missing⟩ :=
    outcome_demand_iff (.unknownGroup group) (run.compiler.owner? group) run
  rw [owner, outcome_bind_of_ok (outcome_compiler run)]
  refine ⟨fun id => (found id).trans (registered.owner?_eq_some_iff group id), missing.trans ?_⟩
  simp only [ne_eq, registered.owner?_eq_some_iff, Compiler.context?, List.mem_iff_getElem?]
  grind

end Build

/-! ## Groups used up -/

/-- The group that a finished statement handed to the script. -/
def Entry.drawnGroup? : Entry → Option UInt32
  | ⟨.fresh .group _, .ok (.reference group), _, _⟩ => some group.value
  | _ => none

theorem Entry.drawnGroup?_eq_none {entry : Entry} (other : entry.statement.drawsGroup = false) :
    entry.drawnGroup? = none := by
  unfold drawnGroup?
  split
  · cases other
  · rfl

namespace Run

/-- The groups handed to the script, the latest first. -/
def drawnGroups (run : Run) : List UInt32 := run.finished.filterMap Entry.drawnGroup?

/-- The group ids used up so far: those of the contexts, those handed to the script and those that
were stepped over. -/
def passedGroups (run : Run) : List UInt32 :=
  run.compiler.contexts.map (·.group.value) ++ (run.drawnGroups ++ run.compiler.ids.groups.skipped)

/-- No group id used up so far is the largest that fits. -/
def GroupsFit (run : Run) : Prop := ∀ id ∈ run.passedGroups, id.toNat < Pool.limit

instance (run : Run) : Decidable run.GroupsFit :=
  List.decidableBAll (fun id : UInt32 => id.toNat < Pool.limit) run.passedGroups

/-! ## Changes that take no group -/

/-- Nothing but objects, the contexts being filled and the continuations changes, and more ids may
be reserved. -/
structure Quiet (before after : Run) : Prop where
  shells : after.compiler.shells = before.compiler.shells
  last : after.compiler.ids.groups.last = before.compiler.ids.groups.last
  skipped : after.compiler.ids.groups.skipped = before.compiler.ids.groups.skipped
  reserved : before.compiler.ids.groups.reserved ⊆ after.compiler.ids.groups.reserved
  drawn : after.drawnGroups = before.drawnGroups
  filled : ∀ id ∈ after.compiler.stack,
    id ∈ before.compiler.stack ∨ id < before.compiler.contexts.length
  linked : ∀ link ∈ after.compiler.chain.links, link ∈ before.compiler.chain.links ∨
    link.1 = before.compiler.current ∧ link.2 < before.compiler.contexts.length

/-- Every elementary change takes no group, or gives one to a new context or to the script. -/
theorem Move.quiet_or {before after : Run} (move : Move before after) :
    Quiet before after ∨
    (∃ name opened next, before.compiler.Opens name opened next ∧
      after = before.withCompiler next) ∨
    ∃ name, after = before.step (.fresh .group name) := by
  cases move with
  | name bindings => exact .inl ⟨rfl, rfl, rfl, fun _ => id, rfl, fun _ => .inl, fun _ => .inl⟩
  | draw domain other =>
      refine .inl ⟨rfl, ?_, ?_, ?_, rfl, fun _ => .inl, fun _ => .inl⟩ <;>
        cases domain <;> first | exact absurd rfl other | exact rfl | exact fun _ => id
  | drawGroup name => exact .inr (.inr ⟨name, rfl⟩)
  | reserve domain value =>
      refine .inl ⟨rfl, ?_, ?_, ?_, rfl, fun _ => .inl, fun _ => .inl⟩ <;>
        cases domain <;> try exact rfl
      · exact fun _ member => List.mem_insert_of_mem member
      · exact fun _ => id
      · exact fun _ => id
  | drawItem => exact .inl ⟨rfl, rfl, rfl, fun _ => id, rfl, fun _ => .inl, fun _ => .inl⟩
  | reserveItem item => exact .inl ⟨rfl, rfl, rfl, fun _ => id, rfl, fun _ => .inl, fun _ => .inl⟩
  | opening opens => exact .inr (.inl ⟨_, _, _, opens, rfl⟩)
  | append target object =>
      exact .inl ⟨Compiler.shells_addTo _ _ _, rfl, rfl, fun _ => id, rfl, fun _ => .inl,
        fun _ => .inl⟩
  | switch valid =>
      refine .inl ⟨rfl, rfl, rfl, fun _ => id, rfl, fun id member => ?_, fun _ => .inl⟩
      rcases List.mem_cons.1 member with rfl | below
      · exact .inr valid
      · exact .inl (List.mem_of_mem_tail below)
  | proceed valid =>
      refine .inl ⟨rfl, rfl, rfl, fun _ => id, rfl, fun id member => ?_, fun link member => ?_⟩
      · rcases List.mem_cons.1 member with rfl | below
        · exact .inr valid
        · exact .inl (List.mem_of_mem_tail below)
      · rcases List.mem_cons.1 member with rfl | old
        · exact .inr ⟨rfl, valid⟩
        · exact .inl old
  | enter valid =>
      refine .inl ⟨rfl, rfl, rfl, fun _ => id, rfl, fun id member => ?_, fun _ => .inl⟩
      rcases List.mem_cons.1 member with rfl | below
      · exact .inr valid
      · exact .inl below
  | leave =>
      exact .inl ⟨rfl, rfl, rfl, fun _ => id, rfl,
        fun _ member => .inl (List.mem_of_mem_tail member), fun _ => .inl⟩
  | record other =>
      refine .inl ⟨rfl, rfl, rfl, fun _ => id, ?_, fun _ => .inl, fun _ => .inl⟩
      simp [drawnGroups, Entry.drawnGroup?_eq_none other]

theorem Quiet.mem_contexts {before after : Run} (quiet : Quiet before after) {context : Context}
    (member : context ∈ after.compiler.contexts) :
    ∃ objects, { context with objects } ∈ before.compiler.contexts :=
  Compiler.mem_of_shells quiet.shells member

theorem Quiet.passed {before after : Run} (quiet : Quiet before after) :
    after.passedGroups = before.passedGroups := by
  rw [passedGroups, passedGroups, Compiler.map_of_shells quiet.shells fun _ _ => rfl, quiet.drawn,
    quiet.skipped]

theorem Quiet.registered {before after : Run} (quiet : Quiet before after)
    (registered : before.compiler.Registered) : after.compiler.Registered := by
  refine registered.of_shells quiet.shells (fun id member => ?_) fun link member => ?_
  · rcases quiet.filled id member with old | valid
    · exact registered.filled id old
    · exact valid
  · rcases quiet.linked link member with old | ⟨source, target⟩
    · exact registered.linked link old
    · exact ⟨source ▸ registered.current_lt, target⟩

/-! ## Taking a group -/

/-- The group taken next is new: it lies above all groups taken before and was not reserved. -/
theorem next_of_fits {ids : Allocator} (room : ids.groups.last.toNat < Pool.limit)
    (value : (ids.next .group).1.value.toNat < Pool.limit)
    (passed : ∀ id ∈ (ids.next .group).2.groups.skipped, id.toNat < Pool.limit) :
    ids.groups.last.toNat < (ids.next .group).1.value.toNat ∧
      (ids.next .group).1.value ∉ ids.groups.reserved :=
  Pool.advance_of_below room value passed

theorem drawnGroups_step_fresh (run : Run) (name : Option String) :
    (run.step (.fresh .group name)).drawnGroups =
      (run.compiler.ids.next .group).1.value :: run.drawnGroups := by
  cases name <;> rfl

theorem compiler_step_fresh (run : Run) (name : Option String) :
    (run.step (.fresh .group name)).compiler = (run.compiler.next .group).2 := by
  cases name <;> rfl

/-- What a run remembers about groups: those of contexts and those handed to the script were taken
before the last one and are never the same. -/
structure Allocated (run : Run) : Prop where
  taken : 1 ∈ run.compiler.ids.groups.reserved
  room : run.compiler.ids.groups.last.toNat < Pool.limit
  owned : ∀ context ∈ run.compiler.contexts, context.group.value = 1 ∨
    context.group.value.toNat ≤ run.compiler.ids.groups.last.toNat
  drawn : ∀ value ∈ run.drawnGroups, value.toNat ≤ run.compiler.ids.groups.last.toNat ∧
    ∀ context ∈ run.compiler.contexts, context.group.value ≠ value

theorem Allocated.of_quiet {before after : Run} (allocated : before.Allocated)
    (quiet : Quiet before after) : after.Allocated := by
  constructor
  · exact quiet.reserved allocated.taken
  · rw [quiet.last]
    exact allocated.room
  · rw [quiet.last]
    intro context member
    obtain ⟨objects, old⟩ := quiet.mem_contexts member
    have held := allocated.owned _ old
    exact held
  · rw [quiet.drawn, quiet.last]
    intro value member
    refine ⟨(allocated.drawn value member).1, fun context present => ?_⟩
    obtain ⟨objects, old⟩ := quiet.mem_contexts present
    have held := (allocated.drawn value member).2 _ old
    exact held

/-- A group taken next belongs to no context and was not handed to the script. -/
theorem Allocated.fresh {run : Run} (allocated : run.Allocated) {value : UInt32}
    (above : run.compiler.ids.groups.last.toNat < value.toNat)
    (free : value ∉ run.compiler.ids.groups.reserved) :
    (∀ context ∈ run.compiler.contexts, context.group.value ≠ value) ∧
      ∀ drawn ∈ run.drawnGroups, drawn ≠ value := by
  constructor
  · rintro context member rfl
    rcases allocated.owned context member with global | below
    · exact free (global ▸ allocated.taken)
    · omega
  · rintro drawn member rfl
    have below := (allocated.drawn drawn member).1
    omega

theorem Allocated.of_opens {run : Run} {name : String} {opened : Opened} {next : Compiler}
    (allocated : run.Allocated) (opens : run.compiler.Opens name opened next)
    (fits : (run.withCompiler next).GroupsFit) :
    (run.withCompiler next).Allocated ∧ opened.group.value ≠ 0 ∧
      (∀ context ∈ run.compiler.contexts, context.group.value ≠ opened.group.value) ∧
      opened.group.value ∉ run.compiler.ids.groups.reserved := by
  have last : next.ids.groups.last = opened.group.value := by
    rw [opens.ids, opens.group]
    rfl
  have within : opened.group.value.toNat < Pool.limit :=
    fits _ (by simp [passedGroups, opens.contexts])
  obtain ⟨above, free⟩ := next_of_fits allocated.room (opens.group ▸ within) fun id skipped =>
    fits id (by simp [passedGroups, opens.ids, skipped])
  rw [← opens.group] at above free
  obtain ⟨unowned, undrawn⟩ := allocated.fresh above free
  refine ⟨⟨?_, ?_, ?_, ?_⟩, fun zero => ?_, unowned, free⟩
  · rw [compiler_withCompiler, opens.ids]
    exact allocated.taken
  · rw [compiler_withCompiler, last]
    exact within
  · rw [compiler_withCompiler, last, opens.contexts]
    intro context member
    rcases List.mem_append.1 member with old | new
    · exact (allocated.owned context old).imp_right fun below => by omega
    · obtain rfl := List.mem_singleton.1 new
      exact .inr (Nat.le_refl _)
  · rw [compiler_withCompiler, last, opens.contexts]
    intro value member
    obtain ⟨below, apart⟩ := allocated.drawn value member
    refine ⟨by omega, fun context present => ?_⟩
    rcases List.mem_append.1 present with old | new
    · exact apart context old
    · obtain rfl := List.mem_singleton.1 new
      exact (undrawn value member).symm
  · simp [zero] at above

theorem Allocated.of_fresh {run : Run} (allocated : run.Allocated) {name : Option String}
    (fits : (run.step (.fresh .group name)).GroupsFit) :
    (run.step (.fresh .group name)).Allocated := by
  have within : (run.compiler.ids.next .group).1.value.toNat < Pool.limit :=
    fits _ (by simp [passedGroups, drawnGroups_step_fresh])
  obtain ⟨above, free⟩ := next_of_fits allocated.room within fun id skipped =>
    fits id (by
      simp only [passedGroups, compiler_step_fresh, List.mem_append]
      exact .inr (.inr skipped))
  obtain ⟨unowned, undrawn⟩ := allocated.fresh above free
  constructor
  · rw [compiler_step_fresh]
    exact allocated.taken
  · rw [compiler_step_fresh]
    exact within
  · rw [compiler_step_fresh]
    intro context member
    refine (allocated.owned context member).imp_right fun below => ?_
    exact Nat.le_of_lt (Nat.lt_of_le_of_lt below above)
  · rw [compiler_step_fresh, drawnGroups_step_fresh]
    intro value member
    rcases List.mem_cons.1 member with rfl | old
    · exact ⟨Nat.le_refl _, unowned⟩
    · obtain ⟨below, apart⟩ := allocated.drawn value old
      exact ⟨Nat.le_of_lt (Nat.lt_of_le_of_lt below above), apart⟩

/-! ## Along a run -/

/-- Ids that were used up stay used up. -/
theorem Move.passed_subset {before after : Run} (move : Move before after) :
    before.passedGroups ⊆ after.passedGroups := by
  intro id member
  have skipped (stepped : id ∈ before.compiler.ids.groups.skipped) :
      id ∈ (before.compiler.ids.next .group).2.groups.skipped :=
    Pool.subset_advance _ _ _ stepped
  rcases move.quiet_or with quiet | ⟨name, opened, next, opens, rfl⟩ | ⟨name, rfl⟩
  · rwa [quiet.passed]
  · simp only [passedGroups, List.mem_append, compiler_withCompiler, opens.contexts, opens.ids,
      List.map_append] at member ⊢
    rcases member with owned | drawn | stepped
    · exact .inl (.inl owned)
    · exact .inr (.inl drawn)
    · exact .inr (.inr (skipped stepped))
  · simp only [passedGroups, List.mem_append, compiler_step_fresh, drawnGroups_step_fresh]
      at member ⊢
    rcases member with owned | drawn | stepped
    · exact .inl owned
    · exact .inr (.inl (List.mem_cons_of_mem _ drawn))
    · exact .inr (.inr (skipped stepped))

theorem GroupsFit.of_reaches {before after : Run} (fits : after.GroupsFit)
    (reaches : before.Reaches after) : before.GroupsFit := by
  induction reaches with
  | refl => exact fits
  | tail _ move ih => exact ih fun id member => fits id (move.passed_subset member)

theorem allocated_start (options : CompilerOptions) (names : Nat → String) :
    (start (.start options names)).Allocated where
  taken := by
    change 1 ∈ (Compiler.startIds options).groups.reserved
    unfold Compiler.startIds
    cases options.markerGroup with
    | none => exact List.mem_singleton_self _
    | some marker => exact List.mem_insert_of_mem (List.mem_singleton_self _)
  room := by
    change (Compiler.startIds options).groups.last.toNat < Pool.limit
    rw [(Compiler.groups_startIds options).1]
    decide
  owned context member := .inl (by rw [List.mem_singleton.1 member]; rfl)
  drawn := by simp [drawnGroups, start]

/-- The invariant survives every elementary change. -/
theorem Move.registered {before after : Run} (move : Move before after)
    (registered : before.compiler.Registered) (allocated : before.Allocated)
    (fits : after.GroupsFit) : after.compiler.Registered ∧ after.Allocated := by
  rcases move.quiet_or with quiet | ⟨name, opened, next, opens, rfl⟩ | ⟨name, rfl⟩
  · exact ⟨quiet.registered registered, allocated.of_quiet quiet⟩
  · obtain ⟨kept, nonzero, unowned, _⟩ := allocated.of_opens opens fits
    exact ⟨registered.of_opens opens nonzero unowned, kept⟩
  · refine ⟨?_, allocated.of_fresh fits⟩
    rw [compiler_step_fresh]
    exact registered.of_shells rfl registered.filled registered.linked

theorem registered_of_reaches {options : CompilerOptions} {names : Nat → String} {run : Run}
    (reaches : (start (.start options names)).Reaches run) (fits : run.GroupsFit) :
    run.compiler.Registered ∧ run.Allocated := by
  induction reaches with
  | refl => exact ⟨Compiler.registered_start options names, allocated_start options names⟩
  | tail _ move ih =>
      obtain ⟨registered, allocated⟩ := ih (fits.of_reaches (.single move))
      exact move.registered registered allocated fits

/-- Contexts opened after a moment do not own groups that were reserved at that moment. -/
theorem unreserved_of_reaches {options : CompilerOptions} {names : Nat → String}
    {earlier run : Run} (begun : (start (.start options names)).Reaches earlier)
    (reaches : earlier.Reaches run) (fits : run.GroupsFit) :
    earlier.compiler.ids.groups.reserved ⊆ run.compiler.ids.groups.reserved ∧
    ∀ id context, run.compiler.context? id = some context →
      earlier.compiler.contexts.length ≤ id →
        context.group.value ∉ earlier.compiler.ids.groups.reserved := by
  induction reaches with
  | refl =>
      refine ⟨List.Subset.refl _, fun id context found late => ?_⟩
      have := (List.getElem?_eq_some_iff.1 found).1
      omega
  | @tail middle after reached move ih =>
      obtain ⟨reserved, free⟩ := ih (fits.of_reaches (.single move))
      have allocated := (registered_of_reaches (begun.trans reached)
        (fits.of_reaches (.single move))).2
      rcases move.quiet_or with quiet | ⟨name, opened, next, opens, rfl⟩ | ⟨name, rfl⟩
      · refine ⟨fun id member => quiet.reserved (reserved member), fun id context found late => ?_⟩
        obtain ⟨objects, old⟩ := Compiler.context?_of_shells quiet.shells found
        have held := free id _ old late
        exact held
      · have unreserved := (allocated.of_opens opens fits).2.2.2
        refine ⟨?_, fun id context found late => ?_⟩
        · rw [compiler_withCompiler, opens.ids]
          exact reserved
        · rw [compiler_withCompiler, Compiler.context?, opens.contexts] at found
          rcases Nat.lt_or_ge id middle.compiler.contexts.length with old | new
          · rw [List.getElem?_append_left old] at found
            exact free id context found late
          · rw [List.getElem?_append_right new] at found
            obtain rfl := List.mem_singleton.1 (List.mem_of_getElem? found)
            exact fun member => unreserved (reserved member)
      · rw [compiler_step_fresh]
        exact ⟨reserved, free⟩

end Run

/-! ## What is there stays there -/

namespace Compiler

/-- Every context keeps its number, its name, its group, its parent and its objects, and may only
get more objects after these. -/
def Extends (before after : Compiler) : Prop :=
  ∀ id context, before.context? id = some context →
    ∃ more, after.context? id = some { context with objects := context.objects ++ more }

theorem extends_of_contexts {before after : Compiler} (same : after.contexts = before.contexts) :
    before.Extends after := by
  intro id context found
  refine ⟨[], ?_⟩
  rw [context?, same, List.append_nil]
  exact found

theorem Extends.trans {first second third : Compiler} (begun : first.Extends second)
    (ended : second.Extends third) : first.Extends third := by
  intro id context found
  obtain ⟨more, between⟩ := begun id context found
  obtain ⟨rest, after⟩ := ended id _ between
  exact ⟨more ++ rest, by rw [after, List.append_assoc]⟩

theorem extends_addTo (compiler : Compiler) (id : Nat) (object : Object) :
    compiler.Extends (compiler.addTo id object) := by
  intro index context found
  simp only [context?, addTo, List.getElem?_modify] at found ⊢
  rw [found]
  split
  · exact ⟨[object], rfl⟩
  · exact ⟨[], by simp⟩

theorem Opens.extends {before after : Compiler} {name : String} {opened : Opened}
    (opens : Opens before name opened after) : before.Extends after := by
  intro id context found
  refine ⟨[], ?_⟩
  have less : id < before.contexts.length := (List.getElem?_eq_some_iff.1 found).1
  rw [context?, opens.contexts, List.getElem?_append_left less, List.append_nil]
  exact found

end Compiler

theorem Run.Move.extends {before after : Run} (move : Move before after) :
    before.compiler.Extends after.compiler := by
  cases move with
  | drawGroup name =>
      rw [compiler_step_fresh]
      exact Compiler.extends_of_contexts rfl
  | opening opens => exact opens.extends
  | append id object => exact Compiler.extends_addTo _ id object
  | _ => exact Compiler.extends_of_contexts rfl

theorem Run.Reaches.extends {before after : Run} (reaches : before.Reaches after) :
    before.compiler.Extends after.compiler := by
  induction reaches with
  | refl => exact Compiler.extends_of_contexts rfl
  | tail _ move ih => exact ih.trans move.extends

/-- At every moment of a run, and as long as group ids fit, the contexts are well registered, the
two indexes lead from names and from groups to the one context that has them, and so do the lookups;
no context was given a group that had been reserved or that was handed to the script, and whatever
is done next only adds to the contexts. -/
theorem contexts_stay_registered (options : CompilerOptions) (names : Nat → String) (run : Run)
    (reached : (Run.start (.start options names)).Reaches run) (fits : run.GroupsFit) :
    run.compiler.Registered ∧
    run.compiler.IndexedBy (·.name) run.compiler.byName ∧
    run.compiler.IndexedBy (·.group.value) run.compiler.byGroup ∧
    (∀ name,
      (∀ id, Build.outcome (Build.contextNamed name) run = (.ok id, run) ↔
        ∃ context, run.compiler.context? id = some context ∧ context.name = name) ∧
      (Build.outcome (Build.contextNamed name) run = (.error (.unknownContext name), run) ↔
        ∀ context ∈ run.compiler.contexts, context.name ≠ name)) ∧
    (∀ group,
      (∀ id, Build.outcome (Build.owner group) run = (.ok id, run) ↔
        ∃ context, run.compiler.context? id = some context ∧ context.group = group) ∧
      (Build.outcome (Build.owner group) run = (.error (.unknownGroup group), run) ↔
        ∀ context ∈ run.compiler.contexts, context.group ≠ group)) ∧
    (∀ earlier, (Run.start (.start options names)).Reaches earlier → earlier.Reaches run →
      earlier.compiler.Extends run.compiler ∧
      ∀ id context, run.compiler.context? id = some context →
        earlier.compiler.contexts.length ≤ id →
          context.group.value ∉ earlier.compiler.ids.groups.reserved) ∧
    (∀ value ∈ run.drawnGroups, ∀ context ∈ run.compiler.contexts, context.group.value ≠ value) ∧
    ∀ statement, run.Reaches (run.step statement) ∧
      run.compiler.Extends (run.step statement).compiler := by
  obtain ⟨registered, allocated⟩ := Run.registered_of_reaches reached fits
  refine ⟨registered, registered.byName, registered.byGroup,
    Build.outcome_contextNamed_iff registered, Build.outcome_owner_iff registered,
    fun earlier begun ended => ⟨ended.extends, ?_⟩,
    fun value drawn => (allocated.drawn value drawn).2, fun statement => ?_⟩
  · exact (Run.unreserved_of_reaches begun ended fits).2
  · have next := run.reaches_step statement
    exact ⟨next, next.extends⟩

/-- A script that reserves groups between openings, draws one, and fails inside a function and at
the outermost level. -/
def Script.interleaved : List Statement :=
  [.reserve .group 2 none, .createContext "first" false none, .fresh .group none,
    .reserve .group 5 none, .reserve .group 3 none, .createContext "first" true none,
    .function none none [.wait .zero, .reserve .group 8 none, .fail "stop"],
    .createContext "last" true none]

/-- The run of that script. -/
def Run.interleaved : Run :=
  (Run.start (.start ⟨.zero, some 9⟩ fun number => String.ofList (.replicate number 'a'))).steps
    Script.interleaved

theorem contexts_registered_after_interleaved :
    Run.interleaved.GroupsFit ∧
      Run.interleaved.compiler.byName =
        [("last", 4), ("aaa", 3), ("aa", 2), ("first", 1), ("global", 0)] ∧
      Run.interleaved.compiler.byGroup = [(10, 4), (7, 3), (6, 2), (3, 1), (1, 0)] ∧
      Run.interleaved.drawnGroups = [4] ∧ Run.interleaved.compiler.Registered ∧
      Run.interleaved.compiler.IndexedBy (·.group.value) Run.interleaved.compiler.byGroup := by
  have fits : Run.interleaved.GroupsFit := by decide +kernel
  have reached := Run.reaches_steps (Run.start (.start ⟨.zero, some 9⟩ fun number =>
    String.ofList (.replicate number 'a'))) Script.interleaved
  obtain ⟨registered, -, byGroup, -⟩ :=
    contexts_stay_registered _ _ Run.interleaved reached fits
  exact ⟨fits, by decide +kernel, by decide +kernel, by decide +kernel, registered, byGroup⟩

end TriggerGraph
