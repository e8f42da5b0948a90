import TriggerGraph.Proofs.ExactDouble
import TriggerGraph.Proofs.Objects
import TriggerGraph.Proofs.Triggers
import TriggerGraph.Script.Compiler

/-!
# The game

The rules that compiled levels rely on.  The objects that are not spawn triggered run once at the
start; activating a group runs all objects that carry it.  A spawn activates its target after a
delay, a pickup sets an item or adds to it, and an instant count activates its target if an item
compares with a constant.  Of the activations that are due first, any may happen next.
-/

namespace TriggerGraph

namespace Object

/-- The number in a field. -/
def number? (object : Object) (key : String) : Option Double :=
  (object.get? key).bind Value.toDouble?

/-- The exact number in a field, zero if there is none. -/
def amount (object : Object) (key : String) : ℚ := ((object.number? key).map Double.toRat).getD 0

/-- The id in a field, zero if there is none. -/
def id (object : Object) (key : String) : UInt32 :=
  ((object.number? key).map Double.toUInt32).getD 0

/-- Whether a flag is set. -/
def flag (object : Object) (key : String) : Bool := (object.number? key).any (!·.isZero)

/-- Whether an object neither activates groups nor changes or compares items. -/
def isInert (object : Object) : Bool :=
  object.type? ∉ [ObjectType.spawn, ObjectType.pickup, ObjectType.itemEdit, ObjectType.instantCount,
    ObjectType.itemCompare].map some

end Object

namespace Game

/-- An activation that has happened: the group and the items before its objects ran. -/
structure Activation where
  /-- The group activated. -/
  group : UInt32
  /-- The items at that time. -/
  items : UInt32 → ℚ

/-- The state of a running level. -/
structure State where
  /-- The time. -/
  now : ℚ
  /-- The value of each item. -/
  items : UInt32 → ℚ
  /-- The activations to come, each with its time. -/
  pending : List (ℚ × UInt32)
  /-- The activations so far, the first one first. -/
  log : List Activation

/-- Activate a group after a delay. -/
def State.schedule (state : State) (delay : ℚ) (group : UInt32) : State :=
  { state with pending := state.pending ++ [(state.now + delay, group)] }

/-- Give an item a value. -/
def State.put (state : State) (item : UInt32) (value : ℚ) : State :=
  { state with items := Function.update state.items item value }

/-- Whether an item compares with a constant, by the code of the comparison. -/
def compares (code : ℚ) (value count : ℚ) : Bool :=
  if code = 0 then value = count else if code = 1 then count < value else value < count

/-- Run one object. -/
def act (state : State) (object : Object) : State :=
  let item := object.id Field.item
  let count := object.amount Field.count
  if object.type? = some ObjectType.spawn then
    state.schedule (object.amount Field.spawnDuration) (object.id Field.target)
  else if object.type? = some ObjectType.pickup then
    state.put item (if object.flag Field.override then count else state.items item + count)
  else if object.type? = some ObjectType.instantCount then
    if compares (object.amount Field.comparison) (state.items item) count then
      state.schedule 0 (object.id Field.target)
    else state
  else state

/-- Activate a group: its objects run in the order of the level. -/
def activate (level : List Object) (state : State) (group : UInt32) : State :=
  (level.filter (·.hasGroup group)).foldl act
    { state with log := state.log ++ [⟨group, state.items⟩] }

/-- The state in which all items are zero. -/
def initial : State := ⟨0, fun _ => 0, [], []⟩

/-- The start of a level. -/
def start (level : List Object) : State :=
  (level.filter fun object => !object.flag Field.spawnTriggered).foldl act initial

/-- One of the activations that are due first happens. -/
inductive Step (level : List Object) : State → State → Prop where
  | fire {state : State} {early late : List (ℚ × UInt32)} {time : ℚ} {group : UInt32}
      (due : state.pending = early ++ (time, group) :: late)
      (first : ∀ other ∈ state.pending, time ≤ other.1) :
      Step level state (activate level { state with now := time, pending := early ++ late } group)

/-- In whatever order activations happen, they come to an end in the same state. -/
inductive Settles (level : List Object) : State → State → Prop where
  | rest {state : State} (idle : state.pending = []) : Settles level state state
  | step {state final : State} (busy : state.pending ≠ [])
      (every : ∀ next, Step level state next → Settles level next final) :
      Settles level state final

/-- One state is followed by another, in whatever order activations happen. -/
def Follows (level : List Object) (state later : State) : Prop :=
  ∀ final, Settles level later final → Settles level state final

theorem Follows.refl (level : List Object) (state : State) : Follows level state state :=
  fun _ settles => settles

theorem Follows.trans {level : List Object} {first second third : State}
    (one : Follows level first second) (two : Follows level second third) :
    Follows level first third :=
  fun final settles => one final (two final settles)

/-- An activation that is the only one to come happens next. -/
theorem follows_activate {level : List Object} {state : State} {time : ℚ} {group : UInt32}
    (only : state.pending = [(time, group)]) :
    Follows level state (activate level { state with now := time, pending := [] } group) := by
  intro final settles
  refine .step (by simp [only]) fun next step => ?_
  obtain ⟨due, first⟩ := step
  rename_i early late time' group'
  rw [only] at due
  cases early with
  | nil =>
      cases due
      exact settles
  | cons head early => simp at due

end Game

/-! ## What emitted objects do -/

namespace Object

theorem type?_of_get? {object : Object} {type : UInt32}
    (found : object.get? Field.objectId = some (.ofUInt32 type)) : object.type? = some type := by
  simp [type?, found, Value.ofUInt32, Value.ofInt, Value.toDouble?, Double.toUInt32_ofInt]

theorem id_of_get? {object : Object} {key : String} {value : UInt32}
    (found : object.get? key = some (.ofUInt32 value)) : object.id key = value := by
  simp [id, number?, found, Value.ofUInt32, Value.ofInt, Value.toDouble?, Double.toUInt32_ofInt]

theorem id_of_reference {object : Object} {key : String} {reference : Reference}
    (found : object.get? key = some (.reference reference)) : object.id key = reference.value := by
  simp [id, number?, found, Value.toDouble?, Double.toUInt32_ofInt]

theorem amount_of_number {object : Object} {key : String} {value : Double}
    (found : object.get? key = some (.number value)) : object.amount key = value.toRat := by
  simp [amount, number?, found, Value.toDouble?]

theorem amount_of_none {object : Object} {key : String} (absent : object.get? key = none) :
    object.amount key = 0 := by
  simp [amount, number?, absent]

theorem not_isInert_of_type? {object : Object} {type : UInt32} (found : object.type? = some type)
    (active : type ∈ [ObjectType.spawn, ObjectType.pickup, ObjectType.itemEdit,
      ObjectType.instantCount, ObjectType.itemCompare]) : object.isInert = false := by
  simp only [isInert, found, List.mem_map_of_mem active, not_true_eq_false, decide_false]

end Object

namespace Trigger

theorem type?_of_spawn {target : Reference} {delay : Double} {object : Object}
    (isGroup : target.domain = .group) (made : spawn target delay = .ok object) :
    object.type? = some ObjectType.spawn := by
  rw [spawn_of_group isGroup] at made
  obtain rfl := Except.ok.inj made
  refine Object.type?_of_get? ?_
  cases delay.isPositive <;> rfl

theorem get?_of_spawn {target : Reference} {delay : Double} {object : Object}
    (isGroup : target.domain = .group) (made : spawn target delay = .ok object) {key : String}
    (absent : key ∈ [Field.groups, Field.spawnTriggered]) : object.get? key = none := by
  rw [spawn_of_group isGroup] at made
  obtain rfl := Except.ok.inj made
  simp only [List.mem_cons, List.not_mem_nil, or_false] at absent
  rcases absent with rfl | rfl <;> cases delay.isPositive <;> rfl

theorem id_of_spawn {target : Reference} {delay : Double} {object : Object}
    (isGroup : target.domain = .group) (made : spawn target delay = .ok object) :
    object.id Field.target = target.value := by
  rw [spawn_of_group isGroup] at made
  obtain rfl := Except.ok.inj made
  refine Object.id_of_reference ?_
  cases delay.isPositive <;> rfl

theorem amount_of_spawn {target : Reference} {delay : Double} {object : Object}
    (isGroup : target.domain = .group) (nonnegative : delay.isNonnegative = true)
    (made : spawn target delay = .ok object) :
    object.amount Field.spawnDuration = delay.toRat := by
  rw [spawn_of_group isGroup] at made
  obtain rfl := Except.ok.inj made
  cases positive : delay.isPositive with
  | true => exact Object.amount_of_number rfl
  | false =>
      -- a delay that is not positive is one of the two zeros
      have zero : delay.isZero = true := by
        simpa [Double.isNonnegative, positive] using nonnegative
      rw [Double.toRat_of_isZero zero]
      exact Object.amount_of_none rfl

theorem type?_pickupAdd (item : UInt32) (value : Double) :
    (pickupAdd item value).type? = some ObjectType.pickup :=
  Object.type?_of_get? rfl

end Trigger

/-- The comparison of a value with a constant. -/
def Comparator.holds : Comparator → ℚ → ℚ → Bool
  | .equal, value, count => value = count
  | .larger, value, count => count < value
  | .smaller, value, count => value < count

namespace Game

theorem act_of_inert {object : Object} (inert : object.isInert = true) (state : State) :
    act state object = state := by
  simp only [Object.isInert, List.map_cons, List.map_nil, List.mem_cons, List.not_mem_nil,
    or_false, not_or, decide_eq_true_eq] at inert
  simp [act, inert]

theorem act_spawn {target : Reference} {delay : Double} {object : Object}
    (isGroup : target.domain = .group) (nonnegative : delay.isNonnegative = true)
    (made : Trigger.spawn target delay = .ok object) (state : State) :
    act state object = state.schedule delay.toRat target.value := by
  rw [act, if_pos (Trigger.type?_of_spawn isGroup made), Trigger.id_of_spawn isGroup made,
    Trigger.amount_of_spawn isGroup nonnegative made]

theorem act_pickupSet (item : UInt32) {value : Int} (small : value.natAbs ≤ 2 ^ 53)
    (state : State) :
    act state (Trigger.pickupSet item (.ofInt value)) = state.put item value := by
  have type : (Trigger.pickupSet item (.ofInt value)).type? = some ObjectType.pickup :=
    Object.type?_of_get? rfl
  have slot : (Trigger.pickupSet item (.ofInt value)).id Field.item = item :=
    Object.id_of_get? rfl
  have count : (Trigger.pickupSet item (.ofInt value)).amount Field.count = value :=
    (Object.amount_of_number rfl).trans (Double.toRat_ofInt small)
  have override : (Trigger.pickupSet item (.ofInt value)).flag Field.override = true := by
    have set : (Trigger.pickupSet item (.ofInt value)).number? Field.override =
        some (Double.ofInt 1) := rfl
    rw [Object.flag, set, Option.any_some, Double.isZero_ofInt (by decide)]
    rfl
  simp [act, type, slot, count, override, ObjectType.spawn, ObjectType.pickup]

theorem act_pickupAdd (item : UInt32) {value : Int} (small : value.natAbs ≤ 2 ^ 53)
    (state : State) :
    act state (Trigger.pickupAdd item (.ofInt value)) =
      state.put item (state.items item + value) := by
  have type := Trigger.type?_pickupAdd item (.ofInt value)
  have slot : (Trigger.pickupAdd item (.ofInt value)).id Field.item = item :=
    Object.id_of_get? rfl
  have count : (Trigger.pickupAdd item (.ofInt value)).amount Field.count = value :=
    (Object.amount_of_number rfl).trans (Double.toRat_ofInt small)
  have override : (Trigger.pickupAdd item (.ofInt value)).flag Field.override = false := rfl
  simp [act, type, slot, count, override, ObjectType.spawn, ObjectType.pickup]

theorem compares_countCode (comparator : Comparator) (value count : ℚ) :
    compares ((Trigger.countCode comparator : Int) : ℚ) value count =
      comparator.holds value count := by
  cases comparator <;> simp [compares, Trigger.countCode, Comparator.holds]

theorem act_instantCount {item : UInt32} {count : Int} {comparator : Comparator}
    {target : Reference} {object : Object} (isGroup : target.domain = .group)
    (small : count.natAbs ≤ 2 ^ 53)
    (made : Trigger.instantCount item (.ofInt count) comparator target = .ok object)
    (state : State) :
    act state object =
      if comparator.holds (state.items item) count then state.schedule 0 target.value
      else state := by
  rw [Trigger.instantCount_of_group isGroup] at made
  obtain rfl := Except.ok.inj made
  set object := Trigger.make ObjectType.instantCount
      [(Field.item, .ofUInt32 item), (Field.count, .number (.ofInt count)),
        (Field.comparison, .ofInt (Trigger.countCode comparator)),
        (Field.target, .reference target), (Field.activateGroup, .boolean true)] with instant
  have type : object.type? = some ObjectType.instantCount := Object.type?_of_get? rfl
  have slot : object.id Field.item = item := Object.id_of_get? rfl
  have target' : object.id Field.target = target.value := Object.id_of_reference rfl
  have amount : object.amount Field.count = count :=
    (Object.amount_of_number rfl).trans (Double.toRat_ofInt small)
  have code : object.amount Field.comparison = (Trigger.countCode comparator : Int) :=
    (Object.amount_of_number rfl).trans
      (Double.toRat_ofInt (by cases comparator <;> decide))
  simp [act, type, slot, target', amount, code, compares_countCode, ObjectType.spawn,
    ObjectType.pickup, ObjectType.instantCount]

end Game

/-! ## Objects that leave a context -/

namespace Compiler

theorem get?_triggered (group : Reference) (object : Object) {key : String}
    (plain : key ∉ [Field.groups, Field.spawnTriggered, Field.multiTriggered]) :
    (triggered group object).get? key = object.get? key := by
  simp only [List.mem_cons, List.not_mem_nil, or_false, not_or] at plain
  simp [triggered, Object.get?_addGroup, plain]

theorem flag_triggered (group : Reference) (object : Object) :
    (triggered group object).flag Field.spawnTriggered = true := by
  have apart : Field.spawnTriggered ≠ Field.multiTriggered := by decide
  have set : (triggered group object).number? Field.spawnTriggered = some (Double.ofInt 1) := by
    simp [Object.number?, triggered, apart, Value.toDouble?]
  rw [Object.flag, set, Option.any_some, Double.isZero_ofInt (by decide)]
  rfl

end Compiler

namespace Object

/-- Run by a group other than that of its context, the object does nothing: it does nothing at all,
or it has no groups of its own. -/
def Belongs (object : Object) : Prop :=
  object.isInert = true ∨ object.get? Field.groups = none

theorem hasGroup_triggered {object : Object} (absent : object.get? Field.groups = none)
    (group : Reference) (id : UInt32) :
    (Compiler.triggered group object).hasGroup id = (group.value == id) := by
  have apart : Field.groups ≠ Field.spawnTriggered ∧ Field.groups ≠ Field.multiTriggered := by
    decide
  simp [hasGroup, Compiler.triggered, apart, get?_addGroup, absent, Value.joinGroup,
    Value.namesGroup]

end Object

namespace Game

theorem act_triggered (group : Reference) (object : Object) (state : State) :
    act state (Compiler.triggered group object) = act state object := by
  have plain {key : String}
      (apart : key ∉ [Field.groups, Field.spawnTriggered, Field.multiTriggered]) :
      (Compiler.triggered group object).number? key = object.number? key := by
    rw [Object.number?, Compiler.get?_triggered group object apart, Object.number?]
  have type : (Compiler.triggered group object).type? = object.type? := by
    rw [Object.type?, Compiler.get?_triggered group object (by decide), Object.type?]
  have item : (Compiler.triggered group object).id Field.item = object.id Field.item := by
    rw [Object.id, plain (by decide), Object.id]
  have target : (Compiler.triggered group object).id Field.target = object.id Field.target := by
    rw [Object.id, plain (by decide), Object.id]
  have amount {key : String}
      (apart : key ∉ [Field.groups, Field.spawnTriggered, Field.multiTriggered]) :
      (Compiler.triggered group object).amount key = object.amount key := by
    rw [Object.amount, plain apart, Object.amount]
  have override : (Compiler.triggered group object).flag Field.override =
      object.flag Field.override := by
    rw [Object.flag, plain (by decide), Object.flag]
  dsimp only [act]
  rw [type, item, target, override, amount (show Field.count ∉ _ by decide),
    amount (show Field.spawnDuration ∉ _ by decide), amount (show Field.comparison ∉ _ by decide)]

theorem foldl_act_of_inert {objects : List Object}
    (inert : ∀ object ∈ objects, object.isInert = true) (state : State) :
    objects.foldl act state = state := by
  induction objects with
  | nil => rfl
  | cons object rest ih =>
      rw [List.forall_mem_cons] at inert
      rw [List.foldl_cons, act_of_inert inert.1, ih inert.2]

/-- The objects of a context do nothing when another group is activated. -/
theorem foldl_act_of_other {group : Reference} {id : UInt32} (other : group.value ≠ id)
    {objects : List Object} (belongs : ∀ object ∈ objects, object.Belongs) (state : State) :
    ((objects.map (Compiler.triggered group)).filter (·.hasGroup id)).foldl act state = state := by
  induction objects with
  | nil => rfl
  | cons object rest ih =>
      rw [List.forall_mem_cons] at belongs
      rw [List.map_cons, List.filter_cons]
      rcases belongs.1 with inert | absent
      · split
        · rw [List.foldl_cons, act_triggered, act_of_inert inert, ih belongs.2]
        · exact ih belongs.2
      · rw [Object.hasGroup_triggered absent, beq_false_of_ne other]
        exact ih belongs.2

/-- All objects of a context run when its group is activated. -/
theorem foldl_act_of_own (group : Reference) {objects : List Object}
    (belongs : ∀ object ∈ objects, object.Belongs) (state : State) :
    ((objects.map (Compiler.triggered group)).filter (·.hasGroup group.value)).foldl act state =
      objects.foldl act state := by
  induction objects generalizing state with
  | nil => rfl
  | cons object rest ih =>
      rw [List.forall_mem_cons] at belongs
      rw [List.map_cons, List.filter_cons, List.foldl_cons]
      rcases belongs.1 with inert | absent
      · rw [act_of_inert inert]
        split
        · rw [List.foldl_cons, act_triggered, act_of_inert inert, ih belongs.2]
        · exact ih belongs.2 state
      · rw [Object.hasGroup_triggered absent, beq_self_eq_true, if_pos rfl, List.foldl_cons,
          act_triggered, ih belongs.2]

theorem foldl_act_of_absent {contexts : List Context} {id : UInt32}
    (belongs : ∀ context ∈ contexts, ∀ object ∈ context.objects, object.Belongs)
    (absent : id ∉ contexts.map (·.group.value)) (state : State) :
    ((contexts.flatMap fun context => context.objects.map
      (Compiler.triggered context.group)).filter (·.hasGroup id)).foldl act state = state := by
  induction contexts with
  | nil => rfl
  | cons head rest ih =>
      rw [List.forall_mem_cons] at belongs
      rw [List.map_cons, List.mem_cons, not_or] at absent
      rw [List.flatMap_cons, List.filter_append, List.foldl_append,
        foldl_act_of_other (Ne.symm absent.1) belongs.1, ih belongs.2 absent.2]

/-- Activating the group of a context runs the objects of that context, in order. -/
theorem foldl_act_of_context {contexts : List Context}
    (belongs : ∀ context ∈ contexts, ∀ object ∈ context.objects, object.Belongs)
    (distinct : (contexts.map (·.group.value)).Nodup) {context : Context}
    (member : context ∈ contexts) (state : State) :
    ((contexts.flatMap fun context => context.objects.map
      (Compiler.triggered context.group)).filter (·.hasGroup context.group.value)).foldl act state =
        context.objects.foldl act state := by
  induction contexts generalizing state with
  | nil => cases member
  | cons head rest ih =>
      rw [List.forall_mem_cons] at belongs
      rw [List.map_cons, List.nodup_cons] at distinct
      rw [List.flatMap_cons, List.filter_append, List.foldl_append]
      rcases List.mem_cons.1 member with rfl | later
      · rw [foldl_act_of_own _ belongs.1, foldl_act_of_absent belongs.2 distinct.1]
      · have other : head.group.value ≠ context.group.value := by
          intro same
          exact distinct.1 (same ▸ List.mem_map_of_mem later)
        rw [foldl_act_of_other other belongs.1, ih belongs.2 distinct.2 later]

theorem hasGroup_of_absent {object : Object} (absent : object.get? Field.groups = none)
    (id : UInt32) : object.hasGroup id = false := by
  simp [Object.hasGroup, absent]

/-- Contexts that can be told apart by their groups: a global one whose objects run at the start,
and others whose objects do nothing unless their own group is activated. -/
structure Layout (global : Context) (others : List Context) : Prop where
  plain : ∀ object ∈ global.objects,
    object.get? Field.groups = none ∧ object.get? Field.spawnTriggered = none
  belongs : ∀ context ∈ others, ∀ object ∈ context.objects, object.Belongs
  distinct : (others.map (·.group.value)).Nodup

namespace Layout

variable {global : Context} {others : List Context} {compiler : Compiler}

theorem start_flush (layout : Layout global others) (split : compiler.contexts = global :: others) :
    start compiler.flush = global.objects.foldl act initial := by
  have first : global.objects.filter (fun object => !object.flag Field.spawnTriggered) =
      global.objects := by
    refine List.filter_eq_self.2 fun object member => ?_
    simp [Object.flag, Object.number?, (layout.plain object member).2]
  have later : (others.flatMap fun context => context.objects.map
      (Compiler.triggered context.group)).filter (fun object => !object.flag Field.spawnTriggered) =
        [] := by
    refine List.filter_eq_nil_iff.2 fun object member => ?_
    obtain ⟨context, _, inner⟩ := List.mem_flatMap.1 member
    obtain ⟨original, _, rfl⟩ := List.mem_map.1 inner
    simp [Compiler.flag_triggered]
  simp only [start, Compiler.flush, split, List.filter_append, first, later, List.append_nil]

theorem activate_flush (layout : Layout global others)
    (split : compiler.contexts = global :: others) {context : Context} (member : context ∈ others)
    (state : State) :
    activate compiler.flush state context.group.value =
      context.objects.foldl act
        { state with log := state.log ++ [⟨context.group.value, state.items⟩] } := by
  have first : global.objects.filter (·.hasGroup context.group.value) = [] := by
    refine List.filter_eq_nil_iff.2 fun object member => ?_
    simp [hasGroup_of_absent (layout.plain object member).1]
  simp only [activate, Compiler.flush, split, List.filter_append, first, List.nil_append]
  exact foldl_act_of_context layout.belongs layout.distinct member _

end Layout
end Game
end TriggerGraph
