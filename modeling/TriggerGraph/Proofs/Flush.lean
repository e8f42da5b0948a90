import TriggerGraph.Proofs.Numerals
import TriggerGraph.Proofs.Objects
import TriggerGraph.Proofs.Registry

/-!
# The objects of all contexts

Nothing that a script added is lost when the contexts are put together: the objects of the global
context come first and as they are, then those of every other context in turn, each of them a member
of the group of its context and run by activations only.
-/

namespace TriggerGraph

/-! ## Joining a group -/

namespace Value

theorem ofNat_toNat_inj {one two : UInt32}
    (same : Int64.ofNat one.toNat = Int64.ofNat two.toNat) : one = two := by
  have equal := congrArg Int64.toInt same
  rw [toInt_ofNat_toNat, toInt_ofNat_toNat] at equal
  exact UInt32.toNat_inj.1 (by omega)

/-- A test holds somewhere in a list to which an item was added unless it was there. -/
theorem any_append_absent {α : Type} [BEq α] [LawfulBEq α] (test : α → Bool) (list : List α)
    (item : α) : (if list.contains item then list else list ++ [item]).any test =
      (list.any test || test item) := by
  split
  · rename_i present
    cases holds : test item with
    | false => simp
    | true =>
        rw [Bool.or_true, List.any_eq_true]
        exact ⟨item, by simpa using present, holds⟩
  · simp

/-- Whatever shape the groups had, they are those of before and the one that joins. -/
theorem namesGroup_joinGroup (group : Reference) (old : Option Value) (id : UInt32) :
    namesGroup id (joinGroup group old) = (old.any (namesGroup id) || group.value == id) := by
  have number : (Int64.ofNat group.value.toNat == Int64.ofNat id.toNat) = (group.value == id) := by
    rw [Bool.eq_iff_iff, beq_iff_eq, beq_iff_eq]
    exact ⟨ofNat_toNat_inj, fun same => by rw [same]⟩
  have fresh (value : Value) (nameless : value.namesGroup id = false) :
      namesGroup id (.references [group]) =
        ((some value).any (namesGroup id) || group.value == id) := by
    rw [Option.any_some, nameless]
    simp [namesGroup]
  have integers (ids : List Int64) : namesGroup id (.integers ids) =
      ids.any (· == Int64.ofNat id.toNat) := by
    rw [namesGroup, Bool.eq_iff_iff]
    simp
  cases old with
  | none => simp [joinGroup, namesGroup]
  | some value =>
      cases value with
      | references groups => exact any_append_absent (·.value == id) groups group
      | integers ids =>
          rw [joinGroup, integers, any_append_absent, number, Option.any_some, integers]
      | reference single =>
          simp only [joinGroup, namesGroup, Option.any_some]
          split
          · rename_i same
            simp [same]
          · simp
      | number x =>
          simp only [joinGroup, Option.any_some, integers]
          split
          · rename_i same
            simp [namesGroup, same, number]
          · simp [namesGroup, number]
      | boolean flag => exact fresh _ rfl
      | text string => exact fresh _ rfl

end Value

/-! ## Objects that leave a context -/

namespace Object

/-- Whether a key is neither that of the groups nor that of a flag which contexts set. -/
def isOwnKey (key : String) : Bool :=
  !(List.contains [Field.groups, Field.spawnTriggered, Field.multiTriggered] key)

/-- The fields that no context touches. -/
def ownFields (object : Object) : List (String × Value) := object.fields.filter (isOwnKey ·.1)

/-- What a context does to its objects: they join its group and are run by activations, as often as
there are any.  Everything else stays. -/
structure Tagged (group : UInt32) (before after : Object) : Prop where
  groups : ∀ id, after.hasGroup id = (before.hasGroup id || group == id)
  spawn : after.get? Field.spawnTriggered = some (.boolean true)
  multi : after.get? Field.multiTriggered = some (.boolean true)
  rest : after.ownFields = before.ownFields

/-- Storing a field that a filter drops does not change what the filter keeps. -/
theorem filter_insertInto {key : String} {keep : String → Bool} (dropped : keep key = false)
    (value : Value) (fields : List (String × Value)) :
    (insertInto key value fields).filter (keep ·.1) = fields.filter (keep ·.1) := by
  induction fields with
  | nil => simp [insertInto, dropped]
  | cons field rest ih =>
      by_cases found : key = field.1
      · simp [insertInto, ← found, dropped]
      · simp [insertInto, found, List.filter_cons, ih]

theorem filter_eraseP {key : String} {keep : String → Bool} (dropped : keep key = false)
    (fields : List (String × Value)) :
    (fields.eraseP (key == ·.1)).filter (keep ·.1) = fields.filter (keep ·.1) := by
  induction fields with
  | nil => rfl
  | cons field rest ih =>
      by_cases found : key = field.1
      · rw [List.eraseP_cons_of_pos (by simp [found]), List.filter_cons_of_neg]
        simp [← found, dropped]
      · rw [List.eraseP_cons_of_neg (by simp [found]), List.filter_cons, List.filter_cons, ih]

theorem hasGroup_addGroup (object : Object) (group : Reference) (id : UInt32) :
    (object.addGroup group).hasGroup id = (object.hasGroup id || group.value == id) := by
  rw [hasGroup, get?_addGroup, if_pos rfl, Option.any_some, Value.namesGroup_joinGroup, hasGroup]

theorem tagged_triggered (group : Reference) (object : Object) :
    object.Tagged group.value (Compiler.triggered group object) where
  groups id := by
    have apart : Field.groups ≠ Field.spawnTriggered ∧ Field.groups ≠ Field.multiTriggered := by
      decide
    have same : (Compiler.triggered group object).get? Field.groups =
        (object.addGroup group).get? Field.groups := by
      simp [Compiler.triggered, apart]
    rw [hasGroup, same]
    exact hasGroup_addGroup object group id
  spawn := by
    have apart : Field.spawnTriggered ≠ Field.multiTriggered := by decide
    simp [Compiler.triggered, apart]
  multi := by simp [Compiler.triggered]
  rest := by
    simp only [ownFields, Compiler.triggered, insert, addGroup, erase]
    have spawn : isOwnKey Field.spawnTriggered = false := by decide
    have multi : isOwnKey Field.multiTriggered = false := by decide
    have groups : isOwnKey Field.groups = false := by decide
    rw [filter_insertInto multi, filter_insertInto spawn, filter_insertInto groups,
      filter_eraseP groups]

end Object

/-! ## All contexts -/

namespace Compiler

theorem length_flush (compiler : Compiler) :
    compiler.flush.length = (compiler.contexts.map (·.objects.length)).sum := by
  unfold flush
  cases compiler.contexts with
  | nil => rfl
  | cons first others => simp [List.length_flatMap]

theorem tagged_objects (group : Reference) (objects : List Object) :
    List.Forall₂ (Object.Tagged group.value) objects (objects.map (triggered group)) :=
  List.forall₂_map_right_iff.2 (List.forall₂_same.2 fun object _ =>
    Object.tagged_triggered group object)

end Compiler

/-- Putting the contexts together keeps every object and its place.  Objects of the global context,
the first one, are as they were added; objects of another context are tagged with its group. -/
theorem flush_tags_objects_of_contexts (options : CompilerOptions) (names : Nat → String)
    (run : Run) (reached : (Run.start (.start options names)).Reaches run) :
    run.compiler.flush.length = (run.compiler.contexts.map (·.objects.length)).sum ∧
    ∃ globals others rows,
      run.compiler.contexts = { Compiler.globalContext with objects := globals } :: others ∧
      run.compiler.flush = globals ++ rows.flatten ∧
      List.Forall₂ (fun context row =>
        List.Forall₂ (Object.Tagged context.group.value) context.objects row) others rows := by
  refine ⟨run.compiler.length_flush, ?_⟩
  obtain ⟨globals, first⟩ := reached.extends 0 Compiler.globalContext rfl
  obtain ⟨others, contexts⟩ : ∃ others, run.compiler.contexts =
      { Compiler.globalContext with objects := globals } :: others := by
    rw [Compiler.context?, ← List.head?_eq_getElem?, List.head?_eq_some_iff] at first
    exact first
  refine ⟨globals, others, others.map fun context =>
    context.objects.map (Compiler.triggered context.group), contexts, ?_, ?_⟩
  · rw [Compiler.flush, contexts]
    rfl
  · refine List.forall₂_map_right_iff.2 (List.forall₂_same.2 fun context _ => ?_)
    exact Compiler.tagged_objects context.group context.objects

/-- A script that adds an object to the global context and, in a function that fails, an object that
has groups and a flag already. -/
def Script.tagging : List Statement :=
  [.add (.ofType 1), .function none none
    [.add (.ofFields [(Field.spawnTriggered, .boolean false), (Field.groups, .integers [4, 2]),
      (Field.objectId, .ofUInt32 1)]), .fail "stop"]]

theorem flush_tags_objects_of_failed_function :
    (Run.blank.steps Script.tagging).compiler.flush.length = 2 ∧
      (Run.blank.steps Script.tagging).compiler.flush.map (·.hasGroup 2) = [false, true] := by
  have reached := Run.blank.reaches_steps Script.tagging
  have total := (flush_tags_objects_of_contexts _ _ _ reached).1
  exact ⟨total.trans (by decide +kernel), by decide +kernel⟩

end TriggerGraph
