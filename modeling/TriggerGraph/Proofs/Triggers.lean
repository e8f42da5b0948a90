import TriggerGraph.Script.Trigger

/-!
# Triggers on groups

A trigger whose target is a group can always be made, and what it is made into.
-/

namespace TriggerGraph

theorem Object.setAll_of_accepted {fields : List (String × Value)} (object : Object)
    (accepted : ∀ field ∈ fields, Table.builtin.checkField field.1 field.2 = .ok ()) :
    object.setAll fields =
      .ok (fields.foldl (fun object field => object.insert field.1 field.2) object) := by
  induction fields generalizing object with
  | nil => rfl
  | cons field rest ih =>
      rw [List.forall_mem_cons] at accepted
      simp only [setAll, set, setIn, accepted.1, List.foldl_cons]
      exact ih _ accepted.2

theorem Table.checkField_of_free {table : Table} {key : String}
    (free : table.explicitDomain? key = none) (value : Value) :
    table.checkField key value = .ok () := by
  simp [checkField, free]

theorem Table.checkField_target {target : Reference} (isGroup : target.domain = .group) :
    Table.builtin.checkField Field.target (.reference target) = .ok () := by
  have explicit : Table.builtin.explicitDomain? Field.target = some .group := by decide
  simp [checkField, explicit, isGroup]

namespace Trigger

theorem spawn_of_group {target : Reference} (isGroup : target.domain = .group) (delay : Double) :
    spawn target delay = .ok (make ObjectType.spawn ((Field.target, .reference target) ::
      if delay.isPositive then [(Field.spawnDuration, .number delay)] else [])) := by
  refine Object.setAll_of_accepted _ ?_
  have free : Table.builtin.explicitDomain? Field.spawnDuration = none := by decide
  cases delay.isPositive with
  | false => simp [Table.checkField_target isGroup]
  | true => simp [Table.checkField_target isGroup, Table.checkField_of_free free]

theorem instantCount_of_group {target : Reference} (isGroup : target.domain = .group)
    (item : UInt32) (count : Double) (comparator : Comparator) :
    instantCount item count comparator target = .ok (make ObjectType.instantCount
      [(Field.item, .ofUInt32 item), (Field.count, .number count),
        (Field.comparison, .ofInt (countCode comparator)), (Field.target, .reference target),
        (Field.activateGroup, .boolean true)]) := by
  refine Object.setAll_of_accepted _ ?_
  have free : ∀ key ∈ [Field.item, Field.count, Field.comparison, Field.activateGroup],
      Table.builtin.explicitDomain? key = none := by decide
  simp_all [Table.checkField_target isGroup, Table.checkField_of_free]

theorem itemCompare_of_group {target : Reference} (isGroup : target.domain = .group)
    (counter : Counter) (value : Double) (comparator : Comparator) :
    itemCompare counter value comparator target = .ok (make ObjectType.itemCompare
      [(Field.firstItem, .ofUInt32 counter.item),
        (Field.firstType, .ofInt (kindCode counter.kind)), (Field.factor, .ofInt 1),
        (Field.firstOp, .ofInt multiplyCode), (Field.secondFactor, .number value),
        (Field.secondOp, .ofInt addCode), (Field.compareOp, .ofInt (compareCode comparator)),
        (Field.target, .reference target)]) := by
  refine Object.setAll_of_accepted _ ?_
  have free : ∀ key ∈ [Field.firstItem, Field.firstType, Field.factor, Field.firstOp,
      Field.secondFactor, Field.secondOp, Field.compareOp],
      Table.builtin.explicitDomain? key = none := by decide
  simp_all [Table.checkField_target isGroup, Table.checkField_of_free]

theorem compare_of_group {target : Reference} (isGroup : target.domain = .group)
    (condition : Condition) : ∃ object, compare condition target = .ok object := by
  unfold compare
  split
  · exact ⟨_, instantCount_of_group isGroup _ _ _⟩
  · exact ⟨_, itemCompare_of_group isGroup _ _ _⟩

end Trigger

end TriggerGraph
