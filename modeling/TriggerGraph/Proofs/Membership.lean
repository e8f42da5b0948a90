import TriggerGraph.Proofs.Flush

/-!
# Joining groups

Groups are kept in whatever shape a script or a level left them.  Joining one is a union all the
same: it adds this group and no other, a second time changes nothing, and the order of two groups
cannot be told from who is a member.  The groups move to the end, and all other fields stay as they
are.
-/

namespace TriggerGraph

namespace Value

theorem joinGroup_joinGroup (group : Reference) (old : Option Value) :
    joinGroup group (some (joinGroup group old)) = joinGroup group old := by
  obtain ⟨members, joined, member⟩ | ⟨ids, joined, member⟩ := joinGroup_cases group old
  · rw [joined, joinGroup, if_pos (List.contains_iff_mem.2 member)]
  · rw [joined]
    simp only [joinGroup, List.contains_iff_mem.2 member, if_true]

end Value

namespace Object

/-- Since no key stands twice, dropping a field drops whatever has its key. -/
theorem fields_erase (object : Object) (key : String) :
    (object.erase key).fields = object.fields.filter (·.1 != key) := by
  obtain ⟨fields, distinct⟩ := object
  change fields.eraseP (key == ·.1) = fields.filter (·.1 != key)
  induction fields with
  | nil => rfl
  | cons field rest ih =>
      rw [List.map_cons, List.nodup_cons] at distinct
      by_cases found : key = field.1
      · have others : rest.filter (·.1 != key) = rest := by
          refine List.filter_eq_self.2 fun other member => ?_
          rw [bne_iff_ne, found]
          exact fun same => distinct.1 (same ▸ List.mem_map_of_mem member)
        rw [List.eraseP_cons_of_pos (by simp [found]), List.filter_cons_of_neg (by simp [found]),
          others]
      · rw [List.eraseP_cons_of_neg (by simp [found]),
          List.filter_cons_of_pos (by simp [Ne.symm found]), ih distinct.2]

/-- The fields other than the groups, in their order, and the groups behind them. -/
theorem fields_addGroup_eq_filter (object : Object) (group : Reference) :
    (object.addGroup group).fields = object.fields.filter (·.1 != Field.groups) ++
      [(Field.groups, Value.joinGroup group (object.get? Field.groups))] := by
  rw [fields_addGroup, fields_erase]

theorem addGroup_addGroup (object : Object) (group : Reference) :
    (object.addGroup group).addGroup group = object.addGroup group := by
  have groups : (object.addGroup group).get? Field.groups =
      some (Value.joinGroup group (object.get? Field.groups)) := by
    rw [get?_addGroup, if_pos rfl]
  have others : (object.addGroup group).fields.filter (·.1 != Field.groups) =
      object.fields.filter (·.1 != Field.groups) := by
    rw [fields_addGroup_eq_filter, List.filter_append, List.filter_filter]
    simp
  rw [eq_iff_fields, fields_addGroup_eq_filter, groups, others, Value.joinGroup_joinGroup,
    fields_addGroup_eq_filter]

end Object

/-- Joining a group is a union on every shape that groups can have. -/
theorem joining_group_is_union (object : Object) (group : Reference) :
    (∀ id, (object.addGroup group).hasGroup id = true ↔
      object.hasGroup id = true ∨ id = group.value) ∧
    (object.addGroup group).addGroup group = object.addGroup group ∧
    (∀ other id, ((object.addGroup group).addGroup other).hasGroup id =
      ((object.addGroup other).addGroup group).hasGroup id) ∧
    ∃ groups, (object.addGroup group).fields =
      object.fields.filter (·.1 != Field.groups) ++ [(Field.groups, groups)] := by
  refine ⟨fun id => ?_, object.addGroup_addGroup group, fun other id => ?_, ?_⟩
  · rw [Object.hasGroup_addGroup, Bool.or_eq_true, beq_iff_eq, eq_comm (a := group.value)]
  · simp only [Object.hasGroup_addGroup]
    exact Bool.or_right_comm _ _ _
  · exact ⟨_, object.fields_addGroup_eq_filter group⟩

end TriggerGraph
