import TriggerGraph.Object.Groups

/-!
# Fields of objects

Storing and dropping seen through the value of a field, and the place of the groups field: after a
group has joined, it is the last one, and it holds a list with this group.
-/

namespace TriggerGraph

/-- Whatever the groups were, after a group has joined they are a list with this group in it. -/
theorem Value.joinGroup_cases (group : Reference) (old : Option Value) :
    (∃ members, joinGroup group old = .references members ∧ group ∈ members) ∨
      ∃ ids, joinGroup group old = .integers ids ∧ Int64.ofNat group.value.toNat ∈ ids := by
  have alone : ∃ members, Value.references [group] = .references members ∧ group ∈ members :=
    ⟨[group], rfl, List.mem_singleton_self group⟩
  cases old with
  | none => exact .inl alone
  | some value =>
      cases value with
      | references members =>
          refine .inl ⟨_, rfl, ?_⟩
          split <;> simp_all
      | reference single =>
          refine .inl ⟨_, rfl, ?_⟩
          split <;> simp_all
      | integers ids =>
          refine .inr ⟨_, rfl, ?_⟩
          split <;> simp_all
      | number x =>
          refine .inr ⟨_, rfl, ?_⟩
          split <;> simp_all
      | boolean flag => exact .inl alone
      | text string => exact .inl alone

namespace Object

theorem eq_iff_fields {one two : Object} : one = two ↔ one.fields = two.fields := by
  cases one
  cases two
  simp

theorem lookup_insertInto (key other : String) (value : Value) (fields : List (String × Value)) :
    (insertInto key value fields).lookup other =
      if other = key then some value else fields.lookup other := by
  induction fields with
  | nil =>
      by_cases same : other = key
      · simp [insertInto, same]
      · have unequal : (other == key) = false := beq_false_of_ne same
        simp [insertInto, List.lookup_cons, unequal, same]
  | cons field rest ih =>
      obtain ⟨name, old⟩ := field
      by_cases found : key = name
      · by_cases same : other = key
        · simp [insertInto, found, same]
        · have unequal : (other == name) = false :=
            beq_false_of_ne fun equal => same (found ▸ equal)
          simp [insertInto, found, List.lookup_cons, unequal, found ▸ same]
      · have missed : (key == name) = false := beq_false_of_ne found
        by_cases here : other = name
        · have same : other ≠ key := fun equal => found (equal ▸ here)
          simp [insertInto, missed, here, here ▸ same]
        · have unequal : (other == name) = false := beq_false_of_ne here
          simp only [insertInto, missed, Bool.false_eq_true, if_false, List.lookup_cons,
            unequal, ih]

@[simp]
theorem get?_insert (object : Object) (key other : String) (value : Value) :
    (object.insert key value).get? other = if other = key then some value else object.get? other :=
  lookup_insertInto key other value object.fields

theorem insertInto_of_not_mem {key : String} (value : Value) {fields : List (String × Value)}
    (absent : key ∉ fields.map Prod.fst) :
    insertInto key value fields = fields ++ [(key, value)] := by
  induction fields with
  | nil => rfl
  | cons field rest ih =>
      rw [List.map_cons, List.mem_cons, not_or] at absent
      simp [insertInto, absent.1, ih absent.2]

theorem fields_insert_of_not_mem (object : Object) {key : String} (value : Value)
    (absent : key ∉ object.fields.map Prod.fst) :
    (object.insert key value).fields = object.fields ++ [(key, value)] :=
  insertInto_of_not_mem value absent

/-- Dropping the first field of a key drops them all, since there is only one. -/
theorem not_mem_keys_erase (object : Object) (key : String) :
    key ∉ (object.erase key).fields.map Prod.fst := by
  obtain ⟨fields, distinct⟩ := object
  change key ∉ (fields.eraseP (key == ·.1)).map Prod.fst
  induction fields with
  | nil => simp
  | cons field rest ih =>
      rw [List.map_cons, List.nodup_cons] at distinct
      by_cases found : key = field.1
      · simpa [List.eraseP_cons, found] using distinct.1
      · have missed : (key == field.1) = false := beq_false_of_ne found
        rw [List.eraseP_cons_of_neg (by simp [missed]), List.map_cons, List.mem_cons, not_or]
        exact ⟨found, ih distinct.2⟩

theorem get?_erase_of_ne (object : Object) {key other : String} (apart : other ≠ key) :
    (object.erase key).get? other = object.get? other := by
  obtain ⟨fields, distinct⟩ := object
  change (fields.eraseP (key == ·.1)).lookup other = fields.lookup other
  clear distinct
  induction fields with
  | nil => rfl
  | cons field rest ih =>
      obtain ⟨name, value⟩ := field
      by_cases found : key = name
      · have missed : (other == name) = false := beq_false_of_ne (found ▸ apart)
        rw [List.eraseP_cons_of_pos (by simp [found]), List.lookup_cons, missed]
      · rw [List.eraseP_cons_of_neg (by simp [found]), List.lookup_cons, List.lookup_cons, ih]

theorem get?_addGroup (object : Object) (group : Reference) (key : String) :
    (object.addGroup group).get? key =
      if key = Field.groups then some (Value.joinGroup group (object.get? Field.groups))
      else object.get? key := by
  rw [addGroup, get?_insert]
  split
  · rfl
  · rename_i apart
    exact object.get?_erase_of_ne apart

/-- The groups field moves behind all others. -/
theorem fields_addGroup (object : Object) (group : Reference) :
    (object.addGroup group).fields =
      (object.erase Field.groups).fields ++
        [(Field.groups, Value.joinGroup group (object.get? Field.groups))] :=
  fields_insert_of_not_mem _ _ (object.not_mem_keys_erase Field.groups)

/-- What is stored last counts. -/
theorem get?_ofFields_append (fields : List (String × Value)) (key : String) (value : Value) :
    (ofFields (fields ++ [(key, value)])).get? key = some value := by
  simp [ofFields, List.foldl_append]

/-- Fields with different keys are stored as they stand. -/
theorem fields_ofFields {fields : List (String × Value)}
    (distinct : (fields.map Prod.fst).Nodup) : (ofFields fields).fields = fields := by
  -- the fields stored so far stand before the ones to come
  suffices stored : ∀ (rest : List (String × Value)) (object : Object),
      ((object.fields ++ rest).map Prod.fst).Nodup →
        (rest.foldl (fun object field => object.insert field.1 field.2) object).fields =
          object.fields ++ rest from stored fields empty distinct
  intro rest
  induction rest with
  | nil => exact fun object _ => (List.append_nil _).symm
  | cons field rest ih =>
      intro object distinct
      have absent : field.1 ∉ object.fields.map Prod.fst := by
        rw [List.map_append, List.nodup_append] at distinct
        exact fun present => distinct.2.2 _ present field.1 (by simp) rfl
      have inserted := object.fields_insert_of_not_mem field.2 absent
      rw [List.foldl_cons, ih, inserted, List.append_assoc]
      · rfl
      · rwa [inserted, List.append_assoc]

end Object
end TriggerGraph
