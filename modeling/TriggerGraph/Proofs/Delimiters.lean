import TriggerGraph.Proofs.LevelText

/-!
# The delimiters of written levels

Values are checked for delimiters before they are written, and an id is digits.  A name that the
table does not know is written as it stands, and nobody looks at it.  So the delimiters of a written
object are those of its fields and those inside such names, and the structure of a level holds
exactly as long as these names have none.
-/

namespace TriggerGraph.Level

/-- No name that is written as it stands has a delimiter. -/
def HasPlainNames (table : Table) (object : Object) : Prop :=
  ∀ field ∈ object.fields, table.idOf? field.1 = none → IsPlain field.1.toList

instance (text : List Char) : Decidable (IsPlain text) :=
  decidable_of_iff (text.all (!isDelimiter ·) = true) (by simp [IsPlain])

instance (table : Table) (object : Object) : Decidable (HasPlainNames table object) :=
  inferInstanceAs (Decidable (∀ field ∈ object.fields, _ → _))

/-- The text of an object has the delimiters of its fields and no others: one semicolon, which ends
it, and two commas for each field. -/
structure IsDelimited (object : Object) (text : List Char) : Prop where
  closed : text.getLast? = some ';'
  semicolons : text.count ';' = 1
  commas : text.count ',' = 2 * object.size

/-! ## Counting -/

theorem IsPlain.count_eq_zero {text : List Char} (plain : IsPlain text) {c : Char}
    (delimiter : isDelimiter c = true) : text.count c = 0 :=
  List.count_eq_zero.2 fun member => by simp [plain c member] at delimiter

theorem isPlain_iff_count {text : List Char} :
    IsPlain text ↔ text.count ',' = 0 ∧ text.count ';' = 0 := by
  constructor
  · exact fun plain => ⟨plain.count_eq_zero (by decide), plain.count_eq_zero (by decide)⟩
  · rintro ⟨commas, semicolons⟩ c member
    rw [← Bool.not_eq_true, isDelimiter_iff]
    rintro (rfl | rfl)
    · exact List.count_eq_zero.1 commas member
    · exact List.count_eq_zero.1 semicolons member

theorem isPlain_encodeKey_iff {table : Table} {name : String} :
    IsPlain (encodeKey table name) ↔ (table.idOf? name = none → IsPlain name.toList) := by
  cases known : table.idOf? name with
  | none => simp [encodeKey, known]
  | some id => simp [encodeKey, known, isPlain_naturalText]

/-- How often a delimiter stands in the names of fields as they are written. -/
def countInKeys (table : Table) (c : Char) (fields : List (String × Value)) : Nat :=
  (fields.flatMap fun field => encodeKey table field.1).count c

/-- The commas of the fields themselves are the only delimiters outside names. -/
theorem count_encodeFields {table : Table} {fields : List (String × Value)} {text : List Char}
    (written : encodeFields table fields = .ok text) {c : Char} (delimiter : isDelimiter c = true) :
    text.count c = (if c = ',' then 2 * fields.length else 0) + countInKeys table c fields := by
  obtain ⟨pairs, rfl, spells⟩ := spells_of_encodeFields written
  clear written
  induction spells with
  | nil => simp [countInKeys]
  | @cons field pair fields pairs spell _ ih =>
      have value : pair.2.count c = 0 := (isPlain_encodeValue spell.2).count_eq_zero delimiter
      have here : (pairText pair).count c =
          (encodeKey table field.1).count c + if c = ',' then 2 else 0 := by
        by_cases comma : c = ','
        · subst comma
          simp [pairText, spell.1, value]
        · have other : (',' == c) = false := beq_false_of_ne (Ne.symm comma)
          simp [pairText, spell.1, value, List.count_cons, other, comma]
      rw [List.flatMap_cons, List.count_append, here, ih, countInKeys, countInKeys,
        List.flatMap_cons, List.count_append, List.length_cons]
      split <;> omega

theorem countInKeys_eq_zero_iff {table : Table} {object : Object} :
    countInKeys table ',' object.fields = 0 ∧ countInKeys table ';' object.fields = 0 ↔
      HasPlainNames table object := by
  have plain (name : String) : (table.idOf? name = none → IsPlain name.toList) ↔
      (encodeKey table name).count ',' = 0 ∧ (encodeKey table name).count ';' = 0 :=
    isPlain_encodeKey_iff.symm.trans isPlain_iff_count
  have absent (c : Char) : countInKeys table c object.fields = 0 ↔
      ∀ field ∈ object.fields, (encodeKey table field.1).count c = 0 := by
    simp [countInKeys, List.count_eq_zero]
  simp only [absent, HasPlainNames, plain, ← forall₂_and]

/-! ## Objects and levels -/

theorem exists_fields_of_encodeObject {table : Table} {object : Object} {text : List Char}
    (written : encodeObject table object = .ok text) :
    ∃ row, encodeFields table object.fields = .ok row ∧ text = row ++ [';'] := by
  rw [encodeObject] at written
  cases fields : encodeFields table object.fields with
  | error failure =>
      rw [fields] at written
      cases written
  | ok row =>
      rw [fields] at written
      cases written
      exact ⟨row, rfl, rfl⟩

theorem isDelimited_iff {table : Table} {object : Object} {text : List Char}
    (written : encodeObject table object = .ok text) :
    IsDelimited object text ↔ HasPlainNames table object := by
  obtain ⟨row, fields, rfl⟩ := exists_fields_of_encodeObject written
  have commas := count_encodeFields fields (c := ',') (by decide)
  have semicolons := count_encodeFields fields (c := ';') (by decide)
  simp only [if_true, Char.reduceEq, if_false, Nat.zero_add] at commas semicolons
  have size : object.size = object.fields.length := rfl
  rw [← countInKeys_eq_zero_iff]
  constructor
  · rintro ⟨-, once, twice⟩
    simp only [List.count_append, List.count_singleton, BEq.rfl, if_true, Char.reduceBEq,
      Bool.false_eq_true, if_false] at once twice
    omega
  · rintro ⟨noCommas, noSemicolons⟩
    refine ⟨by simp, ?_, ?_⟩
    · simp only [List.count_append, List.count_singleton, BEq.rfl, if_true]
      omega
    · simp only [List.count_append, List.count_singleton, Char.reduceBEq, Bool.false_eq_true,
        if_false]
      omega

theorem splitAtChar_closed {texts : List (List Char)} (free : ∀ text ∈ texts, ';' ∉ text) :
    splitAtChar ';' (texts.flatMap (· ++ [';'])) = texts ++ [[]] := by
  induction texts with
  | nil => rfl
  | cons text others ih =>
      rw [List.forall_mem_cons] at free
      rw [List.flatMap_cons, List.append_assoc, List.singleton_append, splitAtChar_append,
        splitAtChar_of_not_mem free.1, ih free.2]
      rfl

/-- A written object has the delimiters of its fields exactly when the names that the table does not
know have none. Cut at its semicolons, a level of such objects gives the text of each object by
itself. -/
theorem delimiters_kept_by_plain_names (table : Table) :
    (∀ object text, encodeObject table object = .ok text →
      (IsDelimited object text ↔ HasPlainNames table object)) ∧
    ∀ objects text, encodeObjects table objects = .ok text →
      (∀ object ∈ objects, HasPlainNames table object) →
      ∃ rows, splitAtChar ';' text = rows ++ [[]] ∧
        List.Forall₂ (fun object row => encodeObject table object = .ok (row ++ [';']) ∧
          IsDelimited object (row ++ [';'])) objects rows := by
  refine ⟨fun object text written => isDelimited_iff written, fun objects text written plain => ?_⟩
  obtain ⟨rows, rfl, writtenAll⟩ := fields_of_encodeObjects written
  have each : List.Forall₂ (fun object row => encodeObject table object = .ok (row ++ [';']) ∧
      IsDelimited object (row ++ [';'])) objects rows := by
    refine ((List.forall₂_and_left _ _).2 ⟨plain, writtenAll⟩).imp ?_
    rintro object row ⟨names, fields⟩
    have object : encodeObject table object = .ok (row ++ [';']) := by
      rw [encodeObject, fields]
      rfl
    exact ⟨object, (isDelimited_iff object).2 names⟩
  refine ⟨rows, splitAtChar_closed (forall_of_forall₂ each ?_), each⟩
  rintro object - row ⟨-, delimited⟩ inside
  have more := List.count_pos_iff.2 inside
  have once := delimited.semicolons
  rw [List.count_append, List.count_singleton_self] at once
  omega

/-- An object with a name of the table, an unknown one and the empty one. -/
def oddlyNamed : Object :=
  .ofFields [("GROUPS", .references [.group 3, .group 4]), ("kS38", .text "1_40"), ("", .ofInt 7)]

theorem oddly_named_keeps_delimiters :
    HasPlainNames .builtin oddlyNamed ∧ IsDelimited oddlyNamed "57,3.4,kS38,1_40,,7,;".toList ∧
      ∃ rows, splitAtChar ';' "57,3.4,kS38,1_40,,7,;;57,3.4,kS38,1_40,,7,;".toList = rows ++ [[]] ∧
        List.Forall₂ (fun object row => encodeObject .builtin object = .ok (row ++ [';']) ∧
          IsDelimited object (row ++ [';'])) [oddlyNamed, .empty, oddlyNamed] rows := by
  have plain : HasPlainNames .builtin oddlyNamed := by decide +kernel
  have none : HasPlainNames .builtin .empty := List.forall_mem_nil _
  obtain ⟨one, many⟩ := delimiters_kept_by_plain_names .builtin
  refine ⟨plain, (one oddlyNamed _ (by decide +kernel)).2 plain, many _ _ (by decide +kernel) ?_⟩
  simp [plain, none]

/-- A semicolon in an unknown name is written like any other character, so that one object is read
as two. -/
theorem semicolon_in_name_splits_object :
    encodeObject .builtin (.ofFields [("a;1", .ofInt 5)]) = .ok "a;1,5,;".toList ∧
      ¬IsDelimited (.ofFields [("a;1", .ofInt 5)]) "a;1,5,;".toList ∧
      (decode .builtin "a;1,5,;").map Object.fields =
        [[("a", .text "")], [("OBJ_ID", .ofInt 5)]] := by
  refine ⟨by decide +kernel, fun delimited => ?_, by decide +kernel⟩
  exact absurd delimited.semicolons (by decide)

end TriggerGraph.Level
