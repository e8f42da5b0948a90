import TriggerGraph.Proofs.Encodability
import TriggerGraph.Proofs.LevelRoundTrip

/-!
# What is read can be written

Reading never fails, so it has to make something of every text that a writer accepts again.  Values
come out as numbers, lists or text, and text that was cut at delimiters has none.  What remains are
fields that only accept references, whose domain is not in the text, and one gap: a number with a
point that is too large is read as infinite, where one without a point would have stayed text.
-/

namespace TriggerGraph

/-! ## Numbers with a point -/

theorem Decimal.toDouble_spec (negative : Bool) (d : Decimal) :
    (d.toDouble negative).isFinite = true ∨ d.toDouble negative = .infinity negative := by
  have rounded (numerator denominator : Nat) :
      (Double.ofUnits negative numerator denominator).isFinite = true ∨
        Double.ofUnits negative numerator denominator = .infinity negative := by
    unfold Double.ofUnits
    dsimp only
    split
    · exact .inl rfl
    · exact .inr rfl
  rw [toDouble]
  split
  · exact .inl rfl
  · split
    · exact .inr rfl
    · split <;> exact rounded _ _

/-- The names of numbers have no point. -/
theorem readUnsignedDouble?_of_point {negative : Bool} {text : List Char} (point : '.' ∈ text) :
    readUnsignedDouble? negative text = (readDecimal? text).map (·.toDouble negative) := by
  have mapped : '.' ∈ text.map lowerAscii := List.mem_map.2 ⟨'.', point, by decide⟩
  have other {word : List Char} (absent : '.' ∉ word) : text.map lowerAscii ≠ word :=
    fun same => absent (same ▸ mapped)
  rw [readUnsignedDouble?]
  cases readDecimal? text with
  | some decimal => rfl
  | none =>
      simp only [Option.map_none, Bool.or_eq_true, decide_eq_true_eq]
      rw [if_neg (other (by decide)), if_neg]
      rintro (same | same)
      · exact other (by decide) same
      · exact other (by decide) same

theorem readDouble?_of_point {text : List Char} (point : '.' ∈ text) {x : Double}
    (read : readDouble? text = some x) :
    x.isFinite = true ∨ ∃ negative, x = .infinity negative := by
  have unsigned {negative : Bool} {text : List Char} (point : '.' ∈ text)
      (read : readUnsignedDouble? negative text = some x) :
      x.isFinite = true ∨ ∃ negative, x = .infinity negative := by
    rw [readUnsignedDouble?_of_point point] at read
    obtain ⟨decimal, -, rfl⟩ := Option.map_eq_some_iff.1 read
    exact (decimal.toDouble_spec negative).imp_right fun infinite => ⟨negative, infinite⟩
  unfold readDouble? at read
  split at read
  · exact unsigned (List.mem_of_ne_of_mem (by decide) point) read
  · exact unsigned (List.mem_of_ne_of_mem (by decide) point) read
  · exact unsigned point read

namespace Level

/-! ## Raw keys and values -/

/-- The keys of a level string with their values, as they stand. -/
def rawFields (level : List Char) : List (List Char × List Char) :=
  (segments level).flatMap fun segment => pairUp (splitAtChar ',' segment)

/-- The name under which the values of a key are stored. -/
def nameOfKey (table : Table) (key : List Char) : String :=
  ((readKey? table key).map (·.name)).getD (String.ofList key)

/-- The kind by which the values of a key are read. -/
def kindOfKey (table : Table) (key : List Char) : Option Kind :=
  (readKey? table key).map (·.kind)

theorem readField_eq (table : Table) (key value : List Char) :
    readField table key value =
      (nameOfKey table key, readValue (kindOfKey table key) value) := by
  rw [readField, nameOfKey, kindOfKey]
  cases readKey? table key <;> rfl

theorem mem_of_mem_splitAtChar {separator c : Char} {text piece : List Char}
    (member : piece ∈ splitAtChar separator text) (inside : c ∈ piece) : c ∈ text := by
  induction text generalizing piece with
  | nil => simp_all [splitAtChar]
  | cons first rest ih =>
      rw [splitAtChar] at member
      split at member
      · rcases List.mem_cons.1 member with rfl | later
        · cases inside
        · exact List.mem_cons_of_mem _ (ih later inside)
      · cases pieces : splitAtChar separator rest with
        | nil =>
            rw [pieces, List.mem_singleton] at member
            rw [member, List.mem_singleton] at inside
            exact inside ▸ List.mem_cons_self
        | cons head others =>
            rw [pieces] at member ih
            rcases List.mem_cons.1 member with rfl | later
            · rcases List.mem_cons.1 inside with rfl | inside
              · exact List.mem_cons_self
              · exact List.mem_cons_of_mem _ (ih List.mem_cons_self inside)
            · exact List.mem_cons_of_mem _ (ih (List.mem_cons_of_mem _ later) inside)

theorem mem_pairUp {pieces : List (List Char)} {pair : List Char × List Char}
    (member : pair ∈ pairUp pieces) :
    pair.1 ≠ [] ∧ pair.1 ∈ pieces ∧ (pair.2 ∈ pieces ∨ pair.2 = []) := by
  fun_induction pairUp pieces with
  | case1 => cases member
  | case2 rest ih =>
      obtain ⟨nonempty, key, value⟩ := ih member
      exact ⟨nonempty, List.mem_cons_of_mem _ key, value.imp_left (List.mem_cons_of_mem _)⟩
  | case3 key nonempty =>
      rw [List.mem_singleton.1 member]
      exact ⟨nonempty, List.mem_cons_self, .inr rfl⟩
  | case4 key value rest nonempty ih =>
      rcases List.mem_cons.1 member with rfl | later
      · exact ⟨nonempty, by simp, .inl (by simp)⟩
      · obtain ⟨other, key, value⟩ := ih later
        exact ⟨other, by simp [key], value.imp_left fun present => by simp [present]⟩

/-- What stands between delimiters has none. -/
theorem rawFields_spec {level : List Char} {raw : List Char × List Char}
    (member : raw ∈ rawFields level) : raw.1 ≠ [] ∧ IsPlain raw.1 ∧ IsPlain raw.2 := by
  obtain ⟨segment, present, paired⟩ := List.mem_flatMap.1 member
  obtain ⟨nonempty, key, value⟩ := mem_pairUp paired
  have plain {piece : List Char} (cut : piece ∈ splitAtChar ',' segment) : IsPlain piece := by
    intro c inside
    rw [← Bool.not_eq_true, isDelimiter_iff]
    rintro (rfl | rfl)
    · exact not_mem_of_mem_splitAtChar cut inside
    · exact (segment_spec present).1 (mem_of_mem_splitAtChar cut inside)
  refine ⟨nonempty, plain key, ?_⟩
  rcases value with cut | empty
  · exact plain cut
  · rw [empty]
    exact List.forall_mem_nil _

theorem mem_fields_ofFields {fields : List (String × Value)} {field : String × Value}
    (member : field ∈ (Object.ofFields fields).fields) : field ∈ fields := by
  -- a field of the object was there before or has been stored since
  suffices stored : ∀ (rest : List (String × Value)) (object : Object),
      field ∈ (rest.foldl (fun object field => object.insert field.1 field.2) object).fields →
        field ∈ object.fields ∨ field ∈ rest by
    exact (stored fields .empty member).resolve_left (List.not_mem_nil)
  intro rest
  induction rest with
  | nil => exact fun object member => .inl member
  | cons first rest ih =>
      intro object member
      rcases ih _ member with old | later
      · rcases Object.mem_insertInto old with rfl | before
        · exact .inr List.mem_cons_self
        · exact .inl before
      · exact .inr (List.mem_cons_of_mem _ later)

/-- Every field that is read comes from a raw key with its value. -/
theorem exists_raw_of_mem_decode {table : Table} {level : String} {object : Object}
    (read : object ∈ decode table level) {field : String × Value}
    (member : field ∈ object.fields) :
    ∃ raw ∈ rawFields level.toList, field = readField table raw.1 raw.2 := by
  obtain ⟨segment, present, rfl⟩ := List.mem_map.1 read
  obtain ⟨raw, paired, rfl⟩ := List.mem_map.1 (mem_fields_ofFields member)
  exact ⟨raw, List.mem_flatMap.2 ⟨segment, present, paired⟩, rfl⟩

/-! ## Values -/

/-- A text with one point, in a field that holds no lists, that spells a number too large to be
finite. -/
structure Overflows (kind : Option Kind) (text : List Char) : Prop where
  single : holdsList kind = false
  point : text.count '.' = 1
  large : ∃ negative, readDouble? text = some (.infinity negative)

/-- What a text can be read as. -/
theorem readValue_cases (kind : Option Kind) (text : List Char) :
    (∃ x, readValue kind text = .number x ∧ (x.isFinite = true ∨
      (∃ negative, x = .infinity negative) ∧ Overflows kind text)) ∨
    (∃ ids, readValue kind text = .integers ids ∧ readDotted? text = some ids ∧ '.' ∈ text) ∨
    readValue kind text = .text (String.ofList text) := by
  rw [readValue]
  split
  · exact .inl ⟨_, rfl, .inl (Double.isFinite_ofInt (by decide))⟩
  split
  · exact .inl ⟨_, rfl, .inl (Double.isFinite_ofInt (by decide))⟩
  split
  · rename_i value _
    have lower := value.minValue_le_toInt
    have upper := value.toInt_le
    rw [Int64.toInt_minValue] at lower
    rw [Int64.toInt_maxValue] at upper
    exact .inl ⟨_, rfl, .inl (Double.isFinite_ofInt (by omega))⟩
  split
  · rename_i contains
    have point : '.' ∈ text := List.contains_iff_mem.1 contains
    unfold readPointed
    dsimp only
    split
    · rename_i x read
      split at read
      · cases read
      · rename_i single
        simp only [Bool.or_eq_true, decide_eq_true_eq, not_or, Bool.not_eq_true] at single
        have once : text.count '.' = 1 := by
          have := List.count_pos_iff.2 point
          omega
        refine .inl ⟨x, rfl, (readDouble?_of_point point read).imp_right ?_⟩
        rintro ⟨negative, rfl⟩
        exact ⟨⟨negative, rfl⟩, single.1, once, negative, read⟩
    · split
      · rename_i ids read
        exact .inr (.inl ⟨ids, rfl, read, point⟩)
      · exact .inr (.inr rfl)
  · unfold readPlain
    split
    · split
      · rename_i isFinite
        exact .inl ⟨_, rfl, .inl isFinite⟩
      · exact .inr (.inr rfl)
    · exact .inr (.inr rfl)

/-- Whoever reads a value finds no reference in it. -/
theorem readValue_ne_reference (kind : Option Kind) (text : List Char) (r : Reference) :
    readValue kind text ≠ .reference r := by
  intro equal
  rcases readValue_cases kind text with ⟨x, read, -⟩ | ⟨ids, read, -⟩ | read
  all_goals
    rw [equal] at read
    cases read

/-! ## Errors -/

theorem exists_field_of_encodeFields {table : Table} {fields : List (String × Value)}
    {error : LevelError} (failed : encodeFields table fields = .error error) :
    ∃ field ∈ fields, encodeField table field.1 field.2 = .error error := by
  induction fields with
  | nil => cases failed
  | cons field rest ih =>
      simp only [encodeFields] at failed
      split at failed
      · rename_i first
        cases failed
        exact ⟨field, List.mem_cons_self, first⟩
      · split at failed
        · rename_i others
          cases failed
          obtain ⟨other, present, failed⟩ := ih others
          exact ⟨other, List.mem_cons_of_mem _ present, failed⟩
        · cases failed

theorem exists_field_of_encodeObjects {table : Table} {objects : List Object} {error : LevelError}
    (failed : encodeObjects table objects = .error error) :
    ∃ object ∈ objects, ∃ field ∈ object.fields,
      encodeField table field.1 field.2 = .error error := by
  induction objects with
  | nil => cases failed
  | cons object rest ih =>
      simp only [encodeObjects] at failed
      split at failed
      · rename_i first
        cases failed
        rw [encodeObject] at first
        cases fields : encodeFields table object.fields with
        | error cause =>
            rw [fields] at first
            cases first
            exact ⟨object, List.mem_cons_self, exists_field_of_encodeFields fields⟩
        | ok text =>
            rw [fields] at first
            cases first
      · split at failed
        · rename_i others
          cases failed
          obtain ⟨other, present, failed⟩ := ih others
          exact ⟨other, List.mem_cons_of_mem _ present, failed⟩
        · cases failed

/-- If objects cannot be written, the reason is one of their fields. -/
theorem exists_field_of_encode {table : Table} {objects : List Object} {error : LevelError}
    (failed : encode table objects = .error error) :
    ∃ object ∈ objects, ∃ field ∈ object.fields,
      encodeField table field.1 field.2 = .error error := by
  rw [encode] at failed
  cases result : encodeObjects table objects with
  | error cause =>
      rw [result] at failed
      cases failed
      exact exists_field_of_encodeObjects result
  | ok text =>
      rw [result] at failed
      cases failed

theorem checkEncodable_of_ne_reference (table : Table) (name : String) {value : Value}
    (other : ∀ r, value ≠ .reference r) :
    table.checkEncodable name value =
      match table.explicitDomain? name with
      | none => .ok ()
      | some expected => .error (.mismatch name expected value.kindName) := by
  cases value with
  | reference r => exact absurd rfl (other r)
  | _ =>
      simp only [Table.checkEncodable, Table.checkField]
      cases table.explicitDomain? name <;> rfl

/-- Why a field that was read cannot be written: it only accepts references, or its number has
overflowed. -/
theorem error_of_readField {table : Table} {raw : List Char × List Char} (plain : IsPlain raw.2)
    {error : LevelError}
    (failed : encodeField table (readField table raw.1 raw.2).1 (readField table raw.1 raw.2).2 =
      .error error) :
    (∃ name expected found, error = .rejected (.mismatch name expected found) ∧
      table.explicitDomain? name = some expected) ∨
    ∃ name negative, error = .notFinite name (.infinity negative) ∧
      readField table raw.1 raw.2 = (name, .number (.infinity negative)) ∧
      Overflows (kindOfKey table raw.1) raw.2 := by
  rw [readField_eq] at failed ⊢
  rw [encodeField, checkEncodable_of_ne_reference _ _ (readValue_ne_reference _ _)] at failed
  cases explicit : table.explicitDomain? (nameOfKey table raw.1) with
  | some expected =>
      rw [explicit] at failed
      cases failed
      exact .inl ⟨_, expected, _, rfl, explicit⟩
  | none =>
      rw [explicit] at failed
      refine .inr ?_
      rcases readValue_cases (kindOfKey table raw.1) raw.2 with
        ⟨x, read, isFinite | ⟨⟨negative, rfl⟩, overflows⟩⟩ | ⟨ids, read, -⟩ | read
      · simp [read, encodeValue, isFinite] at failed
      · rw [read] at failed ⊢
        cases failed
        exact ⟨_, negative, rfl, rfl, overflows⟩
      · rw [read] at failed
        cases failed
      · have free : ¬(String.ofList raw.2).toList.any isDelimiter = true := by
          simpa [IsPlain] using plain
        rw [read] at failed
        simp only [encodeValue, if_neg free, reduceCtorEq] at failed

/-- A field that was read from a number that overflows. -/
def IsOverflow (table : Table) (level : String) (field : String × Value) : Prop :=
  ∃ raw ∈ rawFields level.toList, readField table raw.1 raw.2 = field ∧
    Overflows (kindOfKey table raw.1) raw.2

/-- Every number that is read is finite unless it overflows. What is read can be written, or a field
that only accepts references stands against it, or a number that overflows. -/
theorem readings_are_written_or_overflow (table : Table) (level : String) :
    (∀ object ∈ decode table level, ∀ field ∈ object.fields, ∀ x, field.2 = .number x →
      x.isFinite = true ∨ IsOverflow table level field) ∧
    ((∃ again, encode table (decode table level) = .ok again) ∨
      (∃ name expected found,
        encode table (decode table level) = .error (.rejected (.mismatch name expected found)) ∧
        table.explicitDomain? name = some expected) ∨
      ∃ name negative,
        encode table (decode table level) = .error (.notFinite name (.infinity negative)) ∧
        IsOverflow table level (name, .number (.infinity negative))) := by
  refine ⟨fun object read field member x number => ?_, ?_⟩
  · obtain ⟨raw, present, rfl⟩ := exists_raw_of_mem_decode read member
    have value : readValue (kindOfKey table raw.1) raw.2 = .number x := by
      rw [← number, readField_eq]
    rcases readValue_cases (kindOfKey table raw.1) raw.2 with
      ⟨y, read, isFinite | ⟨-, overflows⟩⟩ | ⟨ids, read, -⟩ | read
    all_goals
      rw [value] at read
      cases read
    · exact .inl isFinite
    · exact .inr ⟨raw, present, rfl, overflows⟩
  · cases result : encode table (decode table level) with
    | ok again => exact .inl ⟨again, rfl⟩
    | error error =>
        obtain ⟨object, read, field, member, failed⟩ := exists_field_of_encode result
        obtain ⟨raw, present, rfl⟩ := exists_raw_of_mem_decode read member
        rcases error_of_readField (rawFields_spec present).2.2 failed with
          ⟨name, expected, found, rfl, explicit⟩ | ⟨name, negative, rfl, stored, overflows⟩
        · exact .inr (.inl ⟨name, expected, found, rfl, explicit⟩)
        · exact .inr (.inr ⟨name, negative, rfl, raw, present, stored, overflows⟩)

/-- The same number without its point stays text and is written back. -/
theorem overflowing_number_is_not_written :
    (decode .builtin "2,1.0e400;").map Object.fields = [[("X", .number (.infinity false))]] ∧
      encode .builtin (decode .builtin "2,1.0e400;") = .error (.notFinite "X" (.infinity false)) ∧
      encode .builtin (decode .builtin "2,1e400;") = .ok "2,1e400,;" := by
  decide +kernel

end Level
end TriggerGraph
