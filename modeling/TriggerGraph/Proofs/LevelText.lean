import Mathlib.Data.List.Forall2
import TriggerGraph.Level.Decode
import TriggerGraph.Level.Encode
import TriggerGraph.Proofs.Numerals

/-!
# The shape of written levels

Whatever is written successfully consists of keys and values without delimiters, each followed by a
comma, and ends in the one semicolon of its object.  Cutting such text at semicolons and commas
therefore gives back exactly the keys and values that were written.
-/

namespace TriggerGraph

/-! ## Delimiters in written values -/

/-- No character of the text structures a level. -/
def Level.IsPlain (text : List Char) : Prop := ∀ c ∈ text, Level.isDelimiter c = false

namespace Level

theorem IsPlain.append {left right : List Char} (plainLeft : IsPlain left)
    (plainRight : IsPlain right) : IsPlain (left ++ right) := by
  intro c member
  rcases List.mem_append.1 member with front | back
  · exact plainLeft c front
  · exact plainRight c back

theorem IsPlain.comma_not_mem {text : List Char} (plain : IsPlain text) : ',' ∉ text :=
  fun member => absurd (plain ',' member) (by decide)

theorem IsPlain.semicolon_not_mem {text : List Char} (plain : IsPlain text) : ';' ∉ text :=
  fun member => absurd (plain ';' member) (by decide)

theorem isDelimiter_iff {c : Char} : isDelimiter c = true ↔ c = ',' ∨ c = ';' := by
  simp [isDelimiter]

theorem isDelimiter_of_isNumeric {c : Char} (numeric : isNumeric c = true) :
    isDelimiter c = false := by
  rw [← Bool.not_eq_true, isDelimiter_iff]
  rintro (rfl | rfl)
  · exact absurd numeric (by decide)
  · exact absurd numeric (by decide)

theorem isPlain_naturalText (n : Nat) : IsPlain (naturalText n) := fun _ member =>
  isDelimiter_of_isNumeric (by simp [isNumeric, isDigit_of_mem_naturalText member])

theorem isPlain_dotted (values : List Int) : IsPlain (dotted values) := by
  intro c member
  rcases mem_joinWithChar member with rfl | ⟨piece, present, inside⟩
  · decide
  · obtain ⟨value, -, rfl⟩ := List.mem_map.1 present
    exact isDelimiter_of_isNumeric (isNumeric_of_mem_integerText inside)

end Level

namespace Double

theorem isPlain_zeros (count : Nat) : Level.IsPlain (zeros count) := by
  intro c member
  rw [List.eq_of_mem_replicate member]
  decide

theorem isPlain_positional {digits : List Char} (plain : Level.IsPlain digits) (point : Int) :
    Level.IsPlain (positional digits point []) := by
  have dot : ∀ {front back : List Char}, Level.IsPlain front → Level.IsPlain back →
      Level.IsPlain (front ++ '.' :: back) := by
    intro front back plainFront plainBack c member
    rcases List.mem_append.1 member with inFront | inBack
    · exact plainFront c inFront
    · rcases List.mem_cons.1 inBack with rfl | later
      · decide
      · exact plainBack c later
  unfold positional
  split
  · have zero : Level.IsPlain ['0'] := by simp [Level.IsPlain, Level.isDelimiter]
    exact dot zero ((isPlain_zeros _).append plain)
  · split
    · exact dot (fun c member => plain c (List.mem_of_mem_take member))
        fun c member => plain c (List.mem_of_mem_drop member)
    · rw [List.append_nil]
      exact plain.append (isPlain_zeros _)

theorem isPlain_signed (negative : Bool) {text : List Char} (plain : Level.IsPlain text) :
    Level.IsPlain (signed negative text) := by
  unfold signed
  split
  · intro c member
    rcases List.mem_cons.1 member with rfl | later
    · decide
    · exact plain c later
  · exact plain

theorem isPlain_plainText {x : Double} (isFinite : x.isFinite = true) :
    Level.IsPlain x.plainText := by
  cases x with
  | nan => simp [Double.isFinite] at isFinite
  | infinity negative => simp [Double.isFinite] at isFinite
  | finite negative magnitude =>
      rw [plainText]
      split
      · exact isPlain_signed _ (by simp [Level.IsPlain, Level.isDelimiter])
      · exact isPlain_signed _ (isPlain_positional (Level.isPlain_naturalText _) _)

end Double

namespace Level

theorem isPlain_encodeValue {key : String} {value : Value} {text : List Char}
    (written : encodeValue key value = .ok text) : IsPlain text := by
  cases value with
  | number x =>
      simp only [encodeValue] at written
      split at written
      · rename_i isFinite
        cases written
        exact Double.isPlain_plainText isFinite
      · cases written
  | boolean b =>
      cases written
      cases b <;> simp [IsPlain, isDelimiter]
  | reference r =>
      cases written
      exact isPlain_naturalText _
  | references rs =>
      cases written
      exact isPlain_dotted _
  | integers ids =>
      cases written
      exact isPlain_dotted _
  | text s =>
      simp only [encodeValue] at written
      split at written
      · cases written
      · rename_i free
        cases written
        simpa [IsPlain] using free

/-! ## Dotted lists -/

theorem readDotted?_dotted {ids : List Int64} (nonempty : ids ≠ []) :
    readDotted? (dotted (ids.map Int64.toInt)) = some ids := by
  have pieces : splitAtChar '.' (dotted (ids.map Int64.toInt)) =
      ids.map fun id => integerText id.toInt := by
    rw [dotted, splitAtChar_join (by simpa using nonempty), List.map_map]
    · rfl
    · intro piece member point
      obtain ⟨value, -, rfl⟩ := List.mem_map.1 member
      exact absurd (isNumeric_of_mem_integerText point) (by decide)
  have reads : (readInt64? ∘ fun id : Int64 => integerText id.toInt) = pure := by
    funext id
    exact readInt64?_integerText id
  rw [readDotted?, pieces, List.mapM_map, reads, List.mapM_pure]
  simp

theorem point_mem_dotted (first second : Int) (others : List Int) :
    '.' ∈ dotted (first :: second :: others) := by
  simp [dotted, joinWithChar]

theorem isNumeric_of_mem_dotted {values : List Int} {c : Char} (member : c ∈ dotted values) :
    c = '.' ∨ isNumeric c = true := by
  rcases mem_joinWithChar member with point | ⟨piece, present, inside⟩
  · exact Or.inl point
  · obtain ⟨value, -, rfl⟩ := List.mem_map.1 present
    exact Or.inr (isNumeric_of_mem_integerText inside)

theorem dotted_ne_word {values : List Int} {word : List Char} {c : Char} (member : c ∈ word)
    (notPoint : c ≠ '.') (notNumeric : isNumeric c = false) : dotted values ≠ word := by
  intro equal
  rcases isNumeric_of_mem_dotted (equal ▸ member) with point | numeric
  · exact notPoint point
  · exact absurd numeric (by simp [notNumeric])

theorem count_dotted {values : List Int} (nonempty : values ≠ []) :
    (dotted values).count '.' + 1 = values.length := by
  have absent (value : Int) : (integerText value).count '.' = 0 :=
    List.count_eq_zero.2 fun point => absurd (isNumeric_of_mem_integerText point) (by decide)
  induction values with
  | nil => exact absurd rfl nonempty
  | cons first rest ih =>
      cases rest with
      | nil => simp [dotted, joinWithChar, absent]
      | cons second others =>
          have later := ih (List.cons_ne_nil _ _)
          simp only [dotted, List.map_cons, joinWithChar, List.count_append, List.count_cons_self,
            absent, List.length_cons] at later ⊢
          omega

/-- A list of ids is read back as its only id or as the same list; a list of two is taken for a
number with a fraction unless the field holds lists. -/
theorem readValue_dotted (kind : Option Kind) (first : Int64) (others : List Int64)
    (shape : kind.any Kind.isList = true ∨ others.length ≠ 1) :
    readValue kind (dotted ((first :: others).map Int64.toInt)) =
      if others = [] then .ofInt first.toInt else .integers (first :: others) := by
  have notTrue : dotted ((first :: others).map Int64.toInt) ≠ "true".toList :=
    dotted_ne_word (c := 't') (by decide) (by decide) (by decide)
  have notFalse : dotted ((first :: others).map Int64.toInt) ≠ "false".toList :=
    dotted_ne_word (c := 'f') (by decide) (by decide) (by decide)
  rw [readValue, if_neg notTrue, if_neg notFalse]
  cases others with
  | nil => simp [dotted, joinWithChar, readInt64?_integerText]
  | cons second rest =>
      have point : '.' ∈ dotted ((first :: second :: rest).map Int64.toInt) :=
        point_mem_dotted _ _ _
      have read := readDotted?_dotted (List.cons_ne_nil first (second :: rest))
      have wantsList : (kind.any Kind.isList || decide
          (1 < (dotted ((first :: second :: rest).map Int64.toInt)).count '.')) = true := by
        have count : (dotted ((first :: second :: rest).map Int64.toInt)).count '.' + 1 =
            ((first :: second :: rest).map Int64.toInt).length := count_dotted (by simp)
        rcases shape with isList | long
        · rw [isList, Bool.true_or]
        · simp only [List.length_map, List.length_cons] at count long
          rw [Bool.or_eq_true, decide_eq_true_eq]
          omega
      simp only [readInt64?_of_point point, List.contains_iff_mem.2 point, if_true, readPointed,
        wantsList, read, reduceCtorEq, if_false]

/-! ## Names that can be written -/

/-- A field name that stands for itself in a level: it is there, and it has no delimiter. -/
def IsWritable (name : String) : Prop := name ≠ "" ∧ IsPlain name.toList

instance (name : String) : Decidable (IsWritable name) :=
  decidable_of_iff (name ≠ "" ∧ name.toList.all (!isDelimiter ·) = true) (by
    simp [IsWritable, IsPlain])

/-- What is written for the name is there and has no delimiter. -/
def IsKey (table : Table) (name : String) : Prop :=
  encodeKey table name ≠ [] ∧ IsPlain (encodeKey table name)

theorem isKey_of_known {table : Table} {name : String} (known : (table.idOf? name).isSome = true) :
    IsKey table name := by
  obtain ⟨id, found⟩ := Option.isSome_iff_exists.1 known
  rw [IsKey, encodeKey, found]
  exact ⟨naturalText_ne_nil _, isPlain_naturalText _⟩

theorem isKey_of_writable (table : Table) {name : String} (writable : IsWritable name) :
    IsKey table name := by
  cases found : table.idOf? name with
  | none =>
      rw [IsKey, encodeKey, found]
      exact ⟨fun empty => writable.1 (String.toList_eq_nil_iff.1 empty), writable.2⟩
  | some id => exact isKey_of_known (by rw [found]; rfl)

/-! ## Objects as keys and values -/

/-- A key and a value with the comma behind each. -/
def pairText (pair : List Char × List Char) : List Char := pair.1 ++ ',' :: (pair.2 ++ [','])

/-- The key and the text that a field is written as. -/
def Spells (table : Table) (field : String × Value) (pair : List Char × List Char) : Prop :=
  pair.1 = encodeKey table field.1 ∧ encodeValue field.1 field.2 = .ok pair.2

theorem spells_of_encodeField {table : Table} {field : String × Value} {text : List Char}
    (written : encodeField table field.1 field.2 = .ok text) :
    ∃ pair, text = pairText pair ∧ Spells table field pair := by
  unfold encodeField at written
  split at written
  · cases written
  · split at written
    · cases written
    · rename_i valueText valueWritten
      cases written
      exact ⟨(encodeKey table field.1, valueText), by simp [pairText], rfl, valueWritten⟩

theorem spells_of_encodeFields {table : Table} {fields : List (String × Value)} {text : List Char}
    (written : encodeFields table fields = .ok text) :
    ∃ pairs, text = pairs.flatMap pairText ∧ List.Forall₂ (Spells table) fields pairs := by
  induction fields generalizing text with
  | nil =>
      cases written
      exact ⟨[], rfl, .nil⟩
  | cons field rest ih =>
      simp only [encodeFields] at written
      split at written
      · cases written
      · rename_i first firstWritten
        split at written
        · cases written
        · rename_i others othersWritten
          cases written
          obtain ⟨pair, rfl, spells⟩ := spells_of_encodeField firstWritten
          obtain ⟨pairs, rfl, spellsAll⟩ := ih othersWritten
          exact ⟨pair :: pairs, rfl, .cons spells spellsAll⟩

theorem pairUp_cons_cons {key : List Char} (nonempty : key ≠ []) (value : List Char)
    (rest : List (List Char)) : pairUp (key :: value :: rest) = (key, value) :: pairUp rest := by
  cases key with
  | nil => exact absurd rfl nonempty
  | cons c tail => rfl

theorem pairUp_pairText (pairs : List (List Char × List Char))
    (keys : ∀ pair ∈ pairs, pair.1 ≠ [] ∧ ',' ∉ pair.1) (values : ∀ pair ∈ pairs, ',' ∉ pair.2) :
    pairUp (splitAtChar ',' (pairs.flatMap pairText)) = pairs := by
  induction pairs with
  | nil => rfl
  | cons pair rest ih =>
      obtain ⟨key, value⟩ := pair
      have here := keys (key, value) List.mem_cons_self
      have cut : splitAtChar ',' (((key, value) :: rest).flatMap pairText) =
          key :: value :: splitAtChar ',' (rest.flatMap pairText) := by
        simp only [List.flatMap_cons, pairText, List.append_assoc, List.cons_append,
          List.nil_append]
        rw [splitAtChar_append, splitAtChar_append, splitAtChar_of_not_mem here.2,
          splitAtChar_of_not_mem (values (key, value) List.mem_cons_self)]
        rfl
      rw [cut, pairUp_cons_cons here.1,
        ih (fun pair member => keys pair (List.mem_cons_of_mem _ member))
          fun pair member => values pair (List.mem_cons_of_mem _ member)]

theorem forall_of_forall₂ {α β : Type} {R : α → β → Prop} {P : β → Prop} {sources : List α}
    {images : List β} (related : List.Forall₂ R sources images)
    (each : ∀ source ∈ sources, ∀ image, R source image → P image) :
    ∀ image ∈ images, P image := by
  induction related with
  | nil => simp
  | @cons source image _ _ relation _ ih =>
      intro other member
      rcases List.mem_cons.1 member with rfl | later
      · exact each source List.mem_cons_self other relation
      · exact ih (fun source present => each source (List.mem_cons_of_mem _ present)) other later

theorem plain_of_spells {table : Table} {fields : List (String × Value)}
    {pairs : List (List Char × List Char)} (keys : ∀ field ∈ fields, IsKey table field.1)
    (spells : List.Forall₂ (Spells table) fields pairs) :
    ∀ pair ∈ pairs, pair.1 ≠ [] ∧ IsPlain pair.1 ∧ IsPlain pair.2 := by
  refine forall_of_forall₂ spells fun field present pair spell => ?_
  obtain ⟨nonempty, plain⟩ := keys field present
  rw [spell.1]
  exact ⟨nonempty, plain, isPlain_encodeValue spell.2⟩

/-- Reading a written object reads each written key with its written value. -/
theorem decodeSegment_pairText (table : Table) {fields : List (String × Value)}
    {pairs : List (List Char × List Char)} (keys : ∀ field ∈ fields, IsKey table field.1)
    (spells : List.Forall₂ (Spells table) fields pairs) :
    decodeSegment table (pairs.flatMap pairText) =
      .ofFields (pairs.map fun pair => readField table pair.1 pair.2) := by
  have plain := plain_of_spells keys spells
  rw [decodeSegment, pairUp_pairText pairs
    (fun pair member => ⟨(plain pair member).1, (plain pair member).2.1.comma_not_mem⟩)
    fun pair member => (plain pair member).2.2.comma_not_mem]

theorem semicolon_not_mem_pairText {pairs : List (List Char × List Char)}
    (plain : ∀ pair ∈ pairs, IsPlain pair.1 ∧ IsPlain pair.2) : ';' ∉ pairs.flatMap pairText := by
  intro member
  obtain ⟨pair, present, inside⟩ := List.mem_flatMap.1 member
  obtain ⟨plainKey, plainValue⟩ := plain pair present
  simp [pairText, plainKey.semicolon_not_mem, plainValue.semicolon_not_mem] at inside

/-! ## Levels as segments -/

theorem segments_append (left right : List Char) :
    segments (left ++ ';' :: right) = segments left ++ segments right := by
  rw [segments, splitAtChar_append, List.filter_append]
  rfl

theorem segments_nil : segments [] = [] := rfl

/-- Behind a closed text, segments begin anew. -/
theorem segments_append_of_closed {first : List Char}
    (closed : first = [] ∨ first.getLast? = some ';') (second : List Char) :
    segments (first ++ second) = segments first ++ segments second := by
  rcases closed with rfl | closed
  · rfl
  · obtain ⟨front, rfl⟩ := List.getLast?_eq_some_iff.1 closed
    rw [segments_append, segments_nil, List.append_nil, List.append_assoc, List.singleton_append,
      segments_append]

theorem segments_of_not_mem {text : List Char} (free : ';' ∉ text) (nonempty : text ≠ []) :
    segments text = [text] := by
  simp [segments, splitAtChar_of_not_mem free, nonempty]

/-- Segments closed by semicolons are cut apart at them. -/
theorem segments_closed (texts : List (List Char)) (rest : List Char)
    (free : ∀ text ∈ texts, ';' ∉ text ∧ text ≠ []) :
    segments (texts.flatMap (· ++ [';']) ++ rest) = texts ++ segments rest := by
  induction texts with
  | nil => rfl
  | cons text others ih =>
      have here := free text List.mem_cons_self
      rw [List.flatMap_cons, List.append_assoc, List.append_assoc, List.singleton_append,
        segments_append, segments_of_not_mem here.1 here.2,
        ih fun text member => free text (List.mem_cons_of_mem _ member)]
      rfl

theorem segment_spec {level segment : List Char} (member : segment ∈ segments level) :
    ';' ∉ segment ∧ segment ≠ [] := by
  obtain ⟨piece, nonempty⟩ := List.mem_filter.1 member
  exact ⟨not_mem_of_mem_splitAtChar piece, by simpa using nonempty⟩

/-- A written list of objects is their written fields, each list closed by a semicolon. -/
theorem fields_of_encodeObjects {table : Table} {objects : List Object} {text : List Char}
    (written : encodeObjects table objects = .ok text) :
    ∃ texts, text = texts.flatMap (· ++ [';']) ∧
      List.Forall₂ (fun object text => encodeFields table object.fields = .ok text)
        objects texts := by
  induction objects generalizing text with
  | nil =>
      cases written
      exact ⟨[], rfl, .nil⟩
  | cons object rest ih =>
      simp only [encodeObjects] at written
      split at written
      · cases written
      · rename_i first firstWritten
        split at written
        · cases written
        · rename_i others othersWritten
          cases written
          unfold encodeObject at firstWritten
          cases fieldsWritten : encodeFields table object.fields with
          | error failure =>
              rw [fieldsWritten] at firstWritten
              cases firstWritten
          | ok fieldsText =>
              rw [fieldsWritten] at firstWritten
              cases firstWritten
              obtain ⟨texts, rfl, writtenAll⟩ := ih othersWritten
              exact ⟨fieldsText :: texts, by simp, .cons fieldsWritten writtenAll⟩

end Level
end TriggerGraph
