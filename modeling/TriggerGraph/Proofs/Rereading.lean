import TriggerGraph.Proofs.Delimiters
import TriggerGraph.Proofs.Readings

/-!
# Reading again what was read and written

A value is read by its spelling and by the kind of its field, and written by its shape alone.  The
two agree on everything that was read, with two exceptions: a number with a fraction in a field of
lists, and two integers in any other field when they look like one number.  Without these, a level
that was read and written is read as the same objects again.
-/

namespace TriggerGraph

/-- The value without the sign of a zero. -/
def Value.dropZeroSign : Value → Value
  | number x => number x.dropZeroSign
  | value => value

/-- The object without the signs of zeros. -/
def Object.dropZeroSigns (object : Object) : Object where
  fields := object.fields.map fun field => (field.1, field.2.dropZeroSign)
  distinct := by simpa [Function.comp_def] using object.distinct

namespace Double

theorem spacing_dvd_of_ofUnits {sign negative : Bool} {units : Nat} {magnitude : Magnitude}
    (rounded : ofUnits sign units 1 = .finite negative magnitude) :
    spacing units ∣ magnitude.units := by
  simp only [ofUnits, Nat.div_one] at rounded
  split at rounded
  · cases rounded
    exact Nat.dvd_mul_left _ _
  · cases rounded

theorem dvd_spacing_mul {n scale exponent : Nat} (large : 2 ^ 53 < n)
    (isPower : scale = power 2 exponent) : scale ∣ spacing (n * scale) := by
  have nonzero : n ≠ 0 := by omega
  have digits : 53 ≤ n.log2 := (Nat.le_log2 nonzero).2 large.le
  rw [isPower, spacing, power_eq, log2_mul_two_pow nonzero]
  exact Nat.pow_dvd_pow 2 (by omega)

/-- Rounding an integer leaves no fraction: up to `2⁵³` nothing is rounded, and above it the spacing
of doubles is whole. -/
theorem one_dvd_of_ofInt {value : Int} {negative : Bool} {magnitude : Magnitude}
    (rounded : ofInt value = .finite negative magnitude) : one ∣ magnitude.units := by
  by_cases small : value.natAbs ≤ 2 ^ 53
  · rw [ofInt_of_small small] at rounded
    cases rounded
    exact Nat.dvd_mul_left _ _
  · obtain ⟨exponent, isPower, _⟩ := exists_one_eq
    have fine := dvd_spacing_mul (Nat.lt_of_not_le small) isPower
    exact Nat.dvd_trans fine (spacing_dvd_of_ofUnits rounded)

theorem point_mem_plainText {x : Double} (isFinite : x.isFinite = true)
    (fractional : x.isWhole = false) : '.' ∈ x.plainText := by
  cases x with
  | nan => cases isFinite
  | infinity negative => cases isFinite
  | finite negative magnitude =>
      have rest : ¬one ∣ magnitude.units := by simpa [isWhole] using fractional
      have nonzero : magnitude.units ≠ 0 := fun zero => rest (zero ▸ Nat.dvd_zero _)
      obtain ⟨text, written, -, ⟨-, front, fraction, rfl, -⟩ | ⟨-, -, integer⟩⟩ :=
        plainText_spec nonzero negative
      · rw [written]
        cases negative <;> simp [signed]
      · exact absurd (one_dvd_of_ofInt integer) rest

end Double

namespace Level

/-! ## Values -/

/-- A value that its own spelling stands for: in a field of lists no number with a fraction, and in
any other no two integers that are spelled like one. -/
def isSettled (kind : Option Kind) : Value → Bool
  | .number x => !holdsList kind || x.isWhole
  | .integers [_, second] => holdsList kind || decide (second.toInt < 0)
  | _ => true

theorem length_splitAtChar (separator : Char) (text : List Char) :
    (splitAtChar separator text).length = text.count separator + 1 := by
  induction text with
  | nil => rfl
  | cons c rest ih =>
      rw [splitAtChar]
      split
      · rename_i same
        rw [List.length_cons, ih, same, List.count_cons_self]
      · rename_i different
        rw [List.count_cons_of_ne different, ← ih]
        split
        · rename_i pieces
          simp [pieces] at ih
        · rename_i pieces
          rw [pieces, List.length_cons, List.length_cons]

theorem length_of_readDotted? {text : List Char} {ids : List Int64}
    (read : readDotted? text = some ids) : ids.length = text.count '.' + 1 := by
  rw [← length_splitAtChar]
  rw [readDotted?] at read
  generalize splitAtChar '.' text = pieces at read
  induction pieces generalizing ids with
  | nil =>
      cases read
      rfl
  | cons piece rest ih =>
      simp only [List.mapM_cons, Option.bind_eq_bind, Option.bind_eq_some_iff, Option.pure_def,
        Option.some.injEq] at read
      obtain ⟨id, -, others, rest, rfl⟩ := read
      rw [List.length_cons, List.length_cons, ih rest]

theorem integerText_eq_signed (value : Int) :
    integerText value = Double.signed (decide (value < 0)) (naturalText value.natAbs) := by
  by_cases negative : value < 0 <;> simp [integerText, Double.signed, negative]

theorem signed_append (negative : Bool) (left right : List Char) :
    Double.signed negative left ++ right = Double.signed negative (left ++ right) := by
  cases negative <;> rfl

/-- Behind a point there is no sign. -/
theorem readDecimal?_signed_fraction {whole : List Char} (digits : ∀ c ∈ whole, isDigit c = true)
    (rest : List Char) : readDecimal? (whole ++ '.' :: '-' :: rest) = none := by
  have point : isDigit '.' = false := by decide
  have minus : isDigit '-' = false := by decide
  have dropped : (whole ++ '.' :: '-' :: rest).dropWhile isDigit = '.' :: '-' :: rest := by
    rw [List.dropWhile_append_of_pos digits, List.dropWhile_cons_of_neg (by simp [point])]
  simp [readDecimal?, dropped, splitFraction, minus, readExponent?]

/-- Two integers look like one number unless the second has a sign. -/
theorem isSome_readDouble?_pair (first second : Int) :
    (readDouble? (dotted [first, second])).isSome = decide (0 ≤ second) := by
  have numeric : ∀ c ∈ naturalText first.natAbs, isDigit c = true := fun _ =>
    isDigit_of_mem_naturalText
  have nonempty := naturalText_ne_nil first.natAbs
  have spelled : dotted [first, second] = Double.signed (decide (first < 0))
      (naturalText first.natAbs ++ '.' :: integerText second) := by
    rw [← signed_append, ← integerText_eq_signed]
    rfl
  have head : ∀ c ∈ (naturalText first.natAbs ++ '.' :: integerText second).head?,
      isDigit c = true := by
    intro c here
    rw [List.head?_append_of_ne_nil _ nonempty] at here
    exact numeric c (List.mem_of_mem_head? here)
  rw [spelled, Double.readDouble?_signed head, readUnsignedDouble?_of_point (by simp),
    Option.isSome_map]
  by_cases negative : second < 0
  · rw [integerText, if_pos negative, readDecimal?_signed_fraction numeric]
    simp [negative]
  · have digits : ∀ c ∈ naturalText first.natAbs ++ naturalText second.natAbs,
        isDigit c = true := by
      intro c member
      rcases List.mem_append.1 member with front | back
      · exact numeric c front
      · exact isDigit_of_mem_naturalText back
    rw [integerText, if_neg negative, readDecimal?_point digits nonempty]
    simp [not_lt.1 negative]

theorem readValue_of_point {kind : Option Kind} {text : List Char} (point : '.' ∈ text) :
    readValue kind text = readPointed (holdsList kind || decide (1 < text.count '.')) text := by
  have word {other : List Char} (absent : '.' ∉ other) : text ≠ other :=
    fun same => absent (same ▸ point)
  rw [readValue, if_neg (word (by decide)), if_neg (word (by decide)), readInt64?_of_point point]
  simp [point, holdsList]

/-- In a field of lists a point never belongs to a number. -/
theorem readValue_ne_number {kind : Option Kind} (isList : holdsList kind = true)
    {text : List Char} (point : '.' ∈ text) (x : Double) : readValue kind text ≠ .number x := by
  rw [readValue_of_point point, isList, Bool.true_or, readPointed]
  simp only [if_true]
  split <;> simp

/-- Two integers in a field that does not hold lists. -/
theorem readValue_pair {kind : Option Kind} (single : holdsList kind = false)
    (first second : Int64) :
    readValue kind (dotted [first.toInt, second.toInt]) = .integers [first, second] ↔
      second.toInt < 0 := by
  have point : '.' ∈ dotted [first.toInt, second.toInt] := point_mem_dotted _ _ _
  have once : (dotted [first.toInt, second.toInt]).count '.' = 1 := by
    have count := count_dotted (List.cons_ne_nil first.toInt [second.toInt])
    simpa using count
  have list : readDotted? (dotted [first.toInt, second.toInt]) = some [first, second] :=
    readDotted?_dotted (List.cons_ne_nil first [second])
  have number := isSome_readDouble?_pair first.toInt second.toInt
  rw [readValue_of_point point, once, single, readPointed]
  cases read : readDouble? (dotted [first.toInt, second.toInt]) with
  | none =>
      have negative : second.toInt < 0 := by simpa [read] using number
      simp [list, negative]
  | some x =>
      have nonnegative : 0 ≤ second.toInt := by simpa [read] using number
      simpa using nonnegative

theorem readValue_plainText_iff {kind : Option Kind} {x : Double} (isFinite : x.isFinite = true) :
    readValue kind x.plainText = (Value.number x).dropZeroSign ↔
      isSettled kind (.number x) = true := by
  by_cases settled : holdsList kind = true → x.isWhole = true
  · have accepted : isSettled kind (.number x) = true := by
      rw [isSettled, Bool.or_eq_true, Bool.not_eq_true']
      by_cases isList : holdsList kind = true
      · exact .inr (settled isList)
      · exact .inl (Bool.eq_false_iff.2 isList)
    exact iff_of_true (readValue_plainText isFinite settled) accepted
  · obtain ⟨isList, fractional⟩ := Classical.not_imp.1 settled
    refine iff_of_false ?_ (by simp [isSettled, isList, fractional])
    exact readValue_ne_number isList
      (Double.point_mem_plainText isFinite (Bool.eq_false_iff.2 fractional)) _

theorem readValue_dotted_iff {kind : Option Kind} {ids : List Int64} (long : 2 ≤ ids.length) :
    readValue kind (dotted (ids.map Int64.toInt)) = .integers ids ↔
      isSettled kind (.integers ids) = true := by
  obtain _ | ⟨first, _ | ⟨second, others⟩⟩ := ids
  · simp at long
  · simp at long
  cases others with
  | nil =>
      by_cases isList : holdsList kind = true
      · refine iff_of_true ?_ (by simp [isSettled, isList])
        exact readValue_dotted kind first [second] (.inl isList)
      · have single := Bool.eq_false_iff.2 isList
        simpa [isSettled, single] using readValue_pair single first second
  | cons third rest =>
      refine iff_of_true ?_ rfl
      exact readValue_dotted kind first (second :: third :: rest) (.inr (by simp))

/-- A value that was read is read again from what it is written as exactly if it is settled. -/
theorem readValue_again_iff {key : String} {kind : Option Kind} {raw text : List Char}
    (written : encodeValue key (readValue kind raw) = .ok text) :
    readValue kind text = (readValue kind raw).dropZeroSign ↔
      isSettled kind (readValue kind raw) = true := by
  rcases readValue_cases kind raw with ⟨x, read, -⟩ | ⟨ids, read, dots, point⟩ | read
  · rw [read] at written ⊢
    have isFinite : x.isFinite = true := by
      by_contra infinite
      simp [encodeValue, infinite] at written
    rw [encodeValue, if_pos isFinite] at written
    cases written
    exact readValue_plainText_iff isFinite
  · rw [read] at written ⊢
    cases written
    refine readValue_dotted_iff ?_
    have length := length_of_readDotted? dots
    have some := List.count_pos_iff.2 point
    omega
  · rw [read] at written ⊢
    rw [encodeValue] at written
    split at written
    · cases written
    · cases written
      exact iff_of_true (by rw [String.toList_ofList, read]; rfl) rfl

/-! ## Keys -/

theorem byName?_of_mem {table : Table} (distinct : (table.fields.map (·.name)).Nodup)
    {field : Field} (present : field ∈ table.fields) : table.byName? field.name = some field := by
  have found : (table.byName? field.name).isSome = true :=
    List.find?_isSome.2 ⟨field, List.mem_reverse.2 present, by simp⟩
  obtain ⟨entry, found⟩ := Option.isSome_iff_exists.1 found
  have member : entry ∈ table.fields := List.mem_reverse.1 (List.mem_of_find?_eq_some found)
  have named : entry.name = field.name := by simpa using List.find?_some found
  rw [found, List.inj_on_of_nodup_map distinct member present named]

/-- A field that a key stands for is the canonical one of its id. -/
theorem canonical_of_readKey? {table : Table} {key : List Char} {field : Field}
    (read : readKey? table key = some field) :
    field ∈ table.fields ∧ table.byId? field.id = some field := by
  obtain ⟨id, -, found⟩ := Option.bind_eq_some_iff.1 read
  have same : field.id = id := by simpa using List.find?_some found
  exact ⟨List.mem_of_find?_eq_some found, same ▸ found⟩

/-- No field of the table has the key for its name. -/
def IsUnnamed (table : Table) (key : List Char) : Prop :=
  ∀ field ∈ table.fields, field.name ≠ String.ofList key

instance (table : Table) (key : List Char) : Decidable (IsUnnamed table key) :=
  inferInstanceAs (Decidable (∀ field ∈ table.fields, _))

theorem byName?_of_isUnnamed {table : Table} {key : List Char} (unnamed : IsUnnamed table key) :
    table.byName? (String.ofList key) = none :=
  List.find?_eq_none.2 fun field member => by simpa using unnamed field (List.mem_reverse.1 member)

section Keys

variable {table : Table} (distinct : (table.fields.map (·.name)).Nodup) {key : List Char}
  (unnamed : IsUnnamed table key)
include distinct unnamed

theorem kindOf?_nameOfKey : table.kindOf? (nameOfKey table key) = kindOfKey table key := by
  rw [Table.kindOf?, nameOfKey, kindOfKey]
  cases read : readKey? table key with
  | none => simp [byName?_of_isUnnamed unnamed]
  | some field => simp [byName?_of_mem distinct (canonical_of_readKey? read).1]

/-- What is written for a name that was read stands for the same field as the key it was read from,
and is this key itself if the table does not know it. -/
theorem encodeKey_nameOfKey :
    (∃ field, readKey? table key = some field ∧
      readKey? table (encodeKey table (nameOfKey table key)) = some field ∧
      (table.idOf? (nameOfKey table key)).isSome = true) ∨
    readKey? table key = none ∧ encodeKey table (nameOfKey table key) = key := by
  cases read : readKey? table key with
  | none =>
      refine .inr ⟨rfl, ?_⟩
      rw [encodeKey, nameOfKey, read, Table.idOf?]
      simp [byName?_of_isUnnamed unnamed]
  | some field =>
      obtain ⟨present, canonical⟩ := canonical_of_readKey? read
      have id : table.idOf? (nameOfKey table key) = some field.id := by
        rw [nameOfKey, read, Table.idOf?]
        simp [byName?_of_mem distinct present]
      refine .inl ⟨field, rfl, ?_, by simp [id]⟩
      rw [encodeKey, id, readKey?, readUInt32?_naturalText]
      exact canonical

theorem readField_encodeKey (value : List Char) :
    readField table (encodeKey table (nameOfKey table key)) value =
      (nameOfKey table key, readValue (kindOfKey table key) value) := by
  rw [readField_eq]
  rcases encodeKey_nameOfKey distinct unnamed with ⟨field, read, again, -⟩ | ⟨-, same⟩
  · rw [nameOfKey, kindOfKey, again, nameOfKey, kindOfKey, read]
    rfl
  · rw [same]

theorem isKey_nameOfKey (nonempty : key ≠ []) (plain : IsPlain key) :
    IsKey table (nameOfKey table key) := by
  rcases encodeKey_nameOfKey distinct unnamed with ⟨-, -, -, known⟩ | ⟨-, same⟩
  · exact isKey_of_known known
  · rw [IsKey, same]
    exact ⟨nonempty, plain⟩

end Keys

/-! ## Objects -/

theorem map_eq_iff_of_forall₂ {α β γ : Type} {f : α → γ} {g : β → γ} {P : α → Prop}
    {sources : List α} {images : List β}
    (related : List.Forall₂ (fun source image => g image = f source ↔ P source) sources images) :
    images.map g = sources.map f ↔ ∀ source ∈ sources, P source := by
  induction related with
  | nil => simp
  | cons relation _ ih =>
      rw [List.map_cons, List.map_cons, List.cons.injEq, relation, ih, List.forall_mem_cons]

section Objects

variable {table : Table} (distinct : (table.fields.map (·.name)).Nodup) {level : String}
  (unnamed : ∀ raw ∈ rawFields level.toList, IsUnnamed table raw.1)
  {object : Object} (read : object ∈ decode table level)
include distinct unnamed read

theorem isKey_of_mem_decode : ∀ field ∈ object.fields, IsKey table field.1 := by
  intro field member
  obtain ⟨raw, present, rfl⟩ := exists_raw_of_mem_decode read member
  obtain ⟨nonempty, plain, -⟩ := rawFields_spec present
  rw [readField_eq]
  exact isKey_nameOfKey distinct (unnamed raw present) nonempty plain

/-- A field comes back under its name, and with its value exactly if this is settled. -/
theorem readField_again {field : String × Value} (member : field ∈ object.fields)
    {pair : List Char × List Char} (spells : Spells table field pair) :
    (readField table pair.1 pair.2).1 = field.1 ∧
      ((readField table pair.1 pair.2).2 = field.2.dropZeroSign ↔
        isSettled (table.kindOf? field.1) field.2 = true) := by
  obtain ⟨raw, present, rfl⟩ := exists_raw_of_mem_decode read member
  obtain ⟨key, written⟩ := spells
  rw [readField_eq table raw.1 raw.2] at key written ⊢
  dsimp only at key written ⊢
  rw [key, readField_encodeKey distinct (unnamed raw present),
    kindOf?_nameOfKey distinct (unnamed raw present)]
  exact ⟨rfl, readValue_again_iff written⟩

theorem semicolon_not_mem_again {text : List Char}
    (written : encodeFields table object.fields = .ok text) : ';' ∉ text := by
  obtain ⟨pairs, rfl, spells⟩ := spells_of_encodeFields written
  have plain := plain_of_spells (isKey_of_mem_decode distinct unnamed read) spells
  exact semicolon_not_mem_pairText fun pair member => (plain pair member).2

theorem decodeSegment_again {text : List Char}
    (written : encodeFields table object.fields = .ok text) :
    decodeSegment table text = object.dropZeroSigns ↔
      ∀ field ∈ object.fields, isSettled (table.kindOf? field.1) field.2 = true := by
  obtain ⟨pairs, rfl, spells⟩ := spells_of_encodeFields written
  have reads : List.Forall₂ (fun field pair => (readField table pair.1 pair.2).1 = field.1 ∧
      ((readField table pair.1 pair.2).2 = field.2.dropZeroSign ↔
        isSettled (table.kindOf? field.1) field.2 = true)) object.fields pairs :=
    ((List.forall₂_and_left _ _).2 ⟨fun _ member => member, spells⟩).imp
      fun _ _ ⟨member, spell⟩ => readField_again distinct unnamed read member spell
  have names : pairs.map (fun pair => (readField table pair.1 pair.2).1) =
      object.fields.map Prod.fst :=
    (map_eq_iff_of_forall₂ (P := fun _ => True)
      (reads.imp fun _ _ again => iff_of_true again.1 trivial)).2 fun _ _ => trivial
  have stored : (decodeSegment table (pairs.flatMap pairText)).fields =
      pairs.map fun pair => readField table pair.1 pair.2 := by
    rw [decodeSegment_pairText table (isKey_of_mem_decode distinct unnamed read) spells,
      Object.fields_ofFields]
    rw [List.map_map]
    exact names ▸ object.distinct
  rw [Object.eq_iff_fields, stored]
  refine map_eq_iff_of_forall₂ (reads.imp fun field pair again => ?_)
  rw [Prod.ext_iff, ← again.2]
  exact and_iff_right again.1

end Objects

/-! ## Levels -/

theorem segments_closed_objects {texts : List (List Char)} (free : ∀ text ∈ texts, ';' ∉ text) :
    segments (texts.flatMap (· ++ [';'])) = texts.filter (!·.isEmpty) := by
  rw [segments, splitAtChar_closed free, List.filter_append]
  simp

theorem encodeFields_eq_nil_iff {table : Table} {fields : List (String × Value)} {text : List Char}
    (written : encodeFields table fields = .ok text) : text = [] ↔ fields = [] := by
  obtain ⟨pairs, rfl, spells⟩ := spells_of_encodeFields written
  cases spells with
  | nil => simp
  | cons spell rest => simp [pairText]

/-- A level that was read and written is read as the same objects again, without the empty ones and
with zeros that have lost their sign, exactly if all values in it are settled. -/
theorem level_is_read_again (table : Table) (distinct : (table.fields.map (·.name)).Nodup)
    (level : String) (unnamed : ∀ raw ∈ rawFields level.toList, IsUnnamed table raw.1)
    (again : String) (written : encode table (decode table level) = .ok again) :
    decode table again =
        ((decode table level).filter (!·.fields.isEmpty)).map Object.dropZeroSigns ↔
      ∀ object ∈ decode table level, ∀ field ∈ object.fields,
        isSettled (table.kindOf? field.1) field.2 = true := by
  obtain ⟨text, encoded, rfl⟩ := exists_text_of_encode written
  obtain ⟨texts, rfl, writtenAll⟩ := fields_of_encodeObjects encoded
  have members : List.Forall₂ (fun object text => object ∈ decode table level ∧
      encodeFields table object.fields = .ok text) (decode table level) texts :=
    (List.forall₂_and_left _ _).2 ⟨fun _ member => member, writtenAll⟩
  have free : ∀ text ∈ texts, ';' ∉ text := forall_of_forall₂ members
    fun _ _ _ ⟨read, written⟩ => semicolon_not_mem_again distinct unnamed read written
  have kept : List.Forall₂ (fun object text => object ∈ decode table level ∧
      encodeFields table object.fields = .ok text)
      ((decode table level).filter (!·.fields.isEmpty)) (texts.filter (!·.isEmpty)) := by
    refine List.rel_filter ?_ members
    rintro object text ⟨-, written⟩
    simp [encodeFields_eq_nil_iff written]
  rw [decode, String.toList_ofList, segments_closed_objects free]
  refine (map_eq_iff_of_forall₂ (kept.imp fun _ _ ⟨read, written⟩ =>
    decodeSegment_again distinct unnamed read written)).trans ?_
  -- an empty object has no values
  constructor
  · intro settled object read field member
    refine settled object (List.mem_filter.2 ⟨read, ?_⟩) field member
    simpa using List.ne_nil_of_mem member
  · intro settled object kept
    exact settled object (List.mem_filter.1 kept).1

theorem odd_spellings_are_read_again :
    encode .builtin (decode .builtin "057,3.4,2,-0.0;,,;k9,1.-5,9001,1e400;57,5e3,2,15e-1") =
        .ok "57,3.4,2,-0,;;k9,1.-5,9001,1e400,;57,5000,2,1.5,;" ∧
      decode .builtin "57,3.4,2,-0,;;k9,1.-5,9001,1e400,;57,5000,2,1.5,;" =
        ((decode .builtin "057,3.4,2,-0.0;,,;k9,1.-5,9001,1e400;57,5e3,2,15e-1").filter
          (!·.fields.isEmpty)).map Object.dropZeroSigns := by
  have written : encode .builtin
      (decode .builtin "057,3.4,2,-0.0;,,;k9,1.-5,9001,1e400;57,5e3,2,15e-1") =
        .ok "57,3.4,2,-0,;;k9,1.-5,9001,1e400,;57,5000,2,1.5,;" := by decide +kernel
  refine ⟨written, (level_is_read_again .builtin (by decide +kernel) _ ?_ _ written).2 ?_⟩
  · decide +kernel
  · decide +kernel

/-- In a field of lists a fraction turns into a list, and elsewhere two integers turn into a
fraction. -/
theorem shapes_change_when_read_again :
    (Table.builtin.fields.map (·.name)).Nodup ∧
      (∀ raw ∈ rawFields "57,1e-1;2,1.+5;".toList, IsUnnamed .builtin raw.1) ∧
      encode .builtin (decode .builtin "57,1e-1;2,1.+5;") = .ok "57,0.1,;2,1.5,;" ∧
      (decode .builtin "57,1e-1;2,1.+5;").map Object.fields =
        [[("GROUPS", .number ((Decimal.mk 1 (-1)).toDouble false))], [("X", .integers [1, 5])]] ∧
      (decode .builtin "57,0.1,;2,1.5,;").map Object.fields =
        [[("GROUPS", .integers [0, 1])], [("X", .number ((Decimal.mk 15 (-1)).toDouble false))]] ∧
      (decode .builtin "57,0.1,;2,1.5,;").map Object.dropZeroSigns ≠
        ((decode .builtin "57,1e-1;2,1.+5;").filter (!·.fields.isEmpty)).map
          Object.dropZeroSigns := by
  decide +kernel

end Level
end TriggerGraph
