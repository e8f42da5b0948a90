import Mathlib.Data.List.Nodup
import TriggerGraph.Proofs.LevelText
import TriggerGraph.Proofs.Objects
import TriggerGraph.Proofs.ShortestText

/-!
# Levels survive being written and read

Writing goes by the shape of a value, reading by the look of its text and the kind of the canonical
field of its id. For every shape the rule below says what comes back, and the main theorem says that
a written level is read as the same objects with the same fields in the same order, each field under
its canonical name and with the value the rule gives.
-/

namespace TriggerGraph

/-! ## What comes back -/

/-- The number without the sign of a zero. -/
def Double.dropZeroSign (x : Double) : Double := if x.isZero then .zero else x

/-- A finite double without a fraction. -/
def Double.isWhole : Double → Bool
  | .finite _ magnitude => decide (Double.one ∣ magnitude.units)
  | _ => false

namespace Level

/-- Whether the field holds dotted lists. -/
def holdsList (kind : Option Kind) : Bool := kind.any Kind.isList

/-- Whether a text stays text: it is no word for a flag, no number and no list. -/
def spellsNothing (kind : Option Kind) (text : List Char) : Bool :=
  text != "true".toList && text != "false".toList && (readInt64? text).isNone &&
    if text.contains '.' then
      (readDotted? text).isNone &&
        (holdsList kind || decide (1 < text.count '.') || (readDouble? text).isNone)
    else !(readDouble? text).any Double.isFinite

/-- What comes back for a list of integers. -/
def returnedList? (kind : Option Kind) : List Int64 → Option Value
  | [] => some (.text "")
  | [id] => some (.ofInt id.toInt)
  | [first, second] => if holdsList kind then some (.integers [first, second]) else none
  | first :: second :: third :: rest => some (.integers (first :: second :: third :: rest))

/-- What comes back for a value in a field of the given kind, if the value keeps its meaning. -/
def returned? (kind : Option Kind) : Value → Option Value
  | .number x =>
      if x.isFinite && (!holdsList kind || x.isWhole) then some (.number x.dropZeroSign) else none
  | .boolean b => some (.ofInt (if b then 1 else 0))
  | .reference r => some (.ofUInt32 r.value)
  | .references rs => returnedList? kind (rs.map fun r => Int64.ofNat r.value.toNat)
  | .integers ids => returnedList? kind ids
  | .text s => if spellsNothing kind s.toList then some (.text s) else none

/-- The canonical field of the id that a name is written as. -/
def canonical? (table : Table) (name : String) : Option Field :=
  (table.idOf? name).bind table.byId?

/-- The name under which a field comes back. -/
def returnedName (table : Table) (name : String) : String :=
  ((canonical? table name).map (·.name)).getD name

/-- What comes back for a field. -/
def returnedField? (table : Table) (field : String × Value) : Option (String × Value) :=
  (returned? ((canonical? table field.1).map (·.kind)) field.2).map
    (returnedName table field.1, ·)

/-! ## Values -/

theorem readValue_integerText (kind : Option Kind) (value : Int64) :
    readValue kind (integerText value.toInt) = .ofInt value.toInt := by
  have read := readValue_dotted kind value [] (.inr (by simp))
  rw [if_pos rfl] at read
  exact read

theorem readValue_naturalText (kind : Option Kind) (value : UInt32) :
    readValue kind (naturalText value.toNat) = .ofUInt32 value := by
  have read := readValue_integerText kind (Int64.ofNat value.toNat)
  have natural : integerText (value.toNat : Int) = naturalText value.toNat := by
    rw [integerText, if_neg (by omega), Int.natAbs_natCast]
  rwa [toInt_ofNat_toNat, natural] at read

theorem readValue_returnedList {kind : Option Kind} {ids : List Int64} {read : Value}
    (returns : returnedList? kind ids = some read) :
    readValue kind (dotted (ids.map Int64.toInt)) = read := by
  unfold returnedList? at returns
  split at returns
  · cases returns
    cases kind <;> rfl
  · cases returns
    exact readValue_dotted kind _ [] (.inr (by simp))
  · split at returns
    · rename_i isList
      cases returns
      exact readValue_dotted kind _ _ (.inl isList)
    · cases returns
  · cases returns
    exact readValue_dotted kind _ _ (.inr (by simp))

theorem readValue_text {kind : Option Kind} {text : List Char}
    (nothing : spellsNothing kind text = true) :
    readValue kind text = .text (String.ofList text) := by
  simp only [spellsNothing, Bool.and_eq_true, bne_iff_ne, Option.isNone_iff_eq_none] at nothing
  obtain ⟨⟨⟨notTrue, notFalse⟩, notInteger⟩, rest⟩ := nothing
  rw [readValue, if_neg notTrue, if_neg notFalse, notInteger]
  dsimp only
  split
  · rename_i point
    rw [if_pos point, Bool.and_eq_true, Option.isNone_iff_eq_none, Bool.or_eq_true,
      Option.isNone_iff_eq_none] at rest
    obtain ⟨notList, wantsList | notNumber⟩ := rest
    · simp only [readPointed, notList, holdsList] at wantsList ⊢
      simp [wantsList]
    · simp [readPointed, notList, notNumber]
  · rename_i noPoint
    rw [if_neg noPoint] at rest
    cases number : readDouble? text with
    | none => rw [readPlain, number]
    | some x =>
        have infinite : x.isFinite = false := by simpa [number] using rest
        simp [readPlain, number, infinite]

end Level

/-! ## Numbers -/

namespace Double

theorem signed_ne_word {text word : List Char} (numeric : ∀ c ∈ text, c = '.' ∨ isDigit c = true)
    (negative : Bool) {c : Char} (member : c ∈ word) (letter : c ≠ '.' ∧ isNumeric c = false) :
    signed negative text ≠ word := by
  rintro rfl
  have digit : c ∈ text → False := by
    intro inside
    rcases numeric c inside with point | digit
    · exact letter.1 point
    · simp [isNumeric, digit] at letter
  cases negative with
  | false => exact digit member
  | true =>
      rcases List.mem_cons.1 member with rfl | inside
      · simp [isNumeric] at letter
      · exact digit inside

theorem readDouble?_signed {text : List Char} (first : ∀ c ∈ text.head?, isDigit c = true)
    (negative : Bool) : readDouble? (signed negative text) = readUnsignedDouble? negative text := by
  cases negative with
  | true => rfl
  | false =>
      change readDouble? text = _
      unfold readDouble?
      split
      · exact absurd (first '-' rfl) (by decide)
      · exact absurd (first '+' rfl) (by decide)
      · rfl

theorem readInteger?_signed {text : List Char} (digits : ∀ c ∈ text, isDigit c = true)
    (nonempty : text ≠ []) (negative : Bool) :
    readInteger? (signed negative text) = some (signedInt negative (naturalValue text)) := by
  have all : text.all isDigit = true := List.all_eq_true.2 digits
  have natural : readNatural? text = some (naturalValue text) := by
    simp [readNatural?, nonempty, all]
  cases negative with
  | true =>
      change (readNatural? text).map _ = _
      rw [natural]
      rfl
  | false =>
      change readInteger? text = _
      rw [readInteger?_of_digits digits, natural]
      rfl

end Double

namespace Level

theorem ofInt_zero : Double.ofInt 0 = .zero := by
  rw [Double.ofInt_of_small (by decide)]
  simp [Double.zero, Double.Magnitude.zero]

theorem readValue_zero (kind : Option Kind) (negative : Bool) :
    readValue kind (Double.signed negative ['0']) = .number .zero := by
  have read : readInt64? (Double.signed negative ['0']) = some 0 := by
    cases negative <;> decide
  have notTrue : Double.signed negative ['0'] ≠ "true".toList := by cases negative <;> decide
  have notFalse : Double.signed negative ['0'] ≠ "false".toList := by cases negative <;> decide
  rw [readValue, if_neg notTrue, if_neg notFalse, read]
  exact congrArg Value.number ofInt_zero

/-- Digits of an integer, whether or not it fits in 64 bits. -/
theorem readValue_whole (kind : Option Kind) {negative : Bool} {text : List Char} {x : Double}
    (isFinite : x.isFinite = true) (nonempty : text ≠ [])
    (digits : ∀ c ∈ text, isDigit c = true)
    (number : readUnsignedDouble? negative text = some x)
    (integer : Double.ofInt (Double.signedInt negative (naturalValue text)) = x) :
    readValue kind (Double.signed negative text) = .number x := by
  have numeric : ∀ c ∈ text, c = '.' ∨ isDigit c = true := fun c member => .inr (digits c member)
  have notTrue := Double.signed_ne_word numeric negative (show 't' ∈ "true".toList by decide)
    (by decide)
  have notFalse := Double.signed_ne_word numeric negative (show 'f' ∈ "false".toList by decide)
    (by decide)
  rw [readValue, if_neg notTrue, if_neg notFalse, readInt64?,
    Double.readInteger?_signed digits nonempty negative, Option.bind_some]
  split
  · rename_i value read
    split at read
    · rename_i range
      cases read
      rw [Int64.toInt_minValue, Int64.toInt_maxValue] at range
      rw [Int64.toInt_ofInt_of_le range.1 (by omega)]
      exact congrArg Value.number integer
    · cases read
  · have noPoint : (Double.signed negative text).contains '.' = false := by
      have absent : '.' ∉ text := fun point => absurd (digits '.' point) (by decide)
      cases negative <;> simp [Double.signed, absent]
    have first : ∀ c ∈ text.head?, isDigit c = true := fun c head =>
      digits c (List.mem_of_mem_head? head)
    rw [noPoint]
    simp [readPlain, Double.readDouble?_signed first, number, isFinite]

/-- Digits on both sides of a point, in a field that does not hold lists. -/
theorem readValue_fraction {kind : Option Kind} (single : holdsList kind = false) {negative : Bool}
    {front fraction : List Char} {x : Double} (nonempty : front ≠ [])
    (digits : ∀ c ∈ front ++ fraction, isDigit c = true)
    (number : readUnsignedDouble? negative (front ++ '.' :: fraction) = some x) :
    readValue kind (Double.signed negative (front ++ '.' :: fraction)) = .number x := by
  have numeric : ∀ c ∈ front ++ '.' :: fraction, c = '.' ∨ isDigit c = true := by
    intro c member
    simp only [List.mem_append, List.mem_cons] at member digits
    rcases member with inFront | point | inBack
    · exact .inr (digits c (.inl inFront))
    · exact .inl point
    · exact .inr (digits c (.inr inBack))
  have notTrue := Double.signed_ne_word numeric negative (show 't' ∈ "true".toList by decide)
    (by decide)
  have notFalse := Double.signed_ne_word numeric negative (show 'f' ∈ "false".toList by decide)
    (by decide)
  have point : '.' ∈ Double.signed negative (front ++ '.' :: fraction) := by
    cases negative <;> simp [Double.signed]
  have once : (Double.signed negative (front ++ '.' :: fraction)).count '.' = 1 := by
    have absent : '.' ∉ front ++ fraction := fun point => absurd (digits '.' point) (by decide)
    rw [List.mem_append, not_or] at absent
    cases negative <;>
      simp [Double.signed, List.count_eq_zero.2 absent.1, List.count_eq_zero.2 absent.2]
  have first : ∀ c ∈ (front ++ '.' :: fraction).head?, isDigit c = true := by
    intro c head
    rw [List.head?_append_of_ne_nil _ nonempty] at head
    exact digits c (List.mem_append_left _ (List.mem_of_mem_head? head))
  rw [readValue, if_neg notTrue, if_neg notFalse, readInt64?_of_point point]
  rw [holdsList] at single
  simp [point, once, single, readPointed, Double.readDouble?_signed first, number]

/-- A number comes back from its text, in a field of lists only if it has no fraction. -/
theorem readValue_plainText {kind : Option Kind} {x : Double} (isFinite : x.isFinite = true)
    (whole : holdsList kind = true → x.isWhole = true) :
    readValue kind x.plainText = .number x.dropZeroSign := by
  cases x with
  | nan => cases isFinite
  | infinity negative => cases isFinite
  | finite negative magnitude =>
      by_cases zero : magnitude.units = 0
      · have dropped : (Double.finite negative magnitude).dropZeroSign = .zero := by
          simp [Double.dropZeroSign, Double.isZero, zero]
        rw [Double.plainText, if_pos zero, dropped]
        exact readValue_zero kind negative
      · have kept : (Double.finite negative magnitude).dropZeroSign =
            .finite negative magnitude := by
          simp [Double.dropZeroSign, Double.isZero, zero]
        obtain ⟨text, written, number, layout⟩ := Double.plainText_spec zero negative
        rw [kept, written]
        rcases layout with ⟨fractional, front, fraction, rfl, nonempty, digits⟩ |
          ⟨nonempty, digits, integer⟩
        · refine readValue_fraction ?_ nonempty digits number
          rw [← Bool.not_eq_true]
          intro isList
          exact fractional (by simpa [Double.isWhole] using whole isList)
        · exact readValue_whole kind isFinite nonempty digits number integer

/-- Every value comes back from its text as the rule says. -/
theorem readValue_of_encodeValue {key : String} {kind : Option Kind} {value read : Value}
    {text : List Char} (written : encodeValue key value = .ok text)
    (returns : returned? kind value = some read) : readValue kind text = read := by
  cases value with
  | number x =>
      simp only [returned?, Bool.and_eq_true, Bool.or_eq_true, Bool.not_eq_true'] at returns
      split at returns
      · rename_i fits
        rw [encodeValue, if_pos fits.1] at written
        cases written
        cases returns
        exact readValue_plainText fits.1 fun isList => fits.2.resolve_left (by simp [isList])
      · cases returns
  | boolean b =>
      cases written
      cases returns
      have digit (n : Nat) (small : n < 10) : naturalText n = [digitChar n] := by
        rw [naturalText, if_pos small]
      cases b with
      | false =>
          have read := readValue_naturalText kind 0
          rw [digit _ (by decide)] at read
          exact read
      | true =>
          have read := readValue_naturalText kind 1
          rw [digit _ (by decide)] at read
          exact read
  | reference r =>
      cases written
      cases returns
      exact readValue_naturalText kind r.value
  | references rs =>
      have ids : (rs.map fun r => (r.value.toNat : Int)) =
          (rs.map fun r => Int64.ofNat r.value.toNat).map Int64.toInt := by
        simp only [List.map_map, Function.comp_def, toInt_ofNat_toNat]
      rw [encodeValue, ids] at written
      cases written
      exact readValue_returnedList returns
  | integers ids =>
      cases written
      exact readValue_returnedList returns
  | text s =>
      rw [returned?] at returns
      split at returns
      · rename_i nothing
        cases returns
        rw [encodeValue] at written
        split at written
        · cases written
        · cases written
          rw [readValue_text nothing, String.ofList_toList]
      · cases returns

/-! ## Fields -/

theorem exists_canonical {table : Table} {name : String} {id : UInt32}
    (known : table.idOf? name = some id) :
    ∃ field ∈ table.fields, table.byId? id = some field ∧ field.id = id := by
  obtain ⟨entry, found, rfl⟩ := Option.map_eq_some_iff.1 known
  have present : entry ∈ table.fields := List.mem_reverse.1 (List.mem_of_find?_eq_some found)
  have some : (table.byId? entry.id).isSome = true :=
    List.find?_isSome.2 ⟨entry, present, by simp⟩
  obtain ⟨field, canonical⟩ := Option.isSome_iff_exists.1 some
  exact ⟨field, List.mem_of_find?_eq_some canonical, canonical,
    by simpa using List.find?_some canonical⟩

theorem name_ne_of_idOf?_eq_none {table : Table} {name : String}
    (unknown : table.idOf? name = none) {field : Field} (present : field ∈ table.fields) :
    field.name ≠ name := by
  have absent := Option.map_eq_none_iff.1 unknown
  simpa using List.find?_eq_none.1 absent field (List.mem_reverse.2 present)

/-- A name that a reader takes for the field it was written for: the table knows it, or it stands
for itself and is not taken for an id of the table. -/
def IsReadable (table : Table) (name : String) : Prop :=
  (table.idOf? name).isSome = true ∨ IsWritable name ∧ readKey? table name.toList = none

instance (table : Table) (name : String) : Decidable (IsReadable table name) :=
  inferInstanceAs (Decidable (_ ∨ _ ∧ _))

theorem isKey_of_readable {table : Table} {name : String} (readable : IsReadable table name) :
    IsKey table name := by
  rcases readable with known | ⟨writable, _⟩
  · exact isKey_of_known known
  · exact isKey_of_writable table writable

theorem readField_of_spells {table : Table} {field read : String × Value}
    {pair : List Char × List Char} (readable : IsReadable table field.1)
    (spells : Spells table field pair) (returns : returnedField? table field = some read) :
    readField table pair.1 pair.2 = read := by
  obtain ⟨key, written⟩ := spells
  obtain ⟨value, returned, rfl⟩ := Option.map_eq_some_iff.1 returns
  have back := readValue_of_encodeValue written returned
  cases known : table.idOf? field.1 with
  | some id =>
      obtain ⟨canonical, _, found, _⟩ := exists_canonical known
      have entry : canonical? table field.1 = some canonical := by
        rw [canonical?, known, Option.bind_some, found]
      have read : readKey? table pair.1 = some canonical := by
        rw [key, encodeKey, known, readKey?, readUInt32?_naturalText, Option.bind_some, found]
      rw [entry, Option.map_some] at back
      rw [readField, read, returnedName, entry]
      exact congrArg (canonical.name, ·) back
  | none =>
      have entry : canonical? table field.1 = none := by rw [canonical?, known, Option.bind_none]
      have read : readKey? table pair.1 = none := by
        rw [key, encodeKey, known]
        exact (readable.resolve_left (by simp [known])).2
      have name : pair.1 = field.1.toList := by rw [key, encodeKey, known]
      rw [entry, Option.map_none] at back
      rw [readField, read, returnedName, entry, name, String.ofList_toList]
      exact congrArg (field.1, ·) back

/-- Names that are written differently come back differently. -/
theorem returnedName_ne {table : Table} (distinct : (table.fields.map (·.name)).Nodup)
    {one two : String} (apart : one ≠ two)
    (ids : ∀ id, table.idOf? one = some id → table.idOf? two ≠ some id) :
    returnedName table one ≠ returnedName table two := by
  have unknown {name : String} (missing : table.idOf? name = none) :
      returnedName table name = name := by
    rw [returnedName, canonical?, missing]
    rfl
  have known {name : String} {id : UInt32} (given : table.idOf? name = some id) :
      ∃ field ∈ table.fields, returnedName table name = field.name ∧ field.id = id := by
    obtain ⟨field, present, found, same⟩ := exists_canonical given
    refine ⟨field, present, ?_, same⟩
    rw [returnedName, canonical?, given, Option.bind_some, found]
    rfl
  cases first : table.idOf? one with
  | none =>
      rw [unknown first]
      cases second : table.idOf? two with
      | none => rwa [unknown second]
      | some id =>
          obtain ⟨field, present, name, _⟩ := known second
          rw [name]
          exact (name_ne_of_idOf?_eq_none first present).symm
  | some id =>
      obtain ⟨field, present, name, same⟩ := known first
      rw [name]
      cases second : table.idOf? two with
      | none =>
          rw [unknown second]
          exact name_ne_of_idOf?_eq_none second present
      | some other =>
          obtain ⟨entry, member, named, equal⟩ := known second
          rw [named]
          intro clash
          have identical := List.inj_on_of_nodup_map distinct present member clash
          exact ids id first (by rw [second, ← equal, ← same, identical])

/-! ## Objects -/

/-- What a table and an object must satisfy so that nothing is lost: there is a field, every name is
readable, no id is written twice, and every value keeps its meaning. -/
structure IsPortable (table : Table) (object : Object) : Prop where
  filled : object.fields ≠ []
  names : ∀ field ∈ object.fields, IsReadable table field.1
  ids : (object.fields.filterMap (table.idOf? ·.1)).Nodup
  values : ∀ field ∈ object.fields, (returnedField? table field).isSome = true

/-- The fields that come back are the ones that the rule gives, one for one. -/
def ComeBack (table : Table) (fields reads : List (String × Value)) : Prop :=
  List.Forall₂ (fun field read => returnedField? table field = some read) fields reads

theorem ComeBack.keys {table : Table} {fields reads : List (String × Value)}
    (back : ComeBack table fields reads) :
    reads.map Prod.fst = fields.map (returnedName table ·.1) := by
  induction back with
  | nil => rfl
  | cons returns _ ih =>
      obtain ⟨value, _, rfl⟩ := Option.map_eq_some_iff.1 returns
      rw [List.map_cons, List.map_cons, ih]

theorem comeBack_of_spells {table : Table} {fields : List (String × Value)}
    {pairs : List (List Char × List Char)} (spells : List.Forall₂ (Spells table) fields pairs)
    (names : ∀ field ∈ fields, IsReadable table field.1)
    (values : ∀ field ∈ fields, (returnedField? table field).isSome = true) :
    ComeBack table fields (pairs.map fun pair => readField table pair.1 pair.2) := by
  induction spells with
  | nil => exact .nil
  | @cons field pair fields pairs spell _ ih =>
      rw [List.forall_mem_cons] at names values
      obtain ⟨read, returns⟩ := Option.isSome_iff_exists.1 values.1
      refine .cons ?_ (ih names.2 values.2)
      dsimp only
      rw [readField_of_spells names.1 spell returns, returns]

section Portable

variable {table : Table} {object : Object} (portable : IsPortable table object)
include portable

theorem IsPortable.nodup_returnedNames (distinct : (table.fields.map (·.name)).Nodup) :
    (object.fields.map (returnedName table ·.1)).Nodup := by
  have keys : object.fields.Pairwise (·.1 ≠ ·.1) := List.pairwise_map.1 object.distinct
  have numbers := List.pairwise_filterMap.1 portable.ids
  refine List.pairwise_map.2 ((keys.and numbers).imp fun {one two} related => ?_)
  refine returnedName_ne distinct related.1 fun id first second => ?_
  exact related.2 id first id second rfl

theorem IsPortable.keys : ∀ field ∈ object.fields, IsKey table field.1 := fun field member =>
  isKey_of_readable (portable.names field member)

/-- A written object is read field by field as the rule says. -/
theorem IsPortable.comeBack (distinct : (table.fields.map (·.name)).Nodup) {text : List Char}
    (written : encodeFields table object.fields = .ok text) :
    ComeBack table object.fields (decodeSegment table text).fields := by
  obtain ⟨pairs, rfl, spells⟩ := spells_of_encodeFields written
  have reads := comeBack_of_spells spells portable.names portable.values
  rw [decodeSegment_pairText table portable.keys spells, Object.fields_ofFields]
  · exact reads
  · rw [reads.keys]
    exact portable.nodup_returnedNames distinct

theorem IsPortable.closable {text : List Char}
    (written : encodeFields table object.fields = .ok text) : ';' ∉ text ∧ text ≠ [] := by
  obtain ⟨pairs, rfl, spells⟩ := spells_of_encodeFields written
  have plain := plain_of_spells portable.keys spells
  refine ⟨semicolon_not_mem_pairText fun pair member => (plain pair member).2, fun empty => ?_⟩
  have nonempty : pairs ≠ [] := by
    rintro rfl
    exact portable.filled (List.forall₂_nil_right_iff.1 spells)
  obtain ⟨pair, rest, rfl⟩ := List.exists_cons_of_ne_nil nonempty
  simp [pairText] at empty

end Portable

theorem exists_text_of_encode {table : Table} {objects : List Object} {level : String}
    (written : encode table objects = .ok level) :
    ∃ text, encodeObjects table objects = .ok text ∧ level = String.ofList text := by
  rw [encode] at written
  cases result : encodeObjects table objects with
  | error failure =>
      rw [result] at written
      cases written
  | ok text =>
      rw [result] at written
      cases written
      exact ⟨text, rfl, rfl⟩

/-- A written level is read as the same objects in the same order, each with the same fields in the
same order: under the canonical name of its id and with the value that the rule gives. -/
theorem decode_of_encode (table : Table) (distinct : (table.fields.map (·.name)).Nodup)
    (objects : List Object) (portable : ∀ object ∈ objects, IsPortable table object)
    (level : String) (written : encode table objects = .ok level) :
    List.Forall₂ (fun object back => ComeBack table object.fields back.fields) objects
      (decode table level) := by
  obtain ⟨text, encoded, rfl⟩ := exists_text_of_encode written
  obtain ⟨texts, rfl, writtenAll⟩ := fields_of_encodeObjects encoded
  have closable : ∀ text ∈ texts, ';' ∉ text ∧ text ≠ [] :=
    forall_of_forall₂ writtenAll fun object member _ => (portable object member).closable
  have cut : segments (texts.flatMap (· ++ [';'])) = texts := by
    have closed := segments_closed texts [] closable
    rwa [List.append_nil, show segments [] = [] from rfl, List.append_nil] at closed
  rw [decode, String.toList_ofList, cut, List.forall₂_map_right_iff]
  refine ((List.forall₂_and_left _ _).2 ⟨portable, writtenAll⟩).imp ?_
  rintro object text ⟨portable, written⟩
  exact portable.comeBack distinct written

/-- Two names for one id, of different kinds, and a field of lists. -/
def aliasedTable : Table :=
  ⟨[⟨1, "width", .scalar⟩, ⟨1, "flags", .list⟩, ⟨57, "groups", .references .group⟩]⟩

/-- An object for that table, with two names that the table does not know. -/
def mixedObject : Object :=
  .ofFields [("flags", .number ((Decimal.mk 15 (-1)).toDouble true)),
    ("groups", .references [.group 4, .group 2]), ("note", .text "a.b"), ("9", .boolean true)]

theorem mixed_object_comes_back :
    mixedObject.fields.map (returnedField? aliasedTable) =
      [some ("width", .number ((Decimal.mk 15 (-1)).toDouble true)),
        some ("groups", .integers [4, 2]), some ("note", .text "a.b"), some ("9", .ofInt 1)] ∧
      List.Forall₂ (fun object back => ComeBack aliasedTable object.fields back.fields)
        [mixedObject] (decode aliasedTable "1,-1.5,57,4.2,note,a.b,9,1,;") := by
  have portable : IsPortable aliasedTable mixedObject :=
    ⟨by decide +kernel, by decide +kernel, by decide +kernel, by decide +kernel⟩
  refine ⟨by decide +kernel, ?_⟩
  refine decode_of_encode aliasedTable (by decide +kernel) [mixedObject] ?_ _ ?_
  · exact fun object member => List.mem_singleton.1 member ▸ portable
  · decide +kernel

end Level
end TriggerGraph
