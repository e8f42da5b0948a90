import TriggerGraph.Proofs.ExactDouble
import TriggerGraph.Script.Compiler
import TriggerGraph.Script.Trigger

/-!
# Objects that can be written

An object can be written if each of its fields can.  The triggers that scripts are made into hold
numbers, flags and lists in fields that accept anything, and a target.  So all that can be wrong
with them is a number that is not finite or a target without an id, and putting the contexts
together adds nothing that could be refused.
-/

namespace TriggerGraph

/-- A group other than zero; references of other domains are no targets anyway. -/
def Reference.HasId (target : Reference) : Prop := target.domain = .group → target.value ≠ 0

/-! ## Fields -/

/-- A value that can be written in every field that accepts it. -/
def Value.isWritable : Value → Bool
  | number x => x.isFinite
  | text s => !s.toList.any Level.isDelimiter
  | _ => true

namespace Level

/-- The built-in table can write the field. -/
def Encodes (field : String × Value) : Prop :=
  ∃ text, encodeField .builtin field.1 field.2 = .ok text

theorem encodeValue_of_writable (key : String) {value : Value}
    (writable : value.isWritable = true) :
    ∃ text, encodeValue key value = .ok text := by
  cases value with
  | number x => exact ⟨_, if_pos writable⟩
  | text s =>
      refine ⟨_, if_neg ?_⟩
      simpa [Value.isWritable] using writable
  | _ => exact ⟨_, rfl⟩

theorem encodes_of_accepted {key : String} {value : Value} (writable : value.isWritable = true)
    (accepted : Table.builtin.checkEncodable key value = .ok ()) : Encodes (key, value) := by
  obtain ⟨text, written⟩ := encodeValue_of_writable key writable
  exact ⟨_, by rw [encodeField, accepted, written]⟩

theorem encodes_of_free {key : String} {value : Value}
    (free : Table.builtin.explicitDomain? key = none) (writable : value.isWritable = true) :
    Encodes (key, value) := by
  refine encodes_of_accepted writable ?_
  cases value <;> simp [Table.checkEncodable, Table.checkField, free]

theorem encodes_target {target : Reference} (isGroup : target.domain = .group)
    (nonzero : target.value ≠ 0) : Encodes (Field.target, .reference target) := by
  refine encodes_of_accepted rfl ?_
  have explicit : Table.builtin.explicitDomain? Field.target = some .group := by decide
  simp [Table.checkEncodable, Table.checkField, explicit, isGroup, nonzero]

/-! ## Objects -/

theorem encodeFields_of_encodes {fields : List (String × Value)}
    (each : ∀ field ∈ fields, Encodes field) : ∃ text, encodeFields .builtin fields = .ok text := by
  induction fields with
  | nil => exact ⟨[], rfl⟩
  | cons field rest ih =>
      rw [List.forall_mem_cons] at each
      obtain ⟨first, written⟩ := each.1
      obtain ⟨others, rest⟩ := ih each.2
      exact ⟨first ++ others, by rw [encodeFields, written, rest]⟩

theorem encodes_of_encodeFields {fields : List (String × Value)} {text : List Char}
    (written : encodeFields .builtin fields = .ok text) : ∀ field ∈ fields, Encodes field := by
  induction fields generalizing text with
  | nil => simp
  | cons field rest ih =>
      rw [encodeFields] at written
      cases first : encodeField .builtin field.1 field.2 with
      | error error =>
          rw [first] at written
          cases written
      | ok head =>
          cases others : encodeFields .builtin rest with
          | error error =>
              rw [first, others] at written
              cases written
          | ok tail => exact List.forall_mem_cons.2 ⟨⟨head, first⟩, ih others⟩

/-- The level string of objects whose fields can all be written. -/
theorem encode_of_encodes {objects : List Object}
    (each : ∀ object ∈ objects, ∀ field ∈ object.fields, Encodes field) :
    ∃ level, encode .builtin objects = .ok level := by
  have written : ∃ text, encodeObjects .builtin objects = .ok text := by
    induction objects with
    | nil => exact ⟨[], rfl⟩
    | cons object rest ih =>
        rw [List.forall_mem_cons] at each
        obtain ⟨first, fields⟩ := encodeFields_of_encodes each.1
        obtain ⟨others, rest⟩ := ih each.2
        exact ⟨_, by rw [encodeObjects, encodeObject, fields, Except.map, rest]⟩
  obtain ⟨text, written⟩ := written
  exact ⟨_, by rw [encode, written, Except.map]⟩

/-! ## Objects with targets to be -/

/-- The field can be written, or it is a target that is one of some groups. -/
def EncodesUpTo (groups : Reference → Prop) (field : String × Value) : Prop :=
  Encodes field ∨ ∃ group, groups group ∧ field = (Field.target, .reference group)

end Level

namespace Object

open Level

/-- All fields can be written, except that the target may be one of some groups. -/
def EncodesUpTo (groups : Reference → Prop) (object : Object) : Prop :=
  ∀ field ∈ object.fields, Level.EncodesUpTo groups field

theorem EncodesUpTo.mono {few many : Reference → Prop} (more : ∀ group, few group → many group)
    {object : Object} (encodes : object.EncodesUpTo few) : object.EncodesUpTo many :=
  fun field member => (encodes field member).imp_right fun ⟨group, found, same⟩ =>
    ⟨group, more group found, same⟩

/-- Once the groups are known to have ids, nothing stands against writing. -/
theorem EncodesUpTo.encodes {groups : Reference → Prop}
    (sound : ∀ group, groups group → group.domain = .group ∧ group.value ≠ 0) {object : Object}
    (encodes : object.EncodesUpTo groups) : ∀ field ∈ object.fields, Encodes field := by
  intro field member
  rcases encodes field member with written | ⟨group, found, rfl⟩
  · exact written
  · exact encodes_target (sound group found).1 (sound group found).2

theorem encodesUpTo_of_encodeObject (groups : Reference → Prop) {object : Object}
    (written : ∃ text, encodeObject .builtin object = .ok text) : object.EncodesUpTo groups := by
  obtain ⟨text, written⟩ := written
  cases fields : encodeFields .builtin object.fields with
  | error error =>
      rw [encodeObject, fields] at written
      cases written
  | ok text => exact fun field member => .inl (encodes_of_encodeFields fields field member)

theorem mem_insertInto {key : String} {value : Value} {fields : List (String × Value)}
    {field : String × Value} (member : field ∈ insertInto key value fields) :
    field = (key, value) ∨ field ∈ fields := by
  induction fields with
  | nil => exact .inl (List.mem_singleton.1 member)
  | cons first rest ih =>
      rw [insertInto] at member
      split at member
      · rename_i same
        rcases List.mem_cons.1 member with rfl | later
        · exact .inl (by rw [beq_iff_eq.1 same])
        · exact .inr (List.mem_cons_of_mem _ later)
      · rcases List.mem_cons.1 member with rfl | later
        · exact .inr List.mem_cons_self
        · exact (ih later).imp_right (List.mem_cons_of_mem _)

section

variable {groups : Reference → Prop}

theorem EncodesUpTo.insert {object : Object} (encodes : object.EncodesUpTo groups) {key : String}
    {value : Value} (fits : Level.EncodesUpTo groups (key, value)) :
    (object.insert key value).EncodesUpTo groups := by
  intro field member
  rcases mem_insertInto member with rfl | old
  · exact fits
  · exact encodes field old

theorem EncodesUpTo.insertAll {object : Object} (encodes : object.EncodesUpTo groups)
    {fields : List (String × Value)} (fits : ∀ field ∈ fields, Level.EncodesUpTo groups field) :
    (fields.foldl (fun object field => object.insert field.1 field.2) object).EncodesUpTo
      groups := by
  induction fields generalizing object with
  | nil => exact encodes
  | cons field rest ih =>
      rw [List.forall_mem_cons] at fits
      exact ih (encodes.insert fits.1) fits.2

/-- Storing checked fields: what the check refuses need not be looked at. -/
theorem EncodesUpTo.setAll {object made : Object} (encodes : object.EncodesUpTo groups)
    {fields : List (String × Value)} (stored : object.setAll fields = .ok made)
    (fits : ∀ field ∈ fields, Table.builtin.checkField field.1 field.2 = .ok () →
      Level.EncodesUpTo groups field) : made.EncodesUpTo groups := by
  induction fields generalizing object with
  | nil =>
      cases stored
      exact encodes
  | cons field rest ih =>
      rw [List.forall_mem_cons] at fits
      simp only [Object.setAll, set, setIn] at stored
      cases checked : Table.builtin.checkField field.1 field.2 with
      | error error =>
          rw [checked] at stored
          cases stored
      | ok _ =>
          rw [checked] at stored
          exact ih (encodes.insert (fits.1 checked)) stored fits.2

theorem encodesUpTo_ofType (type : UInt32) : (ofType type).EncodesUpTo groups := by
  have free : Table.builtin.explicitDomain? Field.objectId = none := by decide
  have finite : (Double.ofInt type.toNat).isFinite = true :=
    Double.isFinite_ofInt (by have := type.toNat_lt; omega)
  have nothing : empty.EncodesUpTo groups := fun _ member => nomatch member
  exact nothing.insert (.inl (encodes_of_free free finite))

theorem isWritable_joinGroup (group : Reference) (old : Option Value) :
    (Value.joinGroup group old).isWritable = true := by
  cases old with
  | none => rfl
  | some value => cases value <;> rfl

theorem EncodesUpTo.triggered {object : Object} (encodes : object.EncodesUpTo groups)
    (group : Reference) : (Compiler.triggered group object).EncodesUpTo groups := by
  have free : ∀ key ∈ [Field.groups, Field.spawnTriggered, Field.multiTriggered],
      Table.builtin.explicitDomain? key = none := by decide
  have erased : (object.erase Field.groups).EncodesUpTo groups :=
    fun field member => encodes field (List.mem_of_mem_eraseP member)
  have flag (key : String)
      (known : key ∈ [Field.groups, Field.spawnTriggered, Field.multiTriggered]) :
      Level.EncodesUpTo groups (key, .boolean true) := .inl (encodes_of_free (free key known) rfl)
  have joined := erased.insert (.inl (encodes_of_free (free Field.groups (by simp))
    (isWritable_joinGroup group (object.get? Field.groups))))
  exact (joined.insert (flag Field.spawnTriggered (by simp))).insert
    (flag Field.multiTriggered (by simp))

end

end Object

/-! ## Triggers -/

namespace Value

@[simp]
theorem isWritable_number (x : Double) : (number x).isWritable = x.isFinite := rfl

@[simp]
theorem isWritable_boolean (flag : Bool) : (boolean flag).isWritable = true := rfl

@[simp]
theorem isWritable_integers (ids : List Int64) : (integers ids).isWritable = true := rfl

@[simp]
theorem isWritable_ofInt {n : Int} (small : n.natAbs < 2 ^ 64) : (ofInt n).isWritable = true :=
  Double.isFinite_ofInt small

@[simp]
theorem isWritable_ofUInt32 (n : UInt32) : (ofUInt32 n).isWritable = true :=
  isWritable_ofInt (by have := n.toNat_lt; omega)

end Value

namespace Trigger

open Object

variable {groups : Reference → Prop}

/-- The keys of the fields that triggers hold beside their target. -/
def plainKeys : List String :=
  [Field.spawnDuration, Field.remaps, Field.resetRemap, Field.item, Field.count, Field.override,
    Field.multiplyDivide, Field.modifier, Field.firstItem, Field.firstType, Field.itemTarget,
    Field.targetType, Field.assignOp, Field.firstOp, Field.factor, Field.comparison,
    Field.activateGroup, Field.secondFactor, Field.secondOp, Field.compareOp, Field.timer,
    Field.persistent, Field.sequence, Field.mode, Field.minInterval, Field.reset]

/-- A field that accepts anything, with a value that can be written. -/
def IsPlain (field : String × Value) : Prop := field.1 ∈ plainKeys ∧ field.2.isWritable = true

theorem IsPlain.encodes {field : String × Value} (plain : IsPlain field) :
    Level.EncodesUpTo groups field := by
  have free : ∀ key ∈ plainKeys, Table.builtin.explicitDomain? key = none := by decide
  exact .inl (Level.encodes_of_free (free field.1 plain.1) plain.2)

theorem isWritable_codes :
    (∀ op, (Value.ofInt (opCode op)).isWritable = true) ∧
    (∀ kind, (Value.ofInt (kindCode kind)).isWritable = true) ∧
    (∀ comparator, (Value.ofInt (countCode comparator)).isWritable = true) ∧
    (∀ comparator, (Value.ofInt (compareCode comparator)).isWritable = true) ∧
    (∀ mode, (Value.ofInt (modeCode mode)).isWritable = true) ∧
    (∀ reset, (Value.ofInt (resetCode reset)).isWritable = true) ∧
    (Value.ofInt addCode).isWritable = true ∧ (Value.ofInt multiplyCode).isWritable = true := by
  refine ⟨?_, ?_, ?_, ?_, ?_, ?_, ?_, ?_⟩
  case refine_7 | refine_8 => exact Value.isWritable_ofInt (by decide)
  all_goals
    intro code
    exact Value.isWritable_ofInt (by cases code <;> decide)

/-! ### Triggers without a target -/

theorem encodesUpTo_make (type : UInt32) {fields : List (String × Value)}
    (plain : ∀ field ∈ fields, IsPlain field) : (make type fields).EncodesUpTo groups :=
  (encodesUpTo_ofType type).insertAll fun field member => (plain field member).encodes

theorem encodesUpTo_change (counter : Counter) (op : CounterOp) {amount : Amount}
    (finite : ∀ x, amount = .constant x → x.isFinite = true) :
    (change counter op amount).EncodesUpTo groups := by
  cases amount with
  | counter source =>
      exact encodesUpTo_make _ (by simp [IsPlain, plainKeys, isWritable_codes])
  | constant x =>
      have finite : x.isFinite = true := finite x rfl
      have opposite : (-x).isFinite = true := by cases x <;> exact finite
      obtain ⟨item, kind⟩ := counter
      cases kind with
      | timer => exact encodesUpTo_make _ (by simp [IsPlain, plainKeys, isWritable_codes, finite])
      | item =>
          cases op with
          | set => exact encodesUpTo_make _ (by simp [IsPlain, plainKeys, finite])
          | add => exact encodesUpTo_make _ (by simp [IsPlain, plainKeys, finite])
          | subtract => exact encodesUpTo_make _ (by simp [IsPlain, plainKeys, opposite])
          | multiply => exact encodesUpTo_make _ (by simp [IsPlain, plainKeys, finite])
          | divide => exact encodesUpTo_make _ (by simp [IsPlain, plainKeys, finite])

theorem encodesUpTo_persist (counter : Counter) : (persist counter).EncodesUpTo groups :=
  encodesUpTo_make _ (by simp [IsPlain, plainKeys])

theorem encodesUpTo_sequence (steps : List (Reference × UInt32)) (mode : SequenceMode)
    {minInterval : Double} (finite : minInterval.isFinite = true) (reset : SequenceReset) :
    (sequence steps mode minInterval reset).EncodesUpTo groups :=
  encodesUpTo_make _ (by simp [IsPlain, plainKeys, isWritable_codes, finite])

/-! ### Triggers with a target -/

/-- A target that is one of the groups, or has an id if it is a group at all. -/
def Aims (groups : Reference → Prop) (target : Reference) : Prop := groups target ∨ target.HasId

/-- A trigger that was accepted, made of plain fields and a target. -/
theorem encodesUpTo_of_aims {target : Reference} (aims : Aims groups target) {type : UInt32}
    {fields : List (String × Value)} {object : Object}
    (made : (ofType type).setAll fields = .ok object)
    (plain : ∀ field ∈ fields, field = (Field.target, .reference target) ∨ IsPlain field) :
    object.EncodesUpTo groups := by
  refine (encodesUpTo_ofType type).setAll made fun field member accepted => ?_
  rcases plain field member with rfl | plain
  · rcases aims with known | nonzero
    · exact .inr ⟨target, known, rfl⟩
    · have explicit : Table.builtin.explicitDomain? Field.target = some .group := by decide
      have isGroup : target.domain = .group := by
        by_contra other
        simp [Table.checkField, explicit, other] at accepted
      exact .inl (Level.encodes_target isGroup (nonzero isGroup))
  · exact plain.encodes

theorem encodesUpTo_spawn {target : Reference} (aims : Aims groups target) {delay : Double}
    (finite : delay.isFinite = true) {object : Object} (made : spawn target delay = .ok object) :
    object.EncodesUpTo groups := by
  refine encodesUpTo_of_aims aims made ?_
  cases delay.isPositive <;> simp [IsPlain, plainKeys, finite]

theorem encodesUpTo_remapSpawn {target : Reference} (aims : Aims groups target)
    {slots : List Int64} {object : Object} (made : remapSpawn target slots = .ok object) :
    object.EncodesUpTo groups :=
  encodesUpTo_of_aims aims made (by simp [IsPlain, plainKeys])

theorem encodesUpTo_compare {target : Reference} (aims : Aims groups target)
    {condition : Condition} (finite : condition.threshold.isFinite = true) {object : Object}
    (made : compare condition target = .ok object) : object.EncodesUpTo groups := by
  unfold compare at made
  split at made
  · exact encodesUpTo_of_aims aims made (by simp [IsPlain, plainKeys, isWritable_codes, finite])
  · exact encodesUpTo_of_aims aims made (by simp [IsPlain, plainKeys, isWritable_codes, finite])

end Trigger
end TriggerGraph
