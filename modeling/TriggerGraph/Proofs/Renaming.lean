import TriggerGraph.Proofs.Numerals
import TriggerGraph.Proofs.ExactDouble
import TriggerGraph.Proofs.Objects
import TriggerGraph.Proofs.Triggers
import TriggerGraph.Script.Statement

/-!
# Renaming slots

Slots are renamed in the counters of a script and in the fields of an object that name a slot: the
item of a pickup or a count, the two items of an edit, and the second member of each pair of a
remapping.  Making a trigger commutes with renaming, and an object that names none of the slots that
are moved stays as it is.
-/

namespace TriggerGraph

/-! ## Counters -/

section Counters

variable (slot : UInt32 → UInt32)

/-- A counter with its slot renamed. -/
def Counter.rename (counter : Counter) : Counter := { counter with item := slot counter.item }

/-- An amount with its slot renamed. -/
def Amount.rename : Amount → Amount
  | .constant x => .constant x
  | .counter c => .counter (c.rename slot)

/-- A condition with its slot renamed. -/
def Condition.rename (condition : Condition) : Condition :=
  { condition with counter := condition.counter.rename slot }

/-- A binding with its slot renamed; a function keeps its placeholders. -/
def Binding.rename : Binding → Binding
  | .counter c => .counter (c.rename slot)
  | binding => binding

theorem Counter.rename_of_fixed {counter : Counter} (fixed : slot counter.item = counter.item) :
    counter.rename slot = counter := by
  rw [rename, fixed]

end Counters

/-! ## Objects -/

namespace Value

/-- The slot that an integer of a list stands for. -/
def slotOf (number : Int64) : UInt32 := UInt32.ofNat number.toInt.toNat

theorem slotOf_ofNat (item : UInt32) : slotOf (Int64.ofNat item.toNat) = item := by
  rw [slotOf, toInt_ofNat_toNat, Int.toNat_natCast, UInt32.ofNat_toNat]

/-- An integer that is the number of a slot becomes the number of the renamed slot. -/
def renameInteger (slot : UInt32 → UInt32) (number : Int64) : Int64 :=
  if number = Int64.ofNat (slotOf number).toNat then Int64.ofNat (slot (slotOf number)).toNat
  else number

/-- Every second integer of a list is renamed. -/
def renameSeconds (slot : UInt32 → UInt32) : List Int64 → List Int64
  | first :: second :: rest => first :: renameInteger slot second :: renameSeconds slot rest
  | rest => rest

/-- The value of a field that names a slot. -/
def renameSlot (slot : UInt32 → UInt32) : Value → Value
  | .number x => if x = .ofInt x.toUInt32.toNat then .ofUInt32 (slot x.toUInt32) else .number x
  | value => value

/-- The value of a field that lists pairs of slots. -/
def renamePairs (slot : UInt32 → UInt32) : Value → Value
  | .integers numbers => .integers (renameSeconds slot numbers)
  | value => value

end Value

/-- The fields that name a slot. -/
def Field.slots : List String := [Field.item, Field.firstItem, Field.itemTarget]

namespace Object

/-- The value of a field with its slots renamed. -/
def renameValue (slot : UInt32 → UInt32) (key : String) (value : Value) : Value :=
  if key ∈ Field.slots then value.renameSlot slot
  else if key = Field.remaps then value.renamePairs slot
  else value

/-- Fields with their slots renamed. -/
def renameFields (slot : UInt32 → UInt32) (fields : List (String × Value)) :
    List (String × Value) :=
  fields.map fun field => (field.1, renameValue slot field.1 field.2)

theorem keys_renameFields (slot : UInt32 → UInt32) (fields : List (String × Value)) :
    (renameFields slot fields).map Prod.fst = fields.map Prod.fst := by
  rw [renameFields, List.map_map]
  rfl

/-- An object with its slots renamed. -/
def rename (slot : UInt32 → UInt32) (object : Object) : Object where
  fields := renameFields slot object.fields
  distinct := by
    rw [keys_renameFields]
    exact object.distinct

section Rename

variable (slot : UInt32 → UInt32)

theorem renameValue_of_slot {key : String} (names : key ∈ Field.slots) (item : UInt32) :
    renameValue slot key (.ofUInt32 item) = .ofUInt32 (slot item) := by
  rw [renameValue, if_pos names, Value.ofUInt32, Value.ofInt, Value.renameSlot,
    Double.toUInt32_ofInt, if_pos rfl]

theorem renameValue_of_other {key : String} (other : key ∉ Field.slots ∧ key ≠ Field.remaps)
    (value : Value) : renameValue slot key value = value := by
  rw [renameValue, if_neg other.1, if_neg other.2]

theorem renameFields_insertInto (key : String) (value : Value) (fields : List (String × Value)) :
    renameFields slot (insertInto key value fields) =
      insertInto key (renameValue slot key value) (renameFields slot fields) := by
  induction fields with
  | nil => rfl
  | cons field rest ih =>
      by_cases same : key = field.1
      · simp [insertInto, renameFields, same]
      · have missed : (key == field.1) = false := beq_false_of_ne same
        simp only [renameFields] at ih
        simp [insertInto, renameFields, missed, ih]

theorem rename_insert (object : Object) (key : String) (value : Value) :
    (object.insert key value).rename slot =
      (object.rename slot).insert key (renameValue slot key value) := by
  simp only [rename, insert, Object.mk.injEq]
  exact renameFields_insertInto slot key value object.fields

theorem rename_ofType (type : UInt32) : (ofType type).rename slot = ofType type := by
  rw [ofType, rename_insert, renameValue_of_other slot (by decide)]
  rfl

theorem rename_foldl_insert (fields : List (String × Value)) (object : Object) :
    (fields.foldl (fun object field => object.insert field.1 field.2) object).rename slot =
      (renameFields slot fields).foldl (fun object field => object.insert field.1 field.2)
        (object.rename slot) := by
  induction fields generalizing object with
  | nil => rfl
  | cons field rest ih =>
      rw [List.foldl_cons, ih, rename_insert]
      rfl

/-- A field accepts a value whatever its slots are called. -/
theorem checkField_renameValue (key : String) (value : Value) :
    Table.builtin.checkField key (renameValue slot key value) =
      Table.builtin.checkField key value := by
  have free : ∀ key ∈ Field.remaps :: Field.slots, Table.builtin.explicitDomain? key = none := by
    decide
  by_cases named : key ∈ Field.remaps :: Field.slots
  · rw [Table.checkField_of_free (free key named), Table.checkField_of_free (free key named)]
  · rw [List.mem_cons, not_or] at named
    rw [renameValue_of_other slot named.symm]

theorem rename_setAll (fields : List (String × Value)) (object : Object) :
    (object.rename slot).setAll (renameFields slot fields) =
      (object.setAll fields).map (rename slot) := by
  induction fields generalizing object with
  | nil => rfl
  | cons field rest ih =>
      have checked := checkField_renameValue slot field.1 field.2
      cases accepted : Table.builtin.checkField field.1 field.2 with
      | error error =>
          rw [accepted] at checked
          simp only [renameFields, List.map_cons, setAll, set, setIn, accepted, checked]
          rfl
      | ok _ =>
          rw [accepted] at checked
          have stored := ih (object.insert field.1 field.2)
          rw [rename_insert] at stored
          simp only [renameFields, List.map_cons, setAll, set, setIn, accepted, checked]
          exact stored

end Rename
end Object

/-! ## Triggers -/

namespace Trigger

variable (slot : UInt32 → UInt32)

theorem rename_make (type : UInt32) (fields : List (String × Value)) :
    (make type fields).rename slot = make type (Object.renameFields slot fields) := by
  rw [make, Object.rename_foldl_insert, Object.rename_ofType]
  rfl

theorem map_rename_setAll (type : UInt32) (fields : List (String × Value)) :
    ((Object.ofType type).setAll fields).map (Object.rename slot) =
      (Object.ofType type).setAll (Object.renameFields slot fields) := by
  rw [← Object.rename_setAll, Object.rename_ofType]

theorem rename_change (counter : Counter) (op : CounterOp) (amount : Amount) :
    (change counter op amount).rename slot =
      change (counter.rename slot) op (amount.rename slot) := by
  obtain ⟨item, kind⟩ := counter
  cases amount with
  | counter source =>
      refine (rename_make slot _ _).trans ?_
      simp (disch := decide) only [Object.renameFields, List.map_cons, List.map_nil,
        Object.renameValue_of_slot, Object.renameValue_of_other]
      rfl
  | constant x =>
      cases kind with
      | timer =>
          refine (rename_make slot _ _).trans ?_
          simp (disch := decide) only [Object.renameFields, List.map_cons, List.map_nil,
            Object.renameValue_of_slot, Object.renameValue_of_other]
          rfl
      | item =>
          -- the five pickups name their item in the same field
          cases op
          all_goals
            refine (rename_make slot _ _).trans ?_
            simp (disch := decide) only [Object.renameFields, List.map_cons, List.map_nil,
              Object.renameValue_of_slot, Object.renameValue_of_other]
            rfl

theorem rename_persist (counter : Counter) :
    (persist counter).rename slot = persist (counter.rename slot) := by
  rw [persist, rename_make]
  simp (disch := decide) only [Object.renameFields, List.map_cons, List.map_nil,
    Object.renameValue_of_slot, Object.renameValue_of_other]
  rfl

theorem map_rename_compare (condition : Condition) (target : Reference) :
    (compare condition target).map (Object.rename slot) =
      compare (condition.rename slot) target := by
  obtain ⟨⟨item, kind⟩, comparator, threshold⟩ := condition
  cases kind
  all_goals
    refine (map_rename_setAll slot _ _).trans ?_
    simp (disch := decide) only [Object.renameFields, List.map_cons, List.map_nil,
      Object.renameValue_of_slot, Object.renameValue_of_other]
    rfl

theorem map_rename_spawn (target : Reference) (delay : Double) :
    (spawn target delay).map (Object.rename slot) = spawn target delay := by
  refine (map_rename_setAll slot _ _).trans ?_
  rw [spawn]
  cases delay.isPositive
  all_goals
    simp (disch := decide) only [Object.renameFields, List.map_cons, List.map_nil, if_true,
      Bool.false_eq_true, if_false, Object.renameValue_of_other]

theorem rename_sequence (steps : List (Reference × UInt32)) (mode : SequenceMode)
    (minInterval : Double) (reset : SequenceReset) :
    (sequence steps mode minInterval reset).rename slot =
      sequence steps mode minInterval reset := by
  rw [sequence, rename_make]
  simp (disch := decide) only [Object.renameFields, List.map_cons, List.map_nil,
    Object.renameValue_of_other]

/-- The numbers of two lists of slots in turn, one of each. -/
def pairs (placeholders arguments : List Counter) : List Int64 :=
  (placeholders.zip arguments).flatMap fun (placeholder, argument) =>
    [Int64.ofNat placeholder.item.toNat, Int64.ofNat argument.item.toNat]

theorem renameSeconds_pairs (placeholders arguments : List Counter) :
    Value.renameSeconds slot (pairs placeholders arguments) =
      pairs placeholders (arguments.map (Counter.rename slot)) := by
  induction placeholders generalizing arguments with
  | nil => rfl
  | cons placeholder placeholders ih =>
      cases arguments with
      | nil => rfl
      | cons argument arguments =>
          have moved : Value.renameInteger slot (Int64.ofNat argument.item.toNat) =
              Int64.ofNat (slot argument.item).toNat := by
            rw [Value.renameInteger, Value.slotOf_ofNat, if_pos rfl]
          have others := ih arguments
          simp only [pairs, List.zip_cons_cons, List.flatMap_cons, List.cons_append,
            List.nil_append, Value.renameSeconds, moved, List.map_cons] at others ⊢
          rw [others]
          rfl

theorem map_rename_remapSpawn (target : Reference) (placeholders arguments : List Counter) :
    (remapSpawn target (pairs placeholders arguments)).map (Object.rename slot) =
      remapSpawn target (pairs placeholders (arguments.map (Counter.rename slot))) := by
  have remapped : Object.renameValue slot Field.remaps
      (.integers (pairs placeholders arguments)) =
        .integers (pairs placeholders (arguments.map (Counter.rename slot))) := by
    rw [Object.renameValue, if_neg (by decide), if_pos rfl, Value.renamePairs,
      renameSeconds_pairs]
  refine (map_rename_setAll slot _ _).trans ?_
  simp (disch := decide) only [Object.renameFields, List.map_cons, List.map_nil, remapped,
    Object.renameValue_of_other]
  rfl

end Trigger

/-! ## Objects that name none of the slots moved -/

/-- Every second integer of a list. -/
def Value.seconds : List Int64 → List Int64
  | _ :: second :: rest => second :: seconds rest
  | _ => []

/-- The slots that an object names are all among the kept ones. -/
structure Object.NamesOnly (kept : UInt32 → Prop) (object : Object) : Prop where
  /-- In the fields of one slot. -/
  single : ∀ key ∈ Field.slots, ∀ item, (key, .ofUInt32 item) ∈ object.fields → kept item
  /-- In the pairs of a remapping. -/
  second : ∀ numbers, (Field.remaps, .integers numbers) ∈ object.fields →
    ∀ item : UInt32, Int64.ofNat item.toNat ∈ Value.seconds numbers → kept item

section Kept

variable {slot : UInt32 → UInt32} {kept : UInt32 → Prop}
  (fixed : ∀ item, kept item → slot item = item)
include fixed

theorem Value.renameSeconds_of_kept {numbers : List Int64}
    (named : ∀ item : UInt32, Int64.ofNat item.toNat ∈ seconds numbers → kept item) :
    renameSeconds slot numbers = numbers := by
  fun_induction renameSeconds slot numbers with
  | case1 first second rest ih =>
      rw [seconds] at named
      rw [ih fun item member => named item (List.mem_cons_of_mem _ member), renameInteger]
      split
      · rename_i number
        have here : Int64.ofNat (slotOf second).toNat ∈ second :: seconds rest :=
          number ▸ List.mem_cons_self
        rw [fixed _ (named _ here), ← number]
      · rfl
  | case2 rest _ => rfl

theorem Value.renameSlot_of_kept {value : Value}
    (named : ∀ item, value = .ofUInt32 item → kept item) : value.renameSlot slot = value := by
  cases value with
  | number x =>
      rw [renameSlot]
      split
      · rename_i number
        have here : Value.number x = .ofUInt32 x.toUInt32 := congrArg Value.number number
        rw [fixed _ (named _ here), ← here]
      · rfl
  | _ => rfl

theorem Object.renameValue_of_namesOnly {object : Object} (named : object.NamesOnly kept)
    {key : String} {value : Value} (member : (key, value) ∈ object.fields) :
    renameValue slot key value = value := by
  rw [renameValue]
  split
  · rename_i single
    refine Value.renameSlot_of_kept fixed fun item same => named.single key single item ?_
    rw [← same]
    exact member
  · split
    · rename_i remaps
      subst remaps
      cases value with
      | integers numbers =>
          rw [Value.renamePairs, Value.renameSeconds_of_kept fixed (named.second numbers member)]
      | _ => rfl
    · rfl

theorem Object.rename_of_namesOnly {object : Object} (named : object.NamesOnly kept) :
    object.rename slot = object := by
  have same : renameFields slot object.fields = object.fields := by
    refine (List.map_congr_left fun field member => ?_).trans (List.map_id _)
    rw [renameValue_of_namesOnly fixed named member]
    rfl
  simp only [rename, same]

end Kept
end TriggerGraph
