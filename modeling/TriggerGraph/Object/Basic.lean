import TriggerGraph.Field.Builtin
import TriggerGraph.Object.Value

/-!
# Objects

An object is a node of the trigger graph: its fields in the order they were first set.  No key
stands twice, so every field has one value and one position.
-/

namespace TriggerGraph

/-- A trigger object. -/
structure Object where
  /-- The fields with their values, in order. -/
  fields : List (String × Value)
  /-- No key stands twice. -/
  distinct : (fields.map Prod.fst).Nodup
  deriving DecidableEq

namespace Object

/-- The object without fields. -/
def empty : Object := ⟨[], List.nodup_nil⟩

/-- The value of a field. -/
def get? (object : Object) (key : String) : Option Value := object.fields.lookup key

/-- Whether a field is present. -/
def contains (object : Object) (key : String) : Bool := (object.get? key).isSome

/-- Fields with one value replaced in place, or appended when its key is new. -/
def insertInto (key : String) (value : Value) : List (String × Value) → List (String × Value)
  | [] => [(key, value)]
  | (k, v) :: rest => if key == k then (k, value) :: rest else (k, v) :: insertInto key value rest

theorem keys_insertInto (key : String) (value : Value) (fields : List (String × Value)) :
    (insertInto key value fields).map Prod.fst =
      if key ∈ fields.map Prod.fst then fields.map Prod.fst
      else fields.map Prod.fst ++ [key] := by
  induction fields with
  | nil => rfl
  | cons field rest ih =>
      by_cases same : key = field.1
      · simp [insertInto, same]
      · simp only [insertInto, beq_iff_eq, same, if_false, List.map_cons, List.mem_cons, false_or,
          ih]
        split <;> rfl

theorem distinct_insertInto (key : String) (value : Value) {fields : List (String × Value)}
    (distinct : (fields.map Prod.fst).Nodup) :
    ((insertInto key value fields).map Prod.fst).Nodup := by
  rw [keys_insertInto]
  split
  · exact distinct
  · rename_i absent
    refine List.nodup_append.2 ⟨distinct, by simp, fun other present => ?_⟩
    rintro _ (_ | ⟨_, ⟨⟩⟩) rfl
    exact absent present

/-- Store a value; a key that is already present keeps its position. -/
def insert (object : Object) (key : String) (value : Value) : Object :=
  ⟨insertInto key value object.fields, distinct_insertInto key value object.distinct⟩

/-- Drop a field. -/
def erase (object : Object) (key : String) : Object :=
  ⟨object.fields.eraseP (key == ·.1), object.distinct.sublist (List.eraseP_sublist.map _)⟩

/-- The object with the given fields stored one after the other. -/
def ofFields (fields : List (String × Value)) : Object :=
  fields.foldl (fun object field => object.insert field.1 field.2) empty

/-- The object that holds only its type. -/
def ofType (type : UInt32) : Object := empty.insert Field.objectId (.ofUInt32 type)

/-- The number of fields. -/
def size (object : Object) : Nat := object.fields.length

/-- The type of an object, if it carries one. -/
def type? (object : Object) : Option UInt32 :=
  ((object.get? Field.objectId).bind Value.toDouble?).map Double.toUInt32

end Object
end TriggerGraph
