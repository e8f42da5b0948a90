import TriggerGraph.Number.Layout
import TriggerGraph.Object.Check
import TriggerGraph.Text.Split

/-!
# Writing level strings

An object is written as `id,value,` for each of its fields in order and ends with `;`.  Objects
stand back to back.  A name that the table does not know is written as it is, so that fields nobody
could name survive being read and written.
-/

namespace TriggerGraph

/-- Why an object cannot be written. -/
inductive LevelError where
  | rejected (cause : FieldError)
  | notFinite (field : String) (value : Double)
  | delimiter (field : String) (value : String)
  deriving DecidableEq

/-- The message of a level error. -/
def LevelError.message : LevelError → String
  | rejected cause => cause.message
  | notFinite field value =>
      "field " ++ field ++ " holds a non-finite number (" ++ value.toText ++ ")"
  | delimiter field value =>
      "field " ++ field ++ " value '" ++ value ++ "' contains a level-string delimiter"

namespace Level

/-- The two characters that structure a level string. -/
def isDelimiter (c : Char) : Bool := c == ',' || c == ';'

/-- Integers joined by dots. -/
def dotted (values : List Int) : List Char := joinWithChar '.' (values.map integerText)

/-- The text of a value of the named field. -/
def encodeValue (key : String) : Value → Except LevelError (List Char)
  | .number x => if x.isFinite then .ok x.plainText else .error (.notFinite key x)
  | .boolean b => .ok [if b then '1' else '0']
  | .reference r => .ok (naturalText r.value.toNat)
  | .references rs => .ok (dotted (rs.map fun r => (r.value.toNat : Int)))
  | .integers ids => .ok (dotted (ids.map Int64.toInt))
  | .text s => if s.toList.any isDelimiter then .error (.delimiter key s) else .ok s.toList

/-- The text that stands for a field name: its id in the table, or the name itself. -/
def encodeKey (table : Table) (key : String) : List Char :=
  match table.idOf? key with
  | some id => naturalText id.toNat
  | none => key.toList

/-- One field with the comma behind its key and the comma behind its value. -/
def encodeField (table : Table) (key : String) (value : Value) :
    Except LevelError (List Char) :=
  match table.checkEncodable key value with
  | .error e => .error (.rejected e)
  | .ok () =>
      match encodeValue key value with
      | .error e => .error e
      | .ok text => .ok (encodeKey table key ++ ',' :: text ++ [','])

/-- Fields one after the other; the first that cannot be written ends the attempt. -/
def encodeFields (table : Table) : List (String × Value) → Except LevelError (List Char)
  | [] => .ok []
  | (key, value) :: rest =>
      match encodeField table key value with
      | .error e => .error e
      | .ok text =>
          match encodeFields table rest with
          | .error e => .error e
          | .ok texts => .ok (text ++ texts)

/-- One object with the semicolon that ends it. -/
def encodeObject (table : Table) (object : Object) : Except LevelError (List Char) :=
  (encodeFields table object.fields).map (· ++ [';'])

/-- Objects back to back; the first that cannot be written ends the attempt. -/
def encodeObjects (table : Table) : List Object → Except LevelError (List Char)
  | [] => .ok []
  | object :: rest =>
      match encodeObject table object with
      | .error e => .error e
      | .ok text =>
          match encodeObjects table rest with
          | .error e => .error e
          | .ok texts => .ok (text ++ texts)

/-- The level string of a list of objects. -/
def encode (table : Table) (objects : List Object) : Except LevelError String :=
  (encodeObjects table objects).map String.ofList

end Level
end TriggerGraph
