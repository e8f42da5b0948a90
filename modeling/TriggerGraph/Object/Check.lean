import TriggerGraph.Object.Basic

/-!
# Explicit reference fields

Some fields accept only a reference of one domain.  The check is made when such a field is set, and
again, with zero ids refused, when an object is written.
-/

namespace TriggerGraph

/-- Why a field does not accept a value. -/
inductive FieldError where
  | mismatch (field : String) (expected : Domain) (found : String)
  | missingId (field : String) (domain : Domain)
  deriving DecidableEq

/-- The message of a field error. -/
def FieldError.message : FieldError → String
  | mismatch field expected found =>
      "field " ++ field ++ " expects a " ++ expected.name ++ " reference, got " ++ found
  | missingId field domain =>
      "field " ++ field ++ " holds a " ++ domain.name ++ " reference without an id"

namespace Table

/-- An explicit field must hold a reference of its domain; any other field accepts any value. -/
def checkField (table : Table) (key : String) (value : Value) : Except FieldError Unit :=
  match table.explicitDomain? key with
  | none => .ok ()
  | some expected =>
      match value with
      | .reference r =>
          if r.domain = expected then .ok ()
          else .error (.mismatch key expected value.kindName)
      | _ => .error (.mismatch key expected value.kindName)

/-- To be written, an explicit field must also hold an id other than zero. -/
def checkEncodable (table : Table) (key : String) (value : Value) : Except FieldError Unit :=
  match table.checkField key value with
  | .error e => .error e
  | .ok () =>
      match value with
      | .reference r =>
          if (table.explicitDomain? key).isSome ∧ r.value = 0 then
            .error (.missingId key r.domain)
          else .ok ()
      | _ => .ok ()

end Table

namespace Object

/-- Store a value that the table accepts. -/
def setIn (object : Object) (table : Table) (key : String) (value : Value) :
    Except FieldError Object :=
  match table.checkField key value with
  | .error e => .error e
  | .ok () => .ok (object.insert key value)

/-- Store a value that the built-in table accepts. -/
def set (object : Object) (key : String) (value : Value) : Except FieldError Object :=
  object.setIn .builtin key value

/-- Store several values, each accepted by the built-in table. -/
def setAll (object : Object) : List (String × Value) → Except FieldError Object
  | [] => .ok object
  | (key, value) :: rest =>
      match object.set key value with
      | .error e => .error e
      | .ok object => object.setAll rest

end Object
end TriggerGraph
