import TriggerGraph.Number.Layout
import TriggerGraph.Object.Basic

/-!
# Objects as JSON

The structured form of objects, printed on one line or indented by two spaces.
-/

namespace TriggerGraph

/-- A JSON value; numbers are told apart from integers because they are written differently. -/
inductive Json where
  | integer (n : Int)
  | number (x : Double)
  | boolean (b : Bool)
  | string (s : String)
  | array (items : List Json)
  | object (members : List (String × Json))

namespace Json

/-- One hexadecimal digit, in lower case. -/
def hexDigit (n : Nat) : Char :=
  if n < 10 then Char.ofNat (48 + n) else Char.ofNat (87 + n)

/-- A character inside quotes; only quotes, backslashes and controls are escaped. -/
def escapeChar (c : Char) : List Char :=
  if c = '"' then ['\\', '"']
  else if c = '\\' then ['\\', '\\']
  else if c = '\n' then ['\\', 'n']
  else if c = '\r' then ['\\', 'r']
  else if c = '\t' then ['\\', 't']
  else if c.toNat = 8 then ['\\', 'b']
  else if c.toNat = 12 then ['\\', 'f']
  else if c.toNat < 32 then
    ['\\', 'u', '0', '0', hexDigit (c.toNat / 16), hexDigit (c.toNat % 16)]
  else [c]

/-- A text in quotes. -/
def quote (s : String) : List Char := '"' :: s.toList.flatMap escapeChar ++ ['"']

/-- The text of a value that has no parts. -/
def scalarText : Json → List Char
  | integer n => integerText n
  | number x => x.jsonText
  | boolean b => (if b then "true" else "false").toList
  | string s => quote s
  | array _ => "[]".toList
  | object _ => "\x7b\x7d".toList

mutual

/-- A value on one line without blanks. -/
def compact : Json → List Char
  | array items => '[' :: compactItems items ++ [']']
  | object members => '\x7b' :: compactMembers members ++ ['\x7d']
  | scalar => scalarText scalar

/-- Items separated by commas. -/
def compactItems : List Json → List Char
  | [] => []
  | [item] => compact item
  | item :: rest => compact item ++ ',' :: compactItems rest

/-- Members separated by commas. -/
def compactMembers : List (String × Json) → List Char
  | [] => []
  | [(key, value)] => quote key ++ ':' :: compact value
  | (key, value) :: rest => quote key ++ ':' :: compact value ++ ',' :: compactMembers rest

end

/-- The start of a line at a depth of nesting. -/
def newLine (depth : Nat) : List Char := '\n' :: List.replicate (2 * depth) ' '

mutual

/-- A value with each item and member on a line of its own. -/
def pretty (depth : Nat) : Json → List Char
  | array [] => "[]".toList
  | array items => '[' :: prettyItems (depth + 1) items ++ newLine depth ++ [']']
  | object [] => "\x7b\x7d".toList
  | object members => '\x7b' :: prettyMembers (depth + 1) members ++ newLine depth ++ ['\x7d']
  | scalar => scalarText scalar

/-- Items on lines of their own. -/
def prettyItems (depth : Nat) : List Json → List Char
  | [] => []
  | [item] => newLine depth ++ pretty depth item
  | item :: rest => newLine depth ++ pretty depth item ++ ',' :: prettyItems depth rest

/-- Members on lines of their own. -/
def prettyMembers (depth : Nat) : List (String × Json) → List Char
  | [] => []
  | [(key, value)] => newLine depth ++ quote key ++ ':' :: ' ' :: pretty depth value
  | (key, value) :: rest =>
      newLine depth ++ quote key ++ ':' :: ' ' :: pretty depth value ++
        ',' :: prettyMembers depth rest

end

end Json

/-- A reference as the pair of its domain and its id. -/
def Reference.toJson (r : Reference) : Json :=
  .object [("domain", .string r.domain.name), ("value", .integer r.value.toNat)]

/-- A value in structured form; the shapes of values can be told apart without tags. -/
def Value.toJson : Value → Json
  | .number x => .number x
  | .boolean b => .boolean b
  | .reference r => r.toJson
  | .references rs => .array (rs.map Reference.toJson)
  | .integers ids => .array (ids.map fun n => .integer n.toInt)
  | .text s => .string s

/-- An object in structured form, its fields in order. -/
def Object.toJson (object : Object) : Json :=
  .object (object.fields.map fun field => (field.1, field.2.toJson))

end TriggerGraph
