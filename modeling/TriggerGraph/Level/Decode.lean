import TriggerGraph.Number.Reader
import TriggerGraph.Object.Basic
import TriggerGraph.Text.Split

/-!
# Reading level strings

Reading never fails.  A level is cut into segments at semicolons, a segment into keys and values at
commas, and a value takes its shape from its spelling and from the kind of its field.  What cannot
be read as a number or a list stays text, and a key the table does not know stays its own name.
-/

namespace TriggerGraph.Level

/-- The nonempty texts between semicolons. -/
def segments (level : List Char) : List (List Char) :=
  (splitAtChar ';' level).filter (!·.isEmpty)

/-- Keys with the values that follow them.  Empty keys are passed over one by one, and a key without
a value has the empty one. -/
def pairUp : List (List Char) → List (List Char × List Char)
  | [] => []
  | [] :: rest => pairUp rest
  | [key] => [(key, [])]
  | key :: value :: rest => (key, value) :: pairUp rest

/-- A dotted list of integers. -/
def readDotted? (text : List Char) : Option (List Int64) :=
  (splitAtChar '.' text).mapM readInt64?

/-- A text with a point: a number unless it has to be a list, then a list, then text. -/
def readPointed (wantsList : Bool) (text : List Char) : Value :=
  let asNumber := if wantsList then none else readDouble? text
  match asNumber with
  | some x => .number x
  | none =>
      match readDotted? text with
      | some ids => .integers ids
      | none => .text (String.ofList text)

/-- A text without a point: a finite number, or text. -/
def readPlain (text : List Char) : Value :=
  match readDouble? text with
  | some x => if x.isFinite then .number x else .text (String.ofList text)
  | none => .text (String.ofList text)

/-- The value a text spells in a field of the given kind. -/
def readValue (kind : Option Kind) (text : List Char) : Value :=
  if text = "true".toList then .ofInt 1
  else if text = "false".toList then .ofInt 0
  else
    match readInt64? text with
    | some n => .ofInt n.toInt
    | none =>
        if text.contains '.' then
          readPointed (kind.any Kind.isList || decide (1 < text.count '.')) text
        else readPlain text

/-- The field a key stands for, if it is an id of the table. -/
def readKey? (table : Table) (key : List Char) : Option Field :=
  (readUInt32? key).bind table.byId?

/-- The name and value of one key with its text. -/
def readField (table : Table) (key value : List Char) : String × Value :=
  match readKey? table key with
  | some field => (field.name, readValue (some field.kind) value)
  | none => (String.ofList key, readValue none value)

/-- The object of one segment; a key that comes again overwrites. -/
def decodeSegment (table : Table) (segment : List Char) : Object :=
  .ofFields ((pairUp (splitAtChar ',' segment)).map fun pair => readField table pair.1 pair.2)

/-- The objects of a level string. -/
def decode (table : Table) (level : String) : List Object :=
  (segments level.toList).map (decodeSegment table)

end TriggerGraph.Level
