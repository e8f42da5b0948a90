import TriggerGraph.Number.Double

/-!
# Settings tables

A settings file is a table of tables.  A table may be opened by a header, by the headers of tables
inside it, or by dotted keys, and what was opened one way cannot be extended in another.
-/

namespace TriggerGraph.Toml

/-- A value that cannot be extended once it is written. -/
inductive Value where
  | string (text : String)
  | integer (n : Int)
  | float (x : Double)
  | boolean (b : Bool)
  | moment
  | array
  | inlineTable

/-- What a key stands for. -/
inductive Item where
  | value (v : Value)
  | table (implicit dotted : Bool) (entries : List (String × Item))
  | tables (rows : List (List (String × Item)))

/-- A table and the way it was opened. -/
structure Table where
  /-- Opened only by what it holds. -/
  implicit : Bool
  /-- Opened by a dotted key. -/
  dotted : Bool
  /-- The entries, each key once. -/
  entries : List (String × Item)

namespace Table

/-- A table opened by its own header. -/
def empty : Table := ⟨false, false, []⟩

/-- The item of a key. -/
def get? (table : Table) (key : String) : Option Item := table.entries.lookup key

/-- The table without a key. -/
def erase (table : Table) (key : String) : Table :=
  { table with entries := table.entries.filter (·.1 != key) }

/-- The table with a key set. -/
def insert (table : Table) (key : String) (item : Item) : Table :=
  { table with entries := (table.erase key).entries ++ [(key, item)] }

/-- The table as an item. -/
def toItem (table : Table) : Item := .table table.implicit table.dotted table.entries

/-- Change the table at a path, opening tables on the way.  A dotted path leads only through tables
that were opened implicitly. -/
def modifyAt (dotted : Bool) (f : Table → Option Table) : List String → Table → Option Table
  | [], table => f table
  | key :: path, table =>
      match table.get? key with
      | none => do
          let child ← modifyAt dotted f path ⟨true, dotted, []⟩
          return table.insert key child.toItem
      | some (.value _) => none
      | some (.table implicit wasDotted entries) => do
          if dotted && !implicit then failure
          let child ← modifyAt dotted f path ⟨implicit, wasDotted, entries⟩
          return table.insert key child.toItem
      | some (.tables rows) => do
          let last ← rows.getLast?
          let child ← modifyAt dotted f path ⟨false, false, last⟩
          return table.insert key (.tables (rows.dropLast ++ [child.entries]))

/-- Set a key that is not set yet, at the end of a dotted path. -/
def assign (table : Table) (path : List String) (key : String) (item : Item) : Option Table :=
  modifyAt true (fun table => do
    if table.dotted == path.isEmpty then failure
    if (table.get? key).isSome then failure
    return table.insert key item) path table

end Table

/-- A file being read: the table filled at the moment is kept apart from the others. -/
structure Progress where
  /-- All tables but the current one. -/
  root : Table
  /-- The current table. -/
  current : Table
  /-- The path in the header of the current table; empty at the start of the file. -/
  path : List String
  /-- Whether the current table is one of an array. -/
  isRow : Bool

namespace Progress

/-- The start of a file. -/
def start : Progress := ⟨.empty, .empty, [], false⟩

/-- Put the current table into its place. -/
def finish (progress : Progress) : Option Table :=
  match progress.path.getLast? with
  | none => some progress.current
  | some key =>
      Table.modifyAt false (fun parent =>
        if progress.isRow then
          match parent.get? key with
          | none => some (parent.insert key (.tables [progress.current.entries]))
          | some (.tables rows) =>
              some (parent.insert key (.tables (rows ++ [progress.current.entries])))
          | some _ => none
        else if (parent.get? key).isSome then none
        else some (parent.insert key progress.current.toItem)) progress.path.dropLast progress.root

/-- The table a header opens: a new one, or one that was opened implicitly by headers. -/
def reopened : Option Item → Option Table
  | none => some .empty
  | some (.table true false entries) => some ⟨false, false, entries⟩
  | some _ => none

/-- The item of a key in the table at a path, if the path can be followed. -/
def itemAt (root : Table) : List String → String → Option Item
  | [], key => root.get? key
  | step :: path, key =>
      match root.get? step with
      | some (.table implicit dotted entries) => itemAt ⟨implicit, dotted, entries⟩ path key
      | some (.tables rows) => (rows.getLast?).bind fun last => itemAt ⟨false, false, last⟩ path key
      | _ => none

/-- Begin the table of a header. -/
def openTable (progress : Progress) (path : List String) : Option Progress := do
  let root ← progress.finish
  let key ← path.getLast?
  let parent := path.dropLast
  let current ← reopened (itemAt root parent key)
  let root ← Table.modifyAt false (fun table => some (table.erase key)) parent root
  return ⟨root, current, path, false⟩

/-- Begin a table of an array of tables. -/
def openRow (progress : Progress) (path : List String) : Option Progress := do
  let root ← progress.finish
  let key ← path.getLast?
  let root ← Table.modifyAt false (fun table =>
    match table.get? key with
    | none => some (table.insert key (.tables []))
    | some (.tables _) => some table
    | some _ => none) path.dropLast root
  return ⟨root, .empty, path, true⟩

/-- Set a key in the current table. -/
def assign (progress : Progress) (path : List String) (key : String) (item : Item) :
    Option Progress := do
  return { progress with current := ← progress.current.assign path key item }

end Progress
end TriggerGraph.Toml
