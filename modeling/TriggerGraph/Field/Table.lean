import TriggerGraph.Ids.Reference

/-!
# Fields and field tables

A table lists the numbered fields of objects.  Several names may share an id: the first entry with
an id is the canonical one when a level is read, and the last entry with a name is the one used
when it is written.
-/

namespace TriggerGraph

/-- How the values of a field are read and checked. -/
inductive Kind where
  | scalar
  | flag
  /-- A single reference that must carry exactly this domain. -/
  | reference (domain : Domain)
  /-- A dotted list of references. -/
  | references (domain : Domain)
  /-- A dotted list of plain integers. -/
  | list
  deriving DecidableEq

/-- Whether values of the kind are dotted lists. -/
def Kind.isList : Kind → Bool
  | .references _ | .list => true
  | _ => false

/-- One numbered field. -/
structure Field where
  /-- The number that stands for the field in a level string. -/
  id : UInt32
  /-- The name of the field. -/
  name : String
  /-- How its values are read and checked. -/
  kind : Kind
  deriving DecidableEq

/-- The fields known to a reader or a writer of levels. -/
structure Table where
  /-- The entries in the order of registration. -/
  fields : List Field

namespace Table

/-- The canonical field of an id. -/
def byId? (table : Table) (id : UInt32) : Option Field :=
  table.fields.find? (·.id == id)

/-- The field registered last under a name. -/
def byName? (table : Table) (name : String) : Option Field :=
  table.fields.reverse.find? (·.name == name)

/-- The id a name is written as. -/
def idOf? (table : Table) (name : String) : Option UInt32 := (table.byName? name).map (·.id)

/-- The kind of a name. -/
def kindOf? (table : Table) (name : String) : Option Kind := (table.byName? name).map (·.kind)

/-- The domain a name requires, if its values must be references of one domain. -/
def explicitDomain? (table : Table) (name : String) : Option Domain :=
  match table.kindOf? name with
  | some (.reference domain) => some domain
  | _ => none

end Table
end TriggerGraph
