import TriggerGraph.Object.Basic

/-!
# Group membership

An object lists its groups in one field, in whatever shape a script or a level left there.  Adding a
group is a union on every shape, and moves the field to the end.
-/

namespace TriggerGraph

namespace Value

/-- The groups value after a group joins it; a value that names no groups is replaced. -/
def joinGroup (group : Reference) : Option Value → Value
  | some (.references rs) => .references (if rs.contains group then rs else rs ++ [group])
  | some (.reference r) => .references (if r = group then [r] else [r, group])
  | some (.integers ids) =>
      let id := Int64.ofNat group.value.toNat
      .integers (if ids.contains id then ids else ids ++ [id])
  | some (.number x) =>
      let id := Int64.ofNat group.value.toNat
      .integers (if x.toInt64 = id then [x.toInt64] else [x.toInt64, id])
  | _ => .references [group]

/-- Whether a groups value names a group id, whatever shape it has. -/
def namesGroup (id : UInt32) : Value → Bool
  | references rs => rs.any (·.value == id)
  | reference r => r.value == id
  | integers ids => ids.contains (Int64.ofNat id.toNat)
  | number x => x.toInt64 == Int64.ofNat id.toNat
  | _ => false

end Value

namespace Object

/-- Add an object to a group. -/
def addGroup (object : Object) (group : Reference) : Object :=
  (object.erase Field.groups).insert Field.groups
    (Value.joinGroup group (object.get? Field.groups))

/-- Whether an object belongs to a group. -/
def hasGroup (object : Object) (id : UInt32) : Bool :=
  (object.get? Field.groups).any (Value.namesGroup id)

end Object
end TriggerGraph
