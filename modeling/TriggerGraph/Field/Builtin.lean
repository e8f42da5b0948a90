import TriggerGraph.Field.Table

/-!
# The fields and objects the compiler emits

The game's full table is larger; these entries cover every object the compiler writes.
-/

namespace TriggerGraph

namespace Field

def objectId : String := "OBJ_ID"
def x : String := "X"
def y : String := "Y"
def duration : String := "DURATION"
def targetColor : String := "TARGET_COLOR"
def target : String := "TARGET"
def itemTarget : String := "ITEM_TARGET"
def activateGroup : String := "ACTIVATE_GROUP"
def groups : String := "GROUPS"
def spawnTriggered : String := "SPAWN_TRIGGERED"
def spawnDuration : String := "SPAWN_DURATION"
def targetPosition : String := "TARGET_POS"
def falseId : String := "FALSE_ID"
def count : String := "COUNT"
def item : String := "ITEM"
def firstItem : String := "ITEM_ID_1"
def multiTriggered : String := "MULTI_TRIGGERED"
def comparison : String := "COMPARISON"
def multiplyDivide : String := "MULTIPLY_DIVIDE"
def secondItem : String := "ITEM_ID_2"
def override : String := "OVERRIDE"
def sequence : String := "SEQUENCE"
def mode : String := "MODE"
def minInterval : String := "MIN_INT"
def reset : String := "RESET"
def remaps : String := "REMAPS"
def modifier : String := "MODIFIER"
def firstType : String := "TYPE_1"
def secondType : String := "TYPE_2"
def targetType : String := "TARGET_TYPE"
def factor : String := "MOD"
def assignOp : String := "ASSIGN_OP"
def compareOp : String := "COMPARE_OP"
def firstOp : String := "OP_1"
def secondOp : String := "OP_2"
def secondFactor : String := "MOD_2"
def persistent : String := "PERSISTENT"
def targetAll : String := "TARGET_ALL"
def persistReset : String := "PERSIST_RESET"
def timer : String := "TIMER"
def resetRemap : String := "RESET_REMAP"

end Field

/-- The table of every field the compiler emits. -/
def Table.builtin : Table where
  fields := [
    ⟨1, Field.objectId, .scalar⟩,
    ⟨2, Field.x, .scalar⟩,
    ⟨3, Field.y, .scalar⟩,
    ⟨10, Field.duration, .scalar⟩,
    ⟨23, Field.targetColor, .reference .color⟩,
    ⟨51, Field.target, .reference .group⟩,
    ⟨51, Field.itemTarget, .scalar⟩,
    ⟨56, Field.activateGroup, .flag⟩,
    ⟨57, Field.groups, .references .group⟩,
    ⟨62, Field.spawnTriggered, .flag⟩,
    ⟨63, Field.spawnDuration, .scalar⟩,
    ⟨71, Field.targetPosition, .scalar⟩,
    ⟨71, Field.falseId, .scalar⟩,
    ⟨77, Field.count, .scalar⟩,
    ⟨80, Field.item, .scalar⟩,
    ⟨80, Field.firstItem, .scalar⟩,
    ⟨87, Field.multiTriggered, .flag⟩,
    ⟨88, Field.comparison, .scalar⟩,
    ⟨88, Field.multiplyDivide, .scalar⟩,
    ⟨95, Field.secondItem, .scalar⟩,
    ⟨139, Field.override, .flag⟩,
    ⟨435, Field.sequence, .list⟩,
    ⟨436, Field.mode, .scalar⟩,
    ⟨437, Field.minInterval, .scalar⟩,
    ⟨438, Field.reset, .scalar⟩,
    ⟨442, Field.remaps, .list⟩,
    ⟨449, Field.modifier, .scalar⟩,
    ⟨476, Field.firstType, .scalar⟩,
    ⟨477, Field.secondType, .scalar⟩,
    ⟨478, Field.targetType, .scalar⟩,
    ⟨479, Field.factor, .scalar⟩,
    ⟨480, Field.assignOp, .scalar⟩,
    ⟨480, Field.compareOp, .scalar⟩,
    ⟨481, Field.firstOp, .scalar⟩,
    ⟨482, Field.secondOp, .scalar⟩,
    ⟨483, Field.secondFactor, .scalar⟩,
    ⟨491, Field.persistent, .flag⟩,
    ⟨492, Field.targetAll, .flag⟩,
    ⟨493, Field.persistReset, .flag⟩,
    ⟨494, Field.timer, .flag⟩,
    ⟨581, Field.resetRemap, .flag⟩]

namespace ObjectType

/-- Activates a group, at once or after a delay. -/
def spawn : UInt32 := 1268
/-- Activates a group when an item compares true. -/
def instantCount : UInt32 := 1811
/-- Changes an item by a constant. -/
def pickup : UInt32 := 1817
/-- Steps through a list of groups, one step for each activation. -/
def sequence : UInt32 := 3607
/-- Assigns to an item or timer. -/
def itemEdit : UInt32 := 3619
/-- Activates a group when an item or timer compares true. -/
def itemCompare : UInt32 := 3620
/-- Keeps an item or timer from attempt to attempt. -/
def itemPersist : UInt32 := 3641

end ObjectType
end TriggerGraph
