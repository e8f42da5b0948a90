import TriggerGraph.Object.Check
import TriggerGraph.Script.Counter

/-!
# Trigger objects

The objects that scripts are made into.  Those that name a target refuse a reference that is not a
group; the others always succeed.
-/

namespace TriggerGraph

/-- What a sequence does after its last step. -/
inductive SequenceMode where
  | stop
  | loop
  | last
  deriving DecidableEq

/-- When a sequence starts over. -/
inductive SequenceReset where
  | never
  | full
  | step
  deriving DecidableEq

namespace Trigger

/-! ## Codes -/

/-- The code of a change in an item edit. -/
def opCode : CounterOp → Int
  | .set => 0
  | .add => 1
  | .subtract => 2
  | .multiply => 3
  | .divide => 4

/-- The code of a slot kind. -/
def kindCode : CounterKind → Int
  | .item => 1
  | .timer => 2

/-- The code of a comparison in an instant count. -/
def countCode : Comparator → Int
  | .equal => 0
  | .larger => 1
  | .smaller => 2

/-- The code of a comparison in an item comparison. -/
def compareCode : Comparator → Int
  | .equal => 0
  | .larger => 1
  | .smaller => 3

/-- The code of a sequence mode. -/
def modeCode : SequenceMode → Int
  | .stop => 0
  | .loop => 1
  | .last => 2

/-- The code of a sequence reset. -/
def resetCode : SequenceReset → Int
  | .never => 0
  | .full => 1
  | .step => 2

/-- The arithmetic code for adding an operand. -/
def addCode : Int := 0

/-- The arithmetic code for multiplying by an operand. -/
def multiplyCode : Int := 2

/-! ## Objects -/

/-- The object of a type with further fields. -/
def make (type : UInt32) (fields : List (String × Value)) : Object :=
  fields.foldl (fun object field => object.insert field.1 field.2) (.ofType type)

/-- Activate a group, after a delay if that is above zero. -/
def spawn (target : Reference) (delay : Double) : Except FieldError Object :=
  (Object.ofType ObjectType.spawn).setAll
    ((Field.target, .reference target) ::
      if delay.isPositive then [(Field.spawnDuration, .number delay)] else [])

/-- Activate a group with slots renamed; the list holds each slot and its replacement in turn. -/
def remapSpawn (target : Reference) (slots : List Int64) : Except FieldError Object :=
  (Object.ofType ObjectType.spawn).setAll
    [(Field.target, .reference target), (Field.remaps, .integers slots),
      (Field.resetRemap, .boolean true)]

/-- Set an item to a value. -/
def pickupSet (item : UInt32) (value : Double) : Object :=
  make ObjectType.pickup
    [(Field.item, .ofUInt32 item), (Field.count, .number value), (Field.override, .boolean true)]

/-- Add a value to an item. -/
def pickupAdd (item : UInt32) (value : Double) : Object :=
  make ObjectType.pickup [(Field.item, .ofUInt32 item), (Field.count, .number value)]

/-- Multiply or divide an item by a factor. -/
def pickupScale (item : UInt32) (factor : Double) (divide : Bool) : Object :=
  make ObjectType.pickup
    [(Field.item, .ofUInt32 item), (Field.multiplyDivide, .ofInt (if divide then 2 else 1)),
      (Field.modifier, .number factor)]

/-- Change a counter by another. -/
def itemEdit (target source : Counter) (op : CounterOp) : Object :=
  make ObjectType.itemEdit
    [(Field.firstItem, .ofUInt32 source.item), (Field.firstType, .ofInt (kindCode source.kind)),
      (Field.itemTarget, .ofUInt32 target.item),
      (Field.targetType, .ofInt (kindCode target.kind)), (Field.assignOp, .ofInt (opCode op)),
      (Field.firstOp, .ofInt multiplyCode), (Field.factor, .ofInt 1)]

/-- Change a counter by a constant. -/
def itemEditConstant (target : Counter) (value : Double) (op : CounterOp) : Object :=
  make ObjectType.itemEdit
    [(Field.itemTarget, .ofUInt32 target.item),
      (Field.targetType, .ofInt (kindCode target.kind)), (Field.assignOp, .ofInt (opCode op)),
      (Field.firstOp, .ofInt addCode), (Field.factor, .number value)]

/-- Activate a group if an item compares with a count. -/
def instantCount (item : UInt32) (count : Double) (comparator : Comparator)
    (target : Reference) : Except FieldError Object :=
  (Object.ofType ObjectType.instantCount).setAll
    [(Field.item, .ofUInt32 item), (Field.count, .number count),
      (Field.comparison, .ofInt (countCode comparator)), (Field.target, .reference target),
      (Field.activateGroup, .boolean true)]

/-- Activate a group if a counter of either kind compares with a value. -/
def itemCompare (counter : Counter) (value : Double) (comparator : Comparator)
    (target : Reference) : Except FieldError Object :=
  (Object.ofType ObjectType.itemCompare).setAll
    [(Field.firstItem, .ofUInt32 counter.item),
      (Field.firstType, .ofInt (kindCode counter.kind)), (Field.factor, .ofInt 1),
      (Field.firstOp, .ofInt multiplyCode), (Field.secondFactor, .number value),
      (Field.secondOp, .ofInt addCode), (Field.compareOp, .ofInt (compareCode comparator)),
      (Field.target, .reference target)]

/-- Keep the value of a counter over attempts. -/
def persist (counter : Counter) : Object :=
  make ObjectType.itemPersist
    [(Field.item, .ofUInt32 counter.item), (Field.timer, .boolean (counter.kind = .timer)),
      (Field.persistent, .boolean true)]

/-- Activate one group after the other; each step is held for a number of activations. -/
def sequence (steps : List (Reference × UInt32)) (mode : SequenceMode) (minInterval : Double)
    (reset : SequenceReset) : Object :=
  make ObjectType.sequence
    [(Field.sequence, .integers (steps.flatMap fun (group, count) =>
        [Int64.ofNat group.value.toNat, Int64.ofNat count.toNat])),
      (Field.mode, .ofInt (modeCode mode)), (Field.minInterval, .number minInterval),
      (Field.reset, .ofInt (resetCode reset))]

/-- The object that changes a counter.  Items have triggers of their own for constants. -/
def change (counter : Counter) (op : CounterOp) : Amount → Object
  | .counter source => itemEdit counter source op
  | .constant x =>
      match counter.kind, op with
      | .timer, op => itemEditConstant counter x op
      | .item, .set => pickupSet counter.item x
      | .item, .add => pickupAdd counter.item x
      | .item, .subtract => pickupAdd counter.item (-x)
      | .item, .multiply => pickupScale counter.item x false
      | .item, .divide => pickupScale counter.item x true

/-- The object that activates a group when a condition holds. -/
def compare (condition : Condition) (target : Reference) : Except FieldError Object :=
  match condition.counter.kind with
  | .item =>
      instantCount condition.counter.item condition.threshold condition.comparator target
  | .timer => itemCompare condition.counter condition.threshold condition.comparator target

end Trigger
end TriggerGraph
