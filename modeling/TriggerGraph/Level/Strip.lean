import TriggerGraph.Level.Decode
import TriggerGraph.Object.Groups

/-!
# Removing marked objects

Objects of an earlier export carry a marker group.  Stripping drops the segments that carry it and
copies every other segment as it stands.
-/

namespace TriggerGraph.Level

/-- A level string without some of its objects. -/
structure Stripped where
  /-- The objects that stay. -/
  level : String
  /-- How many objects were dropped. -/
  removed : Nat
  deriving DecidableEq

/-- Whether the object of a segment carries a group. -/
def isMarked (table : Table) (marker : UInt32) (segment : List Char) : Bool :=
  (decodeSegment table segment).hasGroup marker

/-- Drop every object that carries the marker group. -/
def strip (table : Table) (marker : UInt32) (level : String) : Stripped :=
  let (marked, kept) := (segments level.toList).partition (isMarked table marker)
  { level := String.ofList (kept.flatMap (· ++ [';'])), removed := marked.length }

end TriggerGraph.Level
