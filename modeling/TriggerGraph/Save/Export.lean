import TriggerGraph.Level.Strip
import TriggerGraph.Save.File
import TriggerGraph.Script.Compiler

/-!
# Exporting

The objects of a compilation are written into a level.  With replacement they carry a marker group,
and the objects that carried it before are dropped.
-/

namespace TriggerGraph

/-- How to export. -/
structure ExportOptions where
  /-- The level to write to; the first level if none is named. -/
  level : Option String
  /-- Whether to drop what was exported before. -/
  replace : Bool
  /-- The group that marks what is exported. -/
  marker : UInt32
  deriving DecidableEq

/-- What an export did. -/
structure ExportSummary where
  /-- The name of the level. -/
  level : String
  /-- The number of objects written. -/
  added : Nat
  /-- The number of objects dropped. -/
  removed : Nat
  deriving DecidableEq

/-- The group that marks exports unless another is chosen. -/
def defaultMarker : UInt32 := 9999

namespace Export

/-- The refusal of a marker that the script uses itself. -/
def markerInUse (marker : UInt32) : String :=
  "marker group " ++ String.ofList (naturalText marker.toNat) ++
    " is already used by the compiled script; choose another marker_group"

/-- The objects to write. -/
def objects (compiler : Compiler) (options : ExportOptions) : Except Failure (List Object) :=
  if options.replace then
    if compiler.isGroupInUse options.marker then
      .error ⟨[], .refusal (markerInUse options.marker)⟩
    else .ok (compiler.flush.map (·.addGroup (.group options.marker)))
  else .ok compiler.flush

/-- The level that stays, and how many objects are dropped from it. -/
def remaining (options : ExportOptions) (level : String) : Level.Stripped :=
  if options.replace then Level.strip .builtin options.marker level else ⟨level, 0⟩

/-- The objects to write with the level string of them all. -/
def prepare (compiler : Compiler) (options : ExportOptions) :
    Except Failure (List Object × String) := do
  let objects ← objects compiler options
  let encoded ← Failure.wrap ["encoding compiled objects"] .level (Level.encode .builtin objects)
  return (objects, encoded)

/-- Put prepared objects into the selected level of a save file. -/
def place (options : ExportOptions) (prepared : List Object × String) (file : SaveFile) :
    Except Failure (SaveFile × ExportSummary) := do
  let kept := remaining options file.data.level
  let file ← Failure.wrap [] .save (file.set (kept.level ++ prepared.2))
  return (file, ⟨file.data.name, prepared.1.length, kept.removed⟩)

variable {m : Type → Type} [Monad m] [FileSystem m]

/-- Write the objects of a compilation into a level of a save file. -/
def run (compiler : Compiler) (directory : SaveDirectory) (options : ExportOptions) :
    ExceptT Failure m ExportSummary := do
  let prepared ← Failure.settle (prepare compiler options)
  let file ← SaveFile.openLevel directory options.level
  let (file, summary) ← Failure.settle (place options prepared file)
  file.save
  return summary

end Export
end TriggerGraph
