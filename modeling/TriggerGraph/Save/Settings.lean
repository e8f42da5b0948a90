import TriggerGraph.Save.Export
import TriggerGraph.Toml.Reader

/-!
# Settings

Settings are kept in an optional file.  Keys that are not known are ignored, and a key that is not
set has its default.
-/

namespace TriggerGraph

/-- The settings of the program. -/
structure Settings where
  /-- The directory of the save files. -/
  saveDirectory : Option String
  /-- The level to work on. -/
  level : Option String
  /-- Whether an export drops what was exported before. -/
  replace : Bool
  /-- The group that marks what is exported. -/
  marker : UInt32
  /-- Seconds between two checks of a loop. -/
  loopDelay : Double

namespace Settings

/-- The settings of a missing file. -/
def standard : Settings := ⟨none, none, true, defaultMarker, CompilerOptions.standard.loopDelay⟩

/-- Whether the settings are those of a missing file; delays are compared as numbers. -/
def isStandard (settings : Settings) : Bool :=
  settings.saveDirectory.isNone && settings.level.isNone && settings.replace &&
    settings.marker == defaultMarker && settings.loopDelay.sameNumber standard.loopDelay

/-- The name of the settings file. -/
def fileName : String := "trigforge.toml"

/-- Read a key if it is set. -/
def field (table : Toml.Table) (key : String) (read : Toml.Value → Option α) :
    Option (Option α) :=
  match table.get? key with
  | none => some none
  | some (.value value) => (read value).map some
  | some _ => none

/-- A text. -/
def textOf : Toml.Value → Option String
  | .string text => some text
  | _ => none

/-- A choice. -/
def choiceOf : Toml.Value → Option Bool
  | .boolean b => some b
  | _ => none

/-- A group id. -/
def groupOf : Toml.Value → Option UInt32
  | .integer n => if 0 ≤ n ∧ n < UInt32.size then some (UInt32.ofNat n.toNat) else none
  | _ => none

/-- A number; a whole number is one too. -/
def numberOf : Toml.Value → Option Double
  | .float x => some x
  | .integer n => some (.ofInt n)
  | _ => none

/-- The settings in a table. -/
def ofTable (table : Toml.Table) : Option Settings := do
  let saveDirectory ← field table "save_dir" textOf
  let level ← field table "level" textOf
  let replace ← field table "replace_past_objects" choiceOf
  let marker ← field table "marker_group" groupOf
  let loopDelay ← field table "loop_delay" numberOf
  return ⟨saveDirectory, level, replace.getD standard.replace, marker.getD standard.marker,
    loopDelay.getD standard.loopDelay⟩

/-- The settings for compiling; the marker is kept back only if it will be used. -/
def compilerOptions (settings : Settings) : CompilerOptions :=
  ⟨settings.loopDelay, if settings.replace then some settings.marker else none⟩

/-- The settings for exporting. -/
def exportOptions (settings : Settings) : ExportOptions :=
  ⟨settings.level, settings.replace, settings.marker⟩

variable {m : Type → Type} [Monad m] [FileSystem m]

/-- The settings in a file. -/
def load (path : String) : ExceptT Failure m Settings := do
  let text ← Failure.readText ["reading config " ++ path] path
  match (Toml.parse text).bind ofTable with
  | some settings => return settings
  | none => throw ⟨["parsing config " ++ path], .settings⟩

/-- The settings in the settings file of a directory, if there is one. -/
def loadFrom (directory : String) : ExceptT Failure m Settings := do
  let path := joinPath directory fileName
  if ← (FileSystem.holds path : m Bool) then load path else return standard

/-- The directory of the save files. -/
def directory (settings : Settings) (surroundings : Surroundings) : m SaveDirectory :=
  match settings.saveDirectory with
  | some path => return ⟨path⟩
  | none => surroundings.detect

end Settings
end TriggerGraph
