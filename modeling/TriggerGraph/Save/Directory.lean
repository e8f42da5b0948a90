import TriggerGraph.Save.Disk

/-!
# Where save files are

The game keeps its levels in two files of one directory.  The directory is named by a variable, or
is one of two usual places, or else the working directory.
-/

namespace TriggerGraph

/-- A directory with save files. -/
structure SaveDirectory where
  /-- Its path. -/
  path : String
  deriving DecidableEq

namespace SaveDirectory

/-- The file that is read and written. -/
def primary (directory : SaveDirectory) : String := joinPath directory.path "CCLocalLevels.dat"

/-- The file that is only written. -/
def backup (directory : SaveDirectory) : String := joinPath directory.path "CCLocalLevels2.dat"

end SaveDirectory

/-- The variables that tell where things are. -/
structure Surroundings where
  /-- The directory of the save files. -/
  saveDirectory : Option String
  /-- The directory of the user's data. -/
  dataHome : Option String
  /-- The user's directory. -/
  home : Option String

namespace Surroundings

/-- The name of the variable for the directory of the save files. -/
def saveDirectoryVariable : String := "TRIGFORGE_SAVE_DIR"

/-- Whether a path begins at the root. -/
def isAbsolute (path : String) : Bool := path.toList.head? == some '/'

/-- The directory of local data. -/
def localData (surroundings : Surroundings) : Option String :=
  match surroundings.dataHome.filter isAbsolute with
  | some path => some path
  | none => surroundings.home.map (joinPath · ".local/share")

/-- The usual places, the first to be tried first. -/
def candidates (surroundings : Surroundings) : List String :=
  (surroundings.localData.map (joinPath · "GeometryDash")).toList ++
    (surroundings.home.map (joinPath · (".steam/steam/steamapps/compatdata/322170/pfx/drive_c/" ++
      "users/steamuser/AppData/Local/GeometryDash"))).toList

variable {m : Type → Type} [Monad m] [FileSystem m]

/-- The first path that is a directory, or else the working directory. -/
def firstDirectory : List String → m String
  | [] => return "."
  | path :: rest => do
      if ← FileSystem.isDirectory path then return path
      firstDirectory rest

/-- The directory of the save files. -/
def detect (surroundings : Surroundings) : m SaveDirectory :=
  match surroundings.saveDirectory.filter (· != "") with
  | some path => return ⟨path⟩
  | none => do return ⟨← firstDirectory surroundings.candidates⟩

end Surroundings
end TriggerGraph
