import TriggerGraph.Save.Failure

/-!
# Files

What a command needs of a file system, and a file system in memory.  A path is resolved name by
name; it may lead through directories only.
-/

namespace TriggerGraph

/-- Access to files by path. -/
class FileSystem (m : Type → Type) where
  /-- The bytes of a file. -/
  read : String → m (Except FileFault (List UInt8))
  /-- Replace or create a file. -/
  write : String → List UInt8 → m (Except FileFault Unit)
  /-- Whether there is anything at a path. -/
  holds : String → m Bool
  /-- Whether there is a directory at a path. -/
  isDirectory : String → m Bool

namespace Failure

/-- A result, or a failure in the course of something. -/
def wrap (during : List String) (cause : ε → Cause) : Except ε α → Except Failure α
  | .ok result => .ok result
  | .error error => .error ⟨during, cause error⟩

variable {m : Type → Type} [Monad m]

/-- A result as that of an action that needs no files. -/
def settle (result : Except Failure α) : ExceptT Failure m α := ExceptT.mk (pure result)

/-- The result of an action on files, in the course of something. -/
def ofFiles (during : List String) (action : m (Except FileFault α)) : ExceptT Failure m α :=
  ExceptT.mk (do return wrap during .file (← action))

/-- The text that bytes stand for. -/
def textOf (bytes : List UInt8) : Except FileFault String :=
  (Utf8.decode bytes).mapError fun _ => .notText

/-- A file as text. -/
def readText [FileSystem m] (during : List String) (path : String) : ExceptT Failure m String :=
  ofFiles during (do return (← FileSystem.read path).bind textOf)

end Failure

/-- A path continued by another; one that begins at the root replaces it. -/
def joinPath (base name : String) : String :=
  match base.toList.getLast?, name.toList.head? with
  | none, _ => name
  | _, some '/' => name
  | some '/', _ => base ++ name
  | _, _ => base ++ "/" ++ name

/-- What no path may be: one with a zero character in it, or one of four thousand and ninety-six
bytes and more. -/
def checkPath (path : String) : Except FileFault Unit :=
  if path.toList.contains (Char.ofNat 0) then .error .nameWithZero
  else if 4096 ≤ path.utf8ByteSize then .error .nameTooLong
  else .ok ()

/-- What stands at a path. -/
inductive DiskEntry where
  | file (bytes : List UInt8)
  | directory
  deriving DecidableEq

/-- A file system in memory. -/
structure Disk where
  /-- The directory that other paths start from, as names from the root. -/
  working : List String
  /-- What stands where, the latest first. -/
  entries : List (List String × DiskEntry)
  deriving DecidableEq

namespace Disk

/-- What stands at a list of names; the root is a directory. -/
def get? (disk : Disk) (names : List String) : Option DiskEntry :=
  if names = [] then some .directory else disk.entries.lookup names

/-- Put something at a list of names. -/
def put (disk : Disk) (names : List String) (entry : DiskEntry) : Disk :=
  { disk with entries := (names, entry) :: disk.entries.filter (·.1 != names) }

/-- Put a directory at a list of names, and at everything that leads there. -/
def makeDirectory (disk : Disk) (names : List String) : Disk :=
  (List.range (names.length + 1)).foldl
    (fun disk count => if count = 0 then disk else disk.put (names.take count) .directory) disk

/-- A file system with nothing but the directory it works in. -/
def inDirectory (working : List String) : Disk :=
  (Disk.mk working []).makeDirectory working

/-- Follow names from a place; every name but the last must be that of a directory, and none may be
longer than two hundred and fifty-five bytes. -/
def follow (disk : Disk) (place : List String) : List String → Except FileFault (List String)
  | [] => .ok place
  | name :: rest =>
      match disk.get? place with
      | none => .error .notFound
      | some (.file _) => .error .notDirectory
      | some .directory =>
          if name = "" ∨ name = "." then disk.follow place rest
          else if name = ".." then disk.follow place.dropLast rest
          else if 255 < name.utf8ByteSize then .error .nameTooLong
          else disk.follow (place ++ [name]) rest

/-- The names from the root that a path stands for. -/
def resolve (disk : Disk) (path : String) : Except FileFault (List String) := do
  checkPath path
  match path.toList with
  | [] => .error .notFound
  | '/' :: rest => disk.follow [] ((splitAtChar '/' rest).map String.ofList)
  | text => disk.follow disk.working ((splitAtChar '/' text).map String.ofList)

/-- What stands at a path. -/
def look (disk : Disk) (path : String) : Except FileFault DiskEntry := do
  match disk.get? (← disk.resolve path) with
  | some entry => return entry
  | none => throw .notFound

/-- The bytes of a file. -/
def read (disk : Disk) (path : String) : Except FileFault (List UInt8) := do
  match ← disk.look path with
  | .file bytes => return bytes
  | .directory => throw .isDirectory

/-- The file system after a file was written. -/
def write (disk : Disk) (path : String) (bytes : List UInt8) : Except FileFault Disk := do
  let names ← disk.resolve path
  match disk.get? names, disk.get? names.dropLast with
  | some .directory, _ => throw .isDirectory
  | _, none => throw .notFound
  | _, some (.file _) => throw .notDirectory
  | _, some .directory => return disk.put names (.file bytes)

instance : FileSystem (StateM Disk) where
  read path := return (← get).read path
  write path bytes := do
    match (← get).write path bytes with
    | .ok disk =>
        set disk
        return .ok ()
    | .error fault => return .error fault
  holds path := do
    match (← get).look path with
    | .ok _ => return true
    | .error _ => return false
  isDirectory path := do
    match (← get).look path with
    | .ok .directory => return true
    | _ => return false

end Disk
end TriggerGraph
