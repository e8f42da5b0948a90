import TriggerGraph.Save.Dictionary
import TriggerGraph.Save.Directory

/-!
# Save files

A save file is opened with one of its levels selected.  The level string can be replaced or
continued, and the whole document is written back to both files.
-/

namespace TriggerGraph

open Markup

/-- The selected level. -/
structure SaveData where
  /-- Its name. -/
  name : String
  /-- Its payload as it stands in the document. -/
  payload : String
  /-- Its level string. -/
  level : String
  deriving DecidableEq

/-- A save file with one level selected. -/
structure SaveFile where
  /-- Where it is. -/
  directory : SaveDirectory
  /-- The document. -/
  document : Document
  /-- The path of the selected level. -/
  entry : List Nat
  /-- The selected level. -/
  data : SaveData
  deriving DecidableEq

namespace SaveFile

/-! ## Opening -/

/-- The path of the first level, or of the first with the wanted name. -/
def select (document : Document) : Option String → Except SaveError (List Nat)
  | some wanted =>
      match document.levels.find? fun path =>
          (document.element? path).any fun element => element.levelName == wanted with
      | some path => .ok path
      | none => .error (.levelNotFound wanted)
  | none =>
      match document.levels with
      | path :: _ => .ok path
      | [] => .error .noLevels

/-- The payload of a level as it stands in the document; empty if there is none. -/
def payloadOf (element : Element) : Except SaveError String :=
  match element.value? Element.levelPayloadKey with
  | some value => value.text.mapError fun fault => .malformed (.entity fault)
  | none => .ok ""

/-- The level string of a payload; a blank payload stands for the empty level. -/
def levelOf (payload : String) : Except PayloadError String :=
  if payload.toList.all isBlank then .ok "" else Level.ofPayload payload

/-- Read a document. -/
def readDocument (text : String) : Except SaveError Document :=
  (Document.parse text).mapError .ofParseError

/-- Select a level in the text of a document. -/
def ofText (directory : SaveDirectory) (text : String) (wanted : Option String) :
    Except Failure SaveFile := do
  let document ← Failure.wrap ["parsing save document"] .save (readDocument text)
  let entry ← Failure.wrap [] .save (select document wanted)
  let element ← Failure.wrap [] .save
    (match document.element? entry with
    | some element => .ok element
    | none => .error (.malformed .levelVanished))
  let name := element.levelName
  let payload ← Failure.wrap [] .save (payloadOf element)
  let level ← Failure.wrap ["decoding payload of level '" ++ name ++ "'"] .payload (levelOf payload)
  return ⟨directory, document, entry, ⟨name, payload, level⟩⟩

variable {m : Type → Type} [Monad m] [FileSystem m]

/-- The bytes of the primary file. -/
def readPrimary (directory : SaveDirectory) : ExceptT Failure m (List UInt8) :=
  Failure.ofFiles ["reading save file " ++ directory.primary] (FileSystem.read directory.primary)

/-- Open the primary file and select a level. -/
def openLevel (directory : SaveDirectory) (wanted : Option String) :
    ExceptT Failure m SaveFile := do
  let bytes ← readPrimary directory
  Failure.settle (do
    let text ← Failure.wrap ["decrypting " ++ directory.primary] (.save ∘ .container)
      (Container.decrypt bytes)
    ofText directory text wanted)

/-- The names of the levels in a document. -/
def namesIn (document : Document) : List String :=
  document.levels.filterMap fun path => (document.element? path).map Element.levelName

/-- The names of the levels in the primary file. -/
def levelNames (directory : SaveDirectory) : ExceptT Failure m (List String) := do
  let bytes ← readPrimary directory
  Failure.settle (do
    let text ← Failure.wrap [] (.save ∘ .container) (Container.decrypt bytes)
    let document ← Failure.wrap [] .save (readDocument text)
    return namesIn document)

/-! ## Changing -/

/-- Replace the level string. -/
def set (file : SaveFile) (level : String) : Except SaveError SaveFile :=
  match file.document.element? file.entry with
  | none => .error (.malformed .levelVanished)
  | some _ =>
      let payload := Level.toPayload level
      .ok { file with
        document := file.document.update file.entry (·.setString Element.levelPayloadKey payload)
        data := { file.data with payload, level } }

/-- Continue the level string. -/
def add (file : SaveFile) (level : String) : Except SaveError SaveFile :=
  file.set (file.data.level ++ level)

/-! ## Saving -/

/-- Write the container of a save file to a path. -/
def writeTo (path : String) (bytes : List UInt8) : ExceptT Failure m Unit :=
  Failure.ofFiles ["writing save file " ++ path] (FileSystem.write path bytes)

/-- Write the document to the primary file, then to the backup. -/
def save (file : SaveFile) : ExceptT Failure m Unit := do
  let bytes := Container.encrypt file.document.write
  writeTo file.directory.primary bytes
  writeTo file.directory.backup bytes

end SaveFile
end TriggerGraph
