import TriggerGraph.Command.Help
import TriggerGraph.Json.Printer
import TriggerGraph.Save.Settings

/-!
# Commands

A command reads its input, works on a save file and prints a text.  It runs on any file system.
-/

namespace TriggerGraph.Command

/-- What is printed and how the program ends. -/
structure Output where
  /-- The exit code. -/
  code : UInt32
  /-- The standard output. -/
  out : String
  /-- The standard error. -/
  err : String
  deriving DecidableEq

/-- What a command is given besides its arguments. -/
structure Request where
  /-- The settings. -/
  settings : Settings
  /-- The directory of the save files. -/
  directory : SaveDirectory
  /-- The bytes on standard input. -/
  input : List UInt8

variable {m : Type → Type} [Monad m] [FileSystem m]

/-- The text of a file, or of standard input. -/
def readInput (request : Request) (file : String) : ExceptT Failure m String :=
  if isInput file then
    Failure.settle (Failure.wrap ["reading stdin"] .file (Failure.textOf request.input))
  else Failure.readText ["reading " ++ file] file

/-- A text without white space at its end. -/
def trimmed (text : String) : String := String.ofList (trimEnd isBlank text.toList)

/-- The level that is named, or else the one in the settings. -/
def wantedLevel (request : Request) (level : Option String) : Option String :=
  level <|> request.settings.level

/-- A number at the end of three columns. -/
def column (n : Nat) : String :=
  let digits := naturalText n
  String.ofList (List.replicate (3 - digits.length) ' ' ++ digits)

/-- The list of level names. -/
def namesText (names : List String) : String :=
  if names.isEmpty then "no levels in save file\n"
  else String.join (names.zipIdx.map fun (name, n) => column (n + 1) ++ "  " ++ name ++ "\n")

/-- Print the names of all levels. -/
def listLevels (request : Request) : ExceptT Failure m String := do
  return namesText (← SaveFile.levelNames request.directory)

/-- Print a level, as it is or as a list of objects. -/
def display (request : Request) (level : Option String) (objects : Bool) :
    ExceptT Failure m String := do
  let file ← SaveFile.openLevel request.directory (wantedLevel request level)
  if objects then
    let decoded := Level.decode .builtin file.data.level
    return String.ofList ((Json.array (decoded.map Object.toJson)).pretty 0) ++ "\n"
  else return file.data.level ++ "\n"

/-- Why a text is refused as a level string. -/
def notLevel : String := "input does not look like a level string (expected a trailing ';')"

/-- A text that is empty or ends like a level string. -/
def checkLevel (text : String) : Except Failure String :=
  match text.toList.getLast? with
  | none | some ';' => .ok text
  | some _ => .error ⟨[], .refusal notLevel⟩

/-- Replace a level by a level string, or continue it. -/
def writeLevel (request : Request) (level : Option String) (file : String) (append : Bool) :
    ExceptT Failure m String := do
  let text ← readInput request file
  let text ← Failure.settle (checkLevel (trimmed text))
  let opened ← SaveFile.openLevel request.directory (wantedLevel request level)
  let changed ← Failure.settle (Failure.wrap [] .save
    (if append then opened.add text else opened.set text))
  changed.save
  return "updated '" ++ changed.data.name ++ "'\n"

/-- Drop the marked objects of a level. -/
def clean (request : Request) (level : Option String) (marker : Option UInt32) :
    ExceptT Failure m String := do
  let marker := marker.getD request.settings.marker
  let opened ← SaveFile.openLevel request.directory (wantedLevel request level)
  let stripped := Level.strip .builtin marker opened.data.level
  if stripped.removed = 0 then
    return "nothing tagged with group " ++ String.ofList (naturalText marker.toNat) ++ "\n"
  let changed ← Failure.settle (Failure.wrap [] .save (opened.set stripped.level))
  changed.save
  return "removed " ++ String.ofList (naturalText stripped.removed) ++ " objects from '" ++
    changed.data.name ++ "'\n"

/-- Print the payload of a level string. -/
def encode (request : Request) (file : String) : ExceptT Failure m String := do
  return Level.toPayload (trimmed (← readInput request file)) ++ "\n"

/-- Print the level string of a payload. -/
def decode (request : Request) (file : String) : ExceptT Failure m String := do
  let text ← readInput request file
  let level ← Failure.settle (Failure.wrap [] .payload (Level.ofPayload text))
  return level ++ "\n"

/-- Do what is asked. -/
def perform (request : Request) : Action → ExceptT Failure m String
  | .levels => listLevels request
  | .display level objects => display request level objects
  | .set level file => writeLevel request level file false
  | .append level file => writeLevel request level file true
  | .clean level marker => clean request level marker
  | .encode file => encode request file
  | .decode file => decode request file

/-- Load the settings, find the save files, and do what is asked. -/
def execute (surroundings : Surroundings) (input : List UInt8) (arguments : Arguments) :
    ExceptT Failure m String := do
  let settings ←
    match arguments.settings with
    | some path => Settings.load path
    | none => Settings.loadFrom "."
  let directory ←
    match arguments.saveDirectory with
    | some path => pure ⟨path⟩
    | none => ExceptT.lift (settings.directory surroundings)
  perform ⟨settings, directory, input⟩ arguments.action

/-- Run the program on a command line. -/
def run (surroundings : Surroundings) (input : List UInt8) (words : List String) : m Output := do
  match Arguments.parse words with
  | .error .version => return ⟨0, versionText, ""⟩
  | .error (.help topic) => return ⟨0, helpText topic, ""⟩
  | .error .invalid => return ⟨2, "", invalidText⟩
  | .ok arguments =>
      match ← (execute surroundings input arguments).run with
      | .ok out => return ⟨0, out, ""⟩
      | .error failure => return ⟨1, "", failure.report⟩

end TriggerGraph.Command
