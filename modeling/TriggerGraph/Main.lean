import TriggerGraph.Command.Run

/-!
# The program

The command line on the files, variables and streams of the system it runs on.
-/

namespace TriggerGraph.Command

/-- The number of an error, which some calls report with a minus sign. -/
def errorNumber (code : UInt32) : UInt32 := if code < 0x80000000 then code else 0 - code

/-- The fault that the system reports. -/
def faultOf : IO.Error → FileFault
  | .noFileOrDirectory _ _ _ => .notFound
  | .inappropriateType _ code message =>
      if errorNumber code = 20 then .notDirectory
      else if errorNumber code = 21 then .isDirectory
      else .other (message ++ " (os error " ++ toString (errorNumber code) ++ ")")
  | .invalidArgument (some _) code message =>
      if errorNumber code = 36 then .nameTooLong
      else .other (message ++ " (os error " ++ toString (errorNumber code) ++ ")")
  | .permissionDenied _ code _ =>
      .other ("Permission denied (os error " ++ toString (errorNumber code) ++ ")")
  | error => .other (toString error)

/-- The result of an action on a file of the system. -/
def attempt (path : String) (action : IO α) : IO (Except FileFault α) := do
  match checkPath path with
  | .error fault => return .error fault
  | .ok () => try return .ok (← action) catch error => return .error (faultOf error)

/-- The bytes of a file of the system. -/
def readSystem (path : String) : IO (Except FileFault (List UInt8)) :=
  attempt path (return (← IO.FS.readBinFile path).toList)

instance : FileSystem IO where
  read := readSystem
  write path bytes := attempt path (IO.FS.writeBinFile path ⟨bytes.toArray⟩)
  holds path := do
    match ← readSystem path with
    | .ok _ | .error .isDirectory | .error (.other _) => return true
    | .error _ => return false
  isDirectory path := do
    match ← readSystem path with
    | .error .isDirectory => return true
    | _ => return false

/-- The bytes on standard input, if they are asked for. -/
def readStandardInput (words : List String) : IO (List UInt8) := do
  match Arguments.parse words with
  | .ok arguments =>
      if arguments.action.readsInput then return (← (← IO.getStdin).readBinToEnd).toList
      else return []
  | .error _ => return []

end TriggerGraph.Command

open TriggerGraph in
/-- Run the program. -/
def main (words : List String) : IO UInt32 := do
  let surroundings : Surroundings := {
    saveDirectory := ← IO.getEnv Surroundings.saveDirectoryVariable
    dataHome := ← IO.getEnv "XDG_DATA_HOME"
    home := ← IO.getEnv "HOME" }
  let input ← Command.readStandardInput words
  let output : Command.Output ← Command.run surroundings input words
  IO.print output.out
  IO.eprint output.err
  return output.code
