import TriggerGraph.Level.Encode
import TriggerGraph.Level.Payload
import TriggerGraph.Markup.Document
import TriggerGraph.Save.Container

/-!
# Failures

What went wrong, and in the course of what.  A failure reads as a row of messages: what was being
done, outermost first, then what went wrong, then what caused that.
-/

namespace TriggerGraph

/-- What is wrong with a document as a whole. -/
inductive Malformation where
  | neverClosed (name : String)
  | entity (cause : Markup.EntityFault)
  | levelVanished
  deriving DecidableEq

/-- The message of a malformation. -/
def Malformation.message : Malformation → String
  | neverClosed name => "element <" ++ name ++ "> is never closed"
  | entity cause => cause.message
  | levelVanished => "level entry vanished"

/-- Why a save file cannot be used. -/
inductive SaveError where
  | levelNotFound (name : String)
  | noLevels
  | malformed (what : Malformation)
  | container (cause : ContainerError)
  | markup (cause : Markup.Fault)
  deriving DecidableEq

namespace SaveError

/-- The message of a save error. -/
def message : SaveError → String
  | levelNotFound name => "no level named '" ++ name ++ "' in the save file"
  | noLevels => "the save file contains no levels"
  | malformed what => "malformed save document: " ++ what.message
  | container cause => cause.message
  | markup cause => cause.message

/-- The messages of a save error and of its cause. -/
def chain (error : SaveError) : List String :=
  match error with
  | container cause => [error.message, cause.cause]
  | markup cause => [error.message, cause.cause]
  | _ => [error.message]

/-- The save error of a text that is no document. -/
def ofParseError : Markup.ParseError → SaveError
  | .fault cause => markup cause
  | .neverClosed name => malformed (.neverClosed name)

end SaveError

/-- Why a file cannot be read or written. -/
inductive FileFault where
  | notFound
  | notDirectory
  | isDirectory
  | nameTooLong
  | nameWithZero
  | notText
  | other (message : String)
  deriving DecidableEq

/-- The message of a file fault. -/
def FileFault.message : FileFault → String
  | notFound => "No such file or directory (os error 2)"
  | notDirectory => "Not a directory (os error 20)"
  | isDirectory => "Is a directory (os error 21)"
  | nameTooLong => "File name too long (os error 36)"
  | nameWithZero => "file name contained an unexpected NUL byte"
  | notText => "stream did not contain valid UTF-8"
  | other message => message

/-- What goes wrong in the end. -/
inductive Cause where
  | save (error : SaveError)
  | payload (error : PayloadError)
  | level (error : LevelError)
  | file (fault : FileFault)
  | settings
  | refusal (message : String)
  deriving DecidableEq

/-- The messages of a cause. -/
def Cause.chain : Cause → List String
  | save error => error.chain
  | payload error => [error.message, error.cause]
  | level error => [error.message]
  | file fault => [fault.message]
  | settings => ["TOML parse error"]
  | refusal message => [message]

/-- A cause in the course of something. -/
structure Failure where
  /-- What was being done, outermost first. -/
  during : List String
  /-- What went wrong. -/
  cause : Cause
  deriving DecidableEq

namespace Failure

/-- All messages of a failure. -/
def chain (failure : Failure) : List String := failure.during ++ failure.cause.chain

/-- All messages of a failure in one line. -/
def message (failure : Failure) : String := ": ".intercalate failure.chain

/-- A text indented as one item; the lines after its first are indented further. -/
def indented (first others text : List Char) : List Char :=
  first ++ text.flatMap fun c => if c = '\n' then c :: others else [c]

/-- The causes below a message, numbered if there is more than one. -/
def causesText (causes : List String) : List Char :=
  match causes with
  | [cause] => indented "\n    ".toList "    ".toList cause.toList
  | _ =>
      causes.zipIdx.flatMap fun (cause, n) =>
        let number := naturalText n
        indented ('\n' :: List.replicate (5 - number.length) ' ' ++ number ++ ": ".toList)
          "       ".toList cause.toList

/-- A failure as it is shown to the user. -/
def report (failure : Failure) : String :=
  match failure.chain with
  | [] => ""
  | [message] => "Error: " ++ message ++ "\n"
  | message :: causes =>
      "Error: " ++ message ++ "\n\nCaused by:" ++ String.ofList (causesText causes) ++ "\n"

end Failure
end TriggerGraph
