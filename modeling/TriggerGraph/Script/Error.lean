import TriggerGraph.Level.Encode

/-!
# Errors of compilation
-/

namespace TriggerGraph

/-- Why a statement fails. -/
inductive CompileError where
  | field (cause : FieldError)
  | level (cause : LevelError)
  | unknownContext (name : String)
  | unknownGroup (group : Reference)
  | duplicateContext (name : String)
  | zeroStep
  | unreachable (step stop start : Int64)
  | delay (seconds : Double)
  deriving DecidableEq

/-- The message of a compile error. -/
def CompileError.message : CompileError → String
  | field cause => cause.message
  | level cause => cause.message
  | unknownContext name => "no context named '" ++ name ++ "'"
  | unknownGroup group => "no context owns " ++ group.text
  | duplicateContext name => "context '" ++ name ++ "' already exists"
  | zeroStep => "invalid loop range: step must not be zero"
  | unreachable step stop start =>
      "invalid loop range: step " ++ String.ofList (integerText step.toInt) ++
        " never reaches " ++ String.ofList (integerText stop.toInt) ++
        " from " ++ String.ofList (integerText start.toInt)
  | delay seconds => "invalid delay " ++ seconds.toText

end TriggerGraph
