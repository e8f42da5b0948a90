import TriggerGraph.Number.Reader
import TriggerGraph.Text.Split

/-!
# Command-line arguments

Options may stand before or after the command.  An option's value follows it, or is attached to it;
an argument that begins with a dash is never taken for a value unless it is a dash alone or
attached.  A value that follows its option is looked at when the next option comes, or at the end,
so that a question for help that comes first is answered first.
-/

namespace TriggerGraph.Command

/-- What the program is asked to do. -/
inductive Action where
  | levels
  | display (level : Option String) (objects : Bool)
  | set (level : Option String) (file : String)
  | append (level : Option String) (file : String)
  | clean (level : Option String) (marker : Option UInt32)
  | encode (file : String)
  | decode (file : String)
  deriving DecidableEq

/-- Whether a file is standard input, which is named by a dash; empty names and dots after it do not
count. -/
def isInput (file : String) : Bool :=
  match splitAtChar '/' file.toList with
  | ['-'] :: rest => rest.all fun name => name == [] || name == ['.']
  | _ => false

/-- Whether standard input is read. -/
def Action.readsInput : Action → Bool
  | set _ file | append _ file | encode file | decode file => isInput file
  | _ => false

/-- The commands by name. -/
inductive Verb where
  | levels
  | display
  | set
  | append
  | clean
  | encode
  | decode
  deriving DecidableEq

namespace Verb

/-- All commands in the order they are listed. -/
def all : List Verb := [levels, display, set, append, clean, encode, decode]

/-- The name of a command. -/
def name : Verb → String
  | levels => "levels"
  | display => "show"
  | set => "set"
  | append => "append"
  | clean => "clean"
  | encode => "encode"
  | decode => "decode"

/-- The command with a name. -/
def ofName? (name : String) : Option Verb := all.find? (·.name == name)

/-- Whether a command works on a level that can be named. -/
def takesLevel : Verb → Bool
  | display | set | append | clean => true
  | _ => false

/-- Whether a command takes a file. -/
def takesFile : Verb → Bool
  | set | append | encode | decode => true
  | _ => false

end Verb

/-- All arguments. -/
structure Arguments where
  /-- The directory of the save files. -/
  saveDirectory : Option String
  /-- The settings file. -/
  settings : Option String
  /-- What to do. -/
  action : Action
  deriving DecidableEq

/-- What can be explained. -/
inductive Topic where
  | program
  | command (verb : Verb)
  | help
  deriving DecidableEq

/-- Why there is nothing to do. -/
inductive Usage where
  | version
  | help (topic : Topic)
  | invalid
  deriving DecidableEq

/-- The topic at a level of the command line. -/
def Topic.ofVerb : Option Verb → Topic
  | some verb => command verb
  | none => program

/-- The topic with a name. -/
def Topic.ofName? (name : String) : Option Topic :=
  if name = "help" then some help else (Verb.ofName? name).map command

/-- The options given so far at one level of the command line. -/
structure Given where
  /-- The directory of the save files. -/
  saveDirectory : Option String := none
  /-- The settings file. -/
  settings : Option String := none
  /-- The name of a level. -/
  level : Option String := none
  /-- Whether objects are to be shown. -/
  objects : Bool := false
  /-- A marker group. -/
  marker : Option UInt32 := none
  /-- A file. -/
  file : Option String := none

namespace Given

/-- Set something that was not set before. -/
def once (old : Option α) (value : α) : Except Usage (Option α) :=
  if old.isSome then .error .invalid else .ok (some value)

/-- A path, which is never empty. -/
def path (text : String) : Except Usage String := if text = "" then .error .invalid else .ok text

/-- A group id. -/
def group (text : String) : Except Usage UInt32 :=
  match readInteger? text.toList with
  | some n => if 0 ≤ n ∧ n < UInt32.size then .ok (UInt32.ofNat n.toNat) else .error .invalid
  | none => .error .invalid

/-- The options that have a value, and what they do with it. -/
def setter? (verb : Option Verb) (name : String) :
    Option (Given → String → Except Usage Given) :=
  let isLevel := name = "level" ∧ verb.any Verb.takesLevel
  let isMarker := name = "marker" ∧ verb = some .clean
  if name = "save-dir" then
    some fun given text => do
      return { given with saveDirectory := ← once given.saveDirectory (← path text) }
  else if name = "config" then
    some fun given text => do
      return { given with settings := ← once given.settings (← path text) }
  else if isLevel then
    some fun given text => do return { given with level := ← once given.level text }
  else if isMarker then
    some fun given text => do return { given with marker := ← once given.marker (← group text) }
  else none

/-- Give an option its value. -/
def assign (given : Given) (verb : Option Verb) (name value : String) : Except Usage Given :=
  match setter? verb name with
  | some set => set given value
  | none => .error .invalid

/-- Take a file. -/
def addFile (given : Given) (verb : Verb) (text : String) : Except Usage Given := do
  if !verb.takesFile then throw .invalid
  return { given with file := ← once given.file (← path text) }

/-- Options given after the command win over those before it. -/
def overriding (given outer : Given) : Given :=
  { given with
    saveDirectory := given.saveDirectory <|> outer.saveDirectory
    settings := given.settings <|> outer.settings }

/-- The arguments for a command. -/
def finish (given : Given) (verb : Verb) : Except Usage Arguments := do
  let file : Except Usage String :=
    match given.file with
    | some file => .ok file
    | none => .error .invalid
  let action ←
    match verb with
    | .levels => .ok .levels
    | .display => .ok (.display given.level given.objects)
    | .set => file.map (.set given.level)
    | .append => file.map (.append given.level)
    | .clean => .ok (.clean given.level given.marker)
    | .encode => .ok (.encode (given.file.getD "-"))
    | .decode => .ok (.decode (given.file.getD "-"))
  return ⟨given.saveDirectory, given.settings, action⟩

end Given

/-- An argument by its form. -/
inductive Word where
  | escape
  | long (name : String) (value : Option String)
  | short (letters : List Char)
  | plain (text : String)
  deriving DecidableEq

/-- The form of an argument. -/
def Word.ofText (text : String) : Word :=
  match text.toList with
  | ['-', '-'] => .escape
  | '-' :: '-' :: rest =>
      let name := String.ofList (rest.takeWhile (· != '='))
      match rest.dropWhile (· != '=') with
      | _ :: value => .long name (some (String.ofList value))
      | [] => .long name none
  | '-' :: c :: rest => .short (c :: rest)
  | _ => .plain text

/-- The value attached to a short option. -/
def attached : List Char → Option String
  | [] => none
  | '=' :: rest => some (String.ofList rest)
  | rest => some (String.ofList rest)

/-- One option without a value of its own, at the level of a command or above all commands. -/
def flag (verb : Option Verb) (given : Given) (name : String) : Except Usage Given :=
  if name = "help" then .error (.help (.ofVerb verb))
  else if name = "version" ∧ verb = none then .error .version
  else if name = "objects" ∧ verb = some .display ∧ !given.objects then
    .ok { given with objects := true }
  else .error .invalid

/-- The long name of a short option. -/
def longName : Char → String
  | 'h' => "help"
  | 'V' => "version"
  | 'l' => "level"
  | _ => ""

/-- What has been read at one level of the command line. -/
structure Stage where
  /-- The options that have been looked at. -/
  given : Given := {}
  /-- The last option with the value that follows it, if that has not been looked at. -/
  held : Option (String × String) := none

/-- All options of a level, the last one looked at too. -/
def Stage.settle (stage : Stage) (verb : Option Verb) : Except Usage Given :=
  match stage.held with
  | some (name, value) => stage.given.assign verb name value
  | none => .ok stage.given

/-- How far the arguments have been read. -/
structure Progress where
  /-- The command, once it is known. -/
  verb : Option Verb := none
  /-- What stands before the command. -/
  outer : Stage := {}
  /-- What stands at the present level. -/
  inner : Stage := {}
  /-- The option whose value comes next. -/
  pending : Option String := none
  /-- Whether all options have ended. -/
  escaped : Bool := false
  /-- What is to be explained. -/
  topic : Option Topic := none

namespace Progress

/-- Take an option by its long name, perhaps with a value attached. -/
def option (progress : Progress) (name : String) (value : Option String) :
    Except Usage Progress := do
  let given ← progress.inner.settle progress.verb
  match (Given.setter? progress.verb name).isSome, value with
  | true, some value =>
      return { progress with inner := { given := ← given.assign progress.verb name value } }
  | true, none => return { progress with inner := { given }, pending := some name }
  | false, none => return { progress with inner := { given := ← flag progress.verb given name } }
  | false, some _ => throw .invalid

/-- Take an argument that is no option: the name of the command, then a file. -/
def plain (progress : Progress) (text : String) : Except Usage Progress :=
  match progress.verb with
  | some verb => do
      let given ← progress.inner.settle progress.verb
      return { progress with inner := { given := ← given.addFile verb text } }
  | none =>
      if progress.escaped then .error .invalid
      else if text = "help" then .ok { progress with topic := some .program }
      else
        match Verb.ofName? text with
        | some verb =>
            .ok { progress with verb := some verb, outer := progress.inner, inner := {} }
        | none => .error .invalid

/-- Take an argument of short options. -/
def short (progress : Progress) : List Char → Except Usage Progress
  | [] => .error .invalid
  | letter :: rest =>
      let name := longName letter
      if (Given.setter? progress.verb name).isSome then progress.option name (attached rest)
      else
        match progress.option name none with
        | .error usage => .error usage
        | .ok _ => .error .invalid

/-- Take a name after the question for help. -/
def explain (topic : Topic) (text : String) : Except Usage Topic :=
  match topic, Topic.ofName? text with
  | .program, some topic => .ok topic
  | _, _ => .error .invalid

/-- Take one argument. -/
def step (progress : Progress) (text : String) : Except Usage Progress :=
  match progress.topic with
  | some topic => do return { progress with topic := some (← explain topic text) }
  | none =>
      if progress.escaped then progress.plain text
      else
        match progress.pending, Word.ofText text with
        | some name, .plain value =>
            .ok { progress with
              inner := { progress.inner with held := some (name, value) }, pending := none }
        | some _, _ => .error .invalid
        | none, .escape => .ok { progress with escaped := true }
        | none, .long name value => progress.option name value
        | none, .short letters => progress.short letters
        | none, .plain text => progress.plain text

/-- The arguments when all have been read. -/
def finish (progress : Progress) : Except Usage Arguments :=
  match progress.topic, progress.verb, progress.pending with
  | some topic, _, _ => .error (.help topic)
  | none, some verb, none => do
      let given ← progress.inner.settle progress.verb
      let outer ← progress.outer.settle none
      (given.overriding outer).finish verb
  | _, _, _ => .error .invalid

end Progress

/-- The arguments of a command line, read from left to right. -/
def Arguments.parse (words : List String) : Except Usage Arguments := do
  (← words.foldlM Progress.step {}).finish

end TriggerGraph.Command
