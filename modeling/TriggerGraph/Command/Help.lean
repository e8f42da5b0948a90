import TriggerGraph.Command.Arguments

/-!
# Explanations

What the program says about itself and its commands.
-/

namespace TriggerGraph.Command

/-- The line that `--version` prints. -/
def versionText : String := "trigforge_save 0.3.0\n"

/-- What a command does. -/
def Verb.summary : Verb → String
  | .levels => "List level names in file order"
  | .display => "Print a level's decoded level string"
  | .set => "Replace a level's contents with a level string read from a file"
  | .append => "Append a level string read from a file to a level"
  | .clean => "Remove objects tagged with the export marker group"
  | .encode => "Compress a level string into payload form"
  | .decode => "Expand a payload back into its level string"

/-- A row of a list: a term and what it means. -/
abbrev Row := String × String

/-- Rows with their meanings below each other. -/
def rowsText (rows : List Row) : String :=
  let width := rows.foldl (fun width row => max width row.1.length) 0
  String.join (rows.map fun (term, meaning) =>
    "  " ++ term ++ String.ofList (List.replicate (width - term.length + 2) ' ') ++ meaning ++ "\n")

/-- The option of commands that work on a level. -/
def levelOption : Row := ("-l, --level <LEVEL>", "Level name; the first level when omitted")

/-- The options that every command has. -/
def commonOptions : List Row :=
  [("    --save-dir <DIR>",
      "Directory containing CCLocalLevels.dat (overrides config and detection)"),
    ("    --config <FILE>", "Config file; defaults to ./trigforge.toml when present")]

/-- The option that asks for an explanation. -/
def helpOption : Row := ("-h, --help", "Print help")

/-- The option that only one command has. -/
def Verb.ownOption? : Verb → Option Row
  | .display =>
      some ("    --objects", "Print decoded objects as JSON instead of the raw level string")
  | .clean =>
      some ("    --marker <MARKER>", "Marker group to strip (defaults to the configured one)")
  | _ => none

/-- The options of a command: the level, those that all commands have, its own, and help. -/
def Verb.options (verb : Verb) : List Row :=
  (if verb.takesLevel then [levelOption] else []) ++ commonOptions ++ verb.ownOption?.toList ++
    [helpOption]

/-- The file argument of a command. -/
def Verb.fileRow? (verb : Verb) : Option Row :=
  match verb with
  | .set | .append => some ("<FILE>", "File holding the level string, or `-` for stdin")
  | .encode | .decode => some ("[FILE]", "Input file, or `-` for stdin [default: -]")
  | _ => none

/-- The explanation of a command. -/
def Verb.help (verb : Verb) : String :=
  let file := verb.fileRow?
  verb.summary ++ "\n\nUsage: trigforge " ++ verb.name ++ " [OPTIONS]" ++
    (match file with
    | some (term, _) => " " ++ term
    | none => "") ++ "\n\n" ++
    (match file with
    | some row => "Arguments:\n" ++ rowsText [row] ++ "\n"
    | none => "") ++ "Options:\n" ++ rowsText verb.options

/-- What the command does that explains the others. -/
def helpSummary : String := "Print this message or the help of the given subcommand(s)"

/-- The explanation of the command that explains the others. -/
def helpOfHelp : String :=
  helpSummary ++ "\n\nUsage: trigforge help [COMMAND]...\n\nArguments:\n" ++
    rowsText [("[COMMAND]...", "Print help for the subcommand(s)")]

/-- The explanation of the program. -/
def programHelp : String :=
  "Inspect and patch levels in the local-levels save file.\n\n" ++
    "Usage: trigforge [OPTIONS] <COMMAND>\n\nCommands:\n" ++
    rowsText (Verb.all.map (fun verb => (verb.name, verb.summary)) ++ [("help", helpSummary)]) ++
    "\nOptions:\n" ++ rowsText (commonOptions ++ [helpOption, ("-V, --version", "Print version")])

/-- The explanation of a topic. -/
def helpText : Topic → String
  | .program => programHelp
  | .command verb => verb.help
  | .help => helpOfHelp

/-- What is printed when the arguments cannot be understood. -/
def invalidText : String :=
  "error: invalid arguments\n\nUsage: trigforge [OPTIONS] <COMMAND>\n\n" ++
    "For more information, try '--help'.\n"

end TriggerGraph.Command
