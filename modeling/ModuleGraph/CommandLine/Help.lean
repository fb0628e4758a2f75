import ModuleGraph.CommandLine.Arguments
import ModuleGraph.Terminal

/-!
# Help texts

What the command line says of itself: its version, what its commands and options are for, and why a
call cannot be read. Names stand in a column of their own.
-/

namespace ModuleGraph.CommandLine

open Terminal (padRight)

/-- The name of the program. -/
def programName : String :=
  "sfrag"

/-- The program's name and version. -/
def versionText : String :=
  programName ++ " 0.1.0\n"

/-- What a command does. -/
def Command.about : Command → String
  | .run => "Load, link and evaluate a module graph"
  | .graph => "Print the module map after loading"
  | .check => "Load and link without evaluating"

/-- What the command that asks for help does. -/
def helpAbout : String :=
  "Print this message or the help of the given subcommand(s)"

/-- Names with what they mean, one on a line, behind blanks. -/
def table (rows : List (String × String)) : String :=
  let width := (rows.map fun r => r.1.length).foldl max 0
  String.join (rows.map fun r => "  " ++ padRight width r.1 ++ "  " ++ r.2 ++ "\n")

/-- A headed table. -/
def headed (title : String) (rows : List (String × String)) : String :=
  "\n" ++ title ++ ":\n" ++ table rows

/-- The options that every command takes. -/
def optionRows : List (String × String) :=
  [("    " ++ ValueOption.importMap.text, "Import map JSON file"),
    ("    " ++ ValueOption.config.text, "Config file to use instead of ./spacey-fragments.toml"),
    ("    --allow-remote", "Allow fetching http(s) modules"),
    ("-v, --verbose", "Enable verbose logging"),
    ("-h, --help", "Print help")]

/-- The first lines of a help text. -/
def opening (about usage : String) : String :=
  about ++ "\n\nUsage: " ++ programName ++ " " ++ usage ++ "\n"

/-- The help text of a topic. -/
def Topic.text : Topic → String
  | .program =>
    opening "Module fragment loader for JavaScript" "[OPTIONS] <COMMAND>"
      ++ headed "Commands" (Command.all.map (fun c => (c.name, c.about)) ++ [("help", helpAbout)])
      ++ headed "Options" (optionRows ++ [("-V, --version", "Print version")])
  | .command c =>
    opening c.about (c.name ++ " [OPTIONS] <ENTRY>")
      ++ headed "Arguments" [("<ENTRY>", "Entry module path or URL")]
      ++ headed "Options" optionRows
  | .help =>
    opening helpAbout "help [COMMAND]..."
      ++ headed "Arguments" [("[COMMAND]...", "Print help for the subcommand(s)")]

/-- The message of a usage fault. -/
def UsageFault.message : UsageFault → String
  | .unexpected argument => "unexpected argument '" ++ argument ++ "' found"
  | .missingValue option =>
    "a value is required for '" ++ option.text ++ "' but none was supplied"
  | .repeated argument => "the argument '" ++ argument ++ "' cannot be used multiple times"
  | .unknownCommand name => "unrecognized subcommand '" ++ name ++ "'"
  | .missingCommand => "'" ++ programName ++ "' requires a subcommand but one was not provided"
  | .missingEntry => "the following required arguments were not provided: <ENTRY>"

end ModuleGraph.CommandLine
