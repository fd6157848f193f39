import RoverFleet.CommandLine.Options
import RoverFleet.Text.Quoted
import RoverFleet.Text.Similarity

/-!
# Usage of the command

The pages that the command shows, and what is wrong with a command line. An unknown long option
gets a hint at known ones that are close to it.
-/
namespace RoverFleet.CommandLine

inductive UsageError where
  | missingFile
  | extraWords (words : List String)
  | unknownLetter (c : Char)
  | unknownName (name : String)
  | needsValue (name : String)
  | takesNoValue (name : String)
  deriving DecidableEq, Repr

namespace UsageError

def unknown (name : String) : String := "No such option " ++ Text.quoted name ++ "."

def hint : List String → String
  | [] => ""
  | [name] => " Did you mean " ++ Text.quoted name ++ "?"
  | names => " (Did you mean one of: " ++ ", ".intercalate (names.map Text.quoted) ++ "?)"

def message : UsageError → String
  | .missingFile => "Missing argument 'FILE'."
  | .extraWords words =>
    "Got unexpected extra argument" ++ (if words.length = 1 then "" else "s") ++
      " (" ++ " ".intercalate words ++ ")"
  | .unknownLetter c => unknown ("-" ++ String.singleton c)
  | .unknownName name => unknown name ++ hint (Text.closeWords name longNames)
  | .needsValue name => "Option " ++ Text.quoted name ++ " requires an argument."
  | .takesNoValue name => "Option " ++ Text.quoted name ++ " does not take a value."

/-- Whether the usage of the command is shown with the error. -/
def showsUsage : UsageError → Bool
  | .needsValue _ | .takesNoValue _ => false
  | _ => true

def usageLines : List String :=
  ["Usage: roverctl [OPTIONS] FILE", "Try 'roverctl --help' for help.", ""]

def lines (e : UsageError) : List String :=
  (if e.showsUsage then usageLines else []) ++ ["Error: " ++ e.message]

end UsageError

namespace Page

def helpLines : List String :=
  ["Usage: roverctl [OPTIONS] FILE",
    "",
    "  roverctl — Mars rovers command simulator.",
    "",
    "  Reads FILE (relative to the current directory), moves every rover on the",
    "  plateau, and prints each rover's final position.",
    "",
    "Options:",
    "  --version          Show the version and exit.",
    "  -v, --verbose      Show plateau info and rover prefixes.",
    "  --json             Structured JSON output.",
    "  --debug            Debug log output to stderr.",
    "  --log-json         Structured JSON log output to stderr.",
    "  -c, --config TEXT  Override config file path.",
    "  --examples         Show usage examples.",
    "  --help             Show this message and exit."]

def examplesLines : List String :=
  ["Examples for 'roverctl':",
    "",
    "  roverctl input/example.txt",
    "  roverctl input/example.txt --verbose",
    "  roverctl --json input/example.txt",
    "  roverctl -c ./roverctl.toml --debug --log-json input/example.txt"]

def lines : Page → List String
  | .version => ["roverctl, version 0.1.0"]
  | .examples => examplesLines
  | .help => helpLines

end Page

end RoverFleet.CommandLine
