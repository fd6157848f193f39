/-!
# Options of the command

Flags set what a run does, pages are shown instead of a run, and one option names the settings
file.
-/
namespace RoverFleet.CommandLine

inductive Flag where
  | verbose
  | json
  | debug
  | logJson
  deriving DecidableEq, Repr

/-- What is shown instead of a run. -/
inductive Page where
  | version
  | examples
  | help
  deriving DecidableEq, Repr

namespace Flag

def all : List Flag := [.verbose, .json, .debug, .logJson]

/-- The name of the option. -/
def name : Flag → String
  | .verbose => "--verbose"
  | .json => "--json"
  | .debug => "--debug"
  | .logJson => "--log-json"

/-- The name of the setting. -/
def setting : Flag → String
  | .verbose => "verbose"
  | .json => "json_output"
  | .debug => "debug"
  | .logJson => "log_json"

def ofName? (name : String) : Option Flag := all.find? (·.name = name)

end Flag

namespace Page

def all : List Page := [.version, .examples, .help]

def name : Page → String
  | .version => "--version"
  | .examples => "--examples"
  | .help => "--help"

def ofName? (name : String) : Option Page := all.find? (·.name = name)

end Page

def configName : String := "--config"

/-- The long names of all options. -/
def longNames : List String := Flag.all.map (·.name) ++ Page.all.map (·.name) ++ [configName]

end RoverFleet.CommandLine
