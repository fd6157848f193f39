import RoverFleet.CommandLine.Libraries

/-!
# Running the command

The command prints a page, or runs a script under its settings and prints the report: a result on
the output, an error on the error stream after the log. A crash ends a run without any message.
-/
namespace RoverFleet.CommandLine
open Files

/-- The format that settings ask for. -/
def formatOf (s : Settings) : Format :=
  { json := s.json, verbose := s.isVerbose, width := some s.width }

/-- The variable by which a shell asks for completion. -/
def completionVariable : String := "_ROVERCTL_COMPLETE"

def asksCompletion (s : System) : Bool := (s.lookup? completionVariable).any (· ≠ "")

namespace Libraries
variable (L : Libraries) (sys : System)

/-- What a log holds of a journal. -/
def log (s : Settings) (time : String) (journal : List Event) : String :=
  String.join (journal.map (L.logged ⟨s.debug, s.logJson, sys.isTerminal .errors⟩ time))

/-- The text of a report under settings. -/
def format (r : Report) (s : Settings) : Except Misfit String :=
  r.format (L.console sys.environment) (formatOf s)

end Libraries

namespace Outcome

def ofCrash (errors : String) (c : Crash) : Outcome := { code := 1, errors, crash := some c }

section Parts
variable (L : Libraries) (sys : System)

/-- Prints a report; an empty result prints nothing. -/
def ofReport (log : String) (r : Report) (s : Settings) : Outcome :=
  match L.format sys r s with
  | .error m => ofCrash log (.misfit m)
  | .ok text =>
    if r.ok then
      { code := 0, output := if text = "" then "" else L.echo sys .output text, errors := log }
    else { code := 1, errors := log ++ L.echo sys .errors text }

def ofSimulation (s : Settings) (time : String) (simulation : Simulation) : Outcome :=
  let log := L.log sys s time simulation.journal
  match simulation.result with
  | .ok report => ofReport L sys log report s
  | .error l => ofCrash log (.limit l)

def ofSettings (time file : String) (s : Settings) : Outcome :=
  match Simulation.ofFile sys (some s.base.text) s.encoding file with
  | .ok simulation => ofSimulation L sys s time simulation
  | .error e => ofCrash "" (.script e)

def ofOrder (time : String) (o : Order) : Outcome :=
  match Settings.load L.rules sys o.config none o.settings with
  | .ok s => ofSettings L sys time o.file s
  | .error (.toml path m source) =>
    { code := 1, errors := L.echo sys .errors ("Error: " ++ Settings.tomlMessage path m source) }
  | .error f => ofCrash "" (.settings f)

end Parts

end Outcome

/-- Runs the command with its arguments; the log bears the given time. -/
def run (L : Libraries) (sys : System) (time : String) (arguments : List String) : Outcome :=
  if asksCompletion sys then L.complete sys arguments
  else
    match L.request arguments with
    | .error lines => { code := 2, errors := L.echoLines sys .errors lines }
    | .ok (.page p) => { code := 0, output := L.echoLines sys .output p.lines }
    | .ok (.run o) => Outcome.ofOrder L sys time o

end RoverFleet.CommandLine
