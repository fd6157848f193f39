import RoverFleet.CommandLine.Usage
import RoverFleet.CommandLine.Arguments
import RoverFleet.Log.Line
import RoverFleet.Report.Format
import RoverFleet.Script.File
import RoverFleet.Settings.Load
import RoverFleet.Text.Terminal

/-!
# Libraries of the command

The command takes from libraries how settings are read, how lines are shown and logged, how its
arguments are parsed, and what a shell is told that completes a command line.
-/
namespace RoverFleet.CommandLine
open Files Numeric

/-- Why a run ends with neither a report nor a message. -/
inductive Crash where
  | settings (f : Settings.Failure)
  | script (e : Script.Escape)
  | limit (l : DigitLimit)
  | misfit (m : Misfit)

structure Outcome where
  code : Nat
  output : String := ""
  errors : String := ""
  crash : Option Crash := none

structure Libraries where
  rules : Settings.Rules
  /-- The console of an environment. -/
  console : List (String × String) → Console
  /-- What arguments ask for, or the lines that tell what is wrong with them. -/
  request : List String → Except (List String) Request
  /-- Takes the terminal sequences out of a text. -/
  strip : String → String
  /-- Answers a shell that completes a command line. -/
  complete : System → List String → Outcome
  /-- What is written in a log, at a time, of an event. -/
  logged : Log.Setup → String → Event → String

/-- What is written of an event, whose text may hold a number over the digit limit. -/
def logged (s : Log.Setup) (time : String) (e : Event) : String :=
  match e.message with
  | .ok m => s.write time [⟨e.part, .debug, m, []⟩]
  | .error l => if s.passes e.part .debug then Log.failureReport l else ""

/-- The environment does not ask for colours. -/
def Uncoloured (environment : List (String × String)) : Prop :=
  ∀ name ∈ ["FORCE_COLOR", "TTY_COMPATIBLE"], environment.lookup name = none

/-- A variable of the settings. -/
def isOwn (name : String) : Bool :=
  Settings.Target.marker.isPrefixOf (Text.lowerAscii name.toList)

namespace Libraries

/-- The libraries without colours and completion. -/
def standard : Libraries where
  rules := .standard
  console _ := .standard
  request arguments := (Request.read arguments).mapError UsageError.lines
  strip s := String.ofList (Text.dropSequences s.toList)
  complete _ _ := { code := 1 }
  logged := CommandLine.logged

/-- What is known of libraries. -/
structure Documented (L : Libraries) : Prop where
  rules : L.rules.Documented
  lawful : ∀ environment, Uncoloured environment → (L.console environment).Lawful
  plain : ∀ environment, Uncoloured environment → (L.console environment).Plain
  /-- Consoles do not heed the variables of the settings. -/
  foreign : ∀ environment,
    L.console (environment.filter (!isOwn ·.1)) = L.console environment
  /-- Which arguments ask for what; what an error says is not known. -/
  request : ∀ arguments, (L.request arguments).toOption = (Request.read arguments).toOption
  /-- Terminal sequences start with an escape character. -/
  strip : ∀ s : String, '\x1b' ∉ s.toList → L.strip s = s

/-- The line that a text is printed as. A stream that is no terminal gets no terminal sequences. -/
def echo (L : Libraries) (s : System) (stream : Stream) (text : String) : String :=
  (if s.isTerminal stream then text else L.strip text) ++ "\n"

def echoLines (L : Libraries) (s : System) (stream : Stream) (lines : List String) : String :=
  String.join (lines.map (L.echo s stream))

end Libraries

end RoverFleet.CommandLine
