import RoverFleet.Script.Run
import RoverFleet.Report.Basic

/-!
# Simulations

A simulation runs a script and reports the final poses of its rovers, or the error that stopped
it. Only a number over the digit limit leaves it without a report. The journal of the run is kept
with the name of the part that wrote each entry.
-/
namespace RoverFleet
open Numeric

namespace Script.Entry

/-- The part that writes the entry. -/
def part : Entry → String
  | .placed _ => "roverctl.domain.plateau"
  | _ => "roverctl.services.parser"

end Script.Entry

inductive Event where
  | script (e : Script.Entry)
  | finished (p : Plateau)
  | failed (code message : String)

namespace Event

def part : Event → String
  | .script e => e.part
  | _ => "roverctl.services.simulation"

def message : Event → Except DigitLimit String
  | .script e => e.message
  | .finished p => return "Simulation finished: " ++ (← p.text?)
  | .failed code message => .ok ("Simulation failed with " ++ code ++ ": " ++ message)

end Event

structure Simulation where
  journal : List Event
  result : Except DigitLimit Report

namespace Simulation

/-- An error before its source is added. -/
structure Fault where
  code : String
  message : String
  reason : String
  line : Option Nat
  deriving DecidableEq, Repr

namespace Fault

def ofRefusal (r : Refusal) : Fault :=
  ⟨if r.isOfCommand then "InvalidCommandError" else "InvalidInitializationError",
    r.message, r.message, none⟩

def ofFlaw (line : Nat) (flaw : Script.Flaw) : Fault :=
  ⟨"ParserError", "\"" ++ flaw.message ++ "\" at line number: " ++ toString line,
    flaw.message, some line⟩

def ofStop : Script.Stop → Except DigitLimit Fault
  | .malformed line flaw => .ok (ofFlaw line flaw)
  | .refused r => .ok (ofRefusal r)
  | .limit l => .error l

end Fault

def sourceField (source : Option String) : Fields :=
  (source.map fun s => ("source", Value.string s)).toList

def failure (f : Fault) (source : Option String) : Report where
  ok := false
  operation := "simulate"
  data := []
  error := some ⟨f.code, f.message, ("reason", .string f.reason) ::
    (f.line.map fun n => ("line_number", Value.int n)).toList ++ sourceField source⟩
  remarks := none

def success (p : Plateau) (source : Option String) : Report where
  ok := true
  operation := "simulate"
  data := [("plateau", .object p.fields), ("rovers", .list (p.rovers.map fun r => .object r.fields))]
  error := none
  remarks := some (("rover_count", .int p.rovers.length) :: sourceField source)

/-- A simulation that ends with a fault. -/
def failing (journal : List Event) (f : Fault) (source : Option String) : Simulation :=
  ⟨journal ++ [.failed f.code f.message], .ok (failure f source)⟩

/-- Runs a script. -/
def ofText (text : List Char) (source : Option String) : Simulation :=
  let run := Script.run text
  let journal := run.journal.map .script
  match run.result with
  | .ok p => ⟨journal ++ [.finished p], .ok (success p source)⟩
  | .error stop =>
    match Fault.ofStop stop with
    | .ok f => failing journal f source
    | .error l => ⟨journal, .error l⟩

end Simulation

end RoverFleet
