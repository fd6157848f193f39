import RoverFleet.Report.Basic
import RoverFleet.Report.Console
import RoverFleet.Compass

/-!
# Formats of a report

A report is written as JSON, or for people: a line for each rover in the compact format, and in
the verbose one the plateau first and every rover with its id. An error takes one line.
-/
namespace RoverFleet
open Numeric

structure Format where
  json : Bool := false
  verbose : Bool := false
  width : Option Int := none
  deriving DecidableEq, Repr

/-- Why the data of a report cannot be written for people. -/
inductive Misfit where
  | missing (key : String)
  | limit (l : DigitLimit)
  | wrongKind
  | noFields
  deriving DecidableEq, Repr

namespace Format

def ofFields (fields : Fields) : Checked Format := do
  let (json, verbose, width) ←
    (Validation.optional fields "json_output" false Validation.toBool).both
      ((Validation.optional fields "verbose" false Validation.toBool).both
        (Validation.optional fields "width" none (Validation.orNull Validation.toInt)))
  return { json, verbose, width }

/-- The width of a page: 120 columns unless another one is given. -/
def pageWidth : Option Int → Int
  | none => 120
  | some n => if n = 0 then 120 else n

/-- The style of a heading's letter; other texts have none. -/
def headingStyle (direction : String) : String :=
  (Heading.ofText? direction).elim "" fun h => "rover.direction." ++ h.text

end Format

namespace Report

/-- The text of a field that has to be there. -/
def fieldText (rover : Value) (key : String) : Except Misfit String :=
  match rover with
  | .object fields =>
    match fields.lookup key with
    | some v => v.text.mapError .limit
    | none => .error (.missing key)
  | _ => .error .wrongKind

/-- The pose of a rover: its coordinates and its direction. -/
def poseSpans (rover : Value) : Except Misfit (List Span) := do
  let direction ← fieldText rover "direction"
  let coordinates := (← fieldText rover "x") ++ " " ++ (← fieldText rover "y")
  return [⟨coordinates, "rover.coord"⟩, ⟨" ", ""⟩, ⟨direction, Format.headingStyle direction⟩]

/-- The compact line of a rover. -/
def poseLine (rover : Value) : Except Misfit Line := do
  return { spans := ← poseSpans rover }

/-- The verbose line of a rover. -/
def roverLine (rover : Value) : Except Misfit Line := do
  let id ← fieldText rover "id"
  let pose ← poseSpans rover
  let label : List Span := [⟨"Rover ", ""⟩, ⟨id, "rover.id"⟩, ⟨" position: ", "rover.label"⟩]
  return ⟨label ++ pose, "rover.label"⟩

def plateauLine (data : Fields) : Except Misfit Line :=
  match (data.lookup "plateau").getD (.object []) with
  | .object fields => do
    let x ← ((fields.lookup "max_x").getD .null).text.mapError .limit
    let y ← ((fields.lookup "max_y").getD .null).text.mapError .limit
    return ⟨[⟨"Plateau: ", ""⟩, ⟨x ++ " " ++ y, "rover.coord"⟩], "rover.label"⟩
  | _ => .error .noFields

/-- The rovers in the data; keys and letters count as items that are no rovers. -/
def rovers (data : Fields) : Except Misfit (List Value) :=
  match (data.lookup "rovers").getD (.list []) with
  | .list items => .ok items
  | .object fields => .ok (fields.map fun f => .string f.1)
  | .string s => .ok (s.toList.map fun c => .string (String.singleton c))
  | _ => .error .wrongKind

def compactLines (data : Fields) : Except Misfit (List Line) := do
  (← rovers data).mapM poseLine

def verboseLines (data : Fields) : Except Misfit (List Line) := do
  let first ← plateauLine data
  return first :: (← (← rovers data).mapM roverLine)

def errorLine (r : Report) : Line :=
  let text := match r.error with
    | some e => e.code ++ ": " ++ e.message
    | none => "Error: Unknown error"
  ⟨[⟨text, ""⟩], "rover.error"⟩

def textLines (r : Report) (verbose : Bool) : Except Misfit (List Line) :=
  if !r.ok then .ok [r.errorLine]
  else if verbose then verboseLines r.data
  else compactLines r.data

/-- Lines as a console prints them one after another, without line feeds at the end. -/
def printLines (c : Console) (width : Int) (lines : List Line) : String :=
  String.ofList (Text.trimEnd (· = '\n') (String.join (lines.map (c width))).toList)

/-- The text of a report, which a console prints for people. -/
def format (r : Report) (c : Console) (f : Format) : Except Misfit String :=
  if f.json then .ok (Json.render Json.indented r.toValue)
  else return printLines c (Format.pageWidth f.width) (← r.textLines f.verbose)

end Report

end RoverFleet
