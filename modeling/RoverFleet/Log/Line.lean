import RoverFleet.Log.Basic
import RoverFleet.Json.Printer

/-!
# Lines of the log

A record takes one line, in columns or as JSON. Each line bears the time at which it is written.
-/
namespace RoverFleet.Log
open Numeric

def padRight (width : Nat) (s : String) : String :=
  s ++ String.ofList (List.replicate (width - s.length) ' ')

/-- Characters that a text in a column is quoted for. -/
def isQuotedFor (c : Char) : Bool := [' ', '\t', '=', '\r', '\n', '"', '\x27'].contains c

def columnText : Value → Except DigitLimit String
  | .string s => .ok (if s.toList.any isQuotedFor then Text.quoted s else s)
  | v => v.quotedText

def column (field : String × Value) : Except DigitLimit String :=
  return field.1 ++ "=" ++ (← columnText field.2)

/-- The names that every line has a place for. -/
def fixedNames : List String := ["event", "level", "logger", "timestamp"]

/-- Other names whose values are not shown among the columns of the others. -/
def asideNames : List String := ["logger_name", "stack", "stack_info", "exception", "exc_info"]

namespace Record

def text? (r : Record) (name : String) : Option String :=
  match r.fields.lookup name with
  | some (.string s) => some s
  | _ => none

/-- The fields of the record's own, by their names. -/
def sortedFields (r : Record) : Fields :=
  (r.fields.filter fun f => !fixedNames.contains f.1 && !asideNames.contains f.1).mergeSort
    fun f g => !(g.1 < f.1)

/-- The second name of the logger, between brackets. -/
def secondTitle (r : Record) : Except DigitLimit (List String) :=
  match r.fields.lookup "logger_name" with
  | some v => return ["[" ++ (← v.text) ++ "]"]
  | none => .ok []

def columns (r : Record) (time : String) : Except DigitLimit (List String) := do
  let own ← r.sortedFields.mapM column
  return [time, "[" ++ padRight 9 r.level.name ++ "]", padRight 30 r.event,
    "[" ++ loggerTitle r.logger ++ "]"] ++ (← r.secondTitle) ++ own

/-- What stands below the columns: a stack and an exception, with a rule between them. -/
def below (r : Record) : String :=
  let exception := ((r.text? "exception").map ("\n" ++ ·)).getD ""
  match r.text? "stack" with
  | none => exception
  | some stack =>
    "\n" ++ stack ++ (if exception = "" then "" else
      "\n\n" ++ String.ofList (List.replicate 79 '=') ++ "\n" ++ exception)

/-- The record's own fields, where the fixed ones take the place of others of their name. -/
def allFields (r : Record) (time : String) : Fields :=
  [("event", r.event), ("level", r.level.name), ("logger", loggerTitle r.logger),
    ("timestamp", time)].foldl (fun all f => Fields.put f.1 (.string f.2) all)
    (r.fields.filter (·.1 ≠ "stack_info"))

/-- The line of a record, unless it holds a number over the digit limit. -/
def line (r : Record) (json : Bool) (time : String) : Except DigitLimit String := do
  let columns ← r.columns time
  return if json then Json.render Json.oneLine (.object (r.allFields time))
    else " ".intercalate columns ++ r.below

end Record

/-- What stands in a log in place of a record that cannot be written. -/
def failureReport (l : DigitLimit) : String :=
  "--- Logging error ---\n" ++ "ValueError: " ++ l.message ++ "\n"

/-- The text of a log: the lines of the records that are shown. -/
def Setup.write (s : Setup) (time : String) (records : List Record) : String :=
  String.join ((records.filter s.shows).map fun r =>
    match r.line s.json time with
    | .ok line => line ++ "\n"
    | .error l => failureReport l)

end RoverFleet.Log
