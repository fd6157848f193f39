import RoverFleet.Text.Blank
import RoverFleet.Text.Uppercase
import RoverFleet.Numeric.Literal
import RoverFleet.Plateau

/-!
# Lines of a script

A script is a plateau line and then, for each rover, a position line and a commands line. The text
is trimmed and divided into lines, which are trimmed again; a commands line that is missing counts
as empty. What is wrong with a line is reported with the number of the line.
-/
namespace RoverFleet.Script
open Numeric

/-- What is wrong with the form of a line. -/
inductive Flaw where
  | noPlateau
  | plateauCount
  | plateauNumbers
  | noPosition (rover : Nat)
  | positionCount (rover : Nat)
  | coordinates (rover : Nat)
  | heading (rover : Nat)
  | noCommands (rover : Nat)
  | command (rover : Nat) (c : Char)
  deriving DecidableEq, Repr

namespace Flaw

def message : Flaw → String
  | .noPlateau => "Plateau line is mandatory and cannot be empty"
  | .plateauCount => "Plateau boundary must contain exactly two numbers"
  | .plateauNumbers => "Plateau boundary must contain valid numbers"
  | .noPosition n => "Rover " ++ toString n ++ " position line is mandatory and cannot be empty"
  | .positionCount n =>
    "Rover " ++ toString n ++ " position must contain exactly three values (x y direction)"
  | .coordinates n => "Rover " ++ toString n ++ " coordinates must be valid numbers"
  | .heading n => "Rover " ++ toString n ++ " direction must be one of: N, E, S, W"
  | .noCommands n => "Rover " ++ toString n ++ " commands line is mandatory and cannot be empty"
  | .command n c =>
    "Rover " ++ toString n ++ " has invalid command \x27" ++ String.singleton c ++
      "\x27. Valid commands are: L, R, M"

end Flaw

/-- Why a script stops: a line of bad form, or a failure on the plateau. -/
inductive Stop where
  | malformed (line : Nat) (flaw : Flaw)
  | refused (r : Refusal)
  | limit (l : DigitLimit)
  deriving DecidableEq, Repr

namespace Stop

def ofFailure : Failure → Stop
  | .refused r => .refused r
  | .limit l => .limit l

end Stop

def lines (s : List Char) : List (List Char) :=
  (Text.lines (Text.trim Text.isBlank s)).map (Text.trim Text.isBlank)

/-- Position and commands lines in pairs. -/
def pairs : List (List Char) → List (List Char × List Char)
  | [] => []
  | [position] => [(position, [])]
  | position :: commands :: rest => (position, commands) :: pairs rest

/-- The plateau that line `k` describes. -/
def readPlateau (k : Nat) (line : List Char) : Except Stop Plateau :=
  if line.isEmpty then .error (.malformed k .noPlateau)
  else
    match Text.words line with
    | [first, second] => do
      let x ← (Literal.read first).mapError .limit
      let y ← (Literal.read second).mapError .limit
      match x, y with
      | some x, some y => (Plateau.ofBounds "1" x y).mapError .refused
      | _, _ => throw (.malformed k .plateauNumbers)
    | _ => .error (.malformed k .plateauCount)

/-- Rover `n` as line `k` describes it. -/
def readRover (k n : Nat) (line : List Char) : Except Stop Rover :=
  if line.isEmpty then .error (.malformed k (.noPosition n))
  else
    match Text.words line with
    | [first, second, third] => do
      let x ← (Literal.read first).mapError .limit
      let y ← (Literal.read second).mapError .limit
      match x, y with
      | some x, some y =>
        match Heading.ofChars? (Text.upper third) with
        | some heading => return ⟨toString n, ← (Rover.startCell x y).mapError .refused, heading⟩
        | none => throw (.malformed k (.heading n))
      | _, _ => throw (.malformed k (.coordinates n))
    | _ => .error (.malformed k (.positionCount n))

def readCommand (k n : Nat) (c : Char) : Except Stop Command :=
  (Command.ofChar? c).elim (.error (.malformed k (.command n c))) .ok

/-- The commands of rover `n`: the letters of line `k` in upper case. -/
def readCommands (k n : Nat) (line : List Char) : Except Stop (List Command) :=
  if line.isEmpty then .error (.malformed k (.noCommands n))
  else (Text.upper line).mapM (readCommand k n)

end RoverFleet.Script
