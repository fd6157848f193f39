import RoverFleet.Script.Basic

/-!
# Running a script

Each rover is placed and driven before the next one is read. A run keeps a journal of what was
done, the number of the last line it took up, and the plateau or the reason that it stopped.
-/
namespace RoverFleet.Script
open Numeric

inductive Entry where
  | marked (p : Plateau)
  | placed (r : Rover)
  | drove (r : Rover) (commands : Nat)
  deriving DecidableEq, Repr

namespace Entry

def message : Entry → Except DigitLimit String
  | .marked p => return "Parsed plateau " ++ (← p.text?)
  | .placed r =>
    if Printable r.cell.x ∧ Printable r.cell.y then
      .ok ("Added rover " ++ r.id ++ " at " ++ r.cell.text ++ " facing " ++ r.heading.text)
    else .error .writing
  | .drove r commands =>
    return "Rover " ++ r.id ++ " ran " ++ toString commands ++ " commands, ended at " ++ (← r.text?)

end Entry

structure Run where
  line : Nat
  journal : List Entry
  result : Except Stop Plateau

/-- Reads rover `n` from line `k` and places it. -/
def enter (k n : Nat) (p : Plateau) (line : List Char) : Except Stop Rover := do
  let r ← readRover k n line
  (p.placing r).mapError .ofFailure
  return r

/-- Reads the commands of rover `n` from line `k` and executes them. -/
def drive (k n : Nat) (p : Plateau) (r : Rover) (line : List Char) :
    Except Stop (Rover × Nat) := do
  let commands ← readCommands k n line
  return (← (r.run (some p) commands).mapError .ofFailure, commands.length)

/-- Runs the rovers from number `n` on, when line `k` was taken up last. -/
def runRovers (k n : Nat) (p : Plateau) : List (List Char × List Char) → Run
  | [] => ⟨k, [], .ok p⟩
  | (position, commands) :: rest =>
    match enter (k + 1) n p position with
    | .error stop => ⟨k + 1, [], .error stop⟩
    | .ok r =>
      match drive (k + 2) n (p.register r) r commands with
      | .error stop => ⟨k + 2, [.placed r], .error stop⟩
      | .ok (r', count) =>
        let run := runRovers (k + 2) (n + 1) (p.register r') rest
        { run with journal := .placed r :: .drove r' count :: run.journal }

def runLines : List (List Char) → Run
  | [] => ⟨1, [], .error (.malformed 1 .noPlateau)⟩
  | first :: rest =>
    match readPlateau 1 first with
    | .error stop => ⟨1, [], .error stop⟩
    | .ok p =>
      let run := runRovers 1 1 p (pairs rest)
      { run with journal := .marked p :: run.journal }

def run (text : List Char) : Run := runLines (lines text)

/-- A parser, which remembers the number of the line that it took up last. -/
structure Parser where
  line : Nat
  deriving DecidableEq, Repr

namespace Parser

def new : Parser := ⟨0⟩

/-- Parses a text from its first line on, whatever was parsed before. -/
def parse (_ : Parser) (text : List Char) : Parser × Except Stop Plateau :=
  let run := run text
  (⟨run.line⟩, run.result)

end Parser

end RoverFleet.Script
