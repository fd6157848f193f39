import RoverFleet.Files.System

/-!
# The settings file

The file that a variable names, or else the nearest file of the usual name in a directory and
those around it.
-/
namespace RoverFleet.Settings
open Files

def fileName : String := "roverctl.toml"

def fileVariable : String := "ROVERCTL_CONFIG"

/-- The path of a text if it leads to a file. -/
def namedFile? (s : System) (text : String) : Except PathFault (Option Path) := do
  let p := Path.ofText text
  return if ← s.isFile p then some p else none

/-- The settings file in the first of the directories that has one. -/
def firstFile? (s : System) : List Location → Except PathFault (Option Path)
  | [] => .ok none
  | directory :: rest => do
    let p := Location.toPath (directory ++ [fileName])
    if ← s.isFile p then return some p else firstFile? s rest

/-- The settings file for a directory, which is the current one if none is given. -/
def findFile? (s : System) (start : Option Path) : Except PathFault (Option Path) := do
  match s.lookup? fileVariable with
  | some text => if text ≠ "" then namedFile? s text else nearest
  | none => nearest
where
  nearest := do
    let start ← start.elim s.current .ok
    firstFile? s (← s.resolve start).withParents

end RoverFleet.Settings
