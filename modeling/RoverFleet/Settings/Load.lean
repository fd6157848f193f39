import RoverFleet.Settings.Discovery
import RoverFleet.Settings.Rules
import RoverFleet.Codec.Encoding
import RoverFleet.Toml.Reader

/-!
# Loading settings

Settings come from flags, variables and a file; each of them counts before the next, key by key.
-/
namespace RoverFleet.Settings
open Files

/-- Why settings cannot be loaded. -/
inductive Failure where
  | path (f : PathFault)
  | undecodable (u : Codec.Undecodable)
  | toml (path : Path) (m : Toml.Malformed) (source : List Char)
  | limit (l : Numeric.DigitLimit)
  | badVariable (b : BadVariable)
  | invalid (issues : List Issue)
  deriving DecidableEq, Repr

def tomlMessage (path : Path) (m : Toml.Malformed) (source : List Char) : String :=
  "Invalid TOML in " ++ path.text ++ ": " ++ m.message source

/-- Why the text of a settings file gives no settings. -/
def Failure.ofFault (path : Path) (source : List Char) : Toml.Fault → Failure
  | .malformed m => .toml path m source
  | .limit l => .limit l

def readToml (path : Path) (bytes : List UInt8) : Except Failure Fields := do
  let source := Codec.unifyLineEnds (← (Codec.Utf8.decode bytes).mapError .undecodable)
  (Toml.parse source).mapError (.ofFault path source)

/-- The bytes of a settings file. -/
def fileBytes (s : System) (path : Path) : Except Failure (List UInt8) := do
  let opened ← (s.contents path).mapError (.path ∘ .system)
  opened.mapError (.path ∘ .system)

/-- The fields of a settings file; without a file there are none. -/
def fileFields (s : System) : Option Path → Except Failure Fields
  | none => .ok []
  | some path => do
    if ← (s.isFile path).mapError .path then readToml path (← fileBytes s path) else return []

/-- The settings file of a run: the given one, or the one that is found. -/
def chooseFile? (s : System) (given : Option String) (base : Option Path) :
    Except PathFault (Option Path) :=
  match given with
  | some text => if text ≠ "" then namedFile? s text else findFile? s base
  | none => findFile? s base

/-- Loads the settings for a settings file, a base directory and flags. -/
def load (k : Rules) (s : System) (given : Option String) (base : Option Path) (flags : Fields) :
    Except Failure Settings := do
  let file ← (chooseFile? s given base).mapError .path
  let base ← (base.elim s.current .ok).mapError .path
  let fromFile ← fileFields s file
  let fromVariables ← (k.fieldsOf s.environment).mapError .badVariable
  let fields := flags.overlay (fromVariables.overlay fromFile)
  (ofFields k base file fields).mapError .invalid

end RoverFleet.Settings
