import RoverFleet.Settings.Basic
import RoverFleet.Settings.Layers
import RoverFleet.Json.Reader
import RoverFleet.Text.Uppercase

/-!
# Settings from variables

`ROVERCTL_VERBOSE` gives a plain setting, `ROVERCTL_OUTPUT` a section as JSON and
`ROVERCTL_OUTPUT__WIDTH` one key of a section. Letter case does not matter in a name, and of
several variables of one meaning the last counts.
-/
namespace RoverFleet.Settings
open Numeric

/-- What a variable gives. -/
inductive Target where
  | plain (name : String)
  | wholeSection (name : String)
  | sectionKey (inSection key : String)
  /-- Something below a key, which makes an object of it. -/
  | belowKey (inSection key : String)
  deriving DecidableEq, Repr

def lowered (s : String) : String := String.ofList (Text.lowerAscii s.toList)

namespace Target

def marker : List Char := "roverctl_".toList

/-- The parts of a text between double underscores. -/
def split : List Char → List (List Char)
  | [] => [[]]
  | '_' :: '_' :: s => [] :: split s
  | c :: s =>
    match split s with
    | part :: more => (c :: part) :: more
    | [] => [[c]]

/-- The parts of a name after its marker. -/
def parts? (name : String) : Option (List String) :=
  let s := Text.lowerAscii name.toList
  if marker.isPrefixOf s then some ((split (s.drop marker.length)).map String.ofList) else none

def ofParts? : List String → Option Target
  | [name] =>
    if plainNames.contains name then some (.plain name)
    else if sectionNames.contains name then some (.wholeSection name)
    else none
  | inSection :: word :: below =>
    if sectionNames.contains inSection then
      some (if below.isEmpty then .sectionKey inSection word else .belowKey inSection word)
    else none
  | [] => none

def ofName? (name : String) : Option Target := (parts? name).bind ofParts?

end Target

/-- A section variable that does not hold JSON. -/
structure BadVariable where
  inSection : String
  deriving DecidableEq, Repr

namespace BadVariable

def message (b : BadVariable) : String :=
  "error parsing value for field \"" ++ b.inSection ++ "\" from source \"EnvSettingsSource\""

end BadVariable

namespace Variables

abbrev Givens := List (Target × String)

def givens (environment : List (String × String)) : Givens :=
  environment.filterMap fun v => (Target.ofName? v.1).map (·, v.2)

def last? (givens : Givens) (t : Target) : Option String := givens.reverse.lookup t

/-- Adds what one variable gives to the keys of a section. -/
def addKey (name : String) (keys : Fields) (given : Target × String) : Fields :=
  match given.1 with
  | .sectionKey s key => if s = name then Fields.put key (.string given.2) keys else keys
  | .belowKey s key =>
    if s = name && !keys.has key then Fields.put key (.object []) keys else keys
  | _ => keys

def sectionKeys (givens : Givens) (name : String) : Fields := givens.foldl (addKey name) []

/-- Writes the keys of a section as it knows them, whatever their letter case. -/
def knownKeys (name : String) (fields : Fields) : Fields :=
  let known := (sections.lookup name).getD []
  Fields.putAll (fields.map fun f => ((known.find? (· = lowered f.1)).getD f.1, f.2)) []

/-- A section from its own variable and those of its keys. Where it is given as anything but an
object, the variables of its keys do not count; given as null, it is absent. -/
def readSection (givens : Givens) (name : String) : Except BadVariable (Option Value) :=
  match last? givens (.wholeSection name) with
  | none =>
    match sectionKeys givens name with
    | [] => .ok none
    | keys => .ok (some (.object (knownKeys name keys)))
  | some text =>
    match Json.parse? text with
    | none => .error ⟨name⟩
    | some (.object fields) =>
      .ok (some (.object (knownKeys name (Fields.putAll (sectionKeys givens name) fields))))
    | some .null => .ok none
    | some v => .ok (some v)

def plainFields (givens : Givens) : Fields :=
  plainNames.filterMap fun name => (last? givens (.plain name)).map fun s => (name, .string s)

/-- The fields that variables give. -/
def fields (environment : List (String × String)) : Except BadVariable Fields := do
  let givens := givens environment
  let sections ← sectionNames.mapM fun name => return (name, ← readSection givens name)
  return plainFields givens ++ sections.filterMap fun s => s.2.map (s.1, ·)

end Variables

end RoverFleet.Settings
