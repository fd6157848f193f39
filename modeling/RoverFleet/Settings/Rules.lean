import RoverFleet.Settings.Variables
import RoverFleet.Validation

/-!
# Rules for settings

Rules say how values are read as truth values, integers and texts, and which fields the environment
gives. The fields of settings are checked by them.
-/
namespace RoverFleet.Settings
open Files

structure Rules where
  toBool : Value → Except Defect Bool
  toInt : Value → Except Defect Int
  toText : Value → Except Defect String
  /-- The fields that an environment gives. -/
  fieldsOf : List (String × String) → Except BadVariable Fields

namespace Rules

def standard : Rules := ⟨Validation.toBool, Validation.toInt, Validation.toText, Variables.fields⟩

/-- What is known of rules: a truth value is read as itself, an object is never read as one, and the
environment gives fields by the names of its variables. -/
structure Documented (k : Rules) : Prop where
  bool : ∀ b, k.toBool (.bool b) = .ok b
  object : ∀ fields, k.toBool (.object fields) = .error .boolType
  fieldsOf : ∀ environment, k.fieldsOf environment = Variables.fields environment

theorem standard_documented : standard.Documented where
  bool _ := rfl
  object _ := rfl
  fieldsOf _ := rfl

end Rules

def checkFlag (k : Rules) (fields : Fields) (name : String) : Checked Bool :=
  Validation.optional fields name false k.toBool

/-- Checks the keys of a section, which is empty if it is absent. -/
def checkSection {α : Type} (fields : Fields) (name : String) (check : Fields → Checked α) :
    Checked α :=
  match fields.lookup name with
  | none => check []
  | some (.object keys) => (check keys).within name
  | some _ => .error [⟨.modelType, [name]⟩]

def checkInput (k : Rules) (keys : Fields) : Checked String :=
  Validation.optional keys "encoding" "utf-8-sig" k.toText

def checkOutput (k : Rules) (keys : Fields) : Checked (Bool × Int) :=
  (Validation.optional keys "verbose" false k.toBool).both
    (Validation.optional keys "width" 120 k.toInt)

def checkNames (fields : Fields) : Checked Unit :=
  match (fields.map (·.1)).filter (!isKnown ·) with
  | [] => .ok ()
  | unknown => .error (unknown.map fun name => ⟨.extraForbidden, [name]⟩)

/-- The settings that fields give; a base and a file among the fields do not count. -/
def ofFields (k : Rules) (base : Path) (file : Option Path) (fields : Fields) :
    Checked Settings := do
  let (json, verbose, debug, logJson, encoding, (verboseOutput, width), _) ←
    (checkFlag k fields "json_output").both <|
    (checkFlag k fields "verbose").both <|
    (checkFlag k fields "debug").both <|
    (checkFlag k fields "log_json").both <|
    (checkSection fields "input" (checkInput k)).both <|
    (checkSection fields "output" (checkOutput k)).both <|
    checkNames fields
  return { base, file, json, verbose, debug, logJson, encoding, verboseOutput, width }

end RoverFleet.Settings
