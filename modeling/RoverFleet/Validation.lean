import RoverFleet.Value
import RoverFleet.Text.Blank
import RoverFleet.Text.Uppercase

/-!
# Checking values

A value is read as a truth value, an integer, a text or an object, with the conversions that are
allowed; what cannot be read has a defect. The checks of several fields report all their defects,
each with the place of the field.
-/
namespace RoverFleet
open Numeric

inductive Defect where
  | boolType
  | boolParsing
  | intType
  | intParsing
  | intParsingSize
  | intFromFloat
  | finiteNumber
  | stringType
  | dictType
  | modelType
  | missing
  | extraForbidden
  deriving DecidableEq, Repr

structure Issue where
  defect : Defect
  place : List String
  deriving DecidableEq, Repr

/-- A result, or all the issues that stand against it. -/
abbrev Checked (α : Type) := Except (List Issue) α

namespace Defect

def name : Defect → String
  | .boolType => "bool_type"
  | .boolParsing => "bool_parsing"
  | .intType => "int_type"
  | .intParsing => "int_parsing"
  | .intParsingSize => "int_parsing_size"
  | .intFromFloat => "int_from_float"
  | .finiteNumber => "finite_number"
  | .stringType => "string_type"
  | .dictType => "dict_type"
  | .modelType => "model_type"
  | .missing => "missing"
  | .extraForbidden => "extra_forbidden"

end Defect

namespace Checked

/-- Both results, or the issues of the first and then those of the second. -/
def both {α β : Type} (a : Checked α) (b : Checked β) : Checked (α × β) :=
  match a, b with
  | .ok x, .ok y => .ok (x, y)
  | .error es, .ok _ => .error es
  | .ok _, .error fs => .error fs
  | .error es, .error fs => .error (es ++ fs)

/-- Places the issues of a section below its name. -/
def within {α : Type} (name : String) (a : Checked α) : Checked α :=
  a.mapError fun es => es.map fun e => { e with place := name :: e.place }

end Checked

namespace Validation

def trueWords : List String := ["1", "on", "t", "true", "y", "yes"]

def falseWords : List String := ["0", "off", "f", "false", "n", "no"]

def boolOfText (s : String) : Except Defect Bool :=
  let word := String.ofList (Text.lowerAscii s.toList)
  if trueWords.contains word then .ok true
  else if falseWords.contains word then .ok false
  else .error .boolParsing

/-- Only the integers one and zero stand for truth values. -/
def boolOfInt (n : Int) : Except Defect Bool :=
  if n = 1 then .ok true else if n = 0 then .ok false else .error .boolParsing

/-- The integers of a machine word. -/
def isWord (n : Int) : Bool := -(Nat.pow 2 63) ≤ n && n < Nat.pow 2 63

/-- A number that is no integer of a machine word is not taken for a truth value at all. A binary64
number is none at the ends of the range, where its neighbours are far away. -/
def boolOfDouble (x : Binary64) : Except Defect Bool :=
  match x.whole? with
  | some n => if n.natAbs < Nat.pow 2 63 then boolOfInt n else .error .boolType
  | none => .error .boolType

def toBool : Value → Except Defect Bool
  | .bool b => .ok b
  | .int n => if isWord n then boolOfInt n else .error .boolType
  | .double x => boolOfDouble x
  | .string s => boolOfText s
  | _ => .error .boolType

/-- The white space of Unicode, which the information separators do not belong to. -/
def isSpace (c : Char) : Bool := Text.isBlank c && !(0x1c ≤ c.toNat && c.toNat ≤ 0x1f)

/-- Drops the zeros in front of a numeral with the underscores between and after them, up to a
digit that counts or a minus sign. One character always stays: the last zero before a point, or
the last character of all. A numeral starts with a digit or a minus sign. -/
def dropLeadingZeros : List Char → Option (List Char)
  | '0' :: s => afterZeros '0' s
  | c :: s => if c.isDigit || c = '-' then some (c :: s) else none
  | [] => none
where
  /-- The rest of a numeral after a zero or an underscore. -/
  afterZeros (last : Char) : List Char → Option (List Char)
    | [] => some [last]
    | c :: s =>
      if c = '0' || c = '_' then afterZeros c s
      else if c = '.' then some (last :: '.' :: s)
      else if c.isDigit || c = '-' then some (c :: s)
      else none

/-- Takes off a point that zeros follow, and nothing else. -/
def dropZeroFraction (s : List Char) : List Char :=
  match s.dropWhile (· ≠ '.') with
  | '.' :: zeros =>
    if !zeros.isEmpty && zeros.all (· = '0') then s.takeWhile (· ≠ '.') else s
  | _ => s

/-- Whether every underscore stands alone, and none at an end. -/
def dividesDigits : List Char → Bool
  | [] => true
  | ['_'] => false
  | '_' :: '_' :: _ => false
  | _ :: s => dividesDigits s

/-- Takes out the underscores if all of them stand between other characters. -/
def dropUnderscores (s : List Char) : List Char :=
  if s.head? ≠ some '_' && dividesDigits s then s.filter (· ≠ '_') else s

/-- Reads a numeral that has neither underscores nor zeros in front. At most 4300 characters are
read, of which the minus sign is one. -/
def readNumeral (s : List Char) : Except Defect Int :=
  let (negative, body) := match s with
    | '-' :: body => (true, body)
    | body => (false, body)
  let digits := body.takeWhile Char.isDigit
  if digits.head? = some '0' then if body = ['0'] then .ok 0 else .error .intParsing
  else if digitLimit < digits.length + (if negative then 1 else 0) then .error .intParsingSize
  else if digits.isEmpty || digits.length ≠ body.length then .error .intParsing
  else .ok (negateIf negative (ofDigits 10 digits))

/-- Reads a text as an integer. Zeros in front are dropped after the sign; a minus sign that stands
only behind them counts as the sign. -/
def intOfText (s : String) : Except Defect Int :=
  let (negative, body) := splitSign (Text.trim isSpace s.toList)
  if body.head? = some '-' then .error .intParsing
  else
    match dropLeadingZeros body with
    | none => .error .intParsing
    | some numeral =>
      let numeral := dropUnderscores (dropZeroFraction numeral)
      readNumeral (if negative then '-' :: numeral else numeral)

def intOfDouble (x : Binary64) : Except Defect Int :=
  match x.quantity, x.whole? with
  | .finite _, some n => if n.natAbs < Nat.pow 2 63 then .ok n else .error .intParsingSize
  | .finite _, none => .error .intFromFloat
  | _, _ => .error .finiteNumber

def toInt : Value → Except Defect Int
  | .bool b => .ok (if b then 1 else 0)
  | .int n => .ok n
  | .double x => intOfDouble x
  | .string s => intOfText s
  | _ => .error .intType

def toText : Value → Except Defect String
  | .string s => .ok s
  | _ => .error .stringType

def toFields : Value → Except Defect Fields
  | .object fields => .ok fields
  | _ => .error .dictType

/-- Also reads null, as nothing. -/
def orNull {α : Type} (read : Value → Except Defect α) : Value → Except Defect (Option α)
  | .null => .ok none
  | v => (read v).map some

def check {α : Type} (name : String) (read : Value → Except Defect α) (v : Value) : Checked α :=
  (read v).mapError fun d => [⟨d, [name]⟩]

/-- The field of a name, or an issue that it is missing. -/
def required {α : Type} (fields : Fields) (name : String) (read : Value → Except Defect α) :
    Checked α :=
  match fields.lookup name with
  | some v => check name read v
  | none => .error [⟨.missing, [name]⟩]

/-- The field of a name, or what stands for an absent one. -/
def optional {α : Type} (fields : Fields) (name : String) (absent : α)
    (read : Value → Except Defect α) : Checked α :=
  match fields.lookup name with
  | some v => check name read v
  | none => .ok absent

end Validation

end RoverFleet
