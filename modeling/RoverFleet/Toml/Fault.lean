import RoverFleet.Numeric.Decimal
import RoverFleet.Text.Quoted

/-!
# Faults of TOML text

A malformed text has a cause and a place, which is given by the text that was not yet read. A well
formed integer may still have more digits than are read.
-/
namespace RoverFleet.Toml
open Numeric

abbrev Key := List String

inductive Cause where
  | statement
  | afterStatement
  | declaredTwice (key : Key)
  | overwritten
  | tableEnd
  | tableArrayEnd
  | immutable (key : Key)
  | redefined (key : Key)
  | noEquals
  | keyStart
  | unclosedArray
  | unclosedTable
  | duplicate (name : String)
  | backslash
  | hexDigits
  | notScalar
  | expected (text : String)
  | invalidCharacter (c : Char)
  | illegalCharacter (c : Char)
  | unterminated
  | date
  | value
  deriving DecidableEq, Repr

/-- A malformed text, and what of it was not yet read. -/
structure Malformed where
  cause : Cause
  rest : List Char
  deriving DecidableEq, Repr

inductive Fault where
  | malformed (m : Malformed)
  | limit (l : DigitLimit)
  deriving DecidableEq, Repr

abbrev Reader (α : Type) := List Char → Except Fault (α × List Char)

def fail {α : Type} (cause : Cause) (rest : List Char) : Except Fault α :=
  .error (.malformed ⟨cause, rest⟩)

namespace Key

/-- The parts between parentheses; a comma follows a single one. -/
def text (key : Key) : String :=
  match key with
  | [part] => "(" ++ Text.quoted part ++ ",)"
  | parts => "(" ++ ", ".intercalate (parts.map Text.quoted) ++ ")"

end Key

namespace Cause

def quotedChar (c : Char) : String := Text.quoted (String.singleton c)

def message : Cause → String
  | .statement => "Invalid statement"
  | .afterStatement => "Expected newline or end of document after a statement"
  | .declaredTwice key => "Cannot declare " ++ Key.text key ++ " twice"
  | .overwritten => "Cannot overwrite a value"
  | .tableEnd => "Expected ']' at the end of a table declaration"
  | .tableArrayEnd => "Expected ']]' at the end of an array declaration"
  | .immutable key => "Cannot mutate immutable namespace " ++ Key.text key
  | .redefined key => "Cannot redefine namespace " ++ Key.text key
  | .noEquals => "Expected '=' after a key in a key/value pair"
  | .keyStart => "Invalid initial character for a key part"
  | .unclosedArray => "Unclosed array"
  | .unclosedTable => "Unclosed inline table"
  | .duplicate name => "Duplicate inline table key " ++ Text.quoted name
  | .backslash => "Unescaped '\\' in a string"
  | .hexDigits => "Invalid hex value"
  | .notScalar => "Escaped character is not a Unicode scalar value"
  | .expected text => "Expected " ++ Text.quoted text
  | .invalidCharacter c => "Found invalid character " ++ quotedChar c
  | .illegalCharacter c => "Illegal character " ++ quotedChar c
  | .unterminated => "Unterminated string"
  | .date => "Invalid date or datetime"
  | .value => "Invalid value"

end Cause

namespace Malformed

/-- The place after the text that was read; lines and columns count from one. -/
def place (read : List Char) : String :=
  let column := (read.reverse.takeWhile (· ≠ '\n')).length + 1
  "line " ++ toString (read.count '\n' + 1) ++ ", column " ++ toString column

def message (m : Malformed) (source : List Char) : String :=
  let place :=
    if m.rest.isEmpty then "end of document"
    else place (source.take (source.length - m.rest.length))
  m.cause.message ++ " (at " ++ place ++ ")"

end Malformed

end RoverFleet.Toml
