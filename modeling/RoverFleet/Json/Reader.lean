import RoverFleet.Value
import RoverFleet.Numeric.Rounding

/-!
# Reading JSON text

A number without a fraction and an exponent is an integer, whose digits may be limited, any other a
binary64 number. Of several fields of one name the last counts, in the place of the first. A reader
takes the text and gives back what it read and the rest.
-/
namespace RoverFleet.Json
open Numeric

abbrev Reader (α : Type) := List Char → Option (α × List Char)

def isSpace (c : Char) : Bool := c = ' ' || c = '\t' || c = '\n' || c = '\r'

def skipSpace (s : List Char) : List Char := s.dropWhile isSpace

def hexValue? (c : Char) : Option Nat :=
  if isHexDigit c then some (digitValue c) else none

/-- Four hexadecimal digits. -/
def readUnit : Reader Nat
  | a :: b :: c :: d :: s => do
    some (((← hexValue? a) * 16 + (← hexValue? b)) * 256 + (← hexValue? c) * 16 + (← hexValue? d), s)
  | _ => none

/-- What stands after a backslash and `u`: one unit, or two that make one code point. -/
def readEscapedCode (s : List Char) : Option (Char × List Char) := do
  let (unit, rest) ← readUnit s
  if 0xd800 ≤ unit ∧ unit < 0xdc00 then
    match rest with
    | '\\' :: 'u' :: low =>
      match readUnit low with
      | some (next, rest') =>
        if 0xdc00 ≤ next ∧ next < 0xe000 then
          some (Char.ofNat (0x10000 + (unit - 0xd800) * 0x400 + (next - 0xdc00)), rest')
        else some (Char.ofNat 0xfffd, rest)
      | none => some (Char.ofNat 0xfffd, rest)
    | _ => some (Char.ofNat 0xfffd, rest)
  else if 0xdc00 ≤ unit ∧ unit < 0xe000 then some (Char.ofNat 0xfffd, rest)
  else some (Char.ofNat unit, rest)

/-- What stands after a backslash. -/
def readEscape : Reader Char
  | '"' :: s => some ('"', s)
  | '\\' :: s => some ('\\', s)
  | '/' :: s => some ('/', s)
  | 'b' :: s => some ('\x08', s)
  | 'f' :: s => some ('\x0c', s)
  | 'n' :: s => some ('\n', s)
  | 'r' :: s => some ('\r', s)
  | 't' :: s => some ('\t', s)
  | 'u' :: s => readEscapedCode s
  | _ => none

/-- The rest of a string after its opening quote. -/
def readString : Nat → Reader (List Char)
  | 0, _ => none
  | fuel + 1, s =>
    match s with
    | [] => none
    | '"' :: s => some ([], s)
    | '\\' :: s => do
      let (c, s) ← readEscape s
      let (more, s) ← readString fuel s
      some (c :: more, s)
    | c :: s =>
      if c.toNat < 0x20 then none
      else do
        let (more, s) ← readString fuel s
        some (c :: more, s)

/-- The digits after a point; without digits nothing is read. -/
def readFraction : List Char → List Char × List Char
  | '.' :: s =>
    if (s.takeWhile Char.isDigit).isEmpty then ([], '.' :: s)
    else (s.takeWhile Char.isDigit, s.dropWhile Char.isDigit)
  | s => ([], s)

def isExponentMark (c : Char) : Bool := c = 'e' || c = 'E'

/-- An exponent; without digits nothing is read. -/
def readExponent (s : List Char) : Option Int × List Char :=
  match s with
  | mark :: rest =>
    if isExponentMark mark then
      let (negative, digits) := splitSign rest
      if (digits.takeWhile Char.isDigit).isEmpty then (none, s)
      else
        (some (negateIf negative (ofDigits 10 (digits.takeWhile Char.isDigit))),
          digits.dropWhile Char.isDigit)
    else (none, s)
  | [] => (none, s)

/-- The digits of a whole number: a zero, or digits that start with another one. -/
def readWhole : Reader (List Char)
  | '0' :: s => some (['0'], s)
  | s =>
    if (s.takeWhile Char.isDigit).isEmpty then none
    else some (s.takeWhile Char.isDigit, s.dropWhile Char.isDigit)

def readMagnitude (limit : Option Nat) (negative : Bool) (s : List Char) :
    Option (Value × List Char) := do
  let (whole, s) ← readWhole s
  let (fraction, s) := readFraction s
  let (exponent, s) := readExponent s
  if fraction.isEmpty && exponent.isNone then
    if limit.any (· < whole.length) then none
    else some (.int (negateIf negative (ofDigits 10 whole)), s)
  else
    some (.double (.ofDecimal negative (ofDigits 10 (whole ++ fraction))
      (exponent.getD 0 - fraction.length)), s)

/-- Reads a word if the text starts with it. -/
def readWord (word : String) (v : Value) (s : List Char) : Option (Value × List Char) :=
  if word.toList.isPrefixOf s then some (v, s.drop word.length) else none

def readNumber (limit : Option Nat) (s : List Char) : Option (Value × List Char) :=
  match s with
  | '-' :: rest =>
    (readWord "-Infinity" (.double (.infinity true)) s).or (readMagnitude limit true rest)
  | _ => readMagnitude limit false s

mutual

def readValue (limit : Option Nat) : Nat → Reader Value
  | 0, _ => none
  | fuel + 1, s =>
    match s with
    | '"' :: s => do
      let (text, s) ← readString (s.length + 1) s
      some (.string (String.ofList text), s)
    | '[' :: s =>
      match skipSpace s with
      | ']' :: s => some (.list [], s)
      | s => do
        let (items, s) ← readItems limit fuel s
        some (.list items, s)
    | '\x7b' :: s =>
      match skipSpace s with
      | '\x7d' :: s => some (.object [], s)
      | s => do
        let (fields, s) ← readFields limit fuel s
        some (.object (fields.foldl (fun all f => Fields.put f.1 f.2 all) []), s)
    | 'n' :: _ => readWord "null" .null s
    | 't' :: _ => readWord "true" (.bool true) s
    | 'f' :: _ => readWord "false" (.bool false) s
    | 'N' :: _ => readWord "NaN" (.double (.notANumber false)) s
    | 'I' :: _ => readWord "Infinity" (.double (.infinity false)) s
    | _ => readNumber limit s

/-- The items from the first one up to the closing bracket. -/
def readItems (limit : Option Nat) : Nat → Reader (List Value)
  | 0, _ => none
  | fuel + 1, s => do
    let (v, s) ← readValue limit fuel (skipSpace s)
    match skipSpace s with
    | ']' :: s => some ([v], s)
    | ',' :: s => do
      let (more, s) ← readItems limit fuel s
      some (v :: more, s)
    | _ => none

/-- The fields from the first one up to the closing brace. -/
def readFields (limit : Option Nat) : Nat → Reader (List (String × Value))
  | 0, _ => none
  | fuel + 1, s =>
    match skipSpace s with
    | '"' :: s => do
      let (key, s) ← readString (s.length + 1) s
      match skipSpace s with
      | ':' :: s => do
        let (v, s) ← readValue limit fuel (skipSpace s)
        let field := (String.ofList key, v)
        match skipSpace s with
        | '\x7d' :: s => some ([field], s)
        | ',' :: s => do
          let (more, s) ← readFields limit fuel s
          some (field :: more, s)
        | _ => none
      | _ => none
    | _ => none

end

/-- The value that a whole text holds, blanks around it aside, when no integer in it has more digits
than the limit. -/
def parseWithin? (limit : Option Nat) (text : String) : Option Value :=
  let s := skipSpace text.toList
  match readValue limit (s.length + 1) s with
  | some (v, rest) => if (skipSpace rest).isEmpty then some v else none
  | none => none

def parse? (text : String) : Option Value := parseWithin? (some digitLimit) text

end RoverFleet.Json
