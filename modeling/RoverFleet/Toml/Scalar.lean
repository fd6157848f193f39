import RoverFleet.Toml.Fault
import RoverFleet.Value
import RoverFleet.Numeric.Rounding

/-!
# Strings, numbers and dates in TOML

Basic strings have escapes, literal strings have none, and both may span lines between three
quotes. Underscores may stand between digits. A date or time is read as the row of its numbers.
-/
namespace RoverFleet.Toml
open Numeric

def isSpace (c : Char) : Bool := c = ' ' || c = '\t'

def skipSpace (s : List Char) : List Char := s.dropWhile isSpace

def skipSpaceAndLines (s : List Char) : List Char := s.dropWhile fun c => isSpace c || c = '\n'

/-- Control characters other than the tab; a text of several lines may also hold line feeds. -/
def isIllegal (multiline : Bool) (c : Char) : Bool :=
  (c.toNat < 32 || c.toNat == 127) && c ≠ '\t' && !(multiline && c = '\n')

/-- The first suffix that starts with an illegal character. -/
def illegalSuffix? (multiline : Bool) : List Char → Option (List Char)
  | [] => none
  | c :: s => if isIllegal multiline c then some (c :: s) else illegalSuffix? multiline s

/-! Strings -/

def isScalarCode (n : Nat) : Bool := n < 0xd800 || (0xe000 ≤ n && n < 0x110000)

/-- A character by its code in hexadecimal digits. -/
def readHexChar (count : Nat) : Reader (List Char) := fun s =>
  let digits := s.take count
  if digits.length ≠ count || !digits.all isHexDigit then fail .hexDigits s
  else if isScalarCode (ofDigits 16 digits) then
    .ok ([Char.ofNat (ofDigits 16 digits)], s.drop count)
  else fail .notScalar (s.drop count)

/-- A backslash at the end of a line takes the blanks and line ends after it along. -/
def readContinuation : Reader (List Char) := fun s =>
  match skipSpace s with
  | [] => .ok ([], [])
  | '\n' :: rest => .ok ([], skipSpaceAndLines rest)
  | rest => fail .backslash rest

def escapes : List (Char × Char) :=
  [('b', '\x08'), ('t', '\t'), ('n', '\n'), ('f', '\x0c'), ('r', '\r'), ('"', '"'), ('\\', '\\')]

/-- What follows a backslash. -/
def readEscape (multiline : Bool) : Reader (List Char)
  | [] => fail .backslash []
  | c :: rest =>
    if multiline && (isSpace c || c = '\n') then readContinuation (c :: rest)
    else if c = 'u' then readHexChar 4 rest
    else if c = 'U' then readHexChar 8 rest
    else
      match escapes.lookup c with
      | some e => .ok ([e], rest)
      | none => fail .backslash rest

/-- The rest of a basic string; each round takes at least one character. -/
def readBasic (multiline : Bool) : Nat → Reader (List Char)
  | 0, s => fail .unterminated s
  | fuel + 1, s =>
    match s with
    | [] => fail .unterminated []
    | '"' :: rest =>
      match multiline, rest with
      | false, _ => .ok ([], rest)
      | true, '"' :: '"' :: rest => .ok ([], rest)
      | true, _ => do
        let (more, rest) ← readBasic multiline fuel rest
        return ('"' :: more, rest)
    | '\\' :: rest => do
      let (cs, rest) ← readEscape multiline rest
      let (more, rest) ← readBasic multiline fuel rest
      return (cs ++ more, rest)
    | c :: rest =>
      if isIllegal multiline c then fail (.illegalCharacter c) s
      else do
        let (more, rest) ← readBasic multiline fuel rest
        return (c :: more, rest)

/-- The text before a mark, and the text after it. -/
def splitAtMark (mark : List Char) : List Char → Option (List Char × List Char)
  | [] => none
  | c :: s =>
    if mark.isPrefixOf (c :: s) then some ([], (c :: s).drop mark.length)
    else (splitAtMark mark s).map fun p => (c :: p.1, p.2)

/-- The rest of a literal string, up to its closing mark. -/
def readLiteral (multiline : Bool) (mark : String) : Reader (List Char) := fun s =>
  match splitAtMark mark.toList s with
  | none => fail (.expected mark) []
  | some (body, rest) =>
    match illegalSuffix? multiline body with
    | some (c :: more) => fail (.invalidCharacter c) (s.drop (body.length - (more.length + 1)))
    | _ => .ok (body, rest)

/-- Up to two more quotes before the end belong to the string. -/
def addQuotes (quote : Char) (body : List Char) : List Char → List Char × List Char
  | c :: d :: rest =>
    if c = quote then
      if d = quote then (body ++ [c, d], rest) else (body ++ [c], d :: rest)
    else (body, c :: d :: rest)
  | [c] => if c = quote then (body ++ [c], []) else (body, [c])
  | [] => (body, [])

def dropFirstLineFeed : List Char → List Char
  | '\n' :: s => s
  | s => s

/-- The rest of a string after a double quote. -/
def readDoubleQuoted : Reader String
  | '"' :: '"' :: rest => do
    let (body, rest) ← readBasic true (rest.length + 1) (dropFirstLineFeed rest)
    let (body, rest) := addQuotes '"' body rest
    return (String.ofList body, rest)
  | s => do
    let (body, rest) ← readBasic false (s.length + 1) s
    return (String.ofList body, rest)

/-- The rest of a string after a single quote. -/
def readSingleQuoted : Reader String
  | '\x27' :: '\x27' :: rest => do
    let (body, rest) ← readLiteral true "'''" (dropFirstLineFeed rest)
    let (body, rest) := addQuotes '\x27' body rest
    return (String.ofList body, rest)
  | s => do
    let (body, rest) ← readLiteral false "'" s
    return (String.ofList body, rest)

/-! Numbers -/

/-- Digits that single underscores may divide. -/
def moreDigits (isDigit : Char → Bool) : List Char → List Char × List Char
  | '_' :: d :: s =>
    if isDigit d then
      let (digits, rest) := moreDigits isDigit s
      (d :: digits, rest)
    else ([], '_' :: d :: s)
  | c :: s =>
    if isDigit c then
      let (digits, rest) := moreDigits isDigit s
      (c :: digits, rest)
    else ([], c :: s)
  | [] => ([], [])

/-- At least one digit. -/
def digits? (isDigit : Char → Bool) : List Char → Option (List Char × List Char)
  | c :: s =>
    if isDigit c then
      let (digits, rest) := moreDigits isDigit s
      some (c :: digits, rest)
    else none
  | [] => none

def readBased? : List Char → Option (Value × List Char)
  | '0' :: mark :: s => do
    let (base, isDigit) ← match mark with
      | 'x' => some (16, isHexDigit)
      | 'o' => some (8, fun c => '0' ≤ c && c ≤ '7')
      | 'b' => some (2, fun c => c = '0' || c = '1')
      | _ => none
    let (digits, rest) ← digits? isDigit s
    some (.int (ofDigits base digits), rest)
  | _ => none

def readWhole? : List Char → Option (List Char × List Char)
  | '0' :: s => some (['0'], s)
  | s => digits? Char.isDigit s

def readFraction (s : List Char) : List Char × List Char :=
  match s with
  | '.' :: rest => (digits? Char.isDigit rest).getD ([], s)
  | _ => ([], s)

def readExponent (s : List Char) : Option Int × List Char :=
  match s with
  | mark :: rest =>
    if mark = 'e' || mark = 'E' then
      let (negative, rest) := splitSign rest
      match digits? Char.isDigit rest with
      | some (digits, rest) =>
        (some (negateIf negative (ofDigits 10 digits)), rest)
      | none => (none, s)
    else (none, s)
  | [] => (none, s)

/-- The integer that a row of digits stands for, unless there are too many of them. -/
def readInteger (negative : Bool) (digits : List Char) : Except Fault Value :=
  if digitLimit < digits.length then .error (.limit (.reading digits.length))
  else .ok (.int (negateIf negative (ofDigits 10 digits)))

/-- A decimal number, if the text starts with one. -/
def readDecimal? (s : List Char) : Option (Except Fault (Value × List Char)) := do
  let (negative, s) := splitSign s
  let (whole, s) ← readWhole? s
  let (fraction, s) := readFraction s
  let (exponent, s) := readExponent s
  if fraction.isEmpty && exponent.isNone then
    some ((readInteger negative whole).map (·, s))
  else
    some (.ok (.double (.ofDecimal negative (ofDigits 10 (whole ++ fraction))
      (exponent.getD 0 - fraction.length)), s))

/-- Takes a word away from the front. -/
def after? (word : String) (s : List Char) : Option (List Char) :=
  if word.toList.isPrefixOf s then some (s.drop word.length) else none

def readSpecial? (s : List Char) : Option (Value × List Char) :=
  let (negative, rest) := splitSign s
  ((after? "inf" rest).map fun r => (.double (.infinity negative), r)).or
    ((after? "nan" rest).map fun r => (.double (.notANumber negative), r))

/-! Dates and times -/

/-- A number of exactly `count` digits within bounds. -/
def fixed? (count low high : Nat) (s : List Char) : Option (Nat × List Char) :=
  let digits := s.take count
  let n := ofDigits 10 digits
  if digits.length = count && digits.all Char.isDigit && low ≤ n && n ≤ high then
    some (n, s.drop count)
  else none

def sign? (c : Char) : List Char → Option (List Char)
  | d :: s => if c = d then some s else none
  | [] => none

/-- The fraction of a second, which needs a digit. -/
def skipSecondFraction (s : List Char) : List Char :=
  match s with
  | '.' :: rest => if (rest.takeWhile Char.isDigit).isEmpty then s else rest.dropWhile Char.isDigit
  | _ => s

def time? (s : List Char) : Option (List Nat × List Char) := do
  let (hour, s) ← fixed? 2 0 23 s
  let (minute, s) ← fixed? 2 0 59 (← sign? ':' s)
  let (second, s) ← fixed? 2 0 59 (← sign? ':' s)
  some ([hour, minute, second], skipSecondFraction s)

def skipOffset (s : List Char) : List Char :=
  match s with
  | 'Z' :: rest | 'z' :: rest => rest
  | c :: rest =>
    if c = '+' || c = '-' then
      (do
        let (_, r) ← fixed? 2 0 23 rest
        let (_, r) ← fixed? 2 0 59 (← sign? ':' r)
        some r).getD s
    else s
  | [] => s

def date? (s : List Char) : Option (List Nat × List Char) := do
  let (year, s) ← fixed? 4 0 9999 s
  let (month, s) ← fixed? 2 1 12 (← sign? '-' s)
  let (day, s) ← fixed? 2 1 31 (← sign? '-' s)
  some ([year, month, day], s)

/-- The time that may follow a date. -/
def timeAfterDate (s : List Char) : List Nat × List Char :=
  match s with
  | c :: rest =>
    if c = 'T' || c = 't' || c = ' ' then
      match time? rest with
      | some (numbers, rest) => (numbers, skipOffset rest)
      | none => ([], s)
    else ([], s)
  | [] => ([], s)

def isLeap (year : Nat) : Bool := (year % 4 == 0 && year % 100 != 0) || year % 400 == 0

def daysIn (year month : Nat) : Nat :=
  if month = 2 then (if isLeap year then 29 else 28)
  else if month = 4 || month = 6 || month = 9 || month = 11 then 30
  else 31

/-- Whether the day is in the calendar, whose years start with the first. -/
def isCalendarDay : List Nat → Bool
  | year :: month :: day :: _ => 1 ≤ year && day ≤ daysIn year month
  | _ => false

/-- A date, a time, or both, if the text starts with one. -/
def readMoment? (s : List Char) : Option (Except Fault (Value × List Char)) :=
  match date? s with
  | some (date, rest) =>
    let (time, rest) := timeAfterDate rest
    some (if isCalendarDay date then .ok (.moment (date ++ time), rest) else fail .date s)
  | none => (time? s).map fun p => .ok (.moment p.1, p.2)

end RoverFleet.Toml
