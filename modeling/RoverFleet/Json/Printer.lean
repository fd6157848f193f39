import RoverFleet.Value

/-!
# JSON text

Values are written over several lines with indentation, or on one line in ASCII. Fields keep
their order; integers are written in full at any size.
-/
namespace RoverFleet.Json
open Numeric

/-- What a style of JSON text decides. -/
structure Style where
  /-- What stands before an item at the given depth and before a closing bracket. -/
  lineBreak : Nat → List Char
  separator : List Char
  ascii : Bool
  layout : Layout
  /-- The texts of the numbers that are not finite. -/
  undefined : List Char
  infinity : List Char
  negativeInfinity : List Char

/-- Two blanks for each level; characters outside ASCII stand as they are. -/
def indented : Style where
  lineBreak depth := '\n' :: List.replicate (2 * depth) ' '
  separator := [',']
  ascii := false
  layout := ⟨-5, 16, true, 1⟩
  undefined := "null".toList
  infinity := "null".toList
  negativeInfinity := "null".toList

/-- One line; characters outside the printable ASCII range are escaped. -/
def oneLine : Style where
  lineBreak _ := []
  separator := [',', ' ']
  ascii := true
  layout := Value.messageLayout
  undefined := "NaN".toList
  infinity := "Infinity".toList
  negativeInfinity := "-Infinity".toList

def escapeUnit (unit : Nat) : List Char := '\\' :: 'u' :: hexPadded 4 unit

/-- A code point as one or two escaped UTF-16 units. -/
def escapeCode (code : Nat) : List Char :=
  if code < 0x10000 then escapeUnit code
  else escapeUnit (0xd800 + (code - 0x10000) / 0x400) ++
    escapeUnit (0xdc00 + (code - 0x10000) % 0x400)

def escapeChar (ascii : Bool) (c : Char) : List Char :=
  if c = '"' then ['\\', '"']
  else if c = '\\' then ['\\', '\\']
  else if c = '\x08' then ['\\', 'b']
  else if c = '\t' then ['\\', 't']
  else if c = '\n' then ['\\', 'n']
  else if c = '\x0c' then ['\\', 'f']
  else if c = '\r' then ['\\', 'r']
  else if c.toNat < 0x20 || (ascii && 0x7f ≤ c.toNat) then escapeCode c.toNat
  else [c]

def stringChars (ascii : Bool) (s : String) : List Char :=
  '"' :: s.toList.flatMap (escapeChar ascii) ++ ['"']

def doubleChars (style : Style) (x : Binary64) : List Char :=
  match x.quantity with
  | .undefined => style.undefined
  | .infinite false => style.infinity
  | .infinite true => style.negativeInfinity
  | .finite _ => x.finiteChars style.layout

mutual

/-- The text of a value whose brackets stand at the given depth. -/
def chars (style : Style) (depth : Nat) : Value → List Char
  | .null => "null".toList
  | .bool true => "true".toList
  | .bool false => "false".toList
  | .int n => intChars n
  | .double x => doubleChars style x
  | .string s => stringChars style.ascii s
  | .moment numbers => stringChars style.ascii (Value.momentText numbers)
  | .list [] => ['[', ']']
  | .list (v :: rest) =>
    '[' :: style.lineBreak (depth + 1) ++ chars style (depth + 1) v ++
      moreItems style (depth + 1) rest ++ style.lineBreak depth ++ [']']
  | .object [] => ['\x7b', '\x7d']
  | .object ((k, v) :: rest) =>
    '\x7b' :: style.lineBreak (depth + 1) ++ stringChars style.ascii k ++ ':' :: ' ' ::
      chars style (depth + 1) v ++ moreFields style (depth + 1) rest ++
      style.lineBreak depth ++ ['\x7d']

def moreItems (style : Style) (depth : Nat) : List Value → List Char
  | [] => []
  | v :: rest =>
    style.separator ++ style.lineBreak depth ++ chars style depth v ++ moreItems style depth rest

def moreFields (style : Style) (depth : Nat) : List (String × Value) → List Char
  | [] => []
  | (k, v) :: rest =>
    style.separator ++ style.lineBreak depth ++ stringChars style.ascii k ++ ':' :: ' ' ::
      chars style depth v ++ moreFields style depth rest

end

def render (style : Style) (v : Value) : String := String.ofList (chars style 0 v)

end RoverFleet.Json
