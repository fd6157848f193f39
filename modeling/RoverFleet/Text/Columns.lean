import RoverFleet.Text.Blank
import RoverFleet.Text.ColumnRanges

/-!
# Text in columns

Printing without colour: some control characters are dropped, and a tab fills its line up to the
next multiple of eight columns. Wide characters take two columns and combining ones none; the
columns of a text are those of its characters, except around joiners and variation selectors.
-/
namespace RoverFleet.Text

def columns (c : Char) : Nat :=
  if inRanges widthless c.toNat then 0 else if inRanges wide c.toNat then 2 else 1

/-- The columns that a variation selector adds to the character it belongs to. -/
def addedColumns (c : Char) : Nat := if inRanges widened c.toNat then 1 else 0

/-- The columns of a text after a character that has columns. A joiner merges the next character
into what stands before it, and a variation selector may widen the last character with columns,
which it does once. -/
def widthAfter (last : Option Char) : List Char → Nat
  | [] => 0
  | '\u200d' :: _ :: s => widthAfter last s
  | c :: s =>
    if c = '\ufe0f' then last.elim 0 addedColumns + widthAfter none s
    else if columns c = 0 then widthAfter last s
    else columns c + widthAfter (some c) s

def width (s : List Char) : Nat := widthAfter none s

/-- Bell, backspace, vertical tab, form feed and carriage return. -/
def isDropped (c : Char) : Bool := c.toNat == 7 || c.toNat == 8 || (11 ≤ c.toNat && c.toNat ≤ 13)

/-- Joins the parts of a line between its tabs, from a column on. A tab is a blank, which counts
with the part before it, and more blanks up to the next stop. -/
def joinAtStops (column : Nat) : List (List Char) → List Char
  | [] => []
  | [part] => part
  | part :: more =>
    let reached := column + width (part ++ [' '])
    let gap := (8 - reached % 8) % 8
    part ++ ' ' :: List.replicate gap ' ' ++ joinAtStops (reached + gap) more

def expandTabs (line : List Char) : List Char := joinAtStops 0 (line.splitOn '\t')

/-- The text as it is printed. -/
def printed (s : List Char) : List Char :=
  ['\n'].intercalate ((lines (s.filter (!isDropped ·))).map expandTabs)

end RoverFleet.Text
