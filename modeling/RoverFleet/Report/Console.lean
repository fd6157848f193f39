import RoverFleet.Text.Columns

/-!
# Consoles

A console prints lines on a page of some width, one after another. A line is made of spans, which
have styles; the line itself may have one as well. How styles show is up to the console.
-/
namespace RoverFleet
namespace Report

structure Span where
  text : String
  /-- The name of a style; the empty one is none. -/
  style : String := ""
  deriving DecidableEq, Repr

structure Line where
  spans : List Span
  style : String := ""
  deriving DecidableEq, Repr

def Line.text (l : Line) : String := String.join (l.spans.map (·.text))

/-- No part of the line between line feeds ends in a blank. -/
def Line.IsSoft (l : Line) : Prop :=
  ∀ part ∈ Text.lines (l.text.toList.filter (!Text.isDropped ·)),
    ∀ c ∈ part.getLast?, Text.isBlank c = false

/-- The line has no control characters, and does not end in a blank. -/
structure Line.IsPlain (l : Line) : Prop where
  shown : ∀ c ∈ l.text.toList, 0x20 ≤ c.toNat
  last : ∀ c ∈ l.text.toList.getLast?, Text.isBlank c = false

end Report

/-- What is printed of a line on a page of a width. -/
abbrev Console := Int → Report.Line → String

namespace Console

/-- A console prints nothing on a page without columns. The width of a page does not count for a
line of which no part ends in a blank. -/
structure Lawful (c : Console) : Prop where
  narrow : ∀ width line, width < 1 → c width line = ""
  soft : ∀ v w line, 1 ≤ v → 1 ≤ w → line.IsSoft → c v line = c w line

/-- A console without colours prints a plain line as it is. -/
def Plain (c : Console) : Prop :=
  ∀ width line, 1 ≤ width → line.IsPlain → c width line = line.text ++ "\n"

/-- A console that shows no styles. -/
def standard : Console := fun width line =>
  if width < 1 then "" else String.ofList (Text.printed line.text.toList ++ ['\n'])

end Console

end RoverFleet
