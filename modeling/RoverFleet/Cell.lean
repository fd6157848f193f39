import RoverFleet.Value

/-!
# Cells and points

A cell is a pair of integers. A point has any two values as coordinates; it is what a question
about a plateau may name. Values lie in a memory of objects, and a place is a pair of those: two
places are equal if their coordinates are, and an object is always equal to itself.
-/
namespace RoverFleet
open Numeric

structure Cell where
  x : Int
  y : Int
  deriving DecidableEq, Repr

structure Point where
  x : Value
  y : Value

/-- The value of each object. Objects are told apart by their addresses. -/
abbrev Memory := Nat → Value

/-- A position whose coordinates are the objects at two addresses. -/
structure Place where
  x : Nat
  y : Nat
  deriving DecidableEq, Repr

namespace Cell

def text (c : Cell) : String := "(" ++ intText c.x ++ ", " ++ intText c.y ++ ")"

def toPoint (c : Cell) : Point := ⟨.int c.x, .int c.y⟩

end Cell

namespace Point

def text (p : Point) : Except DigitLimit String :=
  return "(" ++ (← p.x.text) ++ ", " ++ (← p.y.text) ++ ")"

/-- The text that names the coordinates and quotes strings. -/
def description (p : Point) : Except DigitLimit String :=
  return "Position(x=" ++ (← p.x.quotedText) ++ ", y=" ++ (← p.y.quotedText) ++ ")"

end Point

namespace Memory

/-- Whether two objects are equal. Their values are only compared if they are not the same object,
so even an object that holds a NaN is equal to itself. -/
def equal (m : Memory) (a b : Nat) : Bool := a == b || (m a).same (m b)

/-- The point that a place stands for. -/
def point (m : Memory) (p : Place) : Point := ⟨m p.x, m p.y⟩

end Memory

namespace Place

def equal (m : Memory) (p q : Place) : Bool := m.equal p.x q.x && m.equal p.y q.y

end Place

namespace Cell

/-- Whether the coordinates of a point are those of the cell. The cell's are integers, so that it
does not matter whether they are the same objects. -/
def isAt (c : Cell) (p : Point) : Bool := (Value.int c.x).same p.x && (Value.int c.y).same p.y

end Cell

end RoverFleet
