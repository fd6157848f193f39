/-!
# Headings and commands

The four headings in their clockwise order, and the three commands of a rover.
-/
namespace RoverFleet

inductive Heading where
  | north
  | east
  | south
  | west
  deriving DecidableEq, Repr

inductive Command where
  | left
  | right
  | move
  deriving DecidableEq, Repr

namespace Heading

def letter : Heading → Char
  | .north => 'N'
  | .east => 'E'
  | .south => 'S'
  | .west => 'W'

def text (h : Heading) : String := String.singleton h.letter

def name : Heading → String
  | .north => "NORTH"
  | .east => "EAST"
  | .south => "SOUTH"
  | .west => "WEST"

def all : List Heading := [.north, .east, .south, .west]

def ofChars? (s : List Char) : Option Heading := all.find? fun h => s = [h.letter]

def ofText? (s : String) : Option Heading := ofChars? s.toList

/-- A quarter turn clockwise. -/
def right : Heading → Heading
  | .north => .east
  | .east => .south
  | .south => .west
  | .west => .north

/-- A quarter turn counter-clockwise. -/
def left : Heading → Heading
  | .north => .west
  | .east => .north
  | .south => .east
  | .west => .south

def stepX : Heading → Int
  | .east => 1
  | .west => -1
  | _ => 0

def stepY : Heading → Int
  | .north => 1
  | .south => -1
  | _ => 0

end Heading

namespace Command

def letter : Command → Char
  | .left => 'L'
  | .right => 'R'
  | .move => 'M'

def all : List Command := [.left, .right, .move]

def ofChar? (c : Char) : Option Command := all.find? fun k => c = k.letter

def ofText? (s : String) : Option Command :=
  match s.toList with
  | [c] => ofChar? c
  | _ => none

end Command

end RoverFleet
