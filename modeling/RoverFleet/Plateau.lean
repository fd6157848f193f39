import RoverFleet.Compass
import RoverFleet.Cell

/-!
# Rovers on a plateau

A plateau spans the cells from (0, 0) to its bounds and keeps its rovers in the order of their
first placement, one for each id. A rover is placed on a free cell inside, and moves to a free cell
inside; rovers of its own id are not in its way. What is refused changes nothing.
-/
namespace RoverFleet
open Numeric

structure Bounds where
  maxX : Nat
  maxY : Nat
  deriving DecidableEq, Repr

structure Rover where
  id : String
  cell : Cell
  heading : Heading
  deriving DecidableEq, Repr

structure Plateau where
  id : String
  bounds : Bounds
  rovers : List Rover
  deriving DecidableEq, Repr

/-- Why a plateau or rover is not made, or a rover not placed or not moved. -/
inductive Refusal where
  | boundsNotWhole
  | boundsNegative
  | cellNotWhole
  | cellNegative
  | placedOutside (id : String) (cell : Cell) (bounds : Bounds)
  | placedOnRover (id : String) (cell : Cell)
  | movedOutside (id : String) (cell : Cell) (bounds : Bounds)
  | movedOnRover (id : String) (cell : Cell)
  deriving DecidableEq, Repr

/-- A refusal, or a refusal whose message would hold too long a number. -/
inductive Failure where
  | refused (r : Refusal)
  | limit (l : DigitLimit)
  deriving DecidableEq, Repr

namespace Bounds

def text (b : Bounds) : String := Cell.text ⟨b.maxX, b.maxY⟩

def Contains (b : Bounds) (c : Cell) : Prop := 0 ≤ c.x ∧ c.x ≤ b.maxX ∧ 0 ≤ c.y ∧ c.y ≤ b.maxY

instance (b : Bounds) (c : Cell) : Decidable (b.Contains c) :=
  inferInstanceAs (Decidable (_ ∧ _ ∧ _ ∧ _))

/-- Whether a point lies inside; `none` when a coordinate that has to be compared is no number. -/
def contains? (b : Bounds) (p : Point) : Option Bool := do
  let between (v : Value) (max : Nat) : Option Bool := do
    let q ← v.quantity?
    return (Quantity.ofInt 0).le q && q.le (.ofInt max)
  if ← between p.x b.maxX then between p.y b.maxY else return false

end Bounds

namespace Refusal

/-- Whether the refusal is of a command rather than of making or placing. -/
def isOfCommand : Refusal → Bool
  | .movedOutside .. | .movedOnRover .. => true
  | _ => false

def message : Refusal → String
  | .boundsNotWhole => "Plateau boundaries must be integers"
  | .boundsNegative => "Plateau boundaries must be non-negative"
  | .cellNotWhole => "Rover positions must be integers"
  | .cellNegative => "Rover positions must be non-negative"
  | .placedOutside id cell bounds =>
    "Rover " ++ id ++ " cannot be added - position " ++ cell.text ++
      " is out of plateau bounds (0, 0) to " ++ bounds.text
  | .placedOnRover id cell =>
    "Rover " ++ id ++ " cannot be added - position " ++ cell.text ++ " is already occupied"
  | .movedOutside id cell bounds =>
    "Rover " ++ id ++ " cannot move to position " ++ cell.text ++
      " - out of plateau bounds (0, 0) to " ++ bounds.text
  | .movedOnRover id cell =>
    "Rover " ++ id ++ " cannot move to position " ++ cell.text ++
      " - already occupied by another rover"

/-- The numbers that the message writes. -/
def numbers : Refusal → List Int
  | .placedOutside _ cell bounds | .movedOutside _ cell bounds =>
    [cell.x, cell.y, bounds.maxX, bounds.maxY]
  | .placedOnRover _ cell | .movedOnRover _ cell => [cell.x, cell.y]
  | _ => []

/-- The failure that reports a refusal. -/
def report (r : Refusal) : Failure :=
  if ∀ n ∈ r.numbers, Printable n then .refused r else .limit .writing

end Refusal

namespace Rover

/-- The cell with the given coordinates, which must be whole and not negative. -/
def startCell (x y : Value) : Except Refusal Cell :=
  match x.whole?, y.whole? with
  | some x, some y => if x < 0 ∨ y < 0 then .error .cellNegative else .ok ⟨x, y⟩
  | _, _ => .error .cellNotWhole

/-- The cell one step ahead. -/
def ahead (r : Rover) : Cell := ⟨r.cell.x + r.heading.stepX, r.cell.y + r.heading.stepY⟩

def text (r : Rover) : String :=
  intText r.cell.x ++ " " ++ intText r.cell.y ++ " " ++ r.heading.text

/-- The text within the digit limit. -/
def text? (r : Rover) : Except DigitLimit String :=
  if Printable r.cell.x ∧ Printable r.cell.y then .ok r.text else .error .writing

def description (r : Rover) : Except DigitLimit String :=
  return "Rover(id=" ++ Text.quoted r.id ++ ", position=" ++ (← r.cell.toPoint.description) ++
    ", direction=<Direction." ++ r.heading.name ++ ": \x27" ++ r.heading.text ++ "\x27>)"

def fields (r : Rover) : Fields :=
  [("id", .string r.id), ("x", .int r.cell.x), ("y", .int r.cell.y),
    ("direction", .string r.heading.text)]

end Rover

namespace Plateau

/-- An empty plateau with the given bounds, which must be whole and not negative. -/
def ofBounds (id : String) (x y : Value) : Except Refusal Plateau :=
  match x.whole?, y.whole? with
  | some x, some y =>
    if x < 0 ∨ y < 0 then .error .boundsNegative else .ok ⟨id, ⟨x.toNat, y.toNat⟩, []⟩
  | _, _ => .error .boundsNotWhole

/-- Whether a rover of another id than the excluded one stands on the cell. -/
def Occupied (p : Plateau) (c : Cell) (exclude : Option String) : Prop :=
  ∃ r ∈ p.rovers, some r.id ≠ exclude ∧ r.cell = c

instance (p : Plateau) (c : Cell) (exclude : Option String) : Decidable (p.Occupied c exclude) :=
  inferInstanceAs (Decidable (∃ r ∈ p.rovers, _))

/-- Whether a rover of another id than the excluded one stands on the point. -/
def occupiedAt (p : Plateau) (pt : Point) (exclude : Option String) : Bool :=
  p.rovers.any fun r => some r.id ≠ exclude && r.cell.isAt pt

/-- Puts a rover in the place of the one with its id, or at the end. -/
def put (r : Rover) : List Rover → List Rover
  | [] => [r]
  | s :: rest => if s.id = r.id then r :: rest else s :: put r rest

def register (p : Plateau) (r : Rover) : Plateau := { p with rovers := put r p.rovers }

def rover? (p : Plateau) (id : String) : Option Rover := p.rovers.find? (·.id = id)

/-- Why a rover cannot be placed, if it cannot. -/
def placing (p : Plateau) (r : Rover) : Except Failure Unit :=
  if ¬ p.bounds.Contains r.cell then .error (Refusal.placedOutside r.id r.cell p.bounds).report
  else if p.Occupied r.cell none then .error (Refusal.placedOnRover r.id r.cell).report
  else .ok ()

def place (p : Plateau) (r : Rover) : Except Failure Plateau := do
  p.placing r
  return p.register r

/-- Why a rover of an id cannot move to a cell, if it cannot. -/
def moving (p : Plateau) (id : String) (target : Cell) : Except Failure Unit :=
  if ¬ p.bounds.Contains target then .error (Refusal.movedOutside id target p.bounds).report
  else if p.Occupied target (some id) then .error (Refusal.movedOnRover id target).report
  else .ok ()

def text (p : Plateau) : String :=
  "Plateau " ++ p.id ++ ": " ++ p.bounds.text ++ " with " ++ toString p.rovers.length ++ " rovers"

/-- The text within the digit limit. -/
def text? (p : Plateau) : Except DigitLimit String :=
  if Printable p.bounds.maxX ∧ Printable p.bounds.maxY then .ok p.text else .error .writing

def fields (p : Plateau) : Fields :=
  [("id", .string p.id), ("max_x", .int p.bounds.maxX), ("max_y", .int p.bounds.maxY)]

end Plateau

namespace Rover

/-- One step ahead; on a plateau only to a free cell inside. -/
def move (site : Option Plateau) (r : Rover) : Except Failure Rover :=
  match site with
  | none => .ok { r with cell := r.ahead }
  | some p => do
    p.moving r.id r.ahead
    return { r with cell := r.ahead }

def execute (site : Option Plateau) (c : Command) (r : Rover) : Except Failure Rover :=
  match c with
  | .left => .ok { r with heading := r.heading.left }
  | .right => .ok { r with heading := r.heading.right }
  | .move => r.move site

/-- Executes commands one after another. -/
def run (site : Option Plateau) : List Command → Rover → Except Failure Rover
  | [], r => .ok r
  | c :: rest, r => do run site rest (← r.execute site c)

end Rover

end RoverFleet
