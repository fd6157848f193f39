import RoverFleet.Proofs.Walk

/-!
# Turns on the spot

Headings are counted in quarter turns clockwise from north, modulo four. Commands without a move
always succeed and leave the rover where it is, turned by the right turns less the left turns.
-/
namespace RoverFleet

namespace Heading

/-- The quarter turns clockwise from north. -/
def quarters : Heading → ZMod 4
  | .north => 0
  | .east => 1
  | .south => 2
  | .west => 3

theorem quarters_injective : Function.Injective quarters := by
  intro h g he
  cases h <;> cases g <;> first | rfl | exact absurd he (by decide)

theorem quarters_right (h : Heading) : h.right.quarters = h.quarters + 1 := by
  cases h <;> decide

theorem quarters_left (h : Heading) : h.left.quarters = h.quarters - 1 := by
  cases h <;> decide

end Heading

namespace Rover
variable {cs : List Command}

theorem walk_cell (hcs : .move ∉ cs) (r : Rover) : (r.walk cs).cell = r.cell := by
  induction cs generalizing r with
  | nil => rfl
  | cons c rest ih =>
    simp only [List.mem_cons, not_or] at hcs
    cases c with
    | left => exact ih hcs.2 (r.after .left)
    | right => exact ih hcs.2 (r.after .right)
    | move => exact absurd rfl hcs.1

theorem walk_quarters (cs : List Command) (r : Rover) :
    (r.walk cs).heading.quarters = r.heading.quarters + cs.count .right - cs.count .left := by
  induction cs generalizing r with
  | nil => simp [walk]
  | cons c rest ih =>
    cases c with
    | left => simp [walk, ih, after, Heading.quarters_left]; ring
    | right => simp [walk, ih, after, Heading.quarters_right]; ring
    | move => simp [walk, ih, after]

/-- Turns that add up to whole turns leave the rover as it is. -/
theorem walk_whole_turns (hcs : .move ∉ cs)
    (h : (4 : ℤ) ∣ cs.count .left - cs.count .right) (r : Rover) : r.walk cs = r := by
  have hzero : (cs.count .left : ZMod 4) - cs.count .right = 0 := by
    exact_mod_cast (ZMod.intCast_zmod_eq_zero_iff_dvd _ 4).mpr h
  have hheading : (r.walk cs).heading = r.heading := by
    refine Heading.quarters_injective ?_
    rw [walk_quarters, sub_eq_zero.mp hzero]
    ring
  have hid := walk_id cs r
  have hcell := walk_cell hcs r
  rcases hw : r.walk cs with ⟨id, cell, heading⟩
  rw [hw] at hid hcell hheading
  cases hid
  cases hcell
  cases hheading
  rfl

/-- Turns are hindered by nothing. -/
theorem run_turns (hcs : .move ∉ cs) (site : Option Plateau) (r : Rover) :
    r.run site cs = .ok (r.walk cs) := by
  induction cs generalizing r with
  | nil => rfl
  | cons c rest ih =>
    simp only [List.mem_cons, not_or] at hcs
    cases c with
    | left => exact ih hcs.2 (r.after .left)
    | right => exact ih hcs.2 (r.after .right)
    | move => exact absurd rfl hcs.1

end Rover

end RoverFleet
