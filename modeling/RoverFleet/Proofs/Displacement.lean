import RoverFleet.Proofs.Course
import RoverFleet.Proofs.Turning

/-!
# Where a walk ends

A walk ends in the heading that its right turns less its left turns lead to, and on the cell that
is reached from the start by one unit step for each move, in the direction of the turns before that
move. So it ends at most as many cells away as it has moves, and the parity is that of the moves.
-/
namespace RoverFleet

/-- One step in the direction that lies some quarter turns clockwise from north. -/
def unitStep : ZMod 4 → ℤ × ℤ := ![(0, 1), (1, 0), (0, -1), (-1, 0)]

theorem unitStep_quarters (h : Heading) : unitStep h.quarters = (h.stepX, h.stepY) := by
  cases h <;> rfl

namespace Rover

/-- The quarter turns clockwise from north before command `i`. -/
def quartersBefore (i : ℕ) (cs : List Command) (r : Rover) : ZMod 4 :=
  r.heading.quarters + (cs.take i).count .right - (cs.take i).count .left

theorem quartersBefore_succ (i : ℕ) (c : Command) (rest : List Command) (r : Rover) :
    r.quartersBefore (i + 1) (c :: rest) = (r.after c).quartersBefore i rest := by
  cases c with
  | left => simp [quartersBefore, after, Heading.quarters_left]; ring
  | right => simp [quartersBefore, after, Heading.quarters_right]; ring
  | move => simp [quartersBefore, after]

theorem after_displacement (c : Command) (r : Rover) :
    ((r.after c).cell.x, (r.after c).cell.y) =
      (r.cell.x, r.cell.y) + if c = .move then unitStep r.heading.quarters else 0 := by
  cases c with
  | left => simp [after]
  | right => simp [after]
  | move => simp [after, ahead, unitStep_quarters]

theorem walk_displacement (cs : List Command) (r : Rover) :
    ((r.walk cs).cell.x, (r.walk cs).cell.y) = (r.cell.x, r.cell.y) +
      ∑ i ∈ Finset.range cs.length with cs[i]? = some .move, unitStep (r.quartersBefore i cs) := by
  simp only [Finset.sum_filter]
  induction cs generalizing r with
  | nil => simp [walk]
  | cons c rest ih =>
    have hstart : r.quartersBefore 0 (c :: rest) = r.heading.quarters := by simp [quartersBefore]
    rw [walk, ih, after_displacement, List.length_cons, Finset.sum_range_succ']
    simp only [quartersBefore_succ, List.getElem?_cons_succ, List.getElem?_cons_zero,
      Option.some.injEq, hstart]
    abel

/-- A walk leads at most as far as its moves, and the parity of both is the same. -/
theorem walk_distance (cs : List Command) (r : Rover) :
    let distance := ((r.walk cs).cell.x - r.cell.x).natAbs + ((r.walk cs).cell.y - r.cell.y).natAbs
    distance ≤ cs.count .move ∧ distance % 2 = cs.count .move % 2 := by
  induction cs generalizing r with
  | nil => simp [walk]
  | cons c rest ih =>
    have hrest := ih (r.after c)
    cases c with
    | left =>
      rw [List.count_cons_of_ne (by decide)]
      exact hrest
    | right =>
      rw [List.count_cons_of_ne (by decide)]
      exact hrest
    | move =>
      simp only [walk, after, ahead, List.count_cons_self] at hrest ⊢
      -- a step is along one of the axes, so one of the two distances stays as it is
      cases hh : r.heading <;>
        simp only [hh, Heading.stepX, Heading.stepY, add_zero] at hrest ⊢ <;> omega

/-- Commands without a plateau, from any cell and heading: the rover turns by the right turns less
the left turns, and each move takes it one step in the direction of the turns before it. So it gets
at most as many cells away as it makes moves, and the parity of both is the same. -/
theorem run_closed_form (r : Rover) (cs : List Command) :
    ∃ r', r.run none cs = .ok r' ∧ r'.id = r.id ∧
      r'.heading.quarters = r.heading.quarters + cs.count .right - cs.count .left ∧
      (r'.cell.x, r'.cell.y) = (r.cell.x, r.cell.y) +
        ∑ i ∈ Finset.range cs.length with cs[i]? = some .move,
          unitStep (r.heading.quarters + (cs.take i).count .right - (cs.take i).count .left) ∧
      let distance := (r'.cell.x - r.cell.x).natAbs + (r'.cell.y - r.cell.y).natAbs
      distance ≤ cs.count .move ∧ distance % 2 = cs.count .move % 2 :=
  ⟨r.walk cs, run_none cs r, walk_id cs r, walk_quarters cs r, walk_displacement cs r,
    walk_distance cs r⟩

end Rover

end RoverFleet
