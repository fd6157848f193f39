import RoverFleet.Proofs.Outcome
import RoverFleet.Proofs.Placement

/-!
# Walks

The walk of a rover is what its commands do when nothing is in its way. A run that succeeds on a
plateau ends where the walk ends; the plateau decides only whether the run succeeds.
-/
namespace RoverFleet

namespace Rover

/-- The pose after commands that nothing hinders. -/
def walk : List Command → Rover → Rover
  | [], r => r
  | c :: rest, r => walk rest (r.after c)

@[simp] theorem walk_id (cs : List Command) (r : Rover) : (r.walk cs).id = r.id := by
  induction cs generalizing r with
  | nil => rfl
  | cons c rest ih => simp [walk, ih]

theorem run_cons_ok_iff {site : Option Plateau} {c : Command} {rest : List Command}
    {r r' : Rover} : r.run site (c :: rest) = .ok r' ↔
      r.execute site c = .ok (r.after c) ∧ (r.after c).run site rest = .ok r' := by
  simp only [run, bind_ok_iff]
  constructor
  · rintro ⟨s, hs, hr⟩
    obtain rfl := execute_after hs
    exact ⟨hs, hr⟩
  · exact fun h => ⟨_, h⟩

theorem run_walk {site : Option Plateau} {cs : List Command} {r r' : Rover}
    (h : r.run site cs = .ok r') : r' = r.walk cs := by
  induction cs generalizing r with
  | nil => cases h; rfl
  | cons c rest ih => exact ih (run_cons_ok_iff.mp h).2

theorem run_register {p : Plateau} {r s : Rover} (h : s.id = r.id) (cs : List Command) :
    r.run (some (p.register s)) cs = r.run (some p) cs := by
  induction cs generalizing r with
  | nil => rfl
  | cons c rest ih =>
    simp only [run, execute_register h]
    cases he : r.execute (some p) c with
    | error f => rfl
    | ok r' => exact ih (h.trans (execute_id he).symm)

end Rover

end RoverFleet
