import RoverFleet.Proofs.Trail

/-!
# Courses

The course of a rover is the cell on which it starts and the cells that its moves lead to. A
plateau admits a rover to the cells inside on which no rover of another id stands. A run on a
plateau goes through exactly if the plateau admits the rover to every cell that a move of its walk
leads to; otherwise it is refused at the first one to which it is not admitted.
-/
namespace RoverFleet

namespace Rover

/-- The cells that the moves of a walk lead to. -/
def targets : List Command → Rover → List Cell
  | [], _ => []
  | .move :: rest, r => r.ahead :: targets rest (r.after .move)
  | c :: rest, r => targets rest (r.after c)

/-- The cell on which a walk starts and the cells that its moves lead to. -/
def course (cs : List Command) (r : Rover) : List Cell := r.cell :: r.targets cs

theorem walk_append (cs ds : List Command) (r : Rover) :
    r.walk (cs ++ ds) = (r.walk cs).walk ds := by
  induction cs generalizing r with
  | nil => rfl
  | cons c rest ih => exact ih (r.after c)

theorem targets_append (cs ds : List Command) (r : Rover) :
    r.targets (cs ++ ds) = r.targets cs ++ (r.walk cs).targets ds := by
  induction cs generalizing r with
  | nil => rfl
  | cons c rest ih => cases c <;> simp [targets, walk, ih]

theorem targets_cons (c : Command) (rest : List Command) (r : Rover) :
    r.targets (c :: rest) = r.targets [c] ++ (r.after c).targets rest :=
  targets_append [c] rest r

/-- Without a plateau commands do what nothing hinders. -/
theorem run_none (cs : List Command) (r : Rover) : r.run none cs = .ok (r.walk cs) := by
  induction cs generalizing r with
  | nil => rfl
  | cons c rest ih =>
    have hstep : r.execute none c = .ok (r.after c) := by cases c <;> rfl
    exact run_cons_ok_iff.mpr ⟨hstep, ih (r.after c)⟩

/-- The first target of some kind is where the move behind some commands leads, and no target of
these commands is of that kind. -/
theorem find?_targets {f : Cell → Bool} {cs : List Command} {r : Rover} {c : Cell}
    (h : (r.targets cs).find? f = some c) :
    ∃ before after, cs = before ++ .move :: after ∧ (∀ d ∈ r.targets before, f d = false) ∧
      (r.walk before).ahead = c := by
  induction cs generalizing r with
  | nil => cases h
  | cons k rest ih =>
    rw [targets_cons, List.find?_append] at h
    cases hk : (r.targets [k]).find? f with
    | some d =>
      obtain rfl : d = c := by simpa [hk] using h
      have hmem := List.mem_of_find?_eq_some hk
      cases k with
      | left => simp [targets] at hmem
      | right => simp [targets] at hmem
      | move => exact ⟨[], rest, rfl, by simp [targets], (List.mem_singleton.mp hmem).symm⟩
    | none =>
      obtain ⟨before, after, rfl, hbefore, hc⟩ := ih (by simpa [hk] using h)
      refine ⟨k :: before, after, rfl, fun d hd => ?_, hc⟩
      rw [targets_cons, List.mem_append] at hd
      rcases hd with hd | hd
      · simpa using List.find?_eq_none.mp hk d hd
      · exact hbefore d hd

/-- Targets are all of a kind, or there is a first one that is not. -/
theorem targets_split (P : Cell → Prop) (cs : List Command) (r : Rover) :
    (∀ c ∈ r.targets cs, P c) ∨ ∃ before after, cs = before ++ .move :: after ∧
      (∀ c ∈ r.targets before, P c) ∧ ¬ P (r.walk before).ahead := by
  classical
  cases h : (r.targets cs).find? (¬ P ·) with
  | none => exact Or.inl fun c hc => by simpa using List.find?_eq_none.mp h c hc
  | some c =>
    obtain ⟨before, after, hcs, hbefore, hahead⟩ := find?_targets h
    refine Or.inr ⟨before, after, hcs, fun d hd => by simpa using hbefore d hd, ?_⟩
    rw [hahead]
    simpa using List.find?_some h

end Rover

namespace Plateau

/-- A move may lead a rover of this id to the cell. -/
def Admits (p : Plateau) (id : String) (c : Cell) : Prop :=
  p.bounds.Contains c ∧ ¬ p.Occupied c (some id)

/-- Why a move of a rover to a cell is refused: the cell is outside, or else taken. -/
def offence (p : Plateau) (id : String) (c : Cell) : Refusal :=
  if p.bounds.Contains c then .movedOnRover id c else .movedOutside id c p.bounds

end Plateau

namespace Rover
variable {p : Plateau} {r r' : Rover}

theorem move_of_admits (h : p.Admits r.id r.ahead) : r.move (some p) = .ok (r.after .move) :=
  move_ok_iff.mpr ⟨h.1, h.2, rfl⟩

theorem move_of_not_admits (h : ¬ p.Admits r.id r.ahead) :
    r.move (some p) = .error (p.offence r.id r.ahead).report := by
  simp only [move, Plateau.moving, Plateau.offence]
  by_cases hin : p.bounds.Contains r.ahead
  · have hocc : p.Occupied r.ahead (some r.id) := by
      by_contra hfree
      exact h ⟨hin, hfree⟩
    rw [if_neg (not_not.mpr hin), if_pos hocc, if_pos hin]
    rfl
  · rw [if_pos hin, if_neg hin]
    rfl

theorem walk_move_of_not_admits {cs : List Command} (h : ¬ p.Admits r.id (r.walk cs).ahead) :
    (r.walk cs).move (some p) = .error (p.offence r.id (r.walk cs).ahead).report := by
  have hmove := move_of_not_admits (r := r.walk cs) (by rwa [walk_id])
  rwa [walk_id] at hmove

theorem run_append (site : Option Plateau) (cs ds : List Command) (r : Rover) :
    r.run site (cs ++ ds) = r.run site cs >>= run site ds := by
  induction cs generalizing r with
  | nil => rfl
  | cons c rest ih =>
    simp only [List.cons_append, run]
    cases r.execute site c with
    | error f => rfl
    | ok r' => exact ih r'

theorem run_of_admits {cs : List Command} (h : ∀ c ∈ r.targets cs, p.Admits r.id c) :
    r.run (some p) cs = .ok (r.walk cs) := by
  induction cs generalizing r with
  | nil => rfl
  | cons c rest ih =>
    rw [targets_cons] at h
    have hrest : ∀ d ∈ (r.after c).targets rest, p.Admits (r.after c).id d := by
      rw [after_id]
      exact fun d hd => h d (List.mem_append_right _ hd)
    refine run_cons_ok_iff.mpr ⟨?_, ih hrest⟩
    cases c with
    | left => rfl
    | right => rfl
    | move => exact move_of_admits (h r.ahead (by simp [targets]))

/-- A run is refused at the first target to which the plateau does not admit the rover. -/
theorem run_of_offence {before : List Command} (h : ∀ c ∈ r.targets before, p.Admits r.id c)
    (hnot : ¬ p.Admits r.id (r.walk before).ahead) (after : List Command) :
    r.run (some p) (before ++ .move :: after) =
      .error (p.offence r.id (r.walk before).ahead).report := by
  rw [run_append, run_of_admits h]
  simp only [bind, Except.bind, run, execute, walk_move_of_not_admits hnot]

theorem run_ok_iff_admits {cs : List Command} :
    r.run (some p) cs = .ok r' ↔ (∀ c ∈ r.targets cs, p.Admits r.id c) ∧ r' = r.walk cs := by
  constructor
  · intro hrun
    refine ⟨?_, run_walk hrun⟩
    rcases targets_split (p.Admits r.id) cs r with h | ⟨before, after, rfl, h, hnot⟩
    · exact h
    · cases hrun.symm.trans (run_of_offence h hnot after)
  · rintro ⟨h, rfl⟩
    exact run_of_admits h

theorem trail_eq_cons (cs : List Command) (r : Rover) : ∃ later, r.trail cs = r.cell :: later := by
  cases cs with
  | nil => exact ⟨[], rfl⟩
  | cons c rest => exact ⟨_, rfl⟩

/-- The course is the trail without the cells that turns on the spot repeat, also when the rover
stays at the end for a while. -/
theorem destutter_trail_stay (cs : List Command) (r : Rover) (n : ℕ) :
    (r.trail cs ++ List.replicate n (r.walk cs).cell).destutter (· ≠ ·) = r.course cs := by
  induction cs generalizing r with
  | nil =>
    induction n with
    | zero => rfl
    | succ n ih => exact (if_neg (not_not.mpr rfl)).trans ih
  | cons c rest ih =>
    obtain ⟨later, hlater⟩ := trail_eq_cons rest (r.after c)
    have hrest := ih (r.after c)
    rw [hlater, List.cons_append, List.destutter_cons'] at hrest
    rw [trail, walk, hlater, List.cons_append, List.cons_append, List.destutter_cons_cons, hrest]
    cases c with
    | left => exact (if_neg (not_not.mpr rfl)).trans hrest
    | right => exact (if_neg (not_not.mpr rfl)).trans hrest
    | move => exact if_pos r.ahead_ne.symm

theorem find?_trail (f : Cell → Bool) (cs : List Command) (r : Rover) :
    (r.trail cs).find? f = (r.course cs).find? f := by
  induction cs generalizing r with
  | nil => rfl
  | cons c rest ih =>
    rw [trail, List.find?_cons, ih]
    cases hf : f r.cell with
    | true => simp [course, hf]
    | false => cases c <;> simp [course, targets, after, hf]

end Rover

end RoverFleet
