import RoverFleet.Proofs.Course
import RoverFleet.Proofs.Keyed

/-!
# Runs on a plateau are cut off walks

A cell is open to a rover of a plateau if it is inside and no other rover of the plateau stands on
it. A rover that runs commands on the plateau that keeps it does what it would do without the
plateau, up to the first move whose target is not open: there it stops, and stays as the commands
before that move have left it. Everything else stays as it is.
-/
namespace RoverFleet

def letters (cs : List Command) : List Char := cs.map Command.letter

namespace Rover
variable {site : Option Plateau} {cs : List Command} {r r' : Rover}

theorem runLetters_cons_letter (site : Option Plateau) (c : Command) (rest : List Char)
    (r : Rover) : r.runLetters site (c.letter :: rest) = match r.execute site c with
      | .error f => (r, .error (.failed f))
      | .ok r' => r'.runLetters site rest := by
  have hvalue : Command.ofValue (.string (String.singleton c.letter)) = .ok c := by
    cases c <;> rfl
  cases hstep : r.execute site c with
  | error f => simp only [runLetters, hvalue, hstep]
  | ok r' => simp only [runLetters, hvalue, hstep]

/-- The letters of commands that are executed lead to where the commands lead, and the letters
behind them are run from there. -/
theorem runLetters_append_of_run (h : r.run site cs = .ok r') (rest : List Char) :
    r.runLetters site (letters cs ++ rest) = r'.runLetters site rest := by
  induction cs generalizing r with
  | nil => cases h; rfl
  | cons c cs ih =>
    obtain ⟨hstep, hrun⟩ := run_cons_ok_iff.mp h
    rw [letters, List.map_cons, List.cons_append, runLetters_cons_letter, hstep]
    exact ih hrun

theorem runLetters_of_run (h : r.run site cs = .ok r') :
    r.runLetters site (letters cs) = (r', .ok ()) := by
  have := runLetters_append_of_run h []
  rwa [List.append_nil] at this

end Rover

namespace Session
variable {s : Session} {g : Ground} {i : ℕ} {r : Rover}

/-- A move may lead rover `i` of a plateau to the cell: it is inside, and no other rover of the
plateau stands there. -/
def Open (s : Session) (g : Ground) (i : ℕ) (c : Cell) : Prop :=
  g.bounds.Contains c ∧ ∀ j ∈ g.registry, j ≠ i → (s.rovers[j]?).map (·.cell) ≠ some c

instance (s : Session) (g : Ground) (i : ℕ) (c : Cell) : Decidable (s.Open g i c) :=
  inferInstanceAs (Decidable (_ ∧ _))

/-- Other rovers that a plateau keeps are rovers of other ids. -/
theorem admits_iff_open (hg : s.Keeps g) (hi : i ∈ g.registry) (hr : s.rovers[i]? = some r)
    (c : Cell) : (s.view g).Admits r.id c ↔ s.Open g i c := by
  refine and_congr_right fun _ => ?_
  rw [occupied_view]
  constructor
  · rintro hfree j hj hji hc
    obtain ⟨q, hq, rfl⟩ := Option.map_eq_some_iff.mp hc
    refine hfree ⟨j, hj, q, hq, fun hid => hji ?_, rfl⟩
    exact List.inj_on_of_nodup_map hg.ids hj hi (by simpa [id?, hq, hr] using hid)
  · rintro hfree ⟨j, hj, q, hq, hid, rfl⟩
    refine hfree j hj (fun hji => hid ?_) (by simp [hq])
    subst hji
    cases hr.symm.trans hq
    rfl

section Run
variable {name place : String} {k : ℕ} (hr : s.rover name = .ok (i, r))
  (hplace : s.ground place = .ok (k, g))
include hr hplace

theorem step_run_on (cs : List Char) :
    s.step (.run name (some place) cs) =
      (s.setRover i (r.runLetters (some (s.view g)) cs).1,
        (r.runLetters (some (s.view g)) cs).2.map fun _ => .null) := by
  rw [step_run, drive_bound hr (site_of_ground hplace)]

variable (hg : s.Keeps g) (hi : i ∈ g.registry)
include hg hi

/-- A run whose targets are all open goes through. -/
theorem step_run_open {cs : List Command} (h : ∀ c ∈ r.targets cs, s.Open g i c) :
    s.step (.run name (some place) (letters cs)) = (s.setRover i (r.walk cs), .ok .null) := by
  have hrun : r.run (some (s.view g)) cs = .ok (r.walk cs) :=
    Rover.run_of_admits fun c hc => (admits_iff_open hg hi (rover_ok hr) c).mpr (h c hc)
  rw [step_run_on hr hplace, Rover.runLetters_of_run hrun]
  rfl

/-- A run stops at the first target that is not open. -/
theorem step_run_offence {before : List Command} (h : ∀ c ∈ r.targets before, s.Open g i c)
    (hnot : ¬ s.Open g i (r.walk before).ahead) (after : List Command) :
    s.step (.run name (some place) (letters (before ++ .move :: after))) =
      (s.setRover i (r.walk before),
        .error (.failed ((s.view g).offence r.id (r.walk before).ahead).report)) := by
  have hadmits := admits_iff_open hg hi (rover_ok hr)
  have hrun : r.run (some (s.view g)) before = .ok (r.walk before) :=
    Rover.run_of_admits fun c hc => (hadmits c).mpr (h c hc)
  have hmove : (r.walk before).execute (some (s.view g)) .move =
      .error ((s.view g).offence r.id (r.walk before).ahead).report :=
    Rover.walk_move_of_not_admits fun ha => hnot ((hadmits _).mp ha)
  have hletters : letters (before ++ .move :: after) =
      letters before ++ Command.move.letter :: letters after := by simp [letters]
  rw [step_run_on hr hplace, hletters, Rover.runLetters_append_of_run hrun,
    Rover.runLetters_cons_letter, hmove]
  rfl

theorem step_run_not_open {cs : List Command} (h : ¬ ∀ c ∈ r.targets cs, s.Open g i c) :
    ∃ before after, cs = before ++ .move :: after ∧ (∀ c ∈ r.targets before, s.Open g i c) ∧
      ¬ s.Open g i (r.walk before).ahead ∧
      s.step (.run name (some place) (letters cs)) = (s.setRover i (r.walk before),
        .error (.failed ((s.view g).offence r.id (r.walk before).ahead).report)) := by
  rcases Rover.targets_split (s.Open g i) cs r with hopen | ⟨before, after, rfl, hbefore, hnot⟩
  · exact absurd hopen h
  · exact ⟨before, after, rfl, hbefore, hnot, step_run_offence hr hplace hg hi hbefore hnot after⟩

theorem open_of_step_run {cs : List Command}
    (h : (s.step (.run name (some place) (letters cs))).2 = .ok .null) :
    ∀ c ∈ r.targets cs, s.Open g i c := by
  by_contra hnot
  obtain ⟨before, after, -, -, -, hstep⟩ := step_run_not_open hr hplace hg hi hnot
  rw [hstep] at h
  cases h

end Run

/-- In any state of a session: a rover that runs commands on a plateau that keeps it succeeds
exactly if every target of its walk without the plateau is open, and then stands where that walk
ends. Otherwise it is refused at the first target that is not open, which is outside or else taken
by another rover, and stands where the walk stands before that move; where the message would hold
too long a number the digit limit is reported instead. Other rovers, all plateaus and all names stay
as they are. -/
theorem run_cut_off (steps : List Step) {s : Session} (hs : s ∈ empty.visited steps)
    {name place : String} {i k : ℕ} {r : Rover} {g : Ground} (hr : s.rover name = .ok (i, r))
    (hplace : s.ground place = .ok (k, g)) (hi : i ∈ g.registry) (cs : List Command) :
    (∀ ds, r.run none ds = .ok (r.walk ds)) ∧
    ((s.step (.run name (some place) (letters cs))).2 = .ok .null ↔
      ∀ c ∈ r.targets cs, s.Open g i c) ∧
    ((∀ c ∈ r.targets cs, s.Open g i c) →
      s.step (.run name (some place) (letters cs)) = (s.setRover i (r.walk cs), .ok .null)) ∧
    ((¬ ∀ c ∈ r.targets cs, s.Open g i c) → ∃ before after, cs = before ++ .move :: after ∧
      (∀ c ∈ r.targets before, s.Open g i c) ∧ ¬ s.Open g i (r.walk before).ahead ∧
      s.step (.run name (some place) (letters cs)) = (s.setRover i (r.walk before),
        .error (.failed ((s.view g).offence r.id (r.walk before).ahead).report))) := by
  have hg := visited_keeps steps s hs g (List.mem_of_getElem? (ground_ok hplace).2)
  refine ⟨fun ds => Rover.run_none ds r, ⟨open_of_step_run hr hplace hg hi, fun h => ?_⟩,
    step_run_open hr hplace hg hi, step_run_not_open hr hplace hg hi⟩
  rw [step_run_open hr hplace hg hi h]

/-- A rover turns aside and drives on; another time it drives towards a rover that is in its way. -/
theorem run_cut_off_taken :
    let steps : List Step := [.makePlateau "home" "1" (.int 5) (.int 5),
      .makeRover "a" "1" (.int 1) (.int 2) (.string "N"), .add "home" "a",
      .makeRover "b" "2" (.int 2) (.int 3) (.string "N"), .add "home" "b"]
    let s := steps.foldl (fun s st => (s.step st).1) empty
    let r : Rover := ⟨"1", ⟨1, 2⟩, .north⟩
    let g : Ground := ⟨"1", ⟨5, 5⟩, [0, 1]⟩
    let aside : List Command := [.left, .move, .right, .move]
    let towards : List Command := [.move, .right, .move, .left]
    s ∈ empty.visited steps ∧ s.rover "a" = .ok (0, r) ∧ s.ground "home" = .ok (0, g) ∧
      s.step (.run "a" (some "home") (letters aside)) =
        (s.setRover 0 ⟨"1", ⟨0, 3⟩, .north⟩, .ok .null) ∧
      ∃ before after, towards = before ++ .move :: after ∧
        (∀ c ∈ r.targets before, s.Open g 0 c) ∧ ¬ s.Open g 0 (r.walk before).ahead ∧
        s.step (.run "a" (some "home") (letters towards)) = (s.setRover 0 (r.walk before),
          .error (.failed ((s.view g).offence r.id (r.walk before).ahead).report)) := by
  intro steps s r g aside towards
  have hs : s ∈ empty.visited steps := by decide +kernel
  have hr : s.rover "a" = .ok (0, r) := by rfl
  have hplace : s.ground "home" = .ok (0, g) := by rfl
  have hopen : ∀ c ∈ r.targets aside, s.Open g 0 c := by decide +kernel
  have hnot : ¬ ∀ c ∈ r.targets towards, s.Open g 0 c := by decide +kernel
  obtain ⟨-, -, haside, -⟩ := run_cut_off steps hs hr hplace (by decide) aside
  obtain ⟨-, -, -, htowards⟩ := run_cut_off steps hs hr hplace (by decide) towards
  exact ⟨hs, hr, hplace, haside hopen, htowards hnot⟩

end Session

end RoverFleet
