import RoverFleet.Proofs.Cutoff

/-!
# Driving back

Turned about, a rover undoes commands in the opposite order with left and right exchanged. When a
run on the plateau that keeps the rover goes through, so does the run back: it leads over the cells
of the course in the opposite order, all of which are open, and restores the pose of the start.
-/
namespace RoverFleet

/-- Left and right are exchanged. -/
def Command.mirror : Command → Command
  | .left => .right
  | .right => .left
  | .move => .move

/-- The commands that undo others: turn about, undo them from the last to the first, turn about. -/
def back (cs : List Command) : List Command :=
  [.right, .right] ++ cs.reverse.map Command.mirror ++ [.right, .right]

namespace Rover

def about (r : Rover) : Rover := { r with heading := r.heading.right.right }

theorem about_about (r : Rover) : r.about.about = r := by
  obtain ⟨id, cell, heading⟩ := r
  cases heading <;> rfl

/-- Turned about, the rover undoes a command by the mirrored one. -/
theorem after_mirror (c : Command) (r : Rover) : (r.after c).about.after c.mirror = r.about := by
  obtain ⟨id, ⟨x, y⟩, heading⟩ := r
  cases c <;> cases heading <;>
    simp [after, about, ahead, Command.mirror, Heading.right, Heading.left, Heading.stepX,
      Heading.stepY]

theorem walk_mirror (cs : List Command) (r : Rover) :
    (r.walk cs).about.walk (cs.reverse.map Command.mirror) = r.about := by
  induction cs generalizing r with
  | nil => rfl
  | cons c rest ih =>
    rw [List.reverse_cons, List.map_append, walk_append, walk, ih]
    exact after_mirror c r

theorem walk_back (cs : List Command) (r : Rover) : (r.walk cs).walk (back cs) = r := by
  calc (r.walk cs).walk (back cs)
      = ((r.walk cs).about.walk (cs.reverse.map Command.mirror)).about := by
        rw [back, walk_append, walk_append]
        rfl
    _ = r := by rw [walk_mirror, about_about]

theorem course_append (cs ds : List Command) (r : Rover) :
    r.course (cs ++ ds) = r.course cs ++ (r.walk cs).targets ds := by
  rw [course, targets_append]
  rfl

theorem course_mirror (cs : List Command) (r : Rover) :
    (r.walk cs).about.course (cs.reverse.map Command.mirror) = (r.course cs).reverse := by
  induction cs generalizing r with
  | nil => rfl
  | cons c rest ih =>
    rw [List.reverse_cons, List.map_append, course_append, walk, ih, walk_mirror]
    cases c with
    | left => exact List.append_nil _
    | right => exact List.append_nil _
    | move =>
      have hahead : (r.after .move).about.ahead = r.cell := congrArg cell (after_mirror .move r)
      have htargets : (r.after .move).about.targets [.move] = [r.cell] := by
        simp [targets, hahead]
      have hcourse : r.course (.move :: rest) = r.cell :: (r.after .move).course rest := rfl
      rw [hcourse, List.reverse_cons]
      exact congrArg (_ ++ ·) htargets

/-- The course back is the course out from its end to its start. -/
theorem course_back (cs : List Command) (r : Rover) :
    (r.walk cs).course (back cs) = (r.course cs).reverse := by
  calc (r.walk cs).course (back cs)
      = (r.walk cs).about.course (cs.reverse.map Command.mirror) := by
        rw [back, course_append]
        exact List.append_nil _
    _ = (r.course cs).reverse := course_mirror cs r

/-- The trail holds the cell of the walk before each command and at the end. -/
theorem trail_eq_inits (cs : List Command) (r : Rover) :
    r.trail cs = cs.inits.map fun before => (r.walk before).cell := by
  induction cs generalizing r with
  | nil => rfl
  | cons c rest ih =>
    rw [trail, ih, List.inits_cons, List.map_cons, List.map_map]
    rfl

end Rover

namespace Session

/-- The cells on which rover `i` stands, one after the other, while a step goes on. -/
def visits (s : Session) (i : ℕ) (st : Step) : List Cell :=
  (st.parts.filterMap fun u => ((s.step u).1.rovers[i]?).map (·.cell)).destutter (· ≠ ·)

variable {s : Session} {g : Ground} {i : ℕ} {r r' : Rover}

/-- Where no two rovers of a plateau share a cell, the cell of each is open to it. -/
theorem open_own (hg : s.Keeps g) (hi : i ∈ g.registry) (hr : s.rovers[i]? = some r)
    (hin : ∀ q ∈ (s.view g).rovers, g.bounds.Contains q.cell)
    (hcells : ((s.view g).rovers.map (·.cell)).Nodup) : s.Open g i r.cell := by
  refine ⟨hin r (mem_view hi hr), fun j hj hji hc => hji ?_⟩
  obtain ⟨q, hq, hc⟩ := Option.map_eq_some_iff.mp hc
  obtain rfl := List.inj_on_of_nodup_map hcells (mem_view hj hq) (mem_view hi hr) hc
  exact List.inj_on_of_nodup_map hg.ids hj hi (by simp [id?, hq, hr])

/-- Which cells are open to a rover does not depend on where it stands itself. -/
theorem open_setRover (c : Cell) : (s.setRover i r').Open g i c ↔ s.Open g i c := by
  refine and_congr_right fun _ => forall₃_congr fun j _ hji => ?_
  have hj : (s.setRover i r').rovers[j]? = s.rovers[j]? := List.getElem?_set_ne hji.symm
  rw [hj]

section Run
variable {name place : String} {k : ℕ} (hr : s.rover name = .ok (i, r))
  (hplace : s.ground place = .ok (k, g)) (hg : s.Keeps g) (hi : i ∈ g.registry)
include hr hplace hg hi

theorem cell_of_step {cs : List Command} (h : ∀ c ∈ r.targets cs, s.Open g i c) :
    ((s.step (.run name (some place) (letters cs))).1.rovers[i]?).map (·.cell) =
      some (r.walk cs).cell := by
  have hset : (s.setRover i (r.walk cs)).rovers[i]? = some (r.walk cs) :=
    getElem?_set_of_some (rover_ok hr)
  rw [step_run_open hr hplace hg hi h, hset]
  rfl

omit hr hplace hg hi in
theorem visits_run (cs : List Command) : s.visits i (.run name (some place) (letters cs)) =
    (cs.inits.filterMap fun before =>
      ((s.step (.run name (some place) (letters before))).1.rovers[i]?).map (·.cell)).destutter
        (· ≠ ·) := by
  rw [visits, Step.parts, letters, List.map_inits, List.map_map, List.filterMap_map]
  rfl

/-- Up to a command whose targets are open, the cells of the parts of a run are those of the
trail. -/
theorem cells_of_inits {cs : List Command} (h : ∀ c ∈ r.targets cs, s.Open g i c) :
    (cs.inits.filterMap fun before =>
      ((s.step (.run name (some place) (letters before))).1.rovers[i]?).map (·.cell)) =
        r.trail cs := by
  have hcell : ∀ before ∈ cs.inits,
      ((s.step (.run name (some place) (letters before))).1.rovers[i]?).map (·.cell) =
        some (r.walk before).cell := by
    intro before hbefore
    obtain ⟨after, rfl⟩ := (List.mem_inits _ _).mp hbefore
    rw [Rover.targets_append] at h
    exact cell_of_step hr hplace hg hi fun c hc => h c (List.mem_append_left _ hc)
  rw [List.filterMap_congr hcell, Rover.trail_eq_inits, ← List.filterMap_eq_map]
  rfl

theorem visits_of_open {cs : List Command} (h : ∀ c ∈ r.targets cs, s.Open g i c) :
    s.visits i (.run name (some place) (letters cs)) = r.course cs := by
  have hstay := r.destutter_trail_stay cs 0
  rw [List.replicate_zero, List.append_nil] at hstay
  rw [visits_run, cells_of_inits hr hplace hg hi h, hstay]

/-- A run that is refused visits the cells of the commands before the refused move, and none
after it. -/
theorem visits_of_refused {before : List Command} (h : ∀ c ∈ r.targets before, s.Open g i c)
    (hnot : ¬ s.Open g i (r.walk before).ahead) (after : List Command) :
    s.visits i (.run name (some place) (letters (before ++ .move :: after))) =
      r.course before := by
  have hlater : ∀ more ∈ after.inits, ((s.step (.run name (some place)
      (letters (before ++ .move :: more)))).1.rovers[i]?).map (·.cell) =
        some (r.walk before).cell := by
    intro more _
    have hset : (s.setRover i (r.walk before)).rovers[i]? = some (r.walk before) :=
      getElem?_set_of_some (rover_ok hr)
    rw [step_run_offence hr hplace hg hi h hnot more, hset]
    rfl
  have hinits : (before ++ .move :: after).inits =
      before.inits ++ after.inits.map fun more => before ++ .move :: more := by
    rw [List.inits_append, List.inits_cons, List.tail_cons, List.map_map]
    rfl
  have hcells : (after.inits.map fun more => before ++ Command.move :: more).filterMap
      (fun part => ((s.step (.run name (some place) (letters part))).1.rovers[i]?).map (·.cell)) =
        List.replicate after.inits.length (r.walk before).cell := by
    rw [List.filterMap_map, ← List.map_const', ← List.filterMap_eq_map]
    exact List.filterMap_congr hlater
  rw [visits_run, hinits, List.filterMap_append, cells_of_inits hr hplace hg hi h, hcells,
    Rover.destutter_trail_stay]

end Run

/-- A run executes some of its first commands, all of them unless it is refused. The rover visits the
cells of their course, and stands where they lead. -/
theorem visits_executed (steps : List Step) {s : Session} (hs : s ∈ empty.visited steps)
    {name place : String} {i k : ℕ} {r : Rover} {g : Ground} (hr : s.rover name = .ok (i, r))
    (hplace : s.ground place = .ok (k, g)) (hi : i ∈ g.registry) (cs : List Command) :
    ∃ before, before <+: cs ∧ s.visits i (.run name (some place) (letters cs)) = r.course before ∧
      (s.step (.run name (some place) (letters cs))).1 = s.setRover i (r.walk before) ∧
      ((s.step (.run name (some place) (letters cs))).2 = .ok .null ↔ before = cs) := by
  have hg := visited_keeps steps s hs g (List.mem_of_getElem? (ground_ok hplace).2)
  by_cases hopen : ∀ c ∈ r.targets cs, s.Open g i c
  · refine ⟨cs, List.prefix_refl cs, visits_of_open hr hplace hg hi hopen, ?_⟩
    rw [step_run_open hr hplace hg hi hopen]
    exact ⟨rfl, iff_of_true rfl rfl⟩
  · obtain ⟨before, after, rfl, hbefore, hnot, hstep⟩ := step_run_not_open hr hplace hg hi hopen
    refine ⟨before, List.prefix_append _ _, visits_of_refused hr hplace hg hi hbefore hnot after, ?_⟩
    rw [hstep]
    refine ⟨rfl, iff_of_false nofun fun hall => ?_⟩
    simpa using congrArg List.length hall

/-- In any state of a session, on a plateau whose rovers stand on different cells inside: when a
rover that the plateau keeps has run commands there, the run back goes through as well. It restores
the state of the session, and the rover visits the same cells in the opposite order. -/
theorem run_back (steps : List Step) {s : Session} (hs : s ∈ empty.visited steps)
    {name place : String} {i k : ℕ} {r : Rover} {g : Ground} (hr : s.rover name = .ok (i, r))
    (hplace : s.ground place = .ok (k, g)) (hi : i ∈ g.registry)
    (hin : ∀ q ∈ (s.view g).rovers, g.bounds.Contains q.cell)
    (hcells : ((s.view g).rovers.map (·.cell)).Nodup) {cs : List Command} {t : Session}
    (h : s.step (.run name (some place) (letters cs)) = (t, .ok .null)) :
    t.step (.run name (some place) (letters (back cs))) = (s, .ok .null) ∧
      t.visits i (.run name (some place) (letters (back cs))) =
        (s.visits i (.run name (some place) (letters cs))).reverse := by
  have hkeeps := visited_keeps steps s hs
  have hg := hkeeps g (List.mem_of_getElem? (ground_ok hplace).2)
  have hopen := open_of_step_run hr hplace hg hi (by rw [h])
  obtain rfl : s.setRover i (r.walk cs) = t := by
    rw [step_run_open hr hplace hg hi hopen] at h
    exact (Prod.mk.inj h).1
  -- the plateau and the rover after the run
  have hr' := rover_setRover hr (r.walk cs)
  have hplace' : (s.setRover i (r.walk cs)).ground place = .ok (k, g) := hplace
  have hg' : (s.setRover i (r.walk cs)).Keeps g :=
    (Change.driven (rover_ok hr) (Rover.walk_id cs r)).keeps hkeeps g
      (List.mem_of_getElem? (ground_ok hplace').2)
  have hback : ∀ c ∈ (r.walk cs).targets (back cs), (s.setRover i (r.walk cs)).Open g i c := by
    intro c hc
    have hmem : c ∈ (r.course cs).reverse := Rover.course_back cs r ▸ List.mem_cons_of_mem _ hc
    rw [open_setRover]
    rcases List.mem_cons.mp (List.mem_reverse.mp hmem) with rfl | hc
    · exact open_own hg hi (rover_ok hr) hin hcells
    · exact hopen c hc
  constructor
  · rw [step_run_open hr' hplace' hg' hi hback, Rover.walk_back, setRover_setRover,
      setRover_self (rover_ok hr)]
  · rw [visits_of_open hr' hplace' hg' hi hback, visits_of_open hr hplace hg hi hopen,
      Rover.course_back]

/-- A rover drives around another one and back. -/
theorem run_back_around :
    let steps : List Step := [.makePlateau "home" "1" (.int 5) (.int 5),
      .makeRover "a" "1" (.int 1) (.int 2) (.string "N"), .add "home" "a",
      .makeRover "b" "2" (.int 1) (.int 3) (.string "N"), .add "home" "b"]
    let s := steps.foldl (fun s st => (s.step st).1) empty
    let g : Ground := ⟨"1", ⟨5, 5⟩, [0, 1]⟩
    let cs : List Command := [.right, .move, .left, .move, .move, .left, .move]
    let t := s.setRover 0 ⟨"1", ⟨1, 4⟩, .west⟩
    s ∈ empty.visited steps ∧ ((s.view g).rovers.map (·.cell)).Nodup ∧
      s.step (.run "a" (some "home") (letters cs)) = (t, .ok .null) ∧
      t.step (.run "a" (some "home") (letters (back cs))) = (s, .ok .null) ∧
      t.visits 0 (.run "a" (some "home") (letters (back cs))) =
        (s.visits 0 (.run "a" (some "home") (letters cs))).reverse := by
  intro steps s g cs t
  have hs : s ∈ empty.visited steps := by decide +kernel
  have hr : s.rover "a" = .ok (0, ⟨"1", ⟨1, 2⟩, .north⟩) := by rfl
  have hplace : s.ground "home" = .ok (0, g) := by rfl
  have hin : ∀ q ∈ (s.view g).rovers, g.bounds.Contains q.cell := by decide +kernel
  have hcells : ((s.view g).rovers.map (·.cell)).Nodup := by decide +kernel
  have hrun : s.step (.run "a" (some "home") (letters cs)) = (t, .ok .null) := by rfl
  exact ⟨hs, hcells, hrun, run_back steps hs hr hplace (by decide) hin hcells hrun⟩

end Session

end RoverFleet
