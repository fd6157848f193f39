import RoverFleet.Proofs.Cutoff

/-!
# Moves keep clear of other rovers

A move on a plateau leads to a cell inside on which the plateau keeps no other rover, with one
exception: rovers are told apart by their ids, so a rover that the plateau does not keep may drive
onto the one that it keeps under the same id.
-/
namespace RoverFleet.Session

variable {s : Session} {g : Ground} {i : ℕ} {r r' : Rover}

/-- Plateau `g` keeps another rover under the id of rover `i`. -/
structure Namesake (s : Session) (g : Ground) (i j : ℕ) : Prop where
  kept : j ∈ g.registry
  other : j ≠ i
  same : s.id? j = s.id? i

/-- A plateau does not keep two rovers of one id. -/
theorem Namesake.notMem {j : ℕ} (h : s.Namesake g i j) (hg : s.Keeps g) : i ∉ g.registry := by
  intro hi
  apply h.other
  exact List.inj_on_of_nodup_map hg.ids h.kept hi h.same

/-- A plateau admits a rover to a cell inside on which it keeps rovers of the same id only. -/
theorem admits_iff_same_id (c : Cell) : (s.view g).Admits r.id c ↔ g.bounds.Contains c ∧
    ∀ j ∈ g.registry, (s.rovers[j]?).map (·.cell) = some c → s.id? j = some r.id := by
  refine and_congr_right fun _ => ?_
  rw [occupied_view]
  constructor
  · intro hfree j hj hc
    obtain ⟨q, hq, rfl⟩ := Option.map_eq_some_iff.mp hc
    by_contra hid
    apply hfree
    exact ⟨j, hj, q, hq, fun h => hid (by simpa [id?, hq] using h), rfl⟩
  · rintro hsame ⟨j, hj, q, hq, hid, rfl⟩
    have hj' := hsame j hj (by simp [hq])
    simp only [id?, hq, Option.map_some] at hj'
    exact hid hj'

theorem exists_move_iff (p : Plateau) (r : Rover) :
    (∃ r', r.move (some p) = .ok r') ↔ p.Admits r.id r.ahead := by
  constructor
  · rintro ⟨r', h⟩
    obtain ⟨hin, hfree, -⟩ := Rover.move_ok_iff.mp h
    exact ⟨hin, hfree⟩
  · intro h
    exact ⟨_, Rover.move_of_admits h⟩

/-- Who stands on the cell that a move has led to: the rover itself, or a namesake. -/
theorem namesake_of_move (hr : s.rovers[i]? = some r) (hm : r.move (some (s.view g)) = .ok r')
    {j : ℕ} (hj : j ∈ g.registry) (hji : j ≠ i)
    (hc : ((s.setRover i r').rovers[j]?).map (·.cell) = some r'.cell) : s.Namesake g i j := by
  obtain ⟨hin, hfree, rfl⟩ := Rover.move_ok_iff.mp hm
  have hsame := ((admits_iff_same_id r.ahead).mp ⟨hin, hfree⟩).2
  have hstays : (s.setRover i { r with cell := r.ahead }).rovers[j]? = s.rovers[j]? :=
    List.getElem?_set_ne hji.symm
  rw [hstays] at hc
  refine ⟨hj, hji, ?_⟩
  rw [hsame j hj hc, id?, hr, Option.map_some]

theorem step_move_some_ok {name place : String} {k : ℕ} {t : Session} {v : Answer}
    (hr : s.rover name = .ok (i, r)) (hplace : s.ground place = .ok (k, g))
    (h : s.step (.move name (some place)) = (t, .ok v)) :
    ∃ r', r.move (some (s.view g)) = .ok r' ∧ t = s.setRover i r' := by
  rw [step_move, drive_bound hr (site_of_ground hplace)] at h
  obtain ⟨rfl, hv⟩ := Prod.mk.inj h
  cases hm : r.move (some (s.view g)) with
  | error f => simp [attempt, hm, Except.mapError, Except.map] at hv
  | ok r' =>
    refine ⟨r', rfl, ?_⟩
    simp [attempt, hm, Except.mapError]

/-- In any state that steps lead to, a rover moves on a plateau exactly if the cell ahead is inside
and the plateau keeps no rover of another id on it. After the move the rover stands inside, and no
other rover that the plateau keeps stands on its cell, unless that is its namesake and the plateau
does not keep the rover itself. A step that moves a rover on a plateau is such a move. -/
theorem move_clear (steps : List Step) (hs : s ∈ empty.visited steps) (hg : g ∈ s.grounds)
    (hr : s.rovers[i]? = some r) :
    ((∃ r', r.move (some (s.view g)) = .ok r') ↔ g.bounds.Contains r.ahead ∧
      ∀ j ∈ g.registry, (s.rovers[j]?).map (·.cell) = some r.ahead → s.id? j = some r.id) ∧
    (∀ r', r.move (some (s.view g)) = .ok r' → g.bounds.Contains r'.cell ∧
      ∀ j ∈ g.registry, j ≠ i → ((s.setRover i r').rovers[j]?).map (·.cell) = some r'.cell →
        s.Namesake g i j ∧ i ∉ g.registry) ∧
    ∀ name place k t v, s.rover name = .ok (i, r) → s.ground place = .ok (k, g) →
      s.step (.move name (some place)) = (t, .ok v) →
      ∃ r', r.move (some (s.view g)) = .ok r' ∧ t = s.setRover i r' := by
  have hkeeps := visited_keeps steps s hs g hg
  refine ⟨?_, ?_, ?_⟩
  · rw [exists_move_iff, admits_iff_same_id]
  · intro r' hm
    obtain ⟨hin, -, hcell⟩ := Rover.move_ok_iff.mp hm
    refine ⟨?_, ?_⟩
    · rw [← hcell]
      exact hin
    · intro j hj hji hc
      have hnamesake := namesake_of_move hr hm hj hji hc
      exact ⟨hnamesake, hnamesake.notMem hkeeps⟩
  · intro name place k t v hname hplace hstep
    exact step_move_some_ok hname hplace hstep

/-- A rover that has replaced another one under its id moves to a cell on which the plateau keeps no
other rover. -/
theorem move_clear_replaced :
    let steps : List Step := [.makePlateau "home" "1" (.int 5) (.int 5),
      .makeRover "ghost" "1" (.int 1) (.int 1) (.string "N"), .add "home" "ghost",
      .makeRover "heir" "1" (.int 2) (.int 2) (.string "W"), .add "home" "heir",
      .makeRover "other" "2" (.int 1) (.int 3) (.string "S"), .add "home" "other"]
    let s := steps.foldl (fun s st => (s.step st).1) empty
    let g : Ground := ⟨"1", ⟨5, 5⟩, [1, 2]⟩
    let heir : Rover := ⟨"1", ⟨2, 2⟩, .west⟩
    let moved : Rover := ⟨"1", ⟨1, 2⟩, .west⟩
    s ∈ empty.visited steps ∧ g ∈ s.grounds ∧ s.rovers[1]? = some heir ∧
      heir.move (some (s.view g)) = .ok moved ∧ g.bounds.Contains moved.cell ∧
      ∀ j ∈ g.registry, j ≠ 1 →
        ((s.setRover 1 moved).rovers[j]?).map (·.cell) ≠ some moved.cell := by
  intro steps s g heir moved
  have hs : s ∈ empty.visited steps := by decide +kernel
  have hg : g ∈ s.grounds := by decide +kernel
  have hr : s.rovers[1]? = some heir := by decide +kernel
  have hm : heir.move (some (s.view g)) = .ok moved := by decide +kernel
  obtain ⟨hin, hclear⟩ := (move_clear steps hs hg hr).2.1 moved hm
  refine ⟨hs, hg, hr, hm, hin, ?_⟩
  intro j hj hj1 hc
  exact (hclear j hj hj1 hc).2 (by decide)

/-- A rover that a plateau does not keep drives onto the one that it keeps under the same id. -/
theorem move_onto_namesake :
    let steps : List Step := [.makePlateau "home" "1" (.int 5) (.int 5),
      .makeRover "a" "1" (.int 1) (.int 2) (.string "N"), .add "home" "a",
      .makeRover "b" "1" (.int 1) (.int 1) (.string "N")]
    let s := steps.foldl (fun s st => (s.step st).1) empty
    let t := (s.step (.move "b" (some "home"))).1
    s ∈ empty.visited steps ∧ (s.step (.move "b" (some "home"))).2 = .ok .null ∧
      t.grounds = [⟨"1", ⟨5, 5⟩, [0]⟩] ∧
      t.rovers = [⟨"1", ⟨1, 2⟩, .north⟩, ⟨"1", ⟨1, 2⟩, .north⟩] ∧
      ¬ ∀ j ∈ [0], j ≠ 1 → (t.rovers[j]?).map (·.cell) ≠ (t.rovers[1]?).map (·.cell) := by
  intro steps s t
  have hs : s ∈ empty.visited steps := by decide +kernel
  have hstep : (s.step (.move "b" (some "home"))).2 = .ok .null := by rfl
  have hgrounds : t.grounds = [⟨"1", ⟨5, 5⟩, [0]⟩] := by decide +kernel
  have hrovers : t.rovers = [⟨"1", ⟨1, 2⟩, .north⟩, ⟨"1", ⟨1, 2⟩, .north⟩] := by decide +kernel
  refine ⟨hs, hstep, hgrounds, hrovers, ?_⟩
  intro hclear
  apply hclear 0 (by simp) (by decide)
  rw [hrovers]
  rfl

end RoverFleet.Session
