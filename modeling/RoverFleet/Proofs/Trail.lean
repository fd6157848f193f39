import RoverFleet.Proofs.Moments

/-!
# Trails

The trail of a rover is the row of cells that it stands on from its start to the end of its
commands. A rover that is new to a plateau is placed and executes all its commands exactly if its
trail keeps to cells inside the bounds on which no rover of the plateau stands. The cells on which a
rover stands at the moments of a run are those of its trail.
-/
namespace RoverFleet

namespace Rover

/-- The cell before each command of a walk, and the cell after the last one. -/
def trail : List Command → Rover → List Cell
  | [], r => [r.cell]
  | c :: rest, r => r.cell :: trail rest (r.after c)

theorem cell_mem_trail (cs : List Command) (r : Rover) : r.cell ∈ r.trail cs := by
  cases cs <;> simp [trail]

theorem walk_cell_mem_trail (cs : List Command) (r : Rover) : (r.walk cs).cell ∈ r.trail cs := by
  induction cs generalizing r with
  | nil => simp [walk, trail]
  | cons c rest ih =>
    simp only [walk, trail, List.mem_cons]
    exact Or.inr (ih (r.after c))

/-- The rover under another id. -/
def withId (id : String) (r : Rover) : Rover := { r with id := id }

@[simp] theorem withId_id (id : String) (r : Rover) : (r.withId id).id = id := rfl

@[simp] theorem withId_cell (id : String) (r : Rover) : (r.withId id).cell = r.cell := rfl

theorem withId_after (id : String) (c : Command) (r : Rover) :
    (r.withId id).after c = (r.after c).withId id := by
  cases c <;> rfl

theorem withId_walk (id : String) (cs : List Command) (r : Rover) :
    (r.withId id).walk cs = (r.walk cs).withId id := by
  induction cs generalizing r with
  | nil => rfl
  | cons c rest ih => simp [walk, withId_after, ih]

theorem withId_trail (id : String) (cs : List Command) (r : Rover) :
    (r.withId id).trail cs = r.trail cs := by
  induction cs generalizing r with
  | nil => rfl
  | cons c rest ih => simp [trail, withId_after, ih]

end Rover

namespace Plateau

/-- The cell is inside, and no rover stands on it. -/
def Free (p : Plateau) (c : Cell) : Prop := p.bounds.Contains c ∧ c ∉ p.rovers.map (·.cell)

def Clear (p : Plateau) (cells : List Cell) : Prop := ∀ c ∈ cells, p.Free c

theorem clear_cons {p : Plateau} {c : Cell} {cells : List Cell} :
    p.Clear (c :: cells) ↔ p.Free c ∧ p.Clear cells := by
  simp [Clear]

theorem clear_register {p : Plateau} {r : Rover}
    (hput : (p.register r).rovers = p.rovers ++ [r]) (cells : List Cell) :
    (p.register r).Clear cells ↔ p.Clear cells ∧ r.cell ∉ cells := by
  simp only [Clear, Free, register_bounds, hput, List.map_append, List.map_singleton,
    List.mem_append, List.mem_singleton, not_or]
  constructor
  · intro h
    exact ⟨fun c hc => ⟨(h c hc).1, (h c hc).2.1⟩, fun hr => (h _ hr).2.2 rfl⟩
  · rintro ⟨h, hr⟩ c hc
    refine ⟨(h c hc).1, (h c hc).2, ?_⟩
    rintro rfl
    exact hr hc

theorem occupied_iff {p : Plateau} {c : Cell} : p.Occupied c none ↔ c ∈ p.rovers.map (·.cell) := by
  simp [Occupied]

/-- No rover of the plateau gives way to a rover that is new there. -/
theorem occupied_of_new {p : Plateau} {id : String} (hid : id ∉ p.rovers.map (·.id)) (c : Cell) :
    p.Occupied c (some id) ↔ c ∈ p.rovers.map (·.cell) := by
  constructor
  · rintro ⟨s, hs, -, hc⟩
    exact List.mem_map.mpr ⟨s, hs, hc⟩
  · intro hc
    obtain ⟨s, hs, hc⟩ := List.mem_map.mp hc
    refine ⟨s, hs, ?_, hc⟩
    rintro ⟨rfl⟩
    exact hid (List.mem_map_of_mem hs)

theorem placing_ok_iff_free {p : Plateau} {r : Rover} : p.placing r = .ok () ↔ p.Free r.cell := by
  rw [placing_ok_iff, occupied_iff, Free]

section New
variable {p : Plateau} {r : Rover} (hid : r.id ∉ p.rovers.map (·.id))
include hid

/-- From a free cell a new rover executes a command exactly if the cell it leads to is free. -/
theorem execute_ok_iff_free (hstart : p.Free r.cell) (c : Command) :
    r.execute (some p) c = .ok (r.after c) ↔ p.Free (r.after c).cell := by
  cases c with
  | left => exact iff_of_true rfl hstart
  | right => exact iff_of_true rfl hstart
  | move =>
    rw [Rover.execute, Rover.move_ok_iff, occupied_of_new hid]
    simp [Free, Rover.after]

theorem run_ok_iff_clear (hstart : p.Free r.cell) (cs : List Command) :
    r.run (some p) cs = .ok (r.walk cs) ↔ p.Clear (r.trail cs) := by
  induction cs generalizing r with
  | nil =>
    refine iff_of_true rfl ?_
    simpa [Clear, Rover.trail] using hstart
  | cons c rest ih =>
    have hafter : (r.after c).id ∉ p.rovers.map (·.id) := by rwa [Rover.after_id]
    rw [Rover.run_cons_ok_iff, execute_ok_iff_free hid hstart, Rover.walk, Rover.trail, clear_cons]
    constructor
    · intro h
      exact ⟨hstart, (ih hafter h.1).mp h.2⟩
    · intro h
      have hnext : p.Free (r.after c).cell := h.2 _ (Rover.cell_mem_trail rest (r.after c))
      exact ⟨hnext, (ih hafter hnext).mpr h.2⟩

/-- A new rover is placed and executes its commands exactly if its trail is clear. -/
theorem placing_run_iff_clear {r' : Rover} (cs : List Command) :
    p.placing r = .ok () ∧ r.run (some p) cs = .ok r' ↔ p.Clear (r.trail cs) ∧ r' = r.walk cs := by
  rw [placing_ok_iff_free]
  constructor
  · rintro ⟨hstart, hrun⟩
    obtain rfl := Rover.run_walk hrun
    exact ⟨(run_ok_iff_clear hid hstart cs).mp hrun, rfl⟩
  · rintro ⟨hclear, rfl⟩
    have hstart : p.Free r.cell := hclear _ (Rover.cell_mem_trail cs r)
    exact ⟨hstart, (run_ok_iff_clear hid hstart cs).mpr hclear⟩

end New

/-- To a rover that comes later two plateaus are alike if they have the same bounds and rovers on
the same cells. -/
structure Alike (p q : Plateau) : Prop where
  bounds : p.bounds = q.bounds
  cells : (p.rovers.map (·.cell)).Perm (q.rovers.map (·.cell))

namespace Alike
variable {p q : Plateau}

theorem refl (p : Plateau) : p.Alike p := ⟨rfl, List.Perm.refl _⟩

theorem length_eq (h : p.Alike q) : p.rovers.length = q.rovers.length := by
  have := h.cells.length_eq
  simpa using this

theorem clear_iff (h : p.Alike q) (cells : List Cell) : p.Clear cells ↔ q.Clear cells := by
  simp only [Clear, Free, h.bounds, h.cells.mem_iff]

theorem register (h : p.Alike q) {r : Rover} (hp : (p.register r).rovers = p.rovers ++ [r])
    (hq : (q.register r).rovers = q.rovers ++ [r]) : (p.register r).Alike (q.register r) where
  bounds := h.bounds
  cells := by
    rw [hp, hq, List.map_append, List.map_append]
    exact h.cells.append_right _

end Alike

/-- Where the rover of an id stands. -/
def cell? (id : String) (p : Plateau) : Option Cell := (p.rover? id).map (·.cell)

theorem cell?_of_notMem {id : String} {p : Plateau} (h : id ∉ p.rovers.map (·.id)) :
    p.cell? id = none := by
  rw [cell?, Option.map_eq_none_iff, rover?, List.find?_eq_none]
  intro r hr
  simpa using fun he : r.id = id => h (he ▸ List.mem_map_of_mem hr)

@[simp] theorem cell?_register (p : Plateau) (r : Rover) :
    (p.register r).cell? r.id = some r.cell := by
  simp only [cell?, rover?, register]
  induction p.rovers with
  | nil => simp [put]
  | cons s rest ih =>
    by_cases hs : s.id = r.id
    · simp [put, hs]
    · simp [put, hs, ih]

theorem cell?_register_of_ne (p : Plateau) {r : Rover} {id : String} (h : id ≠ r.id) :
    (p.register r).cell? id = p.cell? id := by
  simp only [cell?, rover?, register]
  induction p.rovers with
  | nil => simp [put, h.symm]
  | cons s rest ih =>
    by_cases hs : s.id = r.id
    · simp [put, hs, h.symm]
    · by_cases hid : s.id = id
      · simp [put, hid, h]
      · simpa [put, hs, hid] using ih

/-- While a rover is driven it stands on the cells of its trail, one after the other. -/
theorem filterMap_driving {p : Plateau} {r r' : Rover} {cs : List Command}
    (h : r.run (some p) cs = .ok r') :
    (p.register r :: (p.register r).driving r cs).filterMap (cell? r.id) = r.trail cs := by
  induction cs generalizing r with
  | nil => simp [driving, Rover.trail]
  | cons c rest ih =>
    obtain ⟨he, hrun⟩ := Rover.run_cons_ok_iff.mp h
    have hid : r.id = (r.after c).id := (r.after_id c).symm
    have hstep : r.execute (some (p.register r)) c = .ok (r.after c) :=
      (Rover.execute_register rfl c).trans he
    rw [List.filterMap_cons_some (cell?_register p r), Rover.trail, ← ih hrun, ← hid]
    simp only [driving, hstep, register_register p hid]

/-- Other rovers stay where they are. -/
theorem driving_cell?_of_ne {p : Plateau} {r : Rover} {id : String} (h : id ≠ r.id)
    (cs : List Command) : ∀ q ∈ p.driving r cs, q.cell? id = p.cell? id := by
  induction cs generalizing p r with
  | nil => simp [driving]
  | cons c rest ih =>
    simp only [driving]
    cases he : r.execute (some p) c with
    | error f => simp
    | ok r' =>
      have h' : id ≠ r'.id := Rover.execute_id he ▸ h
      intro q hq
      rcases List.mem_cons.mp hq with rfl | hq
      · exact cell?_register_of_ne p h'
      · exact (ih h' q hq).trans (cell?_register_of_ne p h')

end Plateau

namespace Script
open Plateau

section Next
variable {k n : ℕ} {p q : Plateau} (hp : p.Orderly) (hn : n = p.rovers.length + 1)
  {position commands : List Char} {rest : List (List Char × List Char)}
include hp hn

/-- A new rover is registered behind the others, where its walk over a clear trail ends. -/
theorem register_next {r : Rover} {cs : List Command} (hr : readRover k n position = .ok r)
    (hclear : p.Clear (r.trail cs)) :
    (p.register (r.walk cs)).Orderly ∧
      (p.register (r.walk cs)).rovers = p.rovers ++ [r.walk cs] ∧
      n + 1 = (p.register (r.walk cs)).rovers.length + 1 := by
  have hid : (r.walk cs).id = toString (p.rovers.length + 1) := by
    rw [Rover.walk_id, readRover_id hr, hn]
  have hfree : p.Free (r.walk cs).cell := hclear _ (Rover.walk_cell_mem_trail cs r)
  have hput : (p.register (r.walk cs)).rovers = p.rovers ++ [r.walk cs] :=
    put_of_id_notMem (hid ▸ hp.next_notMem rfl)
  exact ⟨(hp.place hid (placing_ok_iff_free.mpr hfree)).1, hput, by simp [hput, hn]⟩

theorem enter_run_iff_clear {r r' : Rover} (hr : readRover k n position = .ok r)
    (cs : List Command) :
    enter k n p position = .ok r ∧ r.run (some (p.register r)) cs = .ok r' ↔
      p.Clear (r.trail cs) ∧ r' = r.walk cs := by
  have hid : r.id ∉ p.rovers.map (·.id) := readRover_id hr ▸ hp.next_notMem hn
  rw [← placing_run_iff_clear hid, enter_ok_iff, Rover.run_register rfl cs]
  simp [hr]

/-- A run goes on behind a rover exactly if its lines can be read and its trail is clear. -/
theorem runRovers_cons_iff_clear :
    (runRovers k n p ((position, commands) :: rest)).result = .ok q ↔
      ∃ r cs, readRover (k + 1) n position = .ok r ∧ readCommands (k + 2) n commands = .ok cs ∧
        p.Clear (r.trail cs) ∧
        (runRovers (k + 2) (n + 1) (p.register (r.walk cs)) rest).result = .ok q := by
  rw [runRovers_cons_ok_iff]
  constructor
  · rintro ⟨r, cs, r', henter, hcs, hrun, hrest⟩
    have hr := (enter_ok_iff.mp henter).1
    obtain ⟨hclear, rfl⟩ := (enter_run_iff_clear hp hn hr cs).mp ⟨henter, hrun⟩
    exact ⟨r, cs, hr, hcs, hclear, hrest⟩
  · rintro ⟨r, cs, hr, hcs, hclear, hrest⟩
    obtain ⟨henter, hrun⟩ := (enter_run_iff_clear hp hn hr cs).mpr ⟨hclear, rfl⟩
    exact ⟨r, cs, _, henter, hcs, hrun, hrest⟩

end Next

/-- Rovers that come later end alike on plateaus that are alike, and leave the rovers before them as
they are. -/
theorem runRovers_alike {k n : ℕ} {p q p' : Plateau} (hp : p.Orderly) (hq : q.Orderly)
    (h : p.Alike q) (hn : n = p.rovers.length + 1) {ps : List (List Char × List Char)}
    (hrun : (runRovers k n p ps).result = .ok p') :
    ∃ q' rs, (runRovers k n q ps).result = .ok q' ∧ p'.rovers = p.rovers ++ rs ∧
      q'.rovers = q.rovers ++ rs ∧ p'.Alike q' := by
  induction ps generalizing k n p q with
  | nil =>
    cases hrun
    exact ⟨q, [], rfl, by simp, by simp, h⟩
  | cons pair rest ih =>
    obtain ⟨position, commands⟩ := pair
    obtain ⟨r, cs, hr, hcs, hclear, hrest⟩ := (runRovers_cons_iff_clear hp hn).mp hrun
    have hclear' : q.Clear (r.trail cs) := (h.clear_iff _).mp hclear
    have hn' : n = q.rovers.length + 1 := h.length_eq ▸ hn
    obtain ⟨ho, hput, hnext⟩ := register_next hp hn hr hclear
    obtain ⟨ho', hput', -⟩ := register_next hq hn' hr hclear'
    obtain ⟨q', rs, hrun', hps, hqs, ha⟩ := ih ho ho' (h.register hput hput') hnext hrest
    refine ⟨q', r.walk cs :: rs, ?_, by simp [hps, hput], by simp [hqs, hput'], ha⟩
    exact (runRovers_cons_iff_clear hq hn').mpr ⟨r, cs, hr, hcs, hclear', hrun'⟩

theorem runRovers_extends {k n : ℕ} {p q : Plateau} (hp : p.Orderly) (hn : n = p.rovers.length + 1)
    {ps : List (List Char × List Char)} (hrun : (runRovers k n p ps).result = .ok q) :
    ∃ rs, q.rovers = p.rovers ++ rs := by
  obtain ⟨-, rs, -, hrs, -, -⟩ := runRovers_alike hp hp (Alike.refl p) hn hrun
  exact ⟨rs, hrs⟩

theorem runRovers_append_ok_iff {k n : ℕ} {p q : Plateau} {ps more : List (List Char × List Char)} :
    (runRovers k n p (ps ++ more)).result = .ok q ↔
      ∃ m, (runRovers k n p ps).result = .ok m ∧
        (runRovers (k + 2 * ps.length) (n + ps.length) m more).result = .ok q := by
  induction ps generalizing k n p with
  | nil => simp [runRovers]
  | cons pair rest ih =>
    obtain ⟨position, commands⟩ := pair
    have hk : k + 2 + 2 * rest.length = k + 2 * (rest.length + 1) := by ring
    have hn : n + 1 + rest.length = n + (rest.length + 1) := by ring
    simp only [List.cons_append, runRovers_cons_ok_iff, ih, List.length_cons, hk, hn]
    constructor
    · rintro ⟨r, cs, r', he, hcs, hr, m, hm, hq⟩
      exact ⟨m, ⟨r, cs, r', he, hcs, hr, hm⟩, hq⟩
    · rintro ⟨m, ⟨r, cs, r', he, hcs, hr, hm⟩, hq⟩
      exact ⟨r, cs, r', he, hcs, hr, m, hm, hq⟩

/-- Where rover `n` stands at the moments at which there is one. -/
def cellsAt (n : ℕ) (moments : List Plateau) : List Cell := moments.filterMap (cell? (toString n))

/-- The cells that rover `n` occupies at the moments of a run, from its placement on. -/
def trail (text : List Char) (n : ℕ) : List Cell := cellsAt n (moments text)

theorem cellsAt_subset {ms ms' : List Plateau} (h : ∀ p ∈ ms, p ∈ ms') {n : ℕ} {c : Cell}
    (hc : c ∈ cellsAt n ms) : c ∈ cellsAt n ms' := by
  obtain ⟨p, hp, hcell⟩ := List.mem_filterMap.mp hc
  exact List.mem_filterMap.mpr ⟨p, h p hp, hcell⟩

/-- A rover stays where it is while the rovers after it are placed and driven. -/
theorem momentsFrom_cell? {k n : ℕ} {p : Plateau} (hp : p.Orderly) (hn : n = p.rovers.length + 1)
    {id : String} (hid : id ∈ p.rovers.map (·.id)) (ps : List (List Char × List Char)) :
    ∀ q ∈ momentsFrom k n p ps, q.cell? id = p.cell? id := by
  induction ps generalizing k n p with
  | nil => simp [momentsFrom]
  | cons pair rest ih =>
    obtain ⟨position, commands⟩ := pair
    simp only [momentsFrom]
    cases he : enter (k + 1) n p position with
    | error stop => simp
    | ok r =>
      obtain ⟨ho, hl⟩ := enter_orderly hp hn he
      have hne : id ≠ r.id := by
        rintro rfl
        exact hp.next_notMem hn (readRover_id (enter_ok_iff.mp he).1 ▸ hid)
      have hplaced := cell?_register_of_ne p hne
      cases hc : readCommands (k + 2) n commands with
      | error stop => simpa using hplaced
      | ok cs =>
        simp only [List.mem_cons, List.mem_append]
        rintro q (rfl | hq | hq)
        · exact hplaced
        · exact (driving_cell?_of_ne hne cs q hq).trans hplaced
        · cases hr : r.run (some (p.register r)) cs with
          | error f => simp [hr] at hq
          | ok r' =>
            obtain ⟨ho', hl'⟩ := ho.run (run_own hr)
            have hne' : id ≠ r'.id := by rwa [Rover.run_walk hr, Rover.walk_id]
            have hmem : id ∈ (p.register r').rovers.map (·.id) := by
              obtain ⟨s, hs, rfl⟩ := List.mem_map.mp hid
              exact List.mem_map_of_mem ((mem_put_of_id_ne hne').mpr hs)
            rw [hr] at hq
            exact (ih ho' (by omega) hmem q hq).trans (cell?_register_of_ne p hne')

section First
variable {k n : ℕ} {p : Plateau} (hp : p.Orderly) (hn : n = p.rovers.length + 1)
  {position commands : List Char} {r : Rover} {cs : List Command}
  (hr : readRover (k + 1) n position = .ok r) (hcs : readCommands (k + 2) n commands = .ok cs)
  (hclear : p.Clear (r.trail cs))
include hp hn hr hcs hclear

theorem momentsFrom_cons (rest : List (List Char × List Char)) :
    momentsFrom k n p ((position, commands) :: rest) =
      p.register r :: ((p.register r).driving r cs ++
        momentsFrom (k + 2) (n + 1) (p.register (r.walk cs)) rest) := by
  obtain ⟨henter, hrun⟩ := (enter_run_iff_clear hp hn hr cs).mpr ⟨hclear, rfl⟩
  simp only [momentsFrom, henter, hcs, hrun]

theorem mem_momentsFrom_cons {rest : List (List Char × List Char)} {q : Plateau}
    (hq : q ∈ momentsFrom (k + 2) (n + 1) (p.register (r.walk cs)) rest) :
    q ∈ momentsFrom k n p ((position, commands) :: rest) := by
  rw [momentsFrom_cons hp hn hr hcs hclear]
  exact List.mem_cons_of_mem _ (List.mem_append_right _ hq)

/-- A rover occupies the cells of its trail, and then stays on the last one. -/
theorem cellsAt_cons (rest : List (List Char × List Char)) :
    ∃ later, cellsAt n (momentsFrom k n p ((position, commands) :: rest)) =
      r.trail cs ++ List.replicate later (r.walk cs).cell := by
  obtain ⟨hp', hput, hn'⟩ := register_next hp hn hr hclear
  have hrun := ((enter_run_iff_clear hp hn hr cs).mpr ⟨hclear, rfl⟩).2
  have hid : (r.walk cs).id = toString n := (Rover.walk_id cs r).trans (readRover_id hr)
  have hmem : toString n ∈ (p.register (r.walk cs)).rovers.map (·.id) := by
    rw [← hid, hput]
    simp
  have hstays : ∀ q ∈ momentsFrom (k + 2) (n + 1) (p.register (r.walk cs)) rest,
      q.cell? (toString n) = some (r.walk cs).cell := by
    intro q hq
    rw [momentsFrom_cell? hp' hn' hmem rest q hq, ← hid, cell?_register]
  refine ⟨(momentsFrom (k + 2) (n + 1) (p.register (r.walk cs)) rest).length, ?_⟩
  rw [momentsFrom_cons hp hn hr hcs hclear, cellsAt, ← List.cons_append, List.filterMap_append,
    List.filterMap_congr hstays, ← readRover_id hr, filterMap_driving (run_own hrun)]
  simp

theorem mem_cellsAt_iff (rest : List (List Char × List Char)) (c : Cell) :
    c ∈ cellsAt n (momentsFrom k n p ((position, commands) :: rest)) ↔ c ∈ r.trail cs := by
  obtain ⟨later, hcells⟩ := cellsAt_cons hp hn hr hcs hclear rest
  rw [hcells, List.mem_append, or_iff_left_iff_imp]
  intro hc
  exact (List.eq_of_mem_replicate hc) ▸ Rover.walk_cell_mem_trail cs r

/-- Rovers that come later are not there yet while a rover is placed and driven. -/
theorem cellsAt_cons_of_lt {m : ℕ} (hm : n < m) (rest : List (List Char × List Char)) :
    cellsAt m (momentsFrom k n p ((position, commands) :: rest)) =
      cellsAt m (momentsFrom (k + 2) (n + 1) (p.register (r.walk cs)) rest) := by
  have hne : toString m ≠ r.id := by
    rw [readRover_id hr]
    exact fun he => hm.ne' (Nat.repr_injective he)
  have hplaced : (p.register r).cell? (toString m) = none := by
    rw [cell?_register_of_ne p hne]
    exact cell?_of_notMem (hp.number_notMem (Or.inr (by omega)))
  have hdriven : ((p.register r).driving r cs).filterMap (cell? (toString m)) = [] := by
    rw [List.filterMap_eq_nil_iff]
    intro q hq
    rw [driving_cell?_of_ne hne cs q hq, hplaced]
  rw [momentsFrom_cons hp hn hr hcs hclear, cellsAt, List.filterMap_cons_none hplaced,
    List.filterMap_append, hdriven, List.nil_append, cellsAt]

end First

/-- There are no rovers yet on the plateau of the plateau line. -/
theorem trail_eq_cellsAt {text first : List Char} {rest : List (List Char)} {start : Plateau}
    (hlines : lines text = first :: rest) (hstart : readPlateau 1 first = .ok start) (n : ℕ) :
    trail text n = cellsAt n (momentsFrom 1 1 start (pairs rest)) := by
  obtain ⟨b, rfl⟩ := readPlateau_empty hstart
  simp only [trail, moments, hlines, hstart]
  exact List.filterMap_cons_none rfl

/-- Rovers are numbered from one on. -/
theorem trail_zero (text : List Char) : trail text 0 = [] :=
  List.filterMap_eq_nil_iff.mpr fun _ hq =>
    cell?_of_notMem ((moments_orderly hq).number_notMem (Or.inl rfl))

/-- The cells of a trail are cells on which rovers stand at the moments of the run. -/
theorem exists_of_mem_trail {text : List Char} {n : ℕ} {c : Cell} (hc : c ∈ trail text n) :
    ∃ q ∈ moments text, ∃ r ∈ q.rovers, r.cell = c := by
  obtain ⟨q, hq, hcell⟩ := List.mem_filterMap.mp hc
  obtain ⟨r, hr, hrc⟩ := Option.map_eq_some_iff.mp hcell
  exact ⟨q, hq, r, List.mem_of_find?_eq_some hr, hrc⟩

theorem trail_nonneg {text : List Char} {n : ℕ} {c : Cell} (hc : c ∈ trail text n) :
    0 ≤ c.x ∧ 0 ≤ c.y := by
  obtain ⟨q, hq, r, hr, rfl⟩ := exists_of_mem_trail hc
  have hin := (moments_orderly hq).sound.inside r hr
  exact ⟨hin.1, hin.2.2.1⟩

end Script

end RoverFleet
