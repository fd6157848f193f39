import RoverFleet.Proofs.Walk
import RoverFleet.Script.Run

/-!
# Moments of a run

The moments of a run are the plateaus that stand while it goes on: the one of the plateau line,
the one after each rover that is placed, and the one after each command that is executed. Runs
that stop later have moments too. At every moment the plateau is sound and its rovers are
numbered in the order of their placement.
-/
namespace RoverFleet

namespace Plateau

/-- The plateaus after each of the commands of a rover, until one fails. -/
def driving (p : Plateau) (r : Rover) : List Command → List Plateau
  | [] => []
  | c :: rest =>
    match r.execute (some p) c with
    | .error _ => []
    | .ok r' => p.register r' :: (p.register r').driving r' rest

/-- One more rover was placed, or one that stands on the plateau executed one command. -/
def Follows (p q : Plateau) : Prop :=
  (∃ r, p.placing r = .ok () ∧ q = p.register r) ∨
    ∃ r ∈ p.rovers, ∃ c r', r.execute (some p) c = .ok r' ∧ q = p.register r'

structure Orderly (p : Plateau) : Prop where
  sound : p.Sound
  numbered : p.rovers.map (·.id) = (List.range' 1 p.rovers.length).map toString

namespace Orderly

theorem empty (id : String) (b : Bounds) : Orderly ⟨id, b, []⟩ := ⟨Sound.empty id b, rfl⟩

/-- No rover has a number other than those from one on to the number of rovers. -/
theorem number_notMem {p : Plateau} (hp : p.Orderly) {m : ℕ}
    (hm : m = 0 ∨ p.rovers.length < m) : toString m ∉ p.rovers.map (·.id) := by
  rw [hp.numbered, List.mem_map]
  rintro ⟨l, hl, he⟩
  have hlm : l = m := Nat.repr_injective he
  have := List.mem_range'_1.mp hl
  omega

/-- The next number is no rover's id yet. -/
theorem next_notMem {p : Plateau} (hp : p.Orderly) {n : ℕ} (hn : n = p.rovers.length + 1) :
    toString n ∉ p.rovers.map (·.id) :=
  hp.number_notMem (Or.inr (hn ▸ Nat.lt_succ_self _))

theorem place {p : Plateau} (hp : p.Orderly) {r : Rover}
    (hid : r.id = toString (p.rovers.length + 1)) (h : p.placing r = .ok ()) :
    (p.register r).Orderly ∧ (p.register r).rovers.length = p.rovers.length + 1 := by
  have hput : (p.register r).rovers = p.rovers ++ [r] :=
    put_of_id_notMem (hid ▸ hp.next_notMem rfl)
  refine ⟨⟨hp.sound.place h, ?_⟩, by simp [hput]⟩
  rw [hput, List.map_append, hp.numbered, List.length_append, List.length_singleton,
    List.range'_1_concat]
  simp [hid, Nat.add_comm]

theorem execute {p : Plateau} (hp : p.Orderly) {r r' : Rover} (hr : r ∈ p.rovers) {c : Command}
    (h : r.execute (some p) c = .ok r') :
    (p.register r').Orderly ∧ (p.register r').rovers.length = p.rovers.length := by
  have hmem : r'.id ∈ p.rovers.map (·.id) :=
    List.mem_map.mpr ⟨r, hr, (Rover.execute_id h).symm⟩
  have hids : (p.register r').rovers.map (·.id) = p.rovers.map (·.id) := put_ids hmem
  have hlen : (p.register r').rovers.length = p.rovers.length := by
    simpa using congrArg List.length hids
  exact ⟨⟨hp.sound.execute hr h, by rw [hids, hlen, hp.numbered]⟩, hlen⟩

theorem driving {p : Plateau} {r : Rover} (hp : p.Orderly) (hr : r ∈ p.rovers)
    (cs : List Command) : ∀ q ∈ p.driving r cs, q.Orderly := by
  induction cs generalizing p r with
  | nil => simp [Plateau.driving]
  | cons c rest ih =>
    simp only [Plateau.driving]
    cases he : r.execute (some p) c with
    | error f => simp
    | ok r' =>
      have hq := (hp.execute hr he).1
      intro q hm
      rcases List.mem_cons.mp hm with rfl | hm
      · exact hq
      · exact ih hq (mem_put_self r' p.rovers) q hm

end Orderly

theorem driving_isChain {p : Plateau} {r : Rover} (hr : r ∈ p.rovers) (cs : List Command) :
    (p :: p.driving r cs).IsChain Follows := by
  induction cs generalizing p r with
  | nil => simp [driving]
  | cons c rest ih =>
    simp only [driving]
    cases he : r.execute (some p) c with
    | error f => simp
    | ok r' =>
      refine List.isChain_cons_cons.mpr ⟨Or.inr ⟨r, hr, c, r', he, rfl⟩, ?_⟩
      exact ih (mem_put_self r' p.rovers)

/-- Driving ends with the rover where the run takes it. -/
theorem driving_getLast {p : Plateau} {r r' : Rover} {cs : List Command}
    (h : r.run (some p) cs = .ok r') :
    (p.register r :: (p.register r).driving r cs).getLast? = some (p.register r') := by
  induction cs generalizing r with
  | nil => cases h; simp [driving]
  | cons c rest ih =>
    obtain ⟨he, hrun⟩ := Rover.run_cons_ok_iff.mp h
    have hid : r.id = (r.after c).id := (r.after_id c).symm
    have hstep : r.execute (some (p.register r)) c = .ok (r.after c) :=
      (Rover.execute_register rfl c).trans he
    simp only [driving, hstep, register_register p hid, List.getLast?_cons_cons]
    exact ih hrun

/-- A run of commands keeps a plateau orderly, with as many rovers as before. -/
theorem Orderly.run {p : Plateau} {r r' : Rover} (hp : (p.register r).Orderly)
    {cs : List Command} (h : r.run (some p) cs = .ok r') :
    (p.register r').Orderly ∧ (p.register r').rovers.length = (p.register r).rovers.length := by
  induction cs generalizing r with
  | nil => cases h; exact ⟨hp, rfl⟩
  | cons c rest ih =>
    obtain ⟨he, hrun⟩ := Rover.run_cons_ok_iff.mp h
    have hstep : r.execute (some (p.register r)) c = .ok (r.after c) :=
      (Rover.execute_register rfl c).trans he
    obtain ⟨ho, hl⟩ := hp.execute (mem_put_self r p.rovers) hstep
    rw [register_register p (r.after_id c).symm] at ho hl
    obtain ⟨ho', hl'⟩ := ih ho hrun
    exact ⟨ho', hl'.trans hl⟩

end Plateau

namespace Script
open Plateau

theorem readRover_id {k n : ℕ} {line : List Char} {r : Rover} (h : readRover k n line = .ok r) :
    r.id = toString n := by
  unfold readRover at h
  split at h
  · cases h
  · split at h
    · obtain ⟨x, -, h⟩ := bind_ok_iff.mp h
      obtain ⟨y, -, h⟩ := bind_ok_iff.mp h
      split at h
      · split at h
        · obtain ⟨c, -, h⟩ := bind_ok_iff.mp h
          cases h
          rfl
        · cases h
      · cases h
    · cases h

theorem enter_ok_iff {k n : ℕ} {p : Plateau} {line : List Char} {r : Rover} :
    enter k n p line = .ok r ↔ readRover k n line = .ok r ∧ p.placing r = .ok () := by
  simp only [enter, bind_ok_iff, mapError_ok_iff, pure_ok_iff]
  constructor
  · rintro ⟨s, hs, _, hp, rfl⟩
    exact ⟨hs, hp⟩
  · rintro ⟨hr, hp⟩
    exact ⟨r, hr, (), hp, rfl⟩

theorem drive_ok_iff {k n : ℕ} {p : Plateau} {r r' : Rover} {line : List Char} {count : ℕ} :
    drive k n p r line = .ok (r', count) ↔
      ∃ cs, readCommands k n line = .ok cs ∧ r.run (some p) cs = .ok r' ∧ cs.length = count := by
  simp only [drive, bind_ok_iff, mapError_ok_iff, pure_ok_iff, Prod.mk.injEq]
  constructor
  · rintro ⟨cs, hcs, s, hs, rfl, rfl⟩
    exact ⟨cs, hcs, hs, rfl⟩
  · rintro ⟨cs, hcs, hs, rfl⟩
    exact ⟨cs, hcs, r', hs, rfl, rfl⟩

/-- The moments from rover `n` on, when line `k` was taken up last. -/
def momentsFrom (k n : ℕ) (p : Plateau) : List (List Char × List Char) → List Plateau
  | [] => []
  | (position, commands) :: rest =>
    match enter (k + 1) n p position with
    | .error _ => []
    | .ok r =>
      p.register r :: match readCommands (k + 2) n commands with
        | .error _ => []
        | .ok cs => (p.register r).driving r cs ++
            match r.run (some (p.register r)) cs with
            | .error _ => []
            | .ok r' => momentsFrom (k + 2) (n + 1) (p.register r') rest

def moments (text : List Char) : List Plateau :=
  match lines text with
  | [] => []
  | first :: rest =>
    match readPlateau 1 first with
    | .error _ => []
    | .ok p => p :: momentsFrom 1 1 p (pairs rest)

theorem runRovers_cons_ok_iff {k n : ℕ} {p q : Plateau} {position commands : List Char}
    {rest : List (List Char × List Char)} :
    (runRovers k n p ((position, commands) :: rest)).result = .ok q ↔
      ∃ r cs r', enter (k + 1) n p position = .ok r ∧ readCommands (k + 2) n commands = .ok cs ∧
        r.run (some (p.register r)) cs = .ok r' ∧
        (runRovers (k + 2) (n + 1) (p.register r') rest).result = .ok q := by
  cases he : enter (k + 1) n p position with
  | error stop => simp [runRovers, he]
  | ok r =>
    cases hd : drive (k + 2) n (p.register r) r commands with
    | error stop =>
      simp only [runRovers, he, hd, reduceCtorEq, false_iff]
      rintro ⟨s, cs, r', hs, hcs, hr, -⟩
      cases hs
      simp [drive_ok_iff.mpr ⟨cs, hcs, hr, rfl⟩] at hd
    | ok out =>
      obtain ⟨r', count⟩ := out
      obtain ⟨cs, hcs, hr, -⟩ := drive_ok_iff.mp hd
      simp only [runRovers, he, hd]
      constructor
      · exact fun h => ⟨r, cs, r', rfl, hcs, hr, h⟩
      · rintro ⟨s, ds, s', hs, hds, hs', h⟩
        cases hs
        cases hcs.symm.trans hds
        cases hr.symm.trans hs'
        exact h

theorem enter_orderly {k n : ℕ} {p : Plateau} (hp : p.Orderly) (hn : n = p.rovers.length + 1)
    {line : List Char} {r : Rover} (h : enter k n p line = .ok r) :
    (p.register r).Orderly ∧ (p.register r).rovers.length = n := by
  obtain ⟨hr, hplace⟩ := enter_ok_iff.mp h
  subst hn
  exact hp.place (readRover_id hr) hplace

/-- Driving from the plateau on which the rover was placed runs on any plateau of its others. -/
theorem run_own {p : Plateau} {r r' : Rover} {cs : List Command}
    (h : r.run (some (p.register r)) cs = .ok r') : r.run (some p) cs = .ok r' :=
  (Rover.run_register rfl cs).symm.trans h

theorem momentsFrom_orderly {k n : ℕ} {p : Plateau} (hp : p.Orderly)
    (hn : n = p.rovers.length + 1) (ps : List (List Char × List Char)) :
    ∀ q ∈ momentsFrom k n p ps, q.Orderly := by
  induction ps generalizing k n p with
  | nil => simp [momentsFrom]
  | cons pair rest ih =>
    obtain ⟨position, commands⟩ := pair
    simp only [momentsFrom]
    cases he : enter (k + 1) n p position with
    | error stop => simp
    | ok r =>
      obtain ⟨ho, hl⟩ := enter_orderly hp hn he
      cases hc : readCommands (k + 2) n commands with
      | error stop => simpa using ho
      | ok cs =>
        simp only [List.mem_cons, List.mem_append]
        rintro q (rfl | hq | hq)
        · exact ho
        · exact ho.driving (mem_put_self r p.rovers) cs q hq
        · cases hr : r.run (some (p.register r)) cs with
          | error f => simp [hr] at hq
          | ok r' =>
            obtain ⟨ho', hl'⟩ := ho.run (run_own hr)
            rw [hr] at hq
            exact ih ho' (by omega) q hq

theorem momentsFrom_isChain (k n : ℕ) (p : Plateau) (ps : List (List Char × List Char)) :
    (p :: momentsFrom k n p ps).IsChain Follows := by
  induction ps generalizing k n p with
  | nil => simp [momentsFrom]
  | cons pair rest ih =>
    obtain ⟨position, commands⟩ := pair
    simp only [momentsFrom]
    cases he : enter (k + 1) n p position with
    | error stop => simp
    | ok r =>
      refine List.isChain_cons_cons.mpr ⟨Or.inl ⟨r, (enter_ok_iff.mp he).2, rfl⟩, ?_⟩
      cases hc : readCommands (k + 2) n commands with
      | error stop => simp
      | ok cs =>
        have hd := driving_isChain (p := p.register r) (mem_put_self r p.rovers) cs
        cases hr : r.run (some (p.register r)) cs with
        | error f => simpa [hr] using hd
        | ok r' =>
          simp only [hr]
          -- the moments of the next rovers begin where the driving ends
          refine List.IsChain.append hd (ih (k + 2) (n + 1) (p.register r')).tail ?_
          rw [driving_getLast (run_own hr)]
          rintro q ⟨rfl⟩
          exact (ih (k + 2) (n + 1) (p.register r')).rel_head?

/-- The moments of a rover that goes through lead to those of the next ones. -/
theorem momentsFrom_cons_getLast {k n : ℕ} {p : Plateau} {position commands : List Char}
    {rest : List (List Char × List Char)} {r r' : Rover} {cs : List Command}
    (he : enter (k + 1) n p position = .ok r) (hc : readCommands (k + 2) n commands = .ok cs)
    (hr : r.run (some (p.register r)) cs = .ok r') :
    (p :: momentsFrom k n p ((position, commands) :: rest)).getLast? =
      (p.register r' :: momentsFrom (k + 2) (n + 1) (p.register r') rest).getLast? := by
  simp only [momentsFrom, he, hc, hr]
  rw [List.getLast?_cons_cons, ← List.cons_append, List.getLast?_append,
    driving_getLast (run_own hr)]
  cases momentsFrom (k + 2) (n + 1) (p.register r') rest with
  | nil => rfl
  | cons m ms => simp [List.getLast?_cons]

theorem momentsFrom_getLast {k n : ℕ} {p q : Plateau} {ps : List (List Char × List Char)}
    (h : (runRovers k n p ps).result = .ok q) : (p :: momentsFrom k n p ps).getLast? = some q := by
  induction ps generalizing k n p with
  | nil => cases h; rfl
  | cons pair rest ih =>
    obtain ⟨position, commands⟩ := pair
    obtain ⟨r, cs, r', he, hc, hr, hrest⟩ := runRovers_cons_ok_iff.mp h
    rw [momentsFrom_cons_getLast he hc hr]
    exact ih hrest

theorem runRovers_length {k n : ℕ} {p q : Plateau} (hp : p.Orderly)
    (hn : n = p.rovers.length + 1) {ps : List (List Char × List Char)}
    (h : (runRovers k n p ps).result = .ok q) :
    q.rovers.length = p.rovers.length + ps.length ∧ ∀ pair ∈ ps, pair.2 ≠ [] := by
  induction ps generalizing k n p with
  | nil => cases h; simp
  | cons pair rest ih =>
    obtain ⟨position, commands⟩ := pair
    obtain ⟨r, cs, r', he, hc, hr, hrest⟩ := runRovers_cons_ok_iff.mp h
    obtain ⟨ho, hl⟩ := enter_orderly hp hn he
    obtain ⟨ho', hl'⟩ := ho.run (run_own hr)
    obtain ⟨hlen, hne⟩ := ih ho' (by omega) hrest
    refine ⟨by simp only [List.length_cons]; omega, ?_⟩
    intro pair hpair
    rcases List.mem_cons.mp hpair with rfl | hpair
    · rintro rfl
      simp [readCommands] at hc
    · exact hne pair hpair

theorem length_of_pairs {ls : List (List Char)} (h : ∀ pair ∈ pairs ls, pair.2 ≠ []) :
    ls.length = 2 * (pairs ls).length := by
  fun_induction pairs ls with
  | case1 => rfl
  | case2 position => simp at h
  | case3 position commands rest ih =>
    have := ih fun pair hp => h pair (by simp [hp])
    simp only [List.length_cons]
    omega

theorem readPlateau_empty {k : ℕ} {line : List Char} {p : Plateau}
    (h : readPlateau k line = .ok p) :
    ∃ b, p = ⟨"1", b, []⟩ := by
  unfold readPlateau at h
  split at h
  · cases h
  · split at h
    · obtain ⟨x, -, h⟩ := bind_ok_iff.mp h
      obtain ⟨y, -, h⟩ := bind_ok_iff.mp h
      split at h
      · simp only [mapError_ok_iff, Plateau.ofBounds] at h
        split at h
        · split at h
          · cases h
          · cases h
            exact ⟨_, rfl⟩
        · cases h
      · cases h
    · cases h

theorem moments_orderly {text : List Char} {q : Plateau} (hq : q ∈ moments text) : q.Orderly := by
  unfold moments at hq
  split at hq
  · cases hq
  · split at hq
    · cases hq
    · next hstart =>
      obtain ⟨b, rfl⟩ := readPlateau_empty hstart
      rcases List.mem_cons.mp hq with rfl | hq
      · exact Orderly.empty "1" b
      · exact momentsFrom_orderly (Orderly.empty "1" b) rfl _ q hq

theorem runRovers_id {k n : ℕ} {p q : Plateau} {ps : List (List Char × List Char)}
    (h : (runRovers k n p ps).result = .ok q) : q.id = p.id := by
  induction ps generalizing k n p with
  | nil => cases h; rfl
  | cons pair rest ih =>
    obtain ⟨r, cs, r', -, -, -, hrest⟩ := runRovers_cons_ok_iff.mp h
    exact (ih hrest).trans (register_id p r')

/-- A run that succeeds ends with an orderly plateau. -/
theorem run_orderly {text : List Char} {p : Plateau} (h : (run text).result = .ok p) :
    p.Orderly ∧ p.id = "1" := by
  rw [run] at h
  cases hl : lines text with
  | nil => simp [runLines, hl] at h
  | cons first rest =>
    rw [hl] at h
    cases hp : readPlateau 1 first with
    | error stop => simp [runLines, hp] at h
    | ok q =>
      obtain ⟨b, rfl⟩ := readPlateau_empty hp
      simp only [runLines, hp] at h
      refine ⟨?_, runRovers_id h⟩
      rcases List.mem_cons.mp (List.mem_of_getLast? (momentsFrom_getLast h)) with rfl | hm
      · exact Orderly.empty "1" b
      · exact momentsFrom_orderly (Orderly.empty "1" b) rfl _ p hm

/-- At every moment of a run, also of one that stops later, the rovers stand on different cells
inside the bounds and are numbered from one on. Each moment follows from the one before it by one
placement or one command, and a run that succeeds ends at its last moment, with one rover for each
two lines after the first. -/
theorem moments_inside_apart_numbered (text : List Char) :
    (∀ p ∈ moments text,
      (∀ r ∈ p.rovers, 0 ≤ r.cell.x ∧ r.cell.x ≤ p.bounds.maxX ∧
        0 ≤ r.cell.y ∧ r.cell.y ≤ p.bounds.maxY) ∧
      (p.rovers.map (·.cell)).Nodup ∧
      p.rovers.map (·.id) = (List.range' 1 p.rovers.length).map toString) ∧
    (moments text).IsChain Follows ∧
    ∀ p, (run text).result = .ok p →
      (moments text).getLast? = some p ∧ (lines text).length = 2 * p.rovers.length + 1 := by
  cases hl : lines text with
  | nil => simp [moments, run, runLines, hl]
  | cons first rest =>
    cases hp : readPlateau 1 first with
    | error stop => simp [moments, run, runLines, hl, hp]
    | ok p =>
      simp only [moments, run, runLines, hl, hp]
      obtain ⟨b, rfl⟩ := readPlateau_empty hp
      have ho := Orderly.empty "1" b
      refine ⟨?_, momentsFrom_isChain _ _ _ _, fun q hq => ⟨momentsFrom_getLast hq, ?_⟩⟩
      · intro q hq
        have hq' : q.Orderly := by
          rcases List.mem_cons.mp hq with rfl | hq
          · exact ho
          · exact momentsFrom_orderly ho rfl _ q hq
        exact ⟨hq'.sound.inside, hq'.sound.cells, hq'.numbered⟩
      · obtain ⟨hlen, hne⟩ := runRovers_length ho rfl hq
        have := length_of_pairs hne
        simp only [List.length_cons, List.length_nil] at hlen ⊢
        omega

theorem moments_inside_apart_numbered_two_rovers :
    let text := "5 5\n1 2 N\nLMLMLMLMM\n3 3 E\nMMRMMRMRRM".toList
    let p : Plateau := ⟨"1", ⟨5, 5⟩, [⟨"1", ⟨1, 3⟩, .north⟩, ⟨"2", ⟨5, 1⟩, .east⟩]⟩
    (run text).result = .ok p ∧ p ∈ moments text ∧ (lines text).length = 2 * 2 + 1 ∧
      (p.rovers.map (·.cell)).Nodup := by
  intro text p
  have h : (run text).result = .ok p := by rfl
  have hm := moments_inside_apart_numbered text
  have hlast := hm.2.2 p h
  have hmem : p ∈ moments text := List.mem_of_getLast? hlast.1
  exact ⟨h, hmem, hlast.2, (hm.1 p hmem).2.1⟩

end Script

end RoverFleet
