import RoverFleet.Proofs.Moments

/-!
# What the moments tell of a run

The moments begin with the plateau that the journal begins with, on which no rover stands, and
every entry of the journal is about a rover of one of them. A run that stops does so because its
last moment refuses a rover or a command, or because a line cannot be read.
-/
namespace RoverFleet

namespace Plateau

/-- The plateau refuses to place a rover, or one of its rovers to execute a command. -/
def Refuses (p : Plateau) (f : Failure) : Prop :=
  (∃ r, p.placing r = .error f) ∨ ∃ r ∈ p.rovers, ∃ c, r.execute (some p) c = .error f

/-- Driving ends at a plateau that refuses the next command. -/
theorem driving_refuses {p : Plateau} {r : Rover} {cs : List Command} {f : Failure}
    (h : r.run (some p) cs = .error f) :
    ∃ q, (p.register r :: (p.register r).driving r cs).getLast? = some q ∧ q.Refuses f := by
  induction cs generalizing r with
  | nil => cases h
  | cons c rest ih =>
    have hregister := Rover.execute_register (p := p) (r := r) rfl c
    rcases bind_error_iff.mp h with he | ⟨r', he, hrest⟩
    · rw [he] at hregister
      refine ⟨p.register r, by simp [driving, hregister], Or.inr ?_⟩
      exact ⟨r, mem_put_self r p.rovers, c, hregister⟩
    · rw [he] at hregister
      obtain ⟨q, hlast, hq⟩ := ih hrest
      refine ⟨q, ?_, hq⟩
      simp only [driving, hregister, register_register p (Rover.execute_id he).symm,
        List.getLast?_cons_cons]
      exact hlast

end Plateau

namespace Script
open Plateau

/-- A rover's line of number `k` cannot be read. -/
def Unread (k : ℕ) (stop : Stop) : Prop :=
  ∃ n line, readRover k n line = .error stop ∨ readCommands k n line = .error stop

/-- The rovers that the entry is about stand on the plateau. -/
def Entry.StandsOn (p : Plateau) : Entry → Prop
  | .marked q => p = q
  | .placed r => r ∈ p.rovers
  | .drove r _ => r ∈ p.rovers

theorem enter_error_iff {k n : ℕ} {p : Plateau} {line : List Char} {stop : Stop} :
    enter k n p line = .error stop ↔ readRover k n line = .error stop ∨
      ∃ r f, readRover k n line = .ok r ∧ p.placing r = .error f ∧ stop = .ofFailure f := by
  simp only [enter, bind_error_iff, mapError_error_iff, pure_ne_error, and_false, exists_false,
    or_false, eq_comm (a := stop)]
  refine or_congr_right (exists_congr fun r => ?_)
  simp only [exists_and_left]

theorem drive_error_iff {k n : ℕ} {p : Plateau} {r : Rover} {line : List Char} {stop : Stop} :
    drive k n p r line = .error stop ↔ readCommands k n line = .error stop ∨
      ∃ cs f, readCommands k n line = .ok cs ∧ r.run (some p) cs = .error f ∧
        stop = .ofFailure f := by
  simp only [drive, bind_error_iff, mapError_error_iff, pure_ne_error, and_false, exists_false,
    or_false, eq_comm (a := stop)]
  refine or_congr_right (exists_congr fun cs => ?_)
  simp only [exists_and_left]

section Rovers
variable {k n : ℕ} {p : Plateau} {ps : List (List Char × List Char)}

theorem momentsFrom_stop {stop : Stop} (h : (runRovers k n p ps).result = .error stop) :
    ∃ q, (p :: momentsFrom k n p ps).getLast? = some q ∧
      ((∃ f, q.Refuses f ∧ stop = .ofFailure f) ∨ Unread (runRovers k n p ps).line stop) := by
  induction ps generalizing k n p with
  | nil => cases h
  | cons pair rest ih =>
    obtain ⟨position, commands⟩ := pair
    cases he : enter (k + 1) n p position with
    | error stop' =>
      simp only [runRovers, momentsFrom, he] at h ⊢
      obtain rfl := Except.error.inj h
      refine ⟨p, rfl, ?_⟩
      rcases enter_error_iff.mp he with hread | ⟨r, f, -, hplace, rfl⟩
      · exact Or.inr ⟨n, position, Or.inl hread⟩
      · exact Or.inl ⟨f, Or.inl ⟨r, hplace⟩, rfl⟩
    | ok r =>
      cases hd : drive (k + 2) n (p.register r) r commands with
      | error stop' =>
        simp only [runRovers, momentsFrom, he, hd] at h ⊢
        obtain rfl := Except.error.inj h
        rcases drive_error_iff.mp hd with hread | ⟨cs, f, hcs, hrun, rfl⟩
        · exact ⟨p.register r, by simp [hread], Or.inr ⟨n, commands, Or.inr hread⟩⟩
        · obtain ⟨q, hlast, hq⟩ := driving_refuses ((Rover.run_register rfl cs).symm.trans hrun)
          exact ⟨q, by simpa [hcs, hrun] using hlast, Or.inl ⟨f, hq, rfl⟩⟩
      | ok out =>
        obtain ⟨r', count⟩ := out
        obtain ⟨cs, hcs, hr, -⟩ := drive_ok_iff.mp hd
        rw [momentsFrom_cons_getLast he hcs hr]
        simp only [runRovers, he, hd] at h ⊢
        exact ih h

theorem momentsFrom_journal {e : Entry} (h : e ∈ (runRovers k n p ps).journal) :
    ∃ q ∈ momentsFrom k n p ps, e.StandsOn q := by
  induction ps generalizing k n p with
  | nil => cases h
  | cons pair rest ih =>
    obtain ⟨position, commands⟩ := pair
    cases he : enter (k + 1) n p position with
    | error stop => simp [runRovers, he] at h
    | ok r =>
      have hplaced : p.register r ∈ momentsFrom k n p ((position, commands) :: rest) := by
        simp [momentsFrom, he]
      cases hd : drive (k + 2) n (p.register r) r commands with
      | error stop =>
        obtain rfl : e = .placed r := by simpa [runRovers, he, hd] using h
        exact ⟨_, hplaced, mem_put_self r p.rovers⟩
      | ok out =>
        obtain ⟨r', count⟩ := out
        obtain ⟨cs, hcs, hr, -⟩ := drive_ok_iff.mp hd
        have hmoments : momentsFrom k n p ((position, commands) :: rest) =
            (p.register r :: (p.register r).driving r cs) ++
              momentsFrom (k + 2) (n + 1) (p.register r') rest := by
          simp [momentsFrom, he, hcs, hr]
        simp only [runRovers, he, hd, List.mem_cons] at h
        rcases h with rfl | rfl | h
        · exact ⟨_, hplaced, mem_put_self r p.rovers⟩
        · rw [hmoments]
          have hlast := List.mem_of_getLast? (driving_getLast (run_own hr))
          exact ⟨_, List.mem_append_left _ hlast, mem_put_self r' p.rovers⟩
        · rw [hmoments]
          obtain ⟨q, hq, hon⟩ := ih h
          exact ⟨q, List.mem_append_right _ hq, hon⟩

end Rovers

/-- The moments are those of the run: they begin with the plateau that the journal begins with, on
which no rover stands, and there are none exactly if nothing is recorded. Every entry stands at a
moment. When a run stops, its last moment refuses a rover or a command for the same reason, or the
line that was taken up last is the cause. -/
theorem run_moments (text : List Char) :
    (∀ p, (moments text).head? = some p ↔ (run text).journal.head? = some (.marked p)) ∧
    (∀ p ∈ (moments text).head?, p.rovers = []) ∧
    (∀ e ∈ (run text).journal, ∃ p ∈ moments text, e.StandsOn p) ∧
    ∀ stop, (run text).result = .error stop → ∀ p ∈ (moments text).getLast?,
      (∃ f, p.Refuses f ∧ stop = .ofFailure f) ∨ Unread (run text).line stop := by
  cases hl : lines text with
  | nil => simp [moments, run, runLines, hl]
  | cons first rest =>
    cases hp : readPlateau 1 first with
    | error stop => simp [moments, run, runLines, hl, hp]
    | ok p =>
      obtain ⟨b, rfl⟩ := readPlateau_empty hp
      simp only [moments, run, runLines, hl, hp]
      refine ⟨fun p => by simp, by simp, fun e he => ?_, fun stop hstop q hq => ?_⟩
      · rcases List.mem_cons.mp he with rfl | he
        · exact ⟨_, List.mem_cons_self, rfl⟩
        · obtain ⟨q, hq, hon⟩ := momentsFrom_journal he
          exact ⟨q, List.mem_cons_of_mem _ hq, hon⟩
      · obtain ⟨q', hlast, hcause⟩ := momentsFrom_stop hstop
        obtain rfl := Option.some.inj (hlast.symm.trans hq)
        exact hcause

/-- A run that is refused at its second command has three moments: the empty plateau, the placement
and the first command. -/
example : (moments "1 1\n0 0 N\nMM".toList).length = 3 := by decide +kernel

end Script

end RoverFleet
