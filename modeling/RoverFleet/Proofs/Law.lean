import RoverFleet.Proofs.Check
import RoverFleet.Proofs.Numeral
import RoverFleet.Proofs.Walk
import RoverFleet.Script.Run

/-!
# The checks of script lines

The checks of a line come in a fixed order and depend on what the lines before it have put on the
plateau. Reading a line and doing what it says succeeds if the line passes its checks, and else
fails with the error of the first check that does not hold.
-/
namespace RoverFleet.Script
open Numeric

/-- The cell that the first two words of a line name. -/
def cellOf (line : List Char) : Cell :=
  let coordinate (i : ℕ) : ℤ := ((Text.words line)[i]?.bind Literal.whole?).getD 0
  ⟨coordinate 0, coordinate 1⟩

/-- The heading that the third word of a line names. -/
def headingOf (line : List Char) : Heading :=
  ((Text.words line)[2]?.bind fun w => Heading.ofChars? (Text.upper w)).getD .north

/-- The commands that the letters of a line name. -/
def commandsOf (line : List Char) : List Command := (Text.upper line).filterMap Command.ofChar?

/-- Rover `n` as its position line describes it. -/
def roverOf (n : ℕ) (line : List Char) : Rover := ⟨toString n, cellOf line, headingOf line⟩

/-- Decimal digits beyond the limit are not read. -/
def digitsCheck (w : List Char) : Check Stop :=
  ⟨Literal.decimalDigits w ≤ digitLimit, .limit (.reading (Literal.decimalDigits w))⟩

/-- The plateau line `k`: two words, number literals, whole and not negative. -/
def plateauChecks (k : ℕ) (line : List Char) : List (Check Stop) :=
  let ws := Text.words line
  [⟨line ≠ [], .malformed k .noPlateau⟩, ⟨ws.length = 2, .malformed k .plateauCount⟩] ++
    ws.map digitsCheck ++
    [⟨∀ w ∈ ws, (Literal.ofChars? w).isSome, .malformed k .plateauNumbers⟩,
      ⟨∀ w ∈ ws, (Literal.whole? w).isSome, .refused .boundsNotWhole⟩,
      ⟨0 ≤ (cellOf line).x ∧ 0 ≤ (cellOf line).y, .refused .boundsNegative⟩]

/-- The position line `k`: three words, two number literals and a heading, a cell that is whole
and not negative. -/
def roverChecks (k : ℕ) (line : List Char) : List (Check Stop) :=
  let ws := Text.words line
  let n := k / 2
  [⟨line ≠ [], .malformed k (.noPosition n)⟩, ⟨ws.length = 3, .malformed k (.positionCount n)⟩] ++
    (ws.take 2).map digitsCheck ++
    [⟨∀ w ∈ ws.take 2, (Literal.ofChars? w).isSome, .malformed k (.coordinates n)⟩,
      ⟨∀ w ∈ ws.drop 2, Text.upper w ∈ [['N'], ['E'], ['S'], ['W']], .malformed k (.heading n)⟩,
      ⟨∀ w ∈ ws.take 2, (Literal.whole? w).isSome, .refused .cellNotWhole⟩,
      ⟨0 ≤ (cellOf line).x ∧ 0 ≤ (cellOf line).y, .refused .cellNegative⟩]

/-- The cell of a rover that is placed: inside and free. -/
def placingChecks (p : Plateau) (r : Rover) : List (Check Stop) :=
  [⟨p.bounds.Contains r.cell, .ofFailure (Refusal.placedOutside r.id r.cell p.bounds).report⟩,
    ⟨∀ s ∈ p.rovers, s.cell ≠ r.cell, .ofFailure (Refusal.placedOnRover r.id r.cell).report⟩]

/-- The commands line `k`: letters of commands only. -/
def letterChecks (k : ℕ) (line : List Char) : List (Check Stop) :=
  ⟨line ≠ [], .malformed k (.noCommands (k / 2))⟩ ::
    (Text.upper line).map fun c => ⟨c ∈ ['L', 'R', 'M'], .malformed k (.command (k / 2) c)⟩

/-- The moves of a walk: each ends on a cell inside that is free of other rovers. -/
def moveChecks (p : Plateau) (r : Rover) : List Command → List (Check Stop)
  | [] => []
  | .move :: rest =>
    ⟨p.bounds.Contains r.ahead, .ofFailure (Refusal.movedOutside r.id r.ahead p.bounds).report⟩ ::
    ⟨∀ s ∈ p.rovers, s.id ≠ r.id → s.cell ≠ r.ahead,
      .ofFailure (Refusal.movedOnRover r.id r.ahead).report⟩ ::
    moveChecks p (r.after .move) rest
  | c :: rest => moveChecks p (r.after c) rest

/-- What the lines read so far have led to. -/
inductive Stage where
  | opening
  | driven (p : Plateau)
  | placed (p : Plateau) (r : Rover)

namespace Stage

/-- The checks of line `k`. -/
def checks (k : ℕ) (line : List Char) : Stage → List (Check Stop)
  | .opening => plateauChecks k line
  | .driven p => roverChecks k line ++ placingChecks p (roverOf (k / 2) line)
  | .placed p r => letterChecks k line ++ moveChecks p r (commandsOf line)

/-- What a line `k` that passes leads to. -/
def next (k : ℕ) (line : List Char) : Stage → Stage
  | .opening => .driven ⟨"1", ⟨(cellOf line).x.toNat, (cellOf line).y.toNat⟩, []⟩
  | .driven p => .placed (p.register (roverOf (k / 2) line)) (roverOf (k / 2) line)
  | .placed p r => .driven (p.register (r.walk (commandsOf line)))

end Stage

theorem heading_isSome {s : List Char} :
    (Heading.ofChars? s).isSome ↔ s ∈ [['N'], ['E'], ['S'], ['W']] := by
  simp only [Heading.ofChars?, List.find?_isSome, decide_eq_true_eq]
  constructor
  · rintro ⟨h, -, rfl⟩
    cases h <;> simp [Heading.letter]
  · intro hs
    simp only [List.mem_cons, List.not_mem_nil, or_false] at hs
    rcases hs with rfl | rfl | rfl | rfl
    · exact ⟨.north, by simp [Heading.all], rfl⟩
    · exact ⟨.east, by simp [Heading.all], rfl⟩
    · exact ⟨.south, by simp [Heading.all], rfl⟩
    · exact ⟨.west, by simp [Heading.all], rfl⟩

theorem command_isSome {c : Char} : (Command.ofChar? c).isSome ↔ c ∈ ['L', 'R', 'M'] := by
  simp only [Command.ofChar?, List.find?_isSome, decide_eq_true_eq]
  constructor
  · rintro ⟨k, -, rfl⟩
    cases k <;> simp [Command.letter]
  · intro hc
    simp only [List.mem_cons, List.not_mem_nil, or_false] at hc
    rcases hc with rfl | rfl | rfl
    · exact ⟨.left, by simp [Command.all], rfl⟩
    · exact ⟨.right, by simp [Command.all], rfl⟩
    · exact ⟨.move, by simp [Command.all], rfl⟩

theorem decides_read (w : List Char) :
    Check.Decides [digitsCheck w] (Literal.number? w) ((Literal.read w).mapError Stop.limit) := by
  refine .cons (fun h => ?_) fun h => ?_
  · rw [Literal.read_short h]
    exact .nil _
  · rw [Literal.read_long (Nat.not_le.mp h)]
    rfl

/-- Two words within the digit limit are literals if they have numbers. -/
theorem two_literals {a b : List Char} (ha : Literal.decimalDigits a ≤ digitLimit)
    (hb : Literal.decimalDigits b ≤ digitLimit) :
    (∀ w ∈ [a, b], (Literal.ofChars? w).isSome) ↔
      ∃ x y, Literal.number? a = some x ∧ Literal.number? b = some y := by
  rw [← exists_and_exists_comm, ← Option.isSome_iff_exists, ← Option.isSome_iff_exists,
    Literal.number?_isSome ha, Literal.number?_isSome hb]
  simp

/-- Words with numbers are whole if their numbers are. -/
theorem two_whole {a b : List Char} {x y : Value} (hx : Literal.number? a = some x)
    (hy : Literal.number? b = some y) :
    (∀ w ∈ [a, b], (Literal.whole? w).isSome) ↔
      ∃ m n, x.whole? = some m ∧ y.whole? = some n := by
  rw [← exists_and_exists_comm, ← Option.isSome_iff_exists, ← Option.isSome_iff_exists]
  simp [Literal.whole?, hx, hy]

/-- Two words are read one after the other; after both it is judged whether they are literals. -/
theorem decides_literals {α : Type} {a b : List Char} {flaw : Stop} {cs : List (Check Stop)} {v : α}
    {f : Value → Value → Except Stop α} (h : ∀ x y, Literal.number? a = some x →
      Literal.number? b = some y → Check.Decides cs v (f x y)) :
    Check.Decides
      ([a, b].map digitsCheck ++ ⟨∀ w ∈ [a, b], (Literal.ofChars? w).isSome, flaw⟩ :: cs) v
      (do
        let x ← (Literal.read a).mapError Stop.limit
        let y ← (Literal.read b).mapError Stop.limit
        match x, y with
        | some x, some y => f x y
        | _, _ => throw flaw) := by
  refine (decides_read a).bind fun ha => (decides_read b).bind fun hb => ?_
  have ha' : Literal.decimalDigits a ≤ digitLimit := ha (digitsCheck a) (by simp)
  have hb' : Literal.decimalDigits b ≤ digitLimit := hb (digitsCheck b) (by simp)
  refine .cons (fun hl => ?_) fun hl => ?_
  · obtain ⟨x, y, hx, hy⟩ := (two_literals ha' hb').mp hl
    simp only [hx, hy]
    exact h x y hx hy
  · split
    · next x y hx hy => exact absurd ((two_literals ha' hb').mpr ⟨x, y, hx, hy⟩) hl
    · rfl

section Numbers
variable {line a b : List Char} {rest : List (List Char)} {x y : Value}
  (hw : Text.words line = a :: b :: rest) (hx : Literal.number? a = some x)
  (hy : Literal.number? b = some y)
include hw hx hy

theorem cellOf_words {m n : ℤ} (hm : x.whole? = some m) (hn : y.whole? = some n) :
    cellOf line = ⟨m, n⟩ := by
  simp [cellOf, hw, Literal.whole?, hx, hy, hm, hn]

/-- Two numbers must be whole, and then not negative. -/
theorem decides_whole {α : Type} {notWhole negative : Refusal} (f : ℤ → ℤ → α) :
    Check.Decides [⟨∀ w ∈ [a, b], (Literal.whole? w).isSome, .refused notWhole⟩,
        ⟨0 ≤ (cellOf line).x ∧ 0 ≤ (cellOf line).y, .refused negative⟩]
      (f (cellOf line).x (cellOf line).y)
      (Except.mapError Stop.refused (match x.whole?, y.whole? with
        | some m, some n => if m < 0 ∨ n < 0 then .error negative else .ok (f m n)
        | _, _ => .error notWhole)) := by
  refine .cons (fun hn => ?_) fun hn => ?_
  · obtain ⟨m, n, hm, hn⟩ := (two_whole hx hy).mp hn
    simp only [hm, hn, cellOf_words hw hx hy hm hn]
    refine .cons (fun hp => ?_) fun hp => ?_
    · rw [if_neg (not_or.mpr ⟨not_lt.mpr hp.1, not_lt.mpr hp.2⟩)]
      exact .nil _
    · rw [if_pos ((not_and_or.mp hp).imp not_le.mp not_le.mp)]
      rfl
  · split
    · next m n hm hn' => exact absurd ((two_whole hx hy).mpr ⟨m, n, hm, hn'⟩) hn
    · rfl

end Numbers

theorem decides_readPlateau (k : ℕ) (line : List Char) :
    Check.Decides (plateauChecks k line)
      ⟨"1", ⟨(cellOf line).x.toNat, (cellOf line).y.toNat⟩, []⟩ (readPlateau k line) := by
  refine .cons (fun hne => .cons (fun hlen => ?_) fun hlen => ?_) fun hne => ?_
  · obtain ⟨a, b, hw⟩ := List.length_eq_two.mp hlen
    simp only [readPlateau, hw, List.isEmpty_iff, if_neg hne]
    exact decides_literals fun x y hx hy =>
      decides_whole hw hx hy fun m n => Plateau.mk "1" ⟨m.toNat, n.toNat⟩ []
  · simp only [readPlateau, List.isEmpty_iff, if_neg hne]
    split
    · next a b hw => exact absurd (by simp [hw]) hlen
    · rfl
  · simp [readPlateau, not_not.mp hne]

theorem decides_readRover (k : ℕ) (line : List Char) :
    Check.Decides (roverChecks k line) (roverOf (k / 2) line) (readRover k (k / 2) line) := by
  refine .cons (fun hne => .cons (fun hlen => ?_) fun hlen => ?_) fun hne => ?_
  · obtain ⟨a, b, c, hw⟩ := List.length_eq_three.mp hlen
    simp only [readRover, hw, List.isEmpty_iff, if_neg hne]
    refine decides_literals fun x y hx hy => .cons (fun hh => ?_) fun hh => ?_
    · obtain ⟨h, hh⟩ := Option.isSome_iff_exists.mp (heading_isSome.mpr (hh c (by simp)))
      have hd : headingOf line = h := by simp [headingOf, hw, hh]
      simp only [hh, roverOf, hd]
      exact (decides_whole hw hx hy Cell.mk).map fun cell => Rover.mk (toString (k / 2)) cell h
    · split
      · next h hh' =>
        refine absurd (fun w hw' => ?_) hh
        obtain rfl : w = c := by simpa using hw'
        exact heading_isSome.mp (by simp [hh'])
      · rfl
  · simp only [readRover, List.isEmpty_iff, if_neg hne]
    split
    · next a b c hw => exact absurd (by simp [hw]) hlen
    · rfl
  · simp [readRover, not_not.mp hne]

theorem decides_placing (p : Plateau) (r : Rover) :
    Check.Decides (placingChecks p r) () ((p.placing r).mapError Stop.ofFailure) := by
  simp only [Plateau.placing]
  refine .cons (fun hin => .cons (fun hfree => ?_) fun hfree => ?_) fun hin => ?_
  · have hocc : ¬ p.Occupied r.cell none := by
      rintro ⟨s, hs, -, hc⟩
      exact hfree s hs hc
    rw [if_neg (not_not.mpr hin), if_neg hocc]
    exact .nil _
  · have hocc : p.Occupied r.cell none := by
      by_contra h
      exact hfree fun s hs hc => h ⟨s, hs, by simp, hc⟩
    rw [if_neg (not_not.mpr hin), if_pos hocc, Except.mapError]
  · rw [if_pos hin, Except.mapError]

theorem decides_enter (k : ℕ) (p : Plateau) (line : List Char) :
    Check.Decides ((Stage.driven p).checks k line) (roverOf (k / 2) line)
      (enter k (k / 2) p line) := by
  refine (decides_readRover k line).bind fun _ => ?_
  exact (decides_placing p (roverOf (k / 2) line)).map fun _ => roverOf (k / 2) line

theorem decides_letters (k n : ℕ) (s : List Char) :
    Check.Decides (s.map fun c => ⟨c ∈ ['L', 'R', 'M'], .malformed k (.command n c)⟩)
      (s.filterMap Command.ofChar?) (s.mapM (readCommand k n)) := by
  induction s with
  | nil => exact .nil _
  | cons c rest ih =>
    rw [List.mapM_cons]
    refine .cons (fun hc => ?_) fun hc => ?_
    · obtain ⟨m, hm⟩ := Option.isSome_iff_exists.mp (command_isSome.mpr hc)
      have hread : readCommand k n c = .ok m := by simp [readCommand, hm]
      rw [hread, List.filterMap_cons_some hm]
      exact ih.map (m :: ·)
    · have hnone : Command.ofChar? c = none := by
        simpa using mt command_isSome.mp hc
      simp [readCommand, hnone, bind, Except.bind]

theorem decides_readCommands (k : ℕ) (line : List Char) :
    Check.Decides (letterChecks k line) (commandsOf line) (readCommands k (k / 2) line) := by
  simp only [letterChecks, readCommands, List.isEmpty_iff]
  refine .cons (fun hne => ?_) fun hne => ?_
  · rw [if_neg hne]
    exact decides_letters k (k / 2) (Text.upper line)
  · rw [if_pos (not_not.mp hne)]

theorem decides_run (p : Plateau) (r : Rover) (cs : List Command) :
    Check.Decides (moveChecks p r cs) (r.walk cs)
      ((r.run (some p) cs).mapError Stop.ofFailure) := by
  induction cs generalizing r with
  | nil => exact .nil _
  | cons c rest ih =>
    cases c with
    | left => exact ih (r.after .left)
    | right => exact ih (r.after .right)
    | move =>
      simp only [Rover.run, Rover.execute, Rover.move, Plateau.moving]
      refine .cons (fun hin => .cons (fun hfree => ?_) fun hfree => ?_) fun hin => ?_
      · have hocc : ¬ p.Occupied r.ahead (some r.id) := by
          rintro ⟨s, hs, hid, hc⟩
          exact hfree s hs (fun he => hid (congrArg some he)) hc
        rw [if_neg (not_not.mpr hin), if_neg hocc]
        exact ih (r.after .move)
      · have hocc : p.Occupied r.ahead (some r.id) := by
          by_contra h
          exact hfree fun s hs hid hc => h ⟨s, hs, fun he => hid (Option.some.inj he), hc⟩
        simp only [if_neg (not_not.mpr hin), if_pos hocc, bind, Except.bind, Except.mapError]
      · simp only [if_pos hin, bind, Except.bind, Except.mapError]

theorem decides_drive (k : ℕ) (p : Plateau) (r : Rover) (line : List Char) :
    Check.Decides ((Stage.placed p r).checks k line)
      (r.walk (commandsOf line), (commandsOf line).length) (drive k (k / 2) p r line) :=
  (decides_readCommands k line).bind fun _ =>
    (decides_run p r (commandsOf line)).map fun r' => (r', (commandsOf line).length)

@[simp] theorem ofFailure_ne_malformed (f : Failure) (k : ℕ) (flaw : Flaw) :
    Stop.ofFailure f ≠ .malformed k flaw := by
  cases f <;> simp [Stop.ofFailure]

section Malformed
variable {p : Plateau} {r : Rover} {c : Check Stop} (k : ℕ) (flaw : Flaw)

theorem placingChecks_error (hc : c ∈ placingChecks p r) : c.error ≠ .malformed k flaw := by
  simp only [placingChecks, List.mem_cons, List.not_mem_nil, or_false] at hc
  rcases hc with rfl | rfl <;> simp only [ne_eq, ofFailure_ne_malformed, not_false_eq_true]

theorem moveChecks_error {cs : List Command} (hc : c ∈ moveChecks p r cs) :
    c.error ≠ .malformed k flaw := by
  induction cs generalizing r with
  | nil => simp [moveChecks] at hc
  | cons d rest ih =>
    cases d with
    | left => exact ih hc
    | right => exact ih hc
    | move =>
      simp only [moveChecks, List.mem_cons] at hc
      rcases hc with rfl | rfl | hc
      · simp only [ne_eq, ofFailure_ne_malformed, not_false_eq_true]
      · simp only [ne_eq, ofFailure_ne_malformed, not_false_eq_true]
      · exact ih hc

end Malformed

/-- A line of bad form is reported with its own number. -/
theorem checks_malformed {s : Stage} {k m : ℕ} {line : List Char} {c : Check Stop}
    (hc : c ∈ s.checks k line) {flaw : Flaw} (he : c.error = .malformed m flaw) : m = k := by
  cases s with
  | opening =>
    simp only [Stage.checks, plateauChecks, List.mem_append, List.mem_cons, List.not_mem_nil,
      or_false, List.mem_map] at hc
    rcases hc with ((rfl | rfl) | ⟨w, -, rfl⟩) | rfl | rfl | rfl <;> cases he <;> rfl
  | driven p =>
    rcases List.mem_append.mp hc with hc | hc
    · simp only [roverChecks, List.mem_append, List.mem_cons, List.not_mem_nil, or_false,
        List.mem_map] at hc
      rcases hc with ((rfl | rfl) | ⟨w, -, rfl⟩) | rfl | rfl | rfl | rfl <;> cases he <;> rfl
    · exact absurd he (placingChecks_error _ _ hc)
  | placed p r =>
    simp only [Stage.checks, letterChecks, List.mem_append, List.mem_cons, List.mem_map] at hc
    rcases hc with (rfl | ⟨c, -, rfl⟩) | hc
    · cases he; rfl
    · cases he; rfl
    · exact absurd he (moveChecks_error _ _ hc)

end RoverFleet.Script
