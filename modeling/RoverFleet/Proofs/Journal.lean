import RoverFleet.Proofs.Alphabet
import RoverFleet.Proofs.Reprint

/-!
# The journal of a run

A run has one entry in its journal for each line that passes, in the order of the lines: the
plateau, each rover as it is placed, and each rover as it stands after its commands. A rover stays
where it is while the rovers after it are driven, so the last entries of the rovers show how the run
ends.
-/
namespace RoverFleet

theorem Text.upper_of_ascii {s : List Char} (h : ∀ c ∈ s, c.toNat < 128) :
    upper s = s.map Char.toUpper := by
  induction s with
  | nil => rfl
  | cons c rest ih =>
    rw [List.forall_mem_cons] at h
    rw [upper_cons, ih h.2, upperChar, if_pos h.1]
    rfl

namespace Script
open Text Plateau Numeric

namespace Entry

/-- What an entry says if its numbers can be written. -/
def text : Entry → String
  | .marked p => "Parsed plateau " ++ p.text
  | .placed r => "Added rover " ++ r.id ++ " at " ++ r.cell.text ++ " facing " ++ r.heading.text
  | .drove r commands =>
    "Rover " ++ r.id ++ " ran " ++ toString commands ++ " commands, ended at " ++ r.text

/-- The numbers of an entry are those of the bounds, or of a cell inside them. -/
def Within (b : Bounds) : Entry → Prop
  | .marked p => p.bounds = b
  | .placed r => b.Contains r.cell
  | .drove r _ => b.Contains r.cell

theorem message_of_within {b : Bounds} (hx : b.maxX < 10 ^ digitLimit)
    (hy : b.maxY < 10 ^ digitLimit) {e : Entry} (h : e.Within b) : e.message = .ok e.text := by
  cases e with
  | marked p =>
    obtain rfl : p.bounds = b := h
    have htext : p.text? = .ok p.text :=
      if_pos ⟨printable_natCast.mpr hx, printable_natCast.mpr hy⟩
    rw [message, htext]
    rfl
  | placed r =>
    rw [message, if_pos (printable_of_contains hx hy h)]
    rfl
  | drove r commands =>
    rw [message, text?_eq_ok hx hy h]
    rfl

end Entry

/-- The entry of a line `k` that passes. -/
def Stage.entry (k : ℕ) (line : List Char) : Stage → Entry
  | .opening => .marked ⟨"1", ⟨(cellOf line).x.toNat, (cellOf line).y.toNat⟩, []⟩
  | .driven _ => .placed (roverOf (k / 2) line)
  | .placed _ r => .drove (r.walk (commandsOf line)) line.length

/-- Every line passes its checks and has its entry, and together they lead to the stage. -/
inductive Recorded : List (List Char) → List Entry → Stage → Prop
  | nil : Recorded [] [] .opening
  | snoc {ls : List (List Char)} {es : List Entry} {s : Stage} {line : List Char}
      (before : Recorded ls es s) (pass : Check.Pass (s.checks (ls.length + 1) line)) :
      Recorded (ls ++ [line]) (es ++ [s.entry (ls.length + 1) line])
        (s.next (ls.length + 1) line)

namespace Recorded
variable {ls : List (List Char)} {es : List Entry} {s : Stage}

theorem passed (h : Recorded ls es s) : Passed ls s := by
  induction h with
  | nil => exact .nil
  | snoc before pass ih => exact ih.snoc pass

theorem length_eq (h : Recorded ls es s) : es.length = ls.length := by
  induction h with
  | nil => rfl
  | snoc before pass ih => simp [ih]

end Recorded

/-- A commands line has as many commands as characters. -/
theorem length_commandsOf {k : ℕ} {line : List Char} (h : Check.Pass (letterChecks k line)) :
    (commandsOf line).length = line.length := by
  have hread : readCommands k (k / 2) line = .ok (commandsOf line) :=
    (decides_readCommands k line).ok_iff.mpr ⟨h, rfl⟩
  have hall : ∀ c ∈ upper line, (Command.ofChar? c).isSome := fun c hc =>
    command_isSome.mpr (readCommands_ok hread c hc)
  rw [commandsOf, List.length_filterMap_eq_countP, List.countP_eq_length.mpr hall,
    upper_of_ascii (isCommandsLine_of_read hread).ascii, List.length_map]

section Pair
variable {p : Plateau} {r r' : Rover} {before : List (List Char)} {es : List Entry}
  {line : List Char} {n : ℕ}

theorem Recorded.enter (hb : Recorded before es (.driven p)) (hn : (before.length + 1) / 2 = n)
    (h : Script.enter (before.length + 1) n p line = .ok r) :
    Recorded (before ++ [line]) (es ++ [.placed r]) (.placed (p.register r) r) := by
  subst hn
  obtain ⟨hpass, rfl⟩ := (decides_enter (before.length + 1) p line).ok_iff.mp h
  exact hb.snoc hpass

theorem Recorded.drive (hb : Recorded before es (.placed (p.register r) r))
    (hn : (before.length + 1) / 2 = n) {count : ℕ}
    (h : Script.drive (before.length + 1) n (p.register r) r line = .ok (r', count)) :
    Recorded (before ++ [line]) (es ++ [.drove r' count]) (.driven (p.register r')) := by
  subst hn
  obtain ⟨hpass, hr⟩ := (decides_drive (before.length + 1) (p.register r) r line).ok_iff.mp h
  obtain ⟨rfl, rfl⟩ := Prod.mk.inj hr
  have hcount := length_commandsOf (Check.pass_append.mp hpass).1
  have hsnoc := hb.snoc hpass
  rwa [Stage.next, Plateau.register_register p (Rover.walk_id _ r).symm, Stage.entry,
    ← hcount] at hsnoc

end Pair

/-- The lines of a run are recorded: all of them if it succeeds, and else those before the one that
stops it. -/
inductive RecordedUpTo (ls : List (List Char)) (es : List Entry) (run : Run) : Prop
  | all {p : Plateau} {s : Stage} (hok : run.result = .ok p) (h : Recorded ls es s) :
      RecordedUpTo ls es run
  | before {done rest : List (List Char)} {s : Stage} {stop : Stop}
      (herr : run.result = .error stop) (hls : ls = done ++ rest) (h : Recorded done es s)
      (hline : run.line = done.length + 1) : RecordedUpTo ls es run

/-- What the run itself has written does not count. -/
theorem RecordedUpTo.congr {ls : List (List Char)} {es : List Entry} {run run' : Run}
    (h : RecordedUpTo ls es run) (hresult : run'.result = run.result)
    (hline : run'.line = run.line) : RecordedUpTo ls es run' := by
  cases h with
  | all hok h => exact .all (hresult.trans hok) h
  | before herr hls h hat => exact .before (hresult.trans herr) hls h (hline.trans hat)

section Step
variable {k n count : ℕ} {p : Plateau} {r r' : Rover} {stop : Stop} {position commands : List Char}
  {rest : List (List Char × List Char)}

theorem runRovers_of_enter_error (he : enter (k + 1) n p position = .error stop) :
    runRovers k n p ((position, commands) :: rest) = ⟨k + 1, [], .error stop⟩ := by
  simp only [runRovers, he]

theorem runRovers_of_drive_error (he : enter (k + 1) n p position = .ok r)
    (hd : drive (k + 2) n (p.register r) r commands = .error stop) :
    runRovers k n p ((position, commands) :: rest) = ⟨k + 2, [.placed r], .error stop⟩ := by
  simp only [runRovers, he, hd]

theorem runRovers_of_drive_ok (he : enter (k + 1) n p position = .ok r)
    (hd : drive (k + 2) n (p.register r) r commands = .ok (r', count)) :
    let run := runRovers (k + 2) (n + 1) (p.register r') rest
    runRovers k n p ((position, commands) :: rest) =
      ⟨run.line, .placed r :: .drove r' count :: run.journal, run.result⟩ := by
  simp only [runRovers, he, hd]

end Step

theorem runRovers_recorded {k n : ℕ} {p : Plateau} {before : List (List Char)} {es : List Entry}
    (hb : Recorded before es (.driven p)) (hk : before.length = k) (hn : k + 1 = 2 * n)
    (ps : List (List Char × List Char)) :
    RecordedUpTo (before ++ ps.flatMap fun pair => [pair.1, pair.2])
      (es ++ (runRovers k n p ps).journal) (runRovers k n p ps) := by
  -- what stands before the lines of these rovers has been recorded up to their plateau
  induction ps generalizing k n p before es with
  | nil => exact .all rfl (by simpa [runRovers] using hb)
  | cons pair rest ih =>
    obtain ⟨position, commands⟩ := pair
    subst hk
    rw [List.flatMap_cons]
    cases he : enter (before.length + 1) n p position with
    | error stop =>
      rw [runRovers_of_enter_error he]
      exact .before rfl rfl (by simpa using hb) rfl
    | ok r =>
      have hplaced := hb.enter (by omega) he
      have hlen : before.length + 2 = (before ++ [position]).length + 1 := by simp
      have hn' : ((before ++ [position]).length + 1) / 2 = n := by omega
      cases hd : drive (before.length + 2) n (p.register r) r commands with
      | error stop =>
        rw [runRovers_of_drive_error he hd]
        exact .before rfl (List.append_cons before position _) hplaced hlen
      | ok out =>
        obtain ⟨r', count⟩ := out
        have hdriven := hplaced.drive hn' (hlen ▸ hd :)
        rw [runRovers_of_drive_ok he hd]
        have hrest := ih (k := before.length + 2) (n := n + 1) hdriven (by simp) (by omega)
        simp only [List.append_assoc, List.singleton_append] at hrest
        exact hrest.congr rfl rfl

/-- A run records its lines up to the one that stops it. -/
theorem run_recorded (text : List Char) :
    RecordedUpTo (completed (lines text)) (run text).journal (run text) := by
  rw [run]
  cases hl : lines text with
  | nil => exact absurd hl (lines_ne_nil text)
  | cons first rest =>
    rw [completed_cons]
    cases hp : readPlateau 1 first with
    | error stop =>
      simp only [runLines, hp]
      exact .before rfl (List.nil_append _).symm .nil rfl
    | ok p =>
      obtain ⟨hpass, rfl⟩ := (decides_readPlateau 1 first).ok_iff.mp hp
      simp only [runLines, hp]
      exact (runRovers_recorded (Recorded.nil.snoc hpass) rfl rfl (pairs rest)).congr rfl rfl

section Inside
variable {b : Bounds}

/-- A walk that passes its checks ends inside the bounds. -/
theorem walk_inside {p : Plateau} {cs : List Command} {r : Rover}
    (h : Check.Pass (moveChecks p r cs)) (hr : p.bounds.Contains r.cell) :
    p.bounds.Contains (r.walk cs).cell := by
  induction cs generalizing r with
  | nil => exact hr
  | cons c rest ih =>
    cases c with
    | left => exact ih (r := r.after .left) h hr
    | right => exact ih (r := r.after .right) h hr
    | move =>
      obtain ⟨hin, h⟩ := Check.pass_cons.mp h
      exact ih (Check.pass_cons.mp h).2 hin

/-- The bounds that a plateau line names. -/
def boundsOf (line : List Char) : Bounds := ⟨(cellOf line).x.toNat, (cellOf line).y.toNat⟩

/-- The plateau of a stage has the bounds, and a rover that was placed last stands inside. -/
def Stage.Inside (b : Bounds) : Stage → Prop
  | .opening => False
  | .driven p => p.bounds = b
  | .placed p r => p.bounds = b ∧ b.Contains r.cell

theorem Stage.Inside.next {s : Stage} (hs : s.Inside b) {k : ℕ} {line : List Char}
    (h : Check.Pass (s.checks k line)) :
    (s.next k line).Inside b ∧ (s.entry k line).Within b := by
  cases s with
  | opening => exact hs.elim
  | driven p =>
    obtain rfl : p.bounds = b := hs
    obtain ⟨-, hplacing⟩ := Check.pass_append.mp h
    have hin : p.bounds.Contains (roverOf (k / 2) line).cell := (Check.pass_cons.mp hplacing).1
    exact ⟨⟨rfl, hin⟩, hin⟩
  | placed p r =>
    obtain ⟨rfl, hr⟩ := hs
    exact ⟨rfl, walk_inside (Check.pass_append.mp h).2 hr⟩

/-- The numbers of all entries are those of the plateau line, or of cells inside its bounds. -/
theorem Recorded.within {ls : List (List Char)} {es : List Entry} {s : Stage}
    (h : Recorded ls es s) :
    (s = .opening ∧ ls = [] ∧ es = []) ∨
      ∃ first ∈ ls.head?, s.Inside (boundsOf first) ∧ ∀ e ∈ es, e.Within (boundsOf first) := by
  induction h with
  | nil => exact Or.inl ⟨rfl, rfl, rfl⟩
  | @snoc ls es s line before pass ih =>
    right
    rcases ih with ⟨rfl, rfl, rfl⟩ | ⟨first, hfirst, hs, hes⟩
    · exact ⟨line, rfl, rfl, by simp [Stage.entry, Entry.Within, boundsOf]⟩
    · obtain ⟨hnext, hentry⟩ := hs.next pass
      refine ⟨first, by simp [List.head?_append, Option.mem_def.mp hfirst], hnext, ?_⟩
      intro e he
      rcases List.mem_append.mp he with he | he
      · exact hes e he
      · exact List.mem_singleton.mp he ▸ hentry

end Inside

/-- Each of the rovers as its position line places it, and as it is after its commands line. -/
def entriesOf (rs : List Rover) (ps : List (List Char × List Char)) : List Entry :=
  (rs.zip ps).flatMap fun e =>
    [.placed ⟨e.1.id, cellOf e.2.1, headingOf e.2.1⟩, .drove e.1 e.2.2.length]

theorem length_entriesOf {rs : List Rover} {ps : List (List Char × List Char)}
    (h : rs.length = ps.length) : (entriesOf rs ps).length = 2 * rs.length := by
  simp [entriesOf, h, Nat.mul_comm]

/-- Rovers that come later leave a rover as its entry shows it. -/
theorem runRovers_entries {k n : ℕ} {p q : Plateau} (hp : p.Orderly)
    (hn : n = p.rovers.length + 1) (hk : k + 1 = 2 * n) {ps : List (List Char × List Char)}
    (h : (runRovers k n p ps).result = .ok q) :
    ∃ rs, q.rovers = p.rovers ++ rs ∧ rs.length = ps.length ∧
      (runRovers k n p ps).journal = entriesOf rs ps := by
  induction ps generalizing k n p with
  | nil =>
    cases h
    exact ⟨[], by simp [runRovers, entriesOf]⟩
  | cons pair rest ih =>
    obtain ⟨position, commands⟩ := pair
    obtain ⟨r, cs, hr, hcs, hclear, hrest⟩ := (runRovers_cons_iff_clear hp hn).mp h
    obtain ⟨henter, hrun⟩ := (enter_run_iff_clear hp hn hr cs).mpr ⟨hclear, rfl⟩
    obtain ⟨ho, hput, hnext⟩ := register_next hp hn hr hclear
    obtain ⟨rs, hrs, hlen, hjournal⟩ := ih ho hnext (by omega) hrest
    have hdrive := drive_ok_iff.mpr ⟨cs, hcs, hrun, rfl⟩
    refine ⟨r.walk cs :: rs, by simp [hrs, hput], by simp [hlen], ?_⟩
    have hplaced : (⟨r.id, cellOf position, headingOf position⟩ : Rover) = r := by
      obtain rfl : (k + 1) / 2 = n := by omega
      obtain ⟨-, hread⟩ := (decides_readRover (k + 1) position).ok_iff.mp hr
      rw [← hread]
      rfl
    have hcount : cs.length = commands.length := by
      obtain rfl : (k + 2) / 2 = n := by omega
      obtain ⟨hpass, rfl⟩ := (decides_readCommands (k + 2) commands).ok_iff.mp hcs
      exact length_commandsOf hpass
    rw [runRovers_of_drive_ok henter hdrive]
    simp [hjournal, entriesOf, hplaced, hcount]

theorem run_entries {text : List Char} {p : Plateau} (h : (run text).result = .ok p) :
    ∃ first ps, lines text = first :: ps.flatMap (fun pair => [pair.1, pair.2]) ∧
      ps.length = p.rovers.length ∧
      (run text).journal = .marked ⟨"1", p.bounds, []⟩ :: entriesOf p.rovers ps := by
  obtain ⟨first, rest, start, hl, hstart, hrun⟩ := run_ok_iff.mp h
  obtain ⟨ho, hnone⟩ := start_orderly hstart
  obtain ⟨hlen, heven⟩ := rovers_length hstart hrun
  obtain ⟨rs, hrs, -, hjournal⟩ := runRovers_entries ho (by simp [hnone]) rfl hrun
  obtain ⟨b, rfl⟩ := readPlateau_empty hstart
  obtain rfl : p.rovers = rs := by simpa using hrs
  refine ⟨first, pairs rest, ?_, hlen, ?_⟩
  · rw [hl, flatMap_pairs, if_pos (by omega)]
  · rw [run, hl, (runRovers_lines hrun).1]
    simp [runLines, hstart, hjournal]

theorem head_completed {ls : List (List Char)} (h : ls ≠ []) : (completed ls).head? = ls.head? := by
  unfold completed
  split
  · rw [List.head?_append, List.head?_eq_some_head h, Option.some_or]
  · rfl

/-- The entries of a run can be written if the bounds that its first line names can. -/
theorem Recorded.message {text : List Char} {done rest : List (List Char)} {es : List Entry}
    {s : Stage} (h : Recorded done es s) (hlines : completed (lines text) = done ++ rest)
    (hb : ∀ first ∈ (lines text).head?,
      (boundsOf first).maxX < 10 ^ digitLimit ∧ (boundsOf first).maxY < 10 ^ digitLimit) :
    ∀ e ∈ es, e.message = .ok e.text := by
  rcases h.within with ⟨-, -, rfl⟩ | ⟨first, hfirst, -, hes⟩
  · simp
  · have hhead : first ∈ (lines text).head? := by
      rw [← head_completed (lines_ne_nil text), hlines, List.head?_append,
        Option.mem_def.mp hfirst]
      rfl
    obtain ⟨hx, hy⟩ := hb first hhead
    exact fun e he => Entry.message_of_within hx hy (hes e he)

/-- Of a text whose first line names bounds within the digit limit, each line before the one at
which the run stops has its entry, in the order of the lines, and every entry can be written. So a
run that fails at line `k` has `k - 1` entries. A run that succeeds has one for the plateau and two
for each rover: the rover as its position line places it, and as it is on the plateau in the end,
with as many commands as its commands line has characters. -/
theorem run_journal (text : List Char) (hb : ∀ first ∈ (lines text).head?,
      (boundsOf first).maxX < 10 ^ digitLimit ∧ (boundsOf first).maxY < 10 ^ digitLimit) :
    let run := run text
    (∃ done rest s, completed (lines text) = done ++ rest ∧ Recorded done run.journal s ∧
      (∀ p, run.result = .ok p → rest = [] ∧ s = .driven p) ∧
      ∀ stop, run.result = .error stop →
        run.line = done.length + 1 ∧ FailsAt (completed (lines text)) run.line stop) ∧
    (∀ e ∈ run.journal, e.message = .ok e.text) ∧
    (∀ p, run.result = .ok p → run.journal.length = 1 + 2 * p.rovers.length ∧
      ∃ first ps, lines text = first :: ps.flatMap (fun pair => [pair.1, pair.2]) ∧
        ps.length = p.rovers.length ∧
        run.journal = .marked ⟨"1", p.bounds, []⟩ :: entriesOf p.rovers ps) ∧
    ∀ stop n, run.result = .error stop →
      (run.line = 2 * n → run.journal.length = 2 * n - 1) ∧
      (run.line = 2 * n + 1 → run.journal.length = 2 * n) := by
  intro run
  have hjudged := run_judged text
  have hsuccess : ∀ p, run.result = .ok p → run.journal.length = 1 + 2 * p.rovers.length ∧
      ∃ first ps, lines text = first :: ps.flatMap (fun pair => [pair.1, pair.2]) ∧
        ps.length = p.rovers.length ∧
        run.journal = .marked ⟨"1", p.bounds, []⟩ :: entriesOf p.rovers ps := by
    intro p hp
    obtain ⟨first, ps, hl, hlen, hjournal⟩ := run_entries hp
    refine ⟨?_, first, ps, hl, hlen, hjournal⟩
    rw [hjournal, List.length_cons, length_entriesOf hlen.symm, Nat.add_comm]
  cases run_recorded text with
  | all hok h =>
    refine ⟨⟨_, [], _, (List.append_nil _).symm, h, ?_, ?_⟩,
      h.message (List.append_nil _).symm hb, hsuccess, ?_⟩
    · intro p hp
      exact ⟨rfl, h.passed.unique ((hjudged.ok_iff p).mp hp)⟩
    · intro stop herr
      cases hok.symm.trans herr
    · intro stop n herr
      cases hok.symm.trans herr
  | before herr hls h hline =>
    refine ⟨⟨_, _, _, hls, h, ?_, ?_⟩, h.message hls hb, hsuccess, ?_⟩
    · intro p hp
      cases herr.symm.trans hp
    · intro stop hstop
      exact ⟨hline, (hjudged.error_iff run.line stop).mp ⟨hstop, rfl⟩⟩
    · intro stop n _
      have hlength : run.journal.length = _ := h.length_eq
      have hat : run.line = _ := hline
      constructor
      · intro hn
        omega
      · intro hn
        omega

/-- The second rover leaves the plateau: the journal tells where it was placed, but not of a run of
its commands. -/
theorem run_journal_moved_outside :
    let text := "5 5\n1 2 N\nMrm\n3 5 N\nLRM".toList
    (∀ first ∈ (lines text).head?,
      (boundsOf first).maxX < 10 ^ digitLimit ∧ (boundsOf first).maxY < 10 ^ digitLimit) ∧
    (run text).result = .error (.refused (.movedOutside "2" ⟨3, 6⟩ ⟨5, 5⟩)) ∧
    (run text).line = 2 * 2 + 1 ∧ (run text).journal.length = 2 * 2 ∧
    (run text).journal.map (·.message.toOption) = (run text).journal.map (some ·.text) := by
  intro text
  have hfive : 5 < 10 ^ digitLimit := calc
    5 < 10 ^ 1 := by decide
    _ ≤ 10 ^ digitLimit := Nat.pow_le_pow_right (by decide) (by decide)
  have hb : ∀ first ∈ (lines text).head?,
      (boundsOf first).maxX < 10 ^ digitLimit ∧ (boundsOf first).maxY < 10 ^ digitLimit := by
    intro first hfirst
    obtain rfl : "5 5".toList = first := Option.some.inj hfirst
    have hbounds : boundsOf "5 5".toList = ⟨5, 5⟩ := by decide +kernel
    rw [hbounds]
    exact ⟨hfive, hfive⟩
  have hresult : (run text).result = .error (.refused (.movedOutside "2" ⟨3, 6⟩ ⟨5, 5⟩)) := by
    decide +kernel
  have hline : (run text).line = 2 * 2 + 1 := by decide +kernel
  obtain ⟨-, hmessage, -, hlength⟩ := run_journal text hb
  refine ⟨hb, hresult, hline, (hlength _ 2 hresult).2 hline, ?_⟩
  exact List.map_congr_left fun e he => by rw [hmessage e he]; rfl

end Script

end RoverFleet
