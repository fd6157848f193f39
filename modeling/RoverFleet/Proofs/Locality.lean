import RoverFleet.Proofs.Judgement
import RoverFleet.Proofs.Trail

/-!
# Later lines have no influence on earlier ones

A parse that stops at a line stops there in the same way whatever lines follow. A parse that
succeeds goes on, when lines are added, to rovers that leave those before them as they are.
-/
namespace RoverFleet.Script

theorem checks_ne_nil {s : Stage} {k : ℕ} {line : List Char} (h : Check.Pass (s.checks k line)) :
    line ≠ [] := by
  cases s with
  | opening => exact h ⟨line ≠ [], .malformed k .noPlateau⟩ (by simp [Stage.checks, plateauChecks])
  | driven p =>
    exact h ⟨line ≠ [], .malformed k (.noPosition (k / 2))⟩ (by simp [Stage.checks, roverChecks])
  | placed p r =>
    exact h ⟨line ≠ [], .malformed k (.noCommands (k / 2))⟩ (by simp [Stage.checks, letterChecks])

theorem Passed.ne_nil {ls : List (List Char)} {t : Stage} (h : Passed ls t) : ∀ l ∈ ls, l ≠ [] := by
  intro l hl
  obtain ⟨before, rest, rfl⟩ := List.append_of_mem hl
  obtain ⟨s, -, hpass⟩ := h.line
  exact checks_ne_nil hpass

/-- Scripts that pass have no line missing. -/
theorem Passed.completed {ls : List (List Char)} {t : Stage} (h : Passed (completed ls) t) :
    completed ls = ls := by
  by_cases heven : ls.length % 2 = 0
  · have hmem : [] ∈ Script.completed ls := by simp [Script.completed, heven]
    exact absurd rfl (h.ne_nil [] hmem)
  · simp [Script.completed, heven]

theorem completed_take {ls : List (List Char)} {k : ℕ} (hk : k ≤ ls.length) :
    (completed ls).take k = ls.take k := by
  unfold completed
  split
  · exact List.take_append_of_le_length hk
  · rfl

theorem completed_append (ls ms : List (List Char)) :
    ∃ more, completed (ls ++ ms) = ls ++ more := by
  unfold completed
  split
  · exact ⟨ms ++ [[]], by simp⟩
  · exact ⟨ms, rfl⟩

/-- A failure depends on no line after it. -/
theorem FailsAt.of_take_eq {ls ms : List (List Char)} {k : ℕ} {stop : Stop} (h : FailsAt ls k stop)
    (he : ms.take k = ls.take k) : FailsAt ms k stop := by
  obtain ⟨before, line, rest, s, rfl, rfl, hs, hfail⟩ := h
  have htake : (before ++ line :: rest).take (before.length + 1) = before ++ [line] := by
    simp [List.take_append]
  have hms : ms = before ++ line :: ms.drop (before.length + 1) := by
    calc ms = ms.take (before.length + 1) ++ ms.drop (before.length + 1) :=
          (List.take_append_drop _ _).symm
      _ = before ++ line :: ms.drop (before.length + 1) := by rw [he, htake]; simp
  exact ⟨before, line, ms.drop (before.length + 1), s, hms, rfl, hs, hfail⟩

/-- What follows lines that pass fails behind them. -/
theorem FailsAt.lt_of_passed {ls more : List (List Char)} {k : ℕ} {stop : Stop} {t : Stage}
    (h : FailsAt (ls ++ more) k stop) (hp : Passed ls t) : ls.length < k := by
  by_contra hk
  have htake : ls.take k = (ls ++ more).take k :=
    (List.take_append_of_le_length (not_lt.mp hk)).symm
  exact (h.of_take_eq htake).not_passed t hp

theorem pairs_append {ls : List (List Char)} (h : ls.length % 2 = 0) (ms : List (List Char)) :
    pairs (ls ++ ms) = pairs ls ++ pairs ms := by
  fun_induction pairs ls with
  | case1 => rfl
  | case2 position => simp at h
  | case3 position commands rest ih =>
    have hrest : rest.length % 2 = 0 := by
      simp only [List.length_cons] at h
      omega
    simp [pairs, ih hrest]

/-- A script that succeeds is its plateau line and the lines of its rovers in pairs. -/
theorem run_ok_iff {text : List Char} {p : Plateau} :
    (run text).result = .ok p ↔ ∃ first rest start, lines text = first :: rest ∧
      readPlateau 1 first = .ok start ∧ (runRovers 1 1 start (pairs rest)).result = .ok p := by
  rw [run]
  cases hl : lines text with
  | nil => simp [runLines]
  | cons first rest =>
    cases hp : readPlateau 1 first with
    | error stop =>
      simp only [runLines, hp, reduceCtorEq, false_iff]
      rintro ⟨first', rest', start, he, hs, -⟩
      obtain ⟨rfl, rfl⟩ := List.cons.inj he
      cases hp.symm.trans hs
    | ok start =>
      simp only [runLines, hp]
      constructor
      · intro h
        exact ⟨first, rest, start, rfl, hp, h⟩
      · rintro ⟨first', rest', start', he, hs, h⟩
        obtain ⟨rfl, rfl⟩ := List.cons.inj he
        cases hp.symm.trans hs
        exact h

theorem start_orderly {k : ℕ} {line : List Char} {p : Plateau} (h : readPlateau k line = .ok p) :
    p.Orderly ∧ p.rovers = [] := by
  obtain ⟨b, rfl⟩ := readPlateau_empty h
  exact ⟨Plateau.Orderly.empty "1" b, rfl⟩

/-- A script that succeeds has two lines for each rover. -/
theorem rovers_length {first : List Char} {rest : List (List Char)} {start p : Plateau}
    (hstart : readPlateau 1 first = .ok start)
    (hrun : (runRovers 1 1 start (pairs rest)).result = .ok p) :
    (pairs rest).length = p.rovers.length ∧ rest.length = 2 * p.rovers.length := by
  obtain ⟨ho, hempty⟩ := start_orderly hstart
  obtain ⟨hlen, hne⟩ := runRovers_length ho (by simp [hempty]) hrun
  rw [hempty, List.length_nil, Nat.zero_add] at hlen
  exact ⟨hlen.symm, by rw [length_of_pairs hne, hlen]⟩

section Extended
variable {text text' : List Char} {p p' : Plateau} (h : (run text).result = .ok p)
include h

theorem passed_lines : Passed (lines text) (.driven p) := by
  have hp := ((run_judged text).ok_iff p).mp h
  rwa [hp.completed] at hp

theorem lines_length : (lines text).length = 2 * p.rovers.length + 1 := by
  obtain ⟨first, rest, start, hl, hstart, hrun⟩ := run_ok_iff.mp h
  rw [hl, List.length_cons, (rovers_length hstart hrun).2]

/-- Where lines are added to a script that succeeds, no rover of it is disturbed. -/
theorem rovers_prefix (hl : lines text <+: lines text') (h' : (run text').result = .ok p') :
    p.rovers <+: p'.rovers := by
  obtain ⟨first, rest, start, hlines, hstart, hrun⟩ := run_ok_iff.mp h
  obtain ⟨first', rest', start', hlines', hstart', hrun'⟩ := run_ok_iff.mp h'
  obtain ⟨more, hmore⟩ := hl
  rw [hlines, hlines', List.cons_append] at hmore
  obtain ⟨rfl, rfl⟩ := List.cons.inj hmore
  cases hstart.symm.trans hstart'
  obtain ⟨hpairs, hlen⟩ := rovers_length hstart hrun
  rw [pairs_append (by omega), runRovers_append_ok_iff] at hrun'
  obtain ⟨m, hm, hq⟩ := hrun'
  cases hrun.symm.trans hm
  have hn : 1 + (pairs rest).length = p.rovers.length + 1 := by omega
  obtain ⟨rs, hrs⟩ := runRovers_extends (run_orderly h).1 hn hq
  exact ⟨rs, hrs.symm⟩

theorem line_of_error (hl : lines text <+: lines text') {stop : Stop}
    (h' : (run text').result = .error stop) : 2 * p.rovers.length + 1 < (run text').line := by
  obtain ⟨more, hmore⟩ := hl
  obtain ⟨more', hmore'⟩ := completed_append (lines text) more
  have hfail := ((run_judged text').error_iff (run text').line stop).mp ⟨h', rfl⟩
  rw [← hmore, hmore'] at hfail
  have hlt := hfail.lt_of_passed (passed_lines h)
  rwa [lines_length h] at hlt

end Extended

/-- Two texts are parsed, by parsers that have parsed anything before. If one parse stops at line
`k`, and the texts have the same first `k` lines, the other stops there with the same error. If one
parse succeeds, and the other text has all its lines in front, the other parse keeps its rovers with
their ids and poses, or stops behind its lines. -/
theorem parse_local (q q' : Parser) (text text' : List Char) :
    (∀ k stop, (q.parse text).2 = .error stop → (q.parse text).1.line = k →
      k ≤ (lines text).length → k ≤ (lines text').length →
      (lines text).take k = (lines text').take k →
        (q'.parse text').2 = .error stop ∧ (q'.parse text').1.line = k) ∧
    ∀ p, (q.parse text).2 = .ok p → lines text <+: lines text' →
      (∃ p', (q'.parse text').2 = .ok p' ∧ p.rovers <+: p'.rovers) ∨
        ∃ stop, (q'.parse text').2 = .error stop ∧
          2 * p.rovers.length + 1 < (q'.parse text').1.line := by
  constructor
  · intro k stop herror hline hk hk' htake
    have hfail := ((run_judged text).error_iff k stop).mp ⟨herror, hline⟩
    have hsame : (completed (lines text')).take k = (completed (lines text)).take k := by
      rw [completed_take hk, completed_take hk', htake]
    exact ((run_judged text').error_iff k stop).mpr (hfail.of_take_eq hsame)
  · intro p hok hl
    cases h' : (run text').result with
    | ok p' => exact Or.inl ⟨p', h', rovers_prefix hok hl h'⟩
    | error stop => exact Or.inr ⟨stop, h', line_of_error hok hl h'⟩

/-- The second rover of the longer script runs against the first, at line 5. -/
theorem parse_local_collision :
    let text := "5 5\n1 2 N\nMRM".toList
    let longer := "5 5\n1 2 N\nMRM\n1 3 E\nM\n9 9 N\nM".toList
    let other := "5 5\n1 2 N\nMRM\n1 3 E\nM".toList
    let p : Plateau := ⟨"1", ⟨5, 5⟩, [⟨"1", ⟨2, 3⟩, .east⟩]⟩
    let stop := Stop.refused (.movedOnRover "2" ⟨2, 3⟩)
    (Parser.new.parse text).2 = .ok p ∧ lines text <+: lines longer ∧
      (∃ stop, (Parser.new.parse longer).2 = .error stop ∧
        2 * 1 + 1 < (Parser.new.parse longer).1.line) ∧
      (Parser.new.parse other).2 = .error stop ∧ (Parser.new.parse other).1.line = 5 := by
  intro text longer other p stop
  have hok : (Parser.new.parse text).2 = .ok p := by rfl
  have herror : (Parser.new.parse longer).2 = .error stop := by decide +kernel
  have hprefix : lines text <+: lines longer := by decide
  have hlater := (parse_local .new .new text longer).2 p hok hprefix
  have hline : (Parser.new.parse longer).1.line = 5 := by decide +kernel
  have htake : (lines longer).take 5 = (lines other).take 5 := by decide
  have hsame :=
    (parse_local .new .new longer other).1 5 stop herror hline (by decide) (by decide) htake
  refine ⟨hok, hprefix, ?_, hsame⟩
  rcases hlater with ⟨p', hp', -⟩ | hlater
  · cases hp'.symm.trans herror
  · exact hlater

end RoverFleet.Script
