import RoverFleet.Proofs.Law
import RoverFleet.Proofs.Layout

/-!
# The judgement of scripts

A script is judged line by line. It succeeds if every line passes its checks; else it stops at the
first line that does not, with the error of the first check of that line that fails.
-/
namespace RoverFleet.Script
open Numeric

/-- Every line passes its checks, and together they lead to the stage. -/
inductive Passed : List (List Char) → Stage → Prop
  | nil : Passed [] .opening
  | snoc {ls : List (List Char)} {s : Stage} {line : List Char} (before : Passed ls s)
      (pass : Check.Pass (s.checks (ls.length + 1) line)) :
      Passed (ls ++ [line]) (s.next (ls.length + 1) line)

/-- A commands line that is missing at the end counts as an empty line. -/
def completed (ls : List (List Char)) : List (List Char) :=
  if ls.length % 2 = 0 then ls ++ [[]] else ls

theorem Passed.snoc_inv {ls : List (List Char)} {line : List Char} {t : Stage}
    (h : Passed (ls ++ [line]) t) :
    ∃ s, Passed ls s ∧ Check.Pass (s.checks (ls.length + 1) line) ∧
      t = s.next (ls.length + 1) line := by
  generalize hl : ls ++ [line] = ms at h
  cases h with
  | nil => simp at hl
  | snoc before pass =>
    obtain ⟨rfl, h⟩ := List.append_inj' hl rfl
    obtain rfl := List.singleton_inj.mp h
    exact ⟨_, before, pass, rfl⟩

theorem Passed.unique {ls : List (List Char)} {s t : Stage} (hs : Passed ls s)
    (ht : Passed ls t) : s = t := by
  induction hs generalizing t with
  | nil =>
    generalize hl : ([] : List (List Char)) = ms at ht
    cases ht with
    | nil => rfl
    | snoc => simp at hl
  | snoc before pass ih =>
    obtain ⟨s', hs', -, rfl⟩ := ht.snoc_inv
    rw [ih hs']

/-- Each line of lines that pass has passed its own checks. -/
theorem Passed.line {before rest : List (List Char)} {line : List Char} {t : Stage}
    (h : Passed (before ++ line :: rest) t) :
    ∃ s, Passed before s ∧ Check.Pass (s.checks (before.length + 1) line) := by
  induction rest using List.reverseRecOn generalizing t with
  | nil =>
    obtain ⟨s, hs, hp, -⟩ := h.snoc_inv
    exact ⟨s, hs, hp⟩
  | append_singleton rest last ih =>
    rw [← List.cons_append, ← List.append_assoc] at h
    obtain ⟨s, hs, -, -⟩ := h.snoc_inv
    exact ih hs

/-- Line `k` is the first that does not pass, and its first check that fails has the error. -/
def FailsAt (ls : List (List Char)) (k : ℕ) (stop : Stop) : Prop :=
  ∃ before line rest s, ls = before ++ line :: rest ∧ k = before.length + 1 ∧
    Passed before s ∧ Check.Fail (s.checks k line) stop

theorem FailsAt.not_passed {ls : List (List Char)} {k : ℕ} {stop : Stop} (h : FailsAt ls k stop)
    (t : Stage) : ¬ Passed ls t := by
  obtain ⟨before, line, rest, s, rfl, rfl, hs, hf⟩ := h
  intro hp
  obtain ⟨s', hs', hp'⟩ := hp.line
  rw [hs.unique hs'] at hf
  exact hf.not_pass hp'

/-- No line after the first that fails fails too. -/
theorem FailsAt.not_later {before rest : List (List Char)} {line : List Char} {k : ℕ} {stop : Stop}
    (h : FailsAt (before ++ [line]) k stop) (t : Stage) : ¬ Passed (before ++ line :: rest) t := by
  intro hp
  obtain ⟨s, hs, hpass⟩ := hp.line
  exact h.not_passed _ (hs.snoc hpass)

theorem FailsAt.unique {ls : List (List Char)} {k m : ℕ} {stop halt : Stop}
    (h : FailsAt ls k stop) (g : FailsAt ls m halt) : k = m ∧ stop = halt := by
  obtain ⟨before, line, rest, s, hls, rfl, hs, hf⟩ := h
  obtain ⟨before', line', rest', s', hls', rfl, hs', hf'⟩ := g
  have hfails : FailsAt (before ++ [line]) _ stop := ⟨before, line, [], s, rfl, rfl, hs, hf⟩
  have hfails' : FailsAt (before' ++ [line']) _ halt := ⟨before', line', [], s', rfl, rfl, hs', hf'⟩
  rcases List.append_eq_append_iff.mp (hls.symm.trans hls') with ⟨as, hb, hr⟩ | ⟨as, hb, hr⟩
  · cases as with
    | nil =>
      obtain rfl : before' = before := by simpa using hb
      obtain ⟨rfl, -⟩ := List.cons.inj hr
      obtain rfl := hs.unique hs'
      exact ⟨rfl, hf.unique hf'⟩
    | cons a as =>
      obtain ⟨rfl, -⟩ := List.cons.inj hr
      exact absurd (hb ▸ hs') (hfails.not_later s')
  · cases as with
    | nil =>
      obtain rfl : before = before' := by simpa using hb
      obtain ⟨rfl, -⟩ := List.cons.inj hr
      obtain rfl := hs.unique hs'
      exact ⟨rfl, hf.unique hf'⟩
    | cons a as =>
      obtain ⟨rfl, -⟩ := List.cons.inj hr
      exact absurd (hb ▸ hs) (hfails'.not_later s)

theorem FailsAt.malformed {ls : List (List Char)} {k m : ℕ} {flaw : Flaw}
    (h : FailsAt ls k (.malformed m flaw)) : m = k := by
  obtain ⟨before, line, rest, s, rfl, rfl, hs, ⟨passed, c, later, hcs, -, -, he⟩⟩ := h
  have hc : c ∈ s.checks (before.length + 1) line := by simp [hcs]
  exact checks_malformed hc he

section Pair
variable {n : ℕ} {p : Plateau} {r r' : Rover} {before : List (List Char)} {line : List Char}

theorem Passed.enter_ok (hb : Passed before (.driven p)) (hn : (before.length + 1) / 2 = n)
    (h : enter (before.length + 1) n p line = .ok r) :
    Passed (before ++ [line]) (.placed (p.register r) r) := by
  subst hn
  obtain ⟨hpass, rfl⟩ := (decides_enter (before.length + 1) p line).ok_iff.mp h
  exact hb.snoc hpass

theorem Passed.enter_error (hb : Passed before (.driven p)) (hn : (before.length + 1) / 2 = n)
    {stop : Stop} (h : enter (before.length + 1) n p line = .error stop)
    (rest : List (List Char)) : FailsAt (before ++ line :: rest) (before.length + 1) stop := by
  subst hn
  have hfail := (decides_enter (before.length + 1) p line).error_iff.mp h
  exact ⟨before, line, rest, _, rfl, rfl, hb, hfail⟩

theorem Passed.drive_ok (hb : Passed before (.placed (p.register r) r))
    (hn : (before.length + 1) / 2 = n) {count : ℕ}
    (h : drive (before.length + 1) n (p.register r) r line = .ok (r', count)) :
    Passed (before ++ [line]) (.driven (p.register r')) := by
  subst hn
  obtain ⟨hpass, hr⟩ := (decides_drive (before.length + 1) (p.register r) r line).ok_iff.mp h
  obtain ⟨rfl, rfl⟩ := Prod.mk.inj hr
  have := hb.snoc hpass
  rwa [Stage.next, Plateau.register_register p (Rover.walk_id _ r).symm] at this

theorem Passed.drive_error (hb : Passed before (.placed (p.register r) r))
    (hn : (before.length + 1) / 2 = n) {stop : Stop}
    (h : drive (before.length + 1) n (p.register r) r line = .error stop)
    (rest : List (List Char)) : FailsAt (before ++ line :: rest) (before.length + 1) stop := by
  subst hn
  have hfail := (decides_drive (before.length + 1) (p.register r) r line).error_iff.mp h
  exact ⟨before, line, rest, _, rfl, rfl, hb, hfail⟩

end Pair

/-- The run of a script is what the checks of its lines make it. -/
def Judged (ls : List (List Char)) (run : Run) : Prop :=
  (∃ p, Passed ls (.driven p) ∧ run.result = .ok p ∧ run.line = ls.length) ∨
    ∃ stop, FailsAt ls run.line stop ∧ run.result = .error stop

section Judged
variable {ls : List (List Char)} {run : Run}

theorem Judged.ok_iff (h : Judged ls run) (p : Plateau) :
    run.result = .ok p ↔ Passed ls (.driven p) := by
  rcases h with ⟨q, hq, hok, -⟩ | ⟨stop, hf, herr⟩
  · constructor
    · intro hp
      cases hok.symm.trans hp
      exact hq
    · intro hp
      cases hq.unique hp
      exact hok
  · rw [herr]
    exact ⟨fun hp => (nomatch hp), fun hp => absurd hp (hf.not_passed _)⟩

theorem Judged.error_iff (h : Judged ls run) (k : ℕ) (stop : Stop) :
    run.result = .error stop ∧ run.line = k ↔ FailsAt ls k stop := by
  rcases h with ⟨p, hp, hok, -⟩ | ⟨halt, hf, herr⟩
  · rw [hok]
    exact ⟨fun he => (nomatch he.1), fun hf => absurd hp (hf.not_passed _)⟩
  · constructor
    · rintro ⟨he, rfl⟩
      cases herr.symm.trans he
      exact hf
    · intro hf'
      obtain ⟨rfl, rfl⟩ := hf.unique hf'
      exact ⟨herr, rfl⟩

theorem Judged.exists_ok_iff (h : Judged ls run) :
    (∃ p, run.result = .ok p) ↔ ∃ s, Passed ls s := by
  constructor
  · rintro ⟨p, hp⟩
    exact ⟨_, (h.ok_iff p).mp hp⟩
  · rintro ⟨s, hs⟩
    rcases h with ⟨p, -, hok, -⟩ | ⟨stop, hf, -⟩
    · exact ⟨p, hok⟩
    · exact absurd hs (hf.not_passed s)

theorem Judged.line_of_ok (h : Judged ls run) {p : Plateau} (hp : run.result = .ok p) :
    run.line = ls.length := by
  rcases h with ⟨q, -, -, hlen⟩ | ⟨stop, -, herr⟩
  · exact hlen
  · cases herr.symm.trans hp

theorem Judged.line_of_malformed (h : Judged ls run) {k : ℕ} {flaw : Flaw}
    (he : run.result = .error (.malformed k flaw)) : k = run.line :=
  ((h.error_iff run.line _).mp ⟨he, rfl⟩).malformed

end Judged

theorem runRovers_judged {k n : ℕ} {p : Plateau} {before : List (List Char)}
    (hb : Passed before (.driven p)) (hk : before.length = k) (hn : k + 1 = 2 * n)
    (ps : List (List Char × List Char)) :
    Judged (before ++ ps.flatMap fun pair => [pair.1, pair.2]) (runRovers k n p ps) := by
  induction ps generalizing k n p before with
  | nil => exact Or.inl ⟨p, by simpa using hb, rfl, by simp [runRovers, hk]⟩
  | cons pair rest ih =>
    obtain ⟨position, commands⟩ := pair
    subst hk
    simp only [runRovers, List.flatMap_cons, List.cons_append, List.nil_append]
    cases he : enter (before.length + 1) n p position with
    | error stop => exact Or.inr ⟨stop, hb.enter_error (by omega) he _, rfl⟩
    | ok r =>
      have hplaced := hb.enter_ok (by omega) he
      have hlen : before.length + 2 = (before ++ [position]).length + 1 := by simp
      have hn' : ((before ++ [position]).length + 1) / 2 = n := by omega
      rw [List.append_cons, hlen]
      cases hd : drive ((before ++ [position]).length + 1) n (p.register r) r commands with
      | error stop =>
        simp only [hd]
        exact Or.inr ⟨stop, hplaced.drive_error hn' hd _, rfl⟩
      | ok out =>
        have hdriven := hplaced.drive_ok hn' hd
        simp only [hd]
        rw [List.append_cons]
        exact ih (k := (before ++ [position]).length + 1) hdriven (by simp) (by simp; omega)

theorem flatMap_pairs (ls : List (List Char)) :
    (pairs ls).flatMap (fun pair => [pair.1, pair.2]) =
      if ls.length % 2 = 0 then ls else ls ++ [[]] := by
  fun_induction pairs ls with
  | case1 => rfl
  | case2 position => simp
  | case3 position commands rest ih =>
    simp only [List.flatMap_cons, ih, List.length_cons]
    split_ifs <;> first | omega | simp

theorem completed_cons (first : List Char) (rest : List (List Char)) : completed (first :: rest) =
    [first] ++ (pairs rest).flatMap fun pair => [pair.1, pair.2] := by
  rw [flatMap_pairs, completed, List.length_cons]
  split_ifs <;> first | omega | simp

theorem run_judged (text : List Char) : Judged (completed (lines text)) (run text) := by
  simp only [run]
  cases hl : lines text with
  | nil => exact absurd hl (lines_ne_nil text)
  | cons first rest =>
    rw [completed_cons]
    simp only [runLines]
    cases hp : readPlateau 1 first with
    | error stop =>
      have hfail := (decides_readPlateau 1 first).error_iff.mp hp
      exact Or.inr ⟨stop, ⟨[], first, _, .opening, rfl, rfl, .nil, hfail⟩, rfl⟩
    | ok p =>
      obtain ⟨hpass, rfl⟩ := (decides_readPlateau 1 first).ok_iff.mp hp
      exact runRovers_judged (Passed.nil.snoc hpass) rfl rfl (pairs rest)

/-- A parser that has parsed anything before succeeds on a text exactly if every line passes its
checks, and has then taken up all lines. Otherwise it stops at the first line that fails, with the
error of the first check of that line that fails; a bad form is reported for that line. -/
theorem parse_ok_iff_lines_pass (q : Parser) (text : List Char) :
    let ls := completed (lines text)
    let after := (q.parse text).1
    let result := (q.parse text).2
    ((∃ p, result = .ok p) ↔ ∃ s, Passed ls s) ∧
      (∀ p, result = .ok p ↔ Passed ls (.driven p)) ∧
      (∀ p, result = .ok p → after.line = ls.length) ∧
      (∀ k stop, result = .error stop ∧ after.line = k ↔ FailsAt ls k stop) ∧
      ∀ k flaw, result = .error (.malformed k flaw) → k = after.line := by
  have h := run_judged text
  exact ⟨h.exists_ok_iff, h.ok_iff, fun _ hp => h.line_of_ok hp, h.error_iff,
    fun _ _ he => h.line_of_malformed he⟩

theorem parse_ok_iff_lines_pass_missing_commands :
    let complete := "5 5\n1 2 N\nMRM".toList
    let missing := "5 5\n1 2 N".toList
    let p : Plateau := ⟨"1", ⟨5, 5⟩, [⟨"1", ⟨2, 3⟩, .east⟩]⟩
    Passed (completed (lines complete)) (.driven p) ∧ (completed (lines complete)).length = 3 ∧
      FailsAt (completed (lines missing)) 3 (.malformed 3 (.noCommands 1)) := by
  intro complete missing p
  have hok : (Parser.new.parse complete).2 = .ok p := by rfl
  obtain ⟨-, hpassed, hline, -, -⟩ := parse_ok_iff_lines_pass .new complete
  obtain ⟨-, -, -, hfails, -⟩ := parse_ok_iff_lines_pass .new missing
  exact ⟨(hpassed p).mp hok, (hline p hok).symm, (hfails 3 _).mp ⟨rfl, rfl⟩⟩

/-- A row of digits beyond the limit stops a run whose one line is otherwise a plateau line. -/
theorem run_long_digits {w : List Char} (hw : ∀ c ∈ w, c.isDigit) (hlong : digitLimit < w.length) :
    let text := w ++ [' ', '5']
    lines text = [text] ∧ Text.words text = [w, ['5']] ∧
      Literal.ofChars? w = some (.integer false w) ∧
      (run text).result = .error (.limit (.reading w.length)) := by
  intro text
  have hne : w ≠ [] := List.ne_nil_of_length_pos (Nat.zero_lt_of_lt hlong)
  have hword : Text.Word w := ⟨hne, fun c hc => Text.isBlank_of_isDigit (hw c hc)⟩
  have hfive : Text.Word ['5'] := ⟨by simp, by simp; rfl⟩
  have hwords : ∀ v ∈ [w, ['5']], Text.Word v := by simp [hword, hfive]
  have htext : text = Text.spaced [w, ['5']] := by simp [text, Text.spaced]
  have hneat : Text.Neat text := htext ▸ Text.spaced_neat (by simp) hwords
  have hfeed : '\n' ∉ text := htext ▸ Text.feed_notMem_spaced hwords
  have hlines : lines text = [text] := by
    simpa [joined] using lines_joined (List.cons_ne_nil text []) (by simpa) (by simpa)
  have hsplit : Text.words text = [w, ['5']] := htext ▸ Text.words_spaced (by simp) hwords
  have hlit := Literal.ofChars?_digits hne hw
  have hread : Literal.read w = .error (.reading w.length) := by
    have hd := Literal.decimalDigits_integer hlit
    rw [← hd]
    exact Literal.read_long (hd ▸ hlong)
  refine ⟨hlines, hsplit, hlit, ?_⟩
  simp only [run, hlines, runLines, readPlateau, hsplit, hread, List.isEmpty_iff]
  rw [if_neg hneat.ne]
  rfl

/-- The one line of this script has two words, both of them number literals that are whole and not
negative, and yet the run stops at it. -/
theorem not_read_beyond_digit_limit :
    let nines := List.replicate 4301 '9'
    let text := nines ++ [' ', '5']
    completed (lines text) = [text] ∧ Text.words text = [nines, ['5']] ∧
      Literal.ofChars? nines = some (.integer false nines) ∧
      Literal.ofChars? ['5'] = some (.integer false ['5']) ∧
      (run text).result = .error (.limit (.reading 4301)) := by
  intro nines text
  have hlen : nines.length = 4301 := List.length_replicate
  have hdigits : ∀ c ∈ nines, c.isDigit := fun c hc => by
    rw [List.eq_of_mem_replicate hc]
    rfl
  have hlong : digitLimit < nines.length := by
    rw [hlen]
    decide
  obtain ⟨hlines, hwords, hlit, hrun⟩ := run_long_digits hdigits hlong
  refine ⟨?_, hwords, hlit, by decide, hlen ▸ hrun⟩
  rw [hlines]
  rfl

end RoverFleet.Script
