import RoverFleet.Proofs.Journal

/-!
# Tokens of lines and letters of commands

A line is trimmed by the list of blanks and split at runs of white space, which is told by other
properties of the characters. Both are the same characters, so no piece is empty, and the pieces are
found again whatever white space is set between them. Of a commands line every character is one
command, although the line is put in upper case before it is read.
-/
namespace RoverFleet

namespace Text
variable {c : Char} {s w g : List Char} {ws : List (List Char)}

/-- The general category of space separators. -/
def spaceSeparators : List (ℕ × ℕ) :=
  [(0x20, 0x20), (0xa0, 0xa0), (0x1680, 0x1680), (0x2000, 0x200a), (0x202f, 0x202f),
    (0x205f, 0x205f), (0x3000, 0x3000)]

/-- The bidirectional classes of white space, of paragraph separators and of segment separators. -/
def neutralSeparators : List (ℕ × ℕ) :=
  [(0x0c, 0x0c), (0x20, 0x20), (0x1680, 0x1680), (0x2000, 0x200a), (0x2028, 0x2028),
    (0x205f, 0x205f), (0x3000, 0x3000)] ++
  [(0x0a, 0x0a), (0x0d, 0x0d), (0x1c, 0x1e), (0x85, 0x85), (0x2029, 0x2029)] ++
  [(0x09, 0x09), (0x0b, 0x0b), (0x1f, 0x1f)]

/-- White space as the pattern of a split takes it. -/
def isWhite (c : Char) : Bool :=
  inRanges spaceSeparators c.toNat || inRanges neutralSeparators c.toNat

/-- The pieces before, between and behind the maximal runs of characters of a class. The piece at an
end of the text is empty if a run stands there. -/
def splitAtRuns (p : Char → Bool) (s : List Char) : List (List Char) :=
  match _h : s.dropWhile fun c => !p c with
  | [] => [s]
  | _ :: rest => (s.takeWhile fun c => !p c) :: splitAtRuns p (rest.dropWhile p)
termination_by s.length
decreasing_by
  have hrest := (List.dropWhile_suffix p (l := rest)).length_le
  have hs := (List.dropWhile_suffix (fun c => !p c) (l := s)).length_le
  rw [_h, List.length_cons] at hs
  omega

/-- The characters that are trimmed are those of the pattern. -/
theorem isWhite_eq_isBlank : isWhite = isBlank := by
  funext c
  rw [Bool.eq_iff_iff]
  simp only [isWhite, isBlank, inRanges, spaceSeparators, neutralSeparators, blanks,
    List.cons_append, List.nil_append, List.any_cons, List.any_nil, Bool.or_false, Bool.or_eq_true,
    Bool.and_eq_true, decide_eq_true_eq]
  omega

/-- White space without a line feed. -/
structure Gap (g : List Char) : Prop where
  ne : g ≠ []
  white : ∀ c ∈ g, isWhite c = true
  feed : '\n' ∉ g

/-- The texts that words make with a gap between one and the next. -/
inductive Joins : List (List Char) → List Char → Prop
  | word (w : List Char) : Joins [w] w
  | gap {w g s : List Char} {ws : List (List Char)} (hg : Gap g) (h : Joins ws s) :
      Joins (w :: ws) (w ++ g ++ s)

section Runs
variable {p : Char → Bool}

theorem splitAtRuns_of_dropWhile {d : Char} {rest : List Char}
    (h : s.dropWhile (fun c => !p c) = d :: rest) :
    splitAtRuns p s = s.takeWhile (fun c => !p c) :: splitAtRuns p (rest.dropWhile p) := by
  rw [splitAtRuns]
  split
  · next hnil =>
    rw [h] at hnil
    cases hnil
  · next hcons =>
    rw [h] at hcons
    cases hcons
    rfl

theorem splitAtRuns_solid (hw : ∀ c ∈ w, p c = false) : splitAtRuns p w = [w] := by
  have hdrop : w.dropWhile (fun c => !p c) = [] :=
    List.dropWhile_eq_nil_iff.mpr fun c hc => by simp [hw c hc]
  rw [splitAtRuns]
  split
  · rfl
  · next hcons =>
    rw [hdrop] at hcons
    cases hcons

/-- Behind a run the split goes on. -/
theorem splitAtRuns_append (hw : ∀ c ∈ w, p c = false) (hne : g ≠ []) (hg : ∀ c ∈ g, p c = true)
    (hs : ∀ c ∈ s.head?, p c = false) : splitAtRuns p (w ++ g ++ s) = w :: splitAtRuns p s := by
  obtain ⟨d, rest, rfl⟩ := List.exists_cons_of_ne_nil hne
  rw [List.forall_mem_cons] at hg
  have hsolid : ∀ c ∈ w, (!p c) = true := fun c hc => by simp [hw c hc]
  have hstop : ¬ (!p d) = true := by simp [hg.1]
  have hdrop : (w ++ d :: rest ++ s).dropWhile (fun c => !p c) = d :: (rest ++ s) := by
    rw [List.append_assoc, List.dropWhile_append_of_pos hsolid, List.cons_append,
      List.dropWhile_cons_of_neg (p := fun c => !p c) hstop]
  have htake : (w ++ d :: rest ++ s).takeWhile (fun c => !p c) = w := by
    rw [List.append_assoc, List.takeWhile_append_of_pos hsolid, List.cons_append,
      List.takeWhile_cons_of_neg (p := fun c => !p c) hstop, List.append_nil]
  rw [splitAtRuns_of_dropWhile hdrop, htake, List.dropWhile_append_of_pos hg.2,
    dropWhile_of_head hs]

end Runs

namespace Joins

/-- A character in front belongs to the first word. -/
theorem cons (h : Joins (w :: ws) s) (c : Char) : Joins ((c :: w) :: ws) (c :: s) := by
  cases h with
  | word => exact .word _
  | gap hg hjoins => exact .gap hg hjoins

section Words
variable (h : Joins ws s)
include h

theorem ne_nil : ws ≠ [] := by
  cases h <;> simp

variable (hws : ∀ w ∈ ws, Word w)
include hws

theorem neat : Neat s := by
  induction h with
  | word w => exact (hws w (by simp)).neat
  | gap hg _ ih =>
    rw [List.forall_mem_cons] at hws
    exact hws.1.neat.append (ih hws.2) _

theorem feed_notMem : '\n' ∉ s := by
  induction h with
  | word w => exact (hws w (by simp)).feed_notMem
  | gap hg _ ih =>
    rw [List.forall_mem_cons] at hws
    simp only [List.mem_append, not_or]
    exact ⟨⟨hws.1.feed_notMem, hg.feed⟩, ih hws.2⟩

theorem words_eq : words s = ws := by
  induction h with
  | word w => exact words_word (hws w (by simp))
  | gap hg hjoins ih =>
    rw [List.forall_mem_cons] at hws
    rw [words_gap hg.ne (isWhite_eq_isBlank ▸ hg.white), words_word hws.1, ih hws.2]
    rfl

theorem splitAtRuns_eq : splitAtRuns isWhite s = ws := by
  rw [isWhite_eq_isBlank]
  induction h with
  | word w => exact splitAtRuns_solid (hws w (by simp)).solid
  | gap hg hjoins ih =>
    rw [List.forall_mem_cons] at hws
    rw [splitAtRuns_append hws.1.solid hg.ne (isWhite_eq_isBlank ▸ hg.white)
      (hjoins.neat hws.2).first, ih hws.2]

end Words

end Joins

/-- A text that does not end with a blank is made of words and gaps, with blanks in front. -/
theorem exists_joins (hne : s ≠ []) (hlast : ∀ c ∈ s.getLast?, isBlank c = false)
    (hfeed : '\n' ∉ s) : ∃ g t ws, s = g ++ t ∧ (∀ c ∈ g, isBlank c = true) ∧
      (∀ w ∈ ws, Word w) ∧ Joins ws t := by
  induction s with
  | nil => exact absurd rfl hne
  | cons c rest ih =>
    rw [List.mem_cons, not_or] at hfeed
    by_cases hrest : rest = []
    · subst hrest
      have hword : Word [c] := ⟨by simp, by simpa using hlast⟩
      exact ⟨[], [c], [[c]], rfl, by simp, by simpa using hword, .word [c]⟩
    rw [List.getLast?_cons_of_ne_nil hrest] at hlast
    obtain ⟨g, t, ws, rfl, hg, hws, hjoins⟩ := ih hrest hlast hfeed.2
    cases hc : isBlank c with
    | true => exact ⟨c :: g, t, ws, rfl, List.forall_mem_cons.mpr ⟨hc, hg⟩, hws, hjoins⟩
    | false =>
      -- a character that is not blank starts the first word, or is a word of its own before a gap
      by_cases hnil : g = []
      · subst hnil
        obtain ⟨w, more, rfl⟩ := List.exists_cons_of_ne_nil hjoins.ne_nil
        rw [List.forall_mem_cons] at hws
        have hword : Word (c :: w) := ⟨by simp, List.forall_mem_cons.mpr ⟨hc, hws.1.solid⟩⟩
        exact ⟨[], c :: t, (c :: w) :: more, rfl, by simp,
          List.forall_mem_cons.mpr ⟨hword, hws.2⟩, hjoins.cons c⟩
      · have hword : Word [c] := ⟨by simp, by simpa using hc⟩
        have hgap : Gap g := ⟨hnil, isWhite_eq_isBlank ▸ hg,
          fun hmem => hfeed.2 (List.mem_append_left t hmem)⟩
        exact ⟨[], [c] ++ g ++ t, [c] :: ws, rfl, by simp,
          List.forall_mem_cons.mpr ⟨hword, hws⟩, .gap hgap hjoins⟩

/-- A neat text is made of its words. -/
theorem Neat.joins (hs : Neat s) (hfeed : '\n' ∉ s) :
    Joins (words s) s ∧ ∀ w ∈ words s, Word w := by
  obtain ⟨g, t, ws, rfl, hg, hws, hjoins⟩ := exists_joins hs.ne hs.last hfeed
  cases g with
  | nil =>
    rw [List.nil_append, hjoins.words_eq hws]
    exact ⟨hjoins, hws⟩
  | cons c rest => exact absurd (hs.first c rfl) (by simp [hg c (by simp)])

end Text

namespace Script
open Text

section Tokens
variable {text line : List Char}

/-- A line of a script is trimmed and stands on one line. -/
theorem neat_of_mem_lines (hl : line ∈ lines text) (hne : line ≠ []) : Neat line ∧ '\n' ∉ line := by
  obtain ⟨raw, hraw, rfl⟩ := List.mem_map.mp hl
  refine ⟨neat_trim hne, fun hmem => feed_notMem_of_mem_lines hraw ?_⟩
  obtain ⟨u, v, hsplit, -, -⟩ := exists_blanks_trim raw
  rw [hsplit]
  exact List.mem_append_left v (List.mem_append_right u hmem)

end Tokens

section Letters
variable {k n : ℕ} {letters : List Char} {commands : List Command} {c : Char} {m : Command}

theorem readCommand_ok_iff : readCommand k n c = .ok m ↔ c = m.letter := by
  constructor
  · intro h
    cases hc : Command.ofChar? c with
    | none => simp [readCommand, hc] at h
    | some m' =>
      obtain rfl : m' = m := by simpa [readCommand, hc] using h
      simpa using List.find?_some hc
  · rintro rfl
    cases m <;> rfl

/-- A commands line is read if its upper case is the letters of commands. -/
theorem readCommands_ok_iff : readCommands k n letters = .ok commands ↔
    letters ≠ [] ∧ upper letters = commands.map Command.letter := by
  simp only [readCommands, List.isEmpty_iff]
  split_ifs with hne
  · constructor
    · intro h
      cases h
    · exact fun h => absurd hne h.1
  · rw [and_iff_right hne, mapM_ok_iff, ← List.forall₂_eq_eq_eq, List.forall₂_map_right_iff]
    simp only [readCommand_ok_iff]

/-- A letter with the upper case of a command is that of the command or its lower case. -/
theorem letter_of_toUpper (hc : c ∈ commandLetters) (h : c.toUpper = m.letter) :
    c = m.letter ∨ c = m.letter.toLower := by
  have hcases : c = 'L' ∨ c = 'R' ∨ c = 'M' ∨ c = 'l' ∨ c = 'r' ∨ c = 'm' := by
    simpa [commandLetters] using hc
  revert h
  rcases hcases with rfl | rfl | rfl | rfl | rfl | rfl <;> cases m <;> decide

/-- The upper case of a commands line is that of its characters, one for one. -/
theorem map_toUpper_of_read (h : readCommands k n letters = .ok commands) :
    letters.map Char.toUpper = commands.map Command.letter := by
  rw [← upper_of_ascii (isCommandsLine_of_read h).ascii]
  exact (readCommands_ok_iff.mp h).2

/-- The command at a place of an accepted line is that of the character at this place. -/
theorem command_of_read (h : readCommands k n letters = .ok commands) {i : ℕ}
    (hc : letters[i]? = some c) : ∃ m, commands[i]? = some m ∧
      (c = m.letter ∨ c = m.letter.toLower) ∧ readCommands k n [c] = .ok [m] := by
  have hletter : c ∈ commandLetters := isCommandsLine_of_read h c (List.mem_of_getElem? hc)
  have hupper := congrArg (·[i]?) (map_toUpper_of_read h)
  simp only [List.getElem?_map, hc, Option.map_some] at hupper
  obtain ⟨m, hm, hcase⟩ := Option.map_eq_some_iff.mp hupper.symm
  have hsingle : upper [c] = [c.toUpper] :=
    upper_of_ascii (by simpa using commandLetters_ascii c hletter)
  refine ⟨m, hm, letter_of_toUpper hletter hcase.symm, readCommands_ok_iff.mpr ⟨by simp, ?_⟩⟩
  rw [hsingle, ← hcase]
  rfl

end Letters

/-- The characters that are trimmed are those that the pattern of a split takes. So a line of a
script that is not empty is split into its words, of which there is one at least, and none is empty
or has white space in it. Set together again with any white space but line feeds between them, they
make a line that is split into the same words. And a commands line that is read has one command for
each character, the one that this character stands for alone, although the line is put in upper case
as a whole. -/
theorem tokens_and_letters_kept :
    (∀ c, isWhite c = isBlank c) ∧
    (∀ text line : List Char, line ∈ lines text → line ≠ [] →
      splitAtRuns isWhite line = words line ∧ words line ≠ [] ∧
      (∀ w ∈ words line, w ≠ [] ∧ ∀ c ∈ w, isWhite c = false) ∧ Joins (words line) line ∧
      ∀ s, Joins (words line) s →
        splitAtRuns isWhite s = words line ∧ words s = words line ∧ lines s = [s]) ∧
    ∀ (k n : ℕ) (letters : List Char) (commands : List Command),
      readCommands k n letters = .ok commands →
      upper letters = commands.map Command.letter ∧ commands.length = letters.length ∧
      ∀ (i : ℕ) (c : Char), letters[i]? = some c → ∃ m, commands[i]? = some m ∧
        (c = m.letter ∨ c = m.letter.toLower) ∧ readCommands k n [c] = .ok [m] := by
  refine ⟨fun c => congrFun isWhite_eq_isBlank c, fun text line hl hne => ?_, ?_⟩
  · obtain ⟨hneat, hfeed⟩ := neat_of_mem_lines hl hne
    obtain ⟨hjoins, hwords⟩ := hneat.joins hfeed
    refine ⟨hjoins.splitAtRuns_eq hwords, hjoins.ne_nil, fun w hw => ⟨(hwords w hw).ne, ?_⟩,
      hjoins, fun s hs => ⟨hs.splitAtRuns_eq hwords, hs.words_eq hwords, ?_⟩⟩
    · rw [isWhite_eq_isBlank]
      exact (hwords w hw).solid
    · have hline := lines_joined (List.cons_ne_nil s []) (by simpa using hs.neat hwords)
        (by simpa using hs.feed_notMem hwords)
      rwa [joined, List.intercalate_singleton] at hline
  · intro k n letters commands h
    have hlength := congrArg List.length (map_toUpper_of_read h)
    rw [List.length_map, List.length_map] at hlength
    exact ⟨(readCommands_ok_iff.mp h).2, hlength.symm, fun i c hc => command_of_read h hc⟩

theorem tokens_and_letters_kept_mixed_blanks :
    let text := " 5 5 \n1\u00a0\t2  N\nlRm".toList
    let line := "1\u00a0\t2  N".toList
    let other := "1 2\u3000N".toList
    let letters := "lRm".toList
    line ∈ lines text ∧ line ≠ [] ∧ Joins (words line) other ∧
      splitAtRuns isWhite line = [['1'], ['2'], ['N']] ∧
      splitAtRuns isWhite other = [['1'], ['2'], ['N']] ∧ lines other = [other] ∧
      readCommands 3 1 letters = .ok [.left, .right, .move] ∧
      readCommands 3 1 ['m'] = .ok [.move] := by
  intro text line other letters
  have hmem : line ∈ lines text := by decide +kernel
  have hne : line ≠ [] := by decide +kernel
  have hwords : words line = [['1'], ['2'], ['N']] := by decide +kernel
  have hread : readCommands 3 1 letters = .ok [.left, .right, .move] := by decide +kernel
  have hblank : Gap [' '] := ⟨by simp, List.forall_mem_singleton.mpr rfl, by simp⟩
  have hwide : Gap ['\u3000'] := ⟨by simp, List.forall_mem_singleton.mpr rfl, by simp⟩
  have hother : Joins (words line) other := by
    rw [hwords]
    exact .gap hblank (.gap hwide (.word ['N']))
  obtain ⟨-, hline, hcommands⟩ := tokens_and_letters_kept
  obtain ⟨hsplit, -, -, -, hagain⟩ := hline text line hmem hne
  obtain ⟨hsplit', -, hlines⟩ := hagain other hother
  obtain ⟨-, -, hletter⟩ := hcommands 3 1 letters _ hread
  obtain ⟨m, hm, -, hsingle⟩ := hletter 2 'm' (by simp [letters])
  obtain rfl : Command.move = m := by simpa using hm
  exact ⟨hmem, hne, hother, hsplit.trans hwords, hsplit'.trans hwords, hlines, hread, hsingle⟩

end Script

end RoverFleet
