import RoverFleet.Proofs.Layout

/-!
# Lines and words of any text

The lines of a text, each trimmed, are the lines of its script with empty lines before and after
them. The words of the lines of a script are the words of its text.
-/
namespace RoverFleet

namespace Text
variable {c : Char} {s u : List Char}

theorem lines_feed (s : List Char) : lines ('\n' :: s) = [] :: lines s := by
  simp [lines, List.splitOn_cons_eq_if_modifyHead]

theorem lines_cons (hc : c ≠ '\n') (s : List Char) :
    lines (c :: s) = (lines s).modifyHead (c :: ·) := by
  simp [lines, List.splitOn_cons_eq_if_modifyHead, hc]

theorem lines_append_feed (s t : List Char) : lines (s ++ '\n' :: t) = lines s ++ lines t :=
  List.splitOn_append_cons_self s t

theorem exists_lines (s : List Char) : ∃ first rest, lines s = first :: rest :=
  List.exists_cons_of_ne_nil (List.splitOn_ne_nil '\n' s)

/-- A character other than a line feed goes to the last line. -/
theorem lines_concat (hc : c ≠ '\n') (s : List Char) :
    ∃ before last, lines s = before ++ [last] ∧ lines (s ++ [c]) = before ++ [last ++ [c]] := by
  induction s with
  | nil => exact ⟨[], [], rfl, by simp [lines_cons hc]; rfl⟩
  | cons d rest ih =>
    obtain ⟨before, last, hrest, hconcat⟩ := ih
    by_cases hd : d = '\n'
    · subst hd
      exact ⟨[] :: before, last, by simp [lines_feed, hrest], by simp [lines_feed, hconcat]⟩
    · rw [List.cons_append, lines_cons hd, lines_cons hd, hrest, hconcat]
      cases before with
      | nil => exact ⟨[], d :: last, rfl, rfl⟩
      | cons b bs => exact ⟨(d :: b) :: bs, last, rfl, rfl⟩

theorem feed_notMem_of_mem_lines {l : List Char} (hl : l ∈ lines s) : '\n' ∉ l := by
  induction s generalizing l with
  | nil =>
    obtain rfl := List.mem_singleton.mp hl
    simp
  | cons d rest ih =>
    by_cases hd : d = '\n'
    · subst hd
      rw [lines_feed, List.mem_cons] at hl
      rcases hl with rfl | hl
      · simp
      · exact ih hl
    · obtain ⟨first, more, hrest⟩ := exists_lines rest
      rw [lines_cons hd, hrest, List.modifyHead_cons, List.mem_cons] at hl
      rcases hl with rfl | hl
      · have hfirst : '\n' ∉ first := ih (by simp [hrest])
        simp [Ne.symm hd, hfirst]
      · exact ih (by simp [hrest, hl])

theorem trim_cons_blank (hc : isBlank c = true) (s : List Char) :
    trim isBlank (c :: s) = trim isBlank s := by
  simp [trim, hc]

theorem trimEnd_concat_blank (hc : isBlank c = true) (s : List Char) :
    trimEnd isBlank (s ++ [c]) = trimEnd isBlank s := by
  simp [trimEnd, hc]

theorem trim_concat_blank (hc : isBlank c = true) (s : List Char) :
    trim isBlank (s ++ [c]) = trim isBlank s := by
  rw [trim, trim, List.dropWhile_append]
  split
  · next h => simp [List.isEmpty_iff.mp h, hc]
  · exact trimEnd_concat_blank hc _

/-- A text is its trimmed form with blanks before and after it. -/
theorem exists_blanks_trim (s : List Char) :
    ∃ u v, s = u ++ trim isBlank s ++ v ∧ (∀ c ∈ u, isBlank c = true) ∧
      ∀ c ∈ v, isBlank c = true := by
  refine ⟨s.takeWhile isBlank, (s.dropWhile isBlank).rtakeWhile isBlank, ?_, ?_, ?_⟩
  · rw [List.append_assoc, trim, trimEnd, ← List.rdropWhile,
      List.rdropWhile_append_rtakeWhile, List.takeWhile_append_dropWhile]
  · exact fun c hc => List.mem_takeWhile_imp hc
  · exact fun c hc => List.mem_rtakeWhile_imp hc

theorem trim_eq_nil_iff : trim isBlank s = [] ↔ ∀ c ∈ s, isBlank c = true := by
  constructor
  · intro h c hc
    obtain ⟨u, v, hs, hu, hv⟩ := exists_blanks_trim s
    rw [h, List.append_nil] at hs
    rw [hs, List.mem_append] at hc
    exact hc.elim (hu c) (hv c)
  · intro h
    rw [trim, List.dropWhile_eq_nil_iff.mpr h]
    rfl

/-- What is left of a text after trimming neither starts nor ends with a blank. -/
theorem neat_trim (h : trim isBlank s ≠ []) : Neat (trim isBlank s) where
  ne := h
  first c hc := by
    obtain ⟨rest, hrest⟩ := List.rdropWhile_prefix isBlank (s.dropWhile isBlank)
    have hhead : (List.rdropWhile isBlank (s.dropWhile isBlank)).head? = some c := hc
    have hnot := List.head?_dropWhile_not isBlank s
    rwa [← hrest, List.head?_append, hhead, Option.some_or] at hnot
  last c hc := by
    have hlast := List.rdropWhile_last_not isBlank (s.dropWhile isBlank) h
    rw [Option.mem_def, List.getLast?_eq_some_getLast h, Option.some.injEq] at hc
    rw [← hc]
    exact Bool.eq_false_iff.mpr hlast

/-- The lines of a text, each trimmed. -/
def trimmedLines (s : List Char) : List (List Char) := (lines s).map (trim isBlank)

theorem trimmedLines_cons_blank (hc : isBlank c = true) (s : List Char) :
    ∃ n, trimmedLines (c :: s) = List.replicate n [] ++ trimmedLines s := by
  by_cases hfeed : c = '\n'
  · subst hfeed
    exact ⟨1, by simp [trimmedLines, lines_feed, trim, trimEnd]⟩
  · obtain ⟨first, rest, hs⟩ := exists_lines s
    exact ⟨0, by simp [trimmedLines, lines_cons hfeed, hs, trim_cons_blank hc]⟩

theorem trimmedLines_concat_blank (hc : isBlank c = true) (s : List Char) :
    ∃ n, trimmedLines (s ++ [c]) = trimmedLines s ++ List.replicate n [] := by
  by_cases hfeed : c = '\n'
  · subst hfeed
    have hempty : trimmedLines [] = [[]] := rfl
    refine ⟨1, ?_⟩
    rw [trimmedLines, lines_append_feed, List.map_append]
    exact congrArg (trimmedLines s ++ ·) hempty
  · obtain ⟨before, last, hs, hconcat⟩ := lines_concat hfeed s
    exact ⟨0, by simp [trimmedLines, hs, hconcat, trim_concat_blank hc]⟩

theorem trimmedLines_blanks_append (hu : ∀ c ∈ u, isBlank c = true) (s : List Char) :
    ∃ n, trimmedLines (u ++ s) = List.replicate n [] ++ trimmedLines s := by
  induction u with
  | nil => exact ⟨0, rfl⟩
  | cons c rest ih =>
    simp only [List.mem_cons, forall_eq_or_imp] at hu
    obtain ⟨m, hm⟩ := ih hu.2
    obtain ⟨n, hn⟩ := trimmedLines_cons_blank hu.1 (rest ++ s)
    refine ⟨n + m, ?_⟩
    rw [List.cons_append, hn, hm, ← List.append_assoc, List.replicate_append_replicate]

theorem trimmedLines_append_blanks (hu : ∀ c ∈ u, isBlank c = true) (s : List Char) :
    ∃ n, trimmedLines (s ++ u) = trimmedLines s ++ List.replicate n [] := by
  induction u generalizing s with
  | nil => exact ⟨0, by simp⟩
  | cons c rest ih =>
    simp only [List.mem_cons, forall_eq_or_imp] at hu
    obtain ⟨m, hm⟩ := ih hu.2 (s ++ [c])
    obtain ⟨n, hn⟩ := trimmedLines_concat_blank hu.1 s
    refine ⟨n + m, ?_⟩
    rw [List.append_cons, hm, hn, List.append_assoc, List.replicate_append_replicate]

/-- A neat text has no empty line at either end. -/
theorem Neat.trimmedLines_ends (hs : Neat s) :
    (∀ l ∈ (trimmedLines s).head?, l ≠ []) ∧ ∀ l ∈ (trimmedLines s).getLast?, l ≠ [] := by
  constructor
  · cases s with
    | nil => exact absurd rfl hs.ne
    | cons c rest =>
      have hc : isBlank c = false := hs.first c rfl
      have hfeed : c ≠ '\n' := by rintro rfl; exact absurd hc (by decide)
      obtain ⟨first, more, hrest⟩ := exists_lines rest
      rw [trimmedLines, lines_cons hfeed, hrest]
      rintro l ⟨rfl⟩ hl
      exact Bool.false_ne_true (hc.symm.trans (trim_eq_nil_iff.mp hl c (by simp)))
  · obtain ⟨rest, c, rfl⟩ := (List.eq_nil_or_concat' s).resolve_left hs.ne
    have hc : isBlank c = false := hs.last c (by simp)
    have hfeed : c ≠ '\n' := by rintro rfl; exact absurd hc (by decide)
    obtain ⟨before, last, -, hconcat⟩ := lines_concat hfeed rest
    rw [trimmedLines, hconcat, List.map_append, List.map_singleton, List.getLast?_concat]
    rintro l ⟨rfl⟩ hl
    exact Bool.false_ne_true (hc.symm.trans (trim_eq_nil_iff.mp hl c (by simp)))

/-- Lines without the empty ones before the first and behind the last that is not empty. -/
def bare (ls : List (List Char)) : List (List Char) :=
  (ls.dropWhile List.isEmpty).rdropWhile List.isEmpty

theorem dropWhile_padded {ls : List (List Char)} (hfirst : ∀ l ∈ ls.head?, l ≠ []) (n : ℕ) :
    (List.replicate n [] ++ ls).dropWhile List.isEmpty = ls := by
  induction n with
  | zero => exact dropWhile_of_head fun l hl => List.isEmpty_eq_false_iff.mpr (hfirst l hl)
  | succ n ih => simpa [List.replicate_succ] using ih

theorem bare_padded {ls : List (List Char)} (hne : ls ≠ []) (hfirst : ∀ l ∈ ls.head?, l ≠ [])
    (hlast : ∀ l ∈ ls.getLast?, l ≠ []) (m n : ℕ) :
    bare (List.replicate m [] ++ ls ++ List.replicate n []) = ls := by
  have hfirst' : ∀ l ∈ (ls ++ List.replicate n []).head?, l ≠ [] := by
    rw [List.head?_append_of_ne_nil _ hne]
    exact hfirst
  have hlast' : ∀ l ∈ ls.reverse.head?, l ≠ [] := by
    rw [List.head?_reverse]
    exact hlast
  rw [bare, List.append_assoc, dropWhile_padded hfirst', List.rdropWhile, List.reverse_append,
    List.reverse_replicate, dropWhile_padded hlast', List.reverse_reverse]

theorem consWord_append (w : List Char) (ws vs : List (List Char)) :
    consWord w (ws ++ vs) = consWord w ws ++ vs := by
  unfold consWord
  split <;> rfl

theorem wordSplit_append_cons_blank (hc : isBlank c = true) (s t : List Char) :
    wordSplit (s ++ c :: t) = ((wordSplit s).1, (wordSplit s).2 ++ words t) := by
  induction s with
  | nil => exact wordSplit_blank hc t
  | cons d rest ih =>
    simp only [List.cons_append, wordSplit, ih]
    split
    · simp [consWord_append]
    · rfl

/-- A blank divides the words before it from those after it. -/
theorem words_append_cons_blank (hc : isBlank c = true) (s t : List Char) :
    words (s ++ c :: t) = words s ++ words t := by
  simp [words, wordSplit_append_cons_blank hc, consWord_append]

theorem words_blanks_append (hu : ∀ c ∈ u, isBlank c = true) (s : List Char) :
    words (u ++ s) = words s := by
  induction u with
  | nil => rfl
  | cons c rest ih =>
    simp only [List.mem_cons, forall_eq_or_imp] at hu
    have hcons := words_append_cons_blank hu.1 [] (rest ++ s)
    rw [List.cons_append, ← List.nil_append (c :: (rest ++ s)), hcons, ih hu.2]
    rfl

theorem words_append_blanks (hu : ∀ c ∈ u, isBlank c = true) (s : List Char) :
    words (s ++ u) = words s := by
  cases u with
  | nil => rw [List.append_nil]
  | cons c rest =>
    simp only [List.mem_cons, forall_eq_or_imp] at hu
    have hrest := words_blanks_append hu.2 []
    rw [List.append_nil] at hrest
    rw [words_append_cons_blank hu.1, hrest]
    exact List.append_nil _

theorem words_trim (s : List Char) : words (trim isBlank s) = words s := by
  obtain ⟨u, v, hs, hu, hv⟩ := exists_blanks_trim s
  calc words (trim isBlank s) = words (u ++ trim isBlank s ++ v) := by
        rw [words_append_blanks hv, words_blanks_append hu]
    _ = words s := congrArg words hs.symm

theorem words_intercalate (ls : List (List Char)) :
    words (List.intercalate ['\n'] ls) = ls.flatMap words := by
  induction ls with
  | nil => rfl
  | cons l rest ih =>
    cases rest with
    | nil => simp
    | cons m more =>
      rw [List.intercalate_cons_cons, List.append_assoc, List.singleton_append,
        words_append_cons_blank rfl, ih]
      rfl

theorem words_lines (s : List Char) : (lines s).flatMap words = words s := by
  rw [← words_intercalate, lines, List.intercalate_splitOn]

end Text

namespace Script
open Text

/-- The words of the lines of a script are those of its text. -/
theorem words_lines (text : List Char) : (lines text).flatMap words = words text := by
  calc (lines text).flatMap words = (Text.lines (trim isBlank text)).flatMap words := by
        rw [lines, List.flatMap_map]
        exact List.flatMap_congr fun l _ => words_trim l
    _ = words text := by rw [Text.words_lines, words_trim]

theorem trimmedLines_lines (text : List Char) :
    ∃ m n, trimmedLines text = List.replicate m [] ++ lines text ++ List.replicate n [] := by
  obtain ⟨u, v, htext, hu, hv⟩ := exists_blanks_trim text
  obtain ⟨n, hn⟩ := trimmedLines_append_blanks hv (u ++ trim isBlank text)
  obtain ⟨m, hm⟩ := trimmedLines_blanks_append hu (trim isBlank text)
  refine ⟨m, n, ?_⟩
  calc trimmedLines text = trimmedLines (u ++ trim isBlank text ++ v) := congrArg _ htext
    _ = List.replicate m [] ++ lines text ++ List.replicate n [] := by rw [hn, hm]; rfl

/-- The lines of a script are those of its text, trimmed, without the empty ones at the ends. -/
theorem lines_eq_bare {text : List Char} (h : trim isBlank text ≠ []) :
    lines text = bare (trimmedLines text) := by
  obtain ⟨m, n, hmn⟩ := trimmedLines_lines text
  obtain ⟨hfirst, hlast⟩ := (neat_trim h).trimmedLines_ends
  rw [hmn]
  exact (bare_padded (lines_ne_nil text) hfirst hlast m n).symm

/-- Lines that are not empty are those of a script when only empty ones stand around them. -/
theorem lines_of_padded {text : List Char} {ls : List (List Char)} {m n : ℕ} (hne : ls ≠ [])
    (hls : ∀ l ∈ ls, l ≠ [])
    (h : trimmedLines text = List.replicate m [] ++ ls ++ List.replicate n []) :
    lines text = ls := by
  have htext : trim isBlank text ≠ [] := by
    intro hblank
    obtain ⟨m', n', hmn⟩ := trimmedLines_lines text
    have hlines : lines text = [[]] := by rw [lines, hblank]; rfl
    obtain ⟨l, hl⟩ := List.exists_mem_of_ne_nil ls hne
    have hmem : l ∈ List.replicate m' [] ++ lines text ++ List.replicate n' [] := by
      rw [← hmn, h]
      simp [hl]
    simp [hlines, hls l hl] at hmem
  rw [lines_eq_bare htext, h]
  exact bare_padded hne (fun l hl => hls l (List.mem_of_head? hl))
    (fun l hl => hls l (List.mem_of_getLast? hl)) m n

/-- Lines set together are those of a script when only blank ones stand around them. -/
theorem lines_joined_of_padded {pad body ls : List (List Char)} {m n : ℕ} (hne : ls ≠ [])
    (hls : ∀ l ∈ ls, l ≠ []) (hfeed : ∀ l ∈ pad ++ body, '\n' ∉ l)
    (hpad : pad.map (trim isBlank) = List.replicate m [])
    (hbody : body.map (trim isBlank) = ls ++ List.replicate n []) :
    lines (joined (pad ++ body)) = ls := by
  have hsome : pad ++ body ≠ [] := by
    rintro hnil
    obtain ⟨-, rfl⟩ := List.append_eq_nil_iff.mp hnil
    exact hne (List.append_eq_nil_iff.mp hbody.symm).1
  have hpadded : trimmedLines (joined (pad ++ body)) =
      List.replicate m [] ++ ls ++ List.replicate n [] := by
    rw [trimmedLines, joined, Text.lines, List.splitOn_intercalate _ hfeed hsome, List.map_append,
      hpad, hbody, List.append_assoc]
  exact lines_of_padded hne hls hpadded

end Script

end RoverFleet
