import Mathlib
import RoverFleet.Script.Basic

/-!
# Layout of texts

A text laid out with single blanks between words and line feeds between lines is divided into the
words and lines that it was made of.
-/
namespace RoverFleet

namespace Text

/-- A text that neither starts nor ends with a blank. -/
structure Neat (s : List Char) : Prop where
  ne : s ≠ []
  first : ∀ c ∈ s.head?, isBlank c = false
  last : ∀ c ∈ s.getLast?, isBlank c = false

/-- A text without blanks. -/
structure Word (w : List Char) : Prop where
  ne : w ≠ []
  solid : ∀ c ∈ w, isBlank c = false

theorem Word.neat {w : List Char} (hw : Word w) : Neat w where
  ne := hw.ne
  first _ hc := hw.solid _ (List.mem_of_head? hc)
  last _ hc := hw.solid _ (List.mem_of_getLast? hc)

theorem Neat.append {s t : List Char} (hs : Neat s) (ht : Neat t) (gap : List Char) :
    Neat (s ++ gap ++ t) where
  ne := by simp [hs.ne]
  first := by
    have h := hs.first
    rw [List.head?_append, List.head?_append, List.head?_eq_some_head hs.ne, Option.some_or,
      Option.some_or]
    rwa [List.head?_eq_some_head hs.ne] at h
  last := by
    have h := ht.last
    rw [List.getLast?_append, List.getLast?_eq_some_getLast ht.ne, Option.some_or]
    rwa [List.getLast?_eq_some_getLast ht.ne] at h

theorem dropWhile_of_head {α : Type} {p : α → Bool} {s : List α} (h : ∀ c ∈ s.head?, p c = false) :
    s.dropWhile p = s := by
  cases s with
  | nil => rfl
  | cons c rest => rw [List.dropWhile_cons_of_neg (by simp [h c rfl])]

theorem Neat.trim {s : List Char} (hs : Neat s) : trim isBlank s = s := by
  have hlast : ∀ c ∈ s.reverse.head?, isBlank c = false := by
    rw [List.head?_reverse]
    exact hs.last
  rw [Text.trim, trimEnd, dropWhile_of_head hs.first, dropWhile_of_head hlast, List.reverse_reverse]

theorem wordSplit_append {w : List Char} (hw : ∀ c ∈ w, isBlank c = false) (s : List Char) :
    wordSplit (w ++ s) = (w ++ (wordSplit s).1, (wordSplit s).2) := by
  induction w with
  | nil => rfl
  | cons c rest ih =>
    simp only [List.mem_cons, forall_eq_or_imp] at hw
    simp [wordSplit, hw.1, ih hw.2]

theorem wordSplit_blank {c : Char} (hc : isBlank c = true) (s : List Char) :
    wordSplit (c :: s) = ([], words s) := by
  simp [wordSplit, words, hc]

theorem consWord_of_ne {w : List Char} (hw : w ≠ []) (ws : List (List Char)) :
    consWord w ws = w :: ws := by
  simp [consWord, hw]

theorem words_word {w : List Char} (hw : Word w) : words w = [w] := by
  have h := wordSplit_append hw.solid []
  rw [List.append_nil] at h
  simp [words, h, wordSplit, consWord_of_ne hw.ne]

theorem words_append_blank {w : List Char} (hw : Word w) {c : Char} (hc : isBlank c = true)
    (s : List Char) : words (w ++ c :: s) = w :: words s := by
  simp [words, wordSplit_append hw.solid, wordSplit_blank hc, consWord_of_ne hw.ne]

theorem isBlank_of_isDigit {c : Char} (h : c.isDigit) : isBlank c = false := by
  have hc := Char.isDigit_iff_toNat.mp h
  simp only [Char.reduceToNat] at hc
  simp only [isBlank, inRanges, blanks, List.any_cons, List.any_nil, Bool.or_false,
    Bool.or_eq_false_iff, Bool.and_eq_false_imp, decide_eq_true_eq, decide_eq_false_iff_not, not_le]
  omega

/-- Neat texts stay neat when a separator is set between them. -/
theorem neat_intercalate {gap : List Char} {ts : List (List Char)} (hne : ts ≠ [])
    (hts : ∀ t ∈ ts, Neat t) : Neat (List.intercalate gap ts) := by
  induction ts with
  | nil => exact absurd rfl hne
  | cons t rest ih =>
    simp only [List.mem_cons, forall_eq_or_imp] at hts
    cases rest with
    | nil => simpa using hts.1
    | cons u us =>
      rw [List.intercalate_cons_cons]
      exact hts.1.append (ih (by simp) hts.2) gap

/-- The line of words, with a blank between one and the next. -/
def spaced (ws : List (List Char)) : List Char := List.intercalate [' '] ws

theorem spaced_neat {ws : List (List Char)} (hne : ws ≠ []) (hws : ∀ w ∈ ws, Word w) :
    Neat (spaced ws) :=
  neat_intercalate hne fun w hw => (hws w hw).neat

theorem words_spaced {ws : List (List Char)} (hne : ws ≠ []) (hws : ∀ w ∈ ws, Word w) :
    words (spaced ws) = ws := by
  induction ws with
  | nil => exact absurd rfl hne
  | cons w rest ih =>
    simp only [List.mem_cons, forall_eq_or_imp] at hws
    cases rest with
    | nil => simpa [spaced] using words_word hws.1
    | cons v vs =>
      rw [spaced, List.intercalate_cons_cons, List.append_assoc, List.singleton_append,
        words_append_blank hws.1 rfl]
      exact congrArg (w :: ·) (ih (by simp) hws.2)

theorem Word.feed_notMem {w : List Char} (hw : Word w) : '\n' ∉ w :=
  fun h => Bool.noConfusion ((hw.solid _ h).symm.trans rfl : false = true)

theorem feed_notMem_spaced {ws : List (List Char)} (hws : ∀ w ∈ ws, Word w) :
    '\n' ∉ spaced ws := by
  induction ws with
  | nil => simp [spaced]
  | cons w rest ih =>
    simp only [List.mem_cons, forall_eq_or_imp] at hws
    cases rest with
    | nil => simpa [spaced] using hws.1.feed_notMem
    | cons v vs =>
      rw [spaced, List.intercalate_cons_cons, List.mem_append, List.mem_append]
      rintro ((h | h) | h)
      · exact hws.1.feed_notMem h
      · simp at h
      · exact ih hws.2 h

end Text

namespace Script
open Text

/-- The text of lines, with a line feed between one and the next. -/
def joined (ls : List (List Char)) : List Char := List.intercalate ['\n'] ls

theorem lines_ne_nil (text : List Char) : lines text ≠ [] := by
  simp [lines, Text.lines, List.splitOn_ne_nil]

/-- Neat lines are found again in their text. -/
theorem lines_joined {ls : List (List Char)} (hne : ls ≠ []) (hls : ∀ l ∈ ls, Neat l)
    (hfeed : ∀ l ∈ ls, '\n' ∉ l) : lines (joined ls) = ls := by
  rw [lines, joined, (neat_intercalate hne hls).trim, Text.lines,
    List.splitOn_intercalate _ hfeed hne]
  exact (List.map_congr_left fun l hl => (hls l hl).trim).trans (List.map_id ls)

end Script

end RoverFleet
