import RoverFleet.Proofs.Reprint
import RoverFleet.Report.Format

/-!
# Rows of words

A line of words without control characters is printed as it is by a console without colours. Such
lines, printed one after another, are found again in the printed text, and so are their words.
-/
namespace RoverFleet
open Numeric

namespace Text

/-- A text without control characters. -/
def Shown (s : List Char) : Prop := ∀ c ∈ s, 0x20 ≤ c.toNat

section Printing
variable {s : List Char}

theorem Shown.notMem (hs : Shown s) {c : Char} (hc : c.toNat < 0x20) : c ∉ s :=
  fun h => Nat.not_le.mpr hc (hs c h)

theorem Shown.filter_dropped (hs : Shown s) : s.filter (!isDropped ·) = s := by
  refine List.filter_eq_self.mpr fun c hc => ?_
  have hcode := hs c hc
  simp only [isDropped, Bool.not_eq_true', Bool.or_eq_false_iff, beq_eq_false_iff_ne,
    Bool.and_eq_false_imp, decide_eq_true_eq, decide_eq_false_iff_not]
  omega

theorem Shown.splitOn (hs : Shown s) {d : Char} (hd : d.toNat < 0x20) : s.splitOn d = [s] := by
  have h : ([d].intercalate [s]).splitOn d = [s] :=
    List.splitOn_intercalate d (by simpa using hs.notMem hd) (by simp)
  rwa [List.intercalate_singleton] at h

/-- A text without control characters is printed as it is. -/
theorem Shown.printed (hs : Shown s) : printed s = s := by
  have htabs : expandTabs s = s := by
    rw [expandTabs, hs.splitOn (by decide)]
    rfl
  rw [Text.printed, hs.filter_dropped, lines, hs.splitOn (by decide), List.map_singleton, htabs,
    List.intercalate_singleton]

theorem trimEnd_feed (hs : Neat s) : trimEnd (· = '\n') (s ++ ['\n']) = s := by
  have hlast : ∀ c ∈ s.reverse.head?, decide (c = '\n') = false := by
    intro c hc
    rw [List.head?_reverse] at hc
    have hblank := hs.last c hc
    refine decide_eq_false ?_
    rintro rfl
    cases hblank
  have hdrop : (s ++ ['\n']).reverse.dropWhile (fun c => decide (c = '\n')) = s.reverse := by
    rw [List.reverse_append, List.reverse_singleton, List.singleton_append,
      List.dropWhile_cons_of_pos (by simp), dropWhile_of_head hlast]
  rw [trimEnd, hdrop, List.reverse_reverse]

end Printing

/-- A word without control characters. -/
structure Token (w : List Char) : Prop where
  word : Word w
  shown : Shown w

/-- A line that shows the words: it has no blank at its ends and no control character. -/
structure Row (s : List Char) (ws : List (List Char)) : Prop where
  neat : Neat s
  shown : Shown s
  words : words s = ws

theorem flatMap_feed {ls : List (List Char)} (hne : ls ≠ []) :
    ls.flatMap (· ++ ['\n']) = Script.joined ls ++ ['\n'] := by
  induction ls with
  | nil => exact absurd rfl hne
  | cons l rest ih =>
    cases rest with
    | nil => simp [Script.joined]
    | cons m more =>
      rw [List.flatMap_cons, ih (by simp), Script.joined, Script.joined,
        List.intercalate_cons_cons]
      simp

theorem spaced_shown {ws : List (List Char)} (hws : ∀ w ∈ ws, Shown w) : Shown (spaced ws) := by
  induction ws with
  | nil => simp [spaced, Shown]
  | cons w rest ih =>
    simp only [List.mem_cons, forall_eq_or_imp] at hws
    cases rest with
    | nil => simpa [spaced] using hws.1
    | cons v vs =>
      rw [spaced, List.intercalate_cons_cons]
      intro c hc
      rcases List.mem_append.mp hc with hc | hc
      · rcases List.mem_append.mp hc with hc | hc
        · exact hws.1 c hc
        · rw [List.mem_singleton.mp hc]
          decide
      · exact ih hws.2 c hc

theorem spaced_row {ws : List (List Char)} (hne : ws ≠ []) (hws : ∀ w ∈ ws, Token w) :
    Row (spaced ws) ws where
  neat := spaced_neat hne fun w hw => (hws w hw).word
  shown := spaced_shown fun w hw => (hws w hw).shown
  words := words_spaced hne fun w hw => (hws w hw).word

theorem Row.feed_notMem {s : List Char} {ws : List (List Char)} (h : Row s ws) : '\n' ∉ s :=
  h.shown.notMem (by decide)

theorem letter_token (h : Heading) : Token [h.letter] where
  word := Script.letter_word h
  shown := by cases h <;> exact fun c hc => by rw [List.mem_singleton.mp hc]; decide

theorem natDigits_token (n : ℕ) : Token (natDigits n) where
  word := Script.natDigits_word n
  shown := by
    intro c hc
    have hdigit := Char.isDigit_iff_toNat.mp (Literal.natDigits_isDigit hc)
    simp only [Char.reduceToNat] at hdigit
    omega

theorem label_token (label : String) (hne : label.toList ≠ [])
    (h : label.toList.all (fun c => 0x20 < c.toNat && !isBlank c) = true) :
    Token label.toList := by
  have hchars : ∀ c ∈ label.toList, 0x20 < c.toNat ∧ isBlank c = false := by simpa using h
  exact ⟨⟨hne, fun c hc => (hchars c hc).2⟩, fun c hc => (hchars c hc).1.le⟩

end Text

namespace Console

theorem standard_lawful : standard.Lawful where
  narrow width line h := if_pos h
  soft v w line hv hw _ := by rw [standard, if_neg (by omega), standard, if_neg (by omega)]

theorem standard_plain : standard.Plain := by
  intro width line hwidth hline
  have hshown : Text.Shown line.text.toList := hline.shown
  rw [standard, if_neg (by omega), hshown.printed, ← String.toList_inj]
  simp

end Console

namespace Report

theorem isPlain_of_row {l : Line} {ws : List (List Char)} (h : Text.Row l.text.toList ws) :
    l.IsPlain :=
  ⟨h.shown, h.neat.last⟩

/-- A line without control characters is soft if it does not end in a blank. -/
theorem Line.IsPlain.isSoft {l : Line} (h : l.IsPlain) : l.IsSoft := by
  have hshown : Text.Shown l.text.toList := h.shown
  intro part hpart
  rw [hshown.filter_dropped, Text.lines, hshown.splitOn (by decide)] at hpart
  obtain rfl := List.mem_singleton.mp hpart
  exact h.last

/-- Lines of words are printed with line feeds between them. -/
theorem printLines_eq {c : Console} (hc : c.Plain) {width : ℤ} (hwidth : 1 ≤ width)
    {ls : List Line} (hls : ∀ l ∈ ls.map Line.text, ∃ ws, Text.Row l.toList ws) :
    printLines c width ls = "\n".intercalate (ls.map Line.text) := by
  have hprinted : ls.map (c width) = (ls.map Line.text).map (· ++ "\n") := by
    rw [List.map_map]
    refine List.map_congr_left fun l hl => ?_
    obtain ⟨_, hrow⟩ := hls l.text (List.mem_map_of_mem hl)
    exact hc width l hwidth (isPlain_of_row hrow)
  rw [printLines, hprinted, ← String.toList_inj, String.toList_ofList, String.toList_join]
  generalize ls.map Line.text = texts at hls
  have hlines : (texts.map (· ++ "\n")).flatMap String.toList =
      (texts.map String.toList).flatMap (· ++ ['\n']) := by
    simp [List.flatMap_map]
  rw [hlines, String.toList_intercalate]
  cases texts with
  | nil => rfl
  | cons l rest =>
    have hneat : Text.Neat (Script.joined ((l :: rest).map String.toList)) := by
      refine Text.neat_intercalate (by simp) fun t ht => ?_
      obtain ⟨m, hm, rfl⟩ := List.mem_map.mp ht
      obtain ⟨_, hrow⟩ := hls m hm
      exact hrow.neat
    rw [Text.flatMap_feed (by simp), Text.trimEnd_feed hneat]
    rfl

/-- The lines of rows are found again in their text. -/
theorem lines_rows {ls : List String} (hne : ls ≠ [])
    (hls : ∀ l ∈ ls, ∃ ws, Text.Row l.toList ws) :
    Text.lines ("\n".intercalate ls).toList = ls.map String.toList := by
  have hfeed : ∀ t ∈ ls.map String.toList, '\n' ∉ t := by
    intro t ht
    obtain ⟨l, hl, rfl⟩ := List.mem_map.mp ht
    obtain ⟨_, hrow⟩ := hls l hl
    exact hrow.feed_notMem
  rw [String.toList_intercalate, Text.lines]
  exact List.splitOn_intercalate _ hfeed (by simpa using hne)

theorem rows_ne_empty {ls : List String} (hne : ls ≠ [])
    (hls : ∀ l ∈ ls, ∃ ws, Text.Row l.toList ws) : "\n".intercalate ls ≠ "" := by
  intro hempty
  have hlines := lines_rows hne hls
  have hnil : Text.lines "".toList = [[]] := rfl
  rw [hempty, hnil] at hlines
  have hmem : [] ∈ ls.map String.toList := hlines ▸ List.mem_singleton.mpr rfl
  obtain ⟨l, hl, hl'⟩ := List.mem_map.mp hmem
  obtain ⟨_, hrow⟩ := hls l hl
  exact hrow.neat.ne hl'

theorem one_le_pageWidth {width : Option ℤ} (hwidth : ∀ n ∈ width, 0 ≤ n) :
    1 ≤ Format.pageWidth width := by
  cases width with
  | none => decide
  | some n =>
    have hn := hwidth n rfl
    simp only [Format.pageWidth]
    split_ifs <;> omega

theorem format_of_lines {r : Report} {verbose : Bool} {lines : List Line}
    (hlines : r.textLines verbose = .ok lines) (c : Console) (width : Option ℤ) :
    r.format c { verbose, width } = .ok (printLines c (Format.pageWidth width) lines) := by
  simp [format, hlines, bind, Except.bind, pure, Except.pure]

end Report

end RoverFleet
