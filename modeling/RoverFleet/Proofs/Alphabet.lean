import RoverFleet.Proofs.Acceptance
import RoverFleet.Proofs.Edits

/-!
# The characters of accepted scripts

A script that is accepted is written with the characters of number literals and the letters of
headings and commands. Letters count by their upper case, and outside ASCII the upper case of one
character only is one of those letters: that of the long s, which stands for south.
-/
namespace RoverFleet

namespace Text
variable {c d : Char} {s : List Char}

/-- Every character that is not blank belongs to a word. -/
theorem exists_word (hc : c ∈ s) (hb : isBlank c = false) : ∃ w ∈ words s, c ∈ w := by
  obtain ⟨a, b, rfl⟩ := List.append_of_mem hc
  obtain ⟨ws, w, v, vs, h⟩ := exists_words_around a b
  exact ⟨w ++ c :: v, by simp [(h c hb).1], by simp⟩

theorem mem_of_mem_consWord {w v : List Char} {ws : List (List Char)} (hw : w ∈ consWord v ws) :
    w = v ∨ w ∈ ws := by
  unfold consWord at hw
  split at hw
  · exact Or.inr hw
  · exact List.mem_cons.mp hw

theorem mem_of_mem_wordSplit :
    (∀ c ∈ (wordSplit s).1, c ∈ s) ∧ ∀ w ∈ (wordSplit s).2, ∀ c ∈ w, c ∈ s := by
  induction s with
  | nil => simp [wordSplit]
  | cons d rest ih =>
    obtain ⟨hfirst, hmore⟩ := ih
    cases hd : isBlank d with
    | true =>
      rw [wordSplit_blank hd]
      refine ⟨by simp, fun w hw c hc => List.mem_cons_of_mem d ?_⟩
      rcases mem_of_mem_consWord hw with rfl | hw
      · exact hfirst c hc
      · exact hmore w hw c hc
    | false =>
      simp only [wordSplit, hd, Bool.false_eq_true, if_false]
      refine ⟨fun c hc => ?_, fun w hw c hc => List.mem_cons_of_mem d (hmore w hw c hc)⟩
      exact List.mem_cons.mpr ((List.mem_cons.mp hc).imp_right (hfirst c))

/-- The characters of a word belong to the text. -/
theorem mem_of_mem_words {w : List Char} (hw : w ∈ words s) (hc : c ∈ w) : c ∈ s := by
  rcases mem_of_mem_consWord hw with rfl | hw
  · exact mem_of_mem_wordSplit.1 c hc
  · exact mem_of_mem_wordSplit.2 w hw c hc

theorem upper_cons (c : Char) (s : List Char) : upper (c :: s) = upperChar c ++ upper s :=
  List.flatMap_cons

/-- The runs with an ASCII upper case are those of the dotless i and of the long s. -/
theorem caseRuns_target : ∀ r ∈ caseRuns, 128 ≤ r.target ∨
    r.first = 0x131 ∧ r.last = 0x131 ∧ r.target = 0x49 ∨
    r.first = 0x17f ∧ r.last = 0x17f ∧ r.target = 0x53 := by decide +kernel

/-- Several characters that are the upper case of one are not all L, M or R. -/
theorem expandingCases_letters : ∀ e ∈ expandingCases,
    2 ≤ e.2.length ∧ ∃ u ∈ e.2, u ∉ [0x4c, 0x4d, 0x52] := by decide +kernel

/-- The upper case of a code is that of its run, several codes, or the code itself. -/
theorem upperCode_cases (code : ℕ) :
    (∃ r ∈ caseRuns, r.first ≤ code ∧ code ≤ r.last ∧
      upperCode code = [r.target + (code - r.first)]) ∨
    (∃ e ∈ expandingCases, upperCode code = e.2) ∨ upperCode code = [code] := by
  unfold upperCode
  split
  · next r hr =>
    have hcovers := List.find?_some hr
    simp only [CaseRun.covers, Bool.and_eq_true, decide_eq_true_eq] at hcovers
    exact Or.inl ⟨r, List.mem_of_find?_eq_some hr, hcovers.1.1, hcovers.1.2, rfl⟩
  · cases hl : expandingCases.lookup code with
    | none => exact Or.inr (Or.inr rfl)
    | some us =>
      obtain ⟨before, after, hsplit, -⟩ := List.lookup_eq_some_iff.mp hl
      exact Or.inr (Or.inl ⟨(code, us), by simp [hsplit], rfl⟩)

/-- Outside ASCII, only the dotless i and the long s have an upper case of one ASCII character. -/
theorem upperCode_ascii {code u : ℕ} (hcode : 128 ≤ code) (hu : u < 128)
    (h : upperCode code = [u]) : code = 0x131 ∧ u = 0x49 ∨ code = 0x17f ∧ u = 0x53 := by
  rcases upperCode_cases code with ⟨r, hr, hfirst, hlast, heq⟩ | ⟨e, he, heq⟩ | heq
  · obtain rfl := List.singleton_inj.mp (heq.symm.trans h)
    rcases caseRuns_target r hr with htarget | ⟨hf, hl, ht⟩ | ⟨hf, hl, ht⟩
    · omega
    · left; omega
    · right; omega
  · have hlen := (expandingCases_letters e he).1
    rw [← heq, h, List.length_singleton] at hlen
    omega
  · obtain rfl := List.singleton_inj.mp (heq.symm.trans h)
    omega

/-- A code that stands for an ASCII character other than the null character is its code. -/
theorem toNat_of_ofNat {n : ℕ} (h : Char.ofNat n = c) (hc : 0 < c.toNat) : n = c.toNat := by
  rw [← h, Char.toNat_ofNat] at hc ⊢
  split_ifs at hc ⊢ with hn
  · rfl
  · exact absurd hc (by decide)

/-- The characters whose upper case is an ASCII letter: the letter in either case and, where the
letter is S, the long s; likewise the dotless i, where it is I. -/
theorem upperChar_eq_singleton (h : upperChar c = [d]) (hd : d.toNat < 128) (hpos : 0 < d.toNat) :
    c.toNat < 128 ∧ c.toUpper = d ∨ c = 'ı' ∧ d = 'I' ∨ c = 'ſ' ∧ d = 'S' := by
  unfold upperChar at h
  split_ifs at h with hc
  · exact Or.inl ⟨hc, List.singleton_inj.mp h⟩
  · obtain ⟨u, hu, hud⟩ := List.map_eq_singleton_iff.mp h
    obtain rfl := toNat_of_ofNat hud hpos
    rcases upperCode_ascii (Nat.not_lt.mp hc) hd hu with ⟨hcode, hcap⟩ | ⟨hcode, hcap⟩
    · exact Or.inr (Or.inl ⟨Char.toNat_inj.mp hcode, Char.toNat_inj.mp hcap⟩)
    · exact Or.inr (Or.inr ⟨Char.toNat_inj.mp hcode, Char.toNat_inj.mp hcap⟩)

theorem upperChar_ne_nil (c : Char) : upperChar c ≠ [] := by
  unfold upperChar
  split_ifs
  · simp
  · rw [ne_eq, List.map_eq_nil_iff]
    rcases upperCode_cases c.toNat with ⟨r, -, -, -, heq⟩ | ⟨e, he, heq⟩ | heq
    · simp [heq]
    · rw [heq]
      exact List.ne_nil_of_length_pos
        (Nat.lt_of_lt_of_le Nat.two_pos (expandingCases_letters e he).1)
    · simp [heq]

/-- A text whose upper case is one character is one character. -/
theorem upper_eq_singleton (h : upper s = [d]) : ∃ c, s = [c] ∧ upperChar c = [d] := by
  cases s with
  | nil => cases h
  | cons c rest =>
    rw [upper_cons] at h
    rcases List.append_eq_singleton_iff.mp h with ⟨hc, -⟩ | ⟨hc, hrest⟩
    · exact absurd hc (upperChar_ne_nil c)
    · cases rest with
      | nil => exact ⟨c, rfl, hc⟩
      | cons e more =>
        rw [upper_cons] at hrest
        exact absurd (List.append_eq_nil_iff.mp hrest).1 (upperChar_ne_nil e)

/-- What holds of the characters with the first 128 codes holds of any ASCII character. -/
theorem forall_ascii {P : Char → Prop} (h : ∀ n : Fin 128, P (Char.ofNat n)) (hc : c.toNat < 128) :
    P c := by
  have hcode := h ⟨c.toNat, hc⟩
  rwa [Char.ofNat_toNat] at hcode

end Text

namespace Literal
open Numeric

/-- The characters of number literals. -/
def isLiteralChar (c : Char) : Bool := isHexDigit c || "+-.xXoOInfity".toList.contains c

theorem isLiteralChar_of_isDigit {c : Char} (h : c.isDigit) : isLiteralChar c := by
  simp [isLiteralChar, isHexDigit, h]

theorem isLiteralChar_ascii {c : Char} (h : isLiteralChar c) : c.toNat < 128 := by
  rcases Bool.or_eq_true_iff.mp h with h | h
  · simp only [isHexDigit, Char.isDigit, Bool.or_eq_true, Bool.and_eq_true, decide_eq_true_eq,
      ge_iff_le, UInt32.le_iff_toNat_le, Char.le_def] at h
    change ((48 ≤ c.toNat ∧ c.toNat ≤ 57) ∨ 97 ≤ c.toNat ∧ c.toNat ≤ 102) ∨
      65 ≤ c.toNat ∧ c.toNat ≤ 70 at h
    omega
  · have hmarks : ∀ c ∈ "+-.xXoOInfity".toList, c.toNat < 128 := by simp
    exact hmarks c (by simpa using h)

/-- A text is its sign, if it has one, and what follows it. -/
theorem mem_splitSign {c : Char} {s : List Char} (hc : c ∈ s) :
    c = '-' ∨ c = '+' ∨ c ∈ (splitSign s).2 := by
  unfold splitSign
  split
  · rcases List.mem_cons.mp hc with rfl | hc
    · exact Or.inl rfl
    · exact Or.inr (Or.inr hc)
  · rcases List.mem_cons.mp hc with rfl | hc
    · exact Or.inr (Or.inl rfl)
    · exact Or.inr (Or.inr hc)
  · exact Or.inr (Or.inr hc)

/-- A signed text is spelled with characters of literals if what follows the sign is. -/
theorem literalChars_signed {s : List Char} (h : ∀ c ∈ (splitSign s).2, isLiteralChar c) :
    ∀ c ∈ s, isLiteralChar c := by
  intro c hc
  rcases mem_splitSign hc with rfl | rfl | hc
  · decide
  · decide
  · exact h c hc

theorem literalChars_digits {s : List Char} (h : isDigits s = true) :
    ∀ c ∈ s, isLiteralChar c := by
  intro c hc
  simp only [isDigits, Bool.and_eq_true, List.all_eq_true] at h
  exact isLiteralChar_of_isDigit (h.2 c hc)

theorem literalChars_based {s : List Char} {l : Literal} (h : based? s = some l) :
    ∀ c ∈ s, isLiteralChar c := by
  unfold based? at h
  split at h
  · next mark digits =>
    obtain ⟨base, hbase, h⟩ := Option.bind_eq_some_iff.mp h
    split at h
    · next hdigits =>
      simp only [Bool.and_eq_true, List.all_eq_true, isDigitOf] at hdigits
      have hmark : isLiteralChar mark := by
        unfold baseOf? at hbase
        split_ifs at hbase with hx ho hb <;> simp only [Bool.or_eq_true, decide_eq_true_eq] at *
        · rcases hx with rfl | rfl <;> decide
        · rcases ho with rfl | rfl <;> decide
        · rcases hb with rfl | rfl <;> decide
      intro c hc
      simp only [List.mem_cons] at hc
      rcases hc with rfl | rfl | hc
      · decide
      · exact hmark
      · simp [isLiteralChar, (hdigits.2 c hc).1]
    · cases h
  · cases h

theorem literalChars_exponent {s : List Char} {e : ℤ} (h : exponent? s = some e) :
    ∀ c ∈ s, isLiteralChar c := by
  unfold exponent? at h
  split at h
  · simp
  · next mark s =>
    split_ifs at h with hmark
    simp only at h
    split_ifs at h with hdigits
    have hrest := literalChars_signed (literalChars_digits hdigits)
    intro c hc
    rcases List.mem_cons.mp hc with rfl | hc
    · simp only [Bool.or_eq_true, decide_eq_true_eq] at hmark
      rcases hmark with rfl | rfl <;> decide
    · exact hrest c hc

theorem mem_digits_dropWhile {c : Char} {s : List Char} (hc : c ∈ s) :
    c.isDigit ∨ c ∈ s.dropWhile Char.isDigit := by
  rw [← List.takeWhile_append_dropWhile (p := Char.isDigit) (l := s), List.mem_append] at hc
  exact hc.imp_left List.mem_takeWhile_imp

theorem mem_splitFraction {c : Char} {s : List Char} (hc : c ∈ s) :
    c = '.' ∨ c.isDigit ∨ c ∈ (splitFraction s).2 := by
  unfold splitFraction
  split
  · rcases List.mem_cons.mp hc with rfl | hc
    · exact Or.inl rfl
    · exact Or.inr (mem_digits_dropWhile hc)
  · exact Or.inr (Or.inr hc)

theorem literalChars_decimal {s : List Char} {l : Literal} (h : decimal? s = some l) :
    ∀ c ∈ s, isLiteralChar c := by
  simp only [decimal?] at h
  split_ifs at h with hempty
  obtain ⟨e, he, -⟩ := Option.map_eq_some_iff.mp h
  refine literalChars_signed fun c hc => ?_
  rcases mem_digits_dropWhile hc with hdigit | hc
  · exact isLiteralChar_of_isDigit hdigit
  · rcases mem_splitFraction hc with rfl | hdigit | hc
    · decide
    · exact isLiteralChar_of_isDigit hdigit
    · exact literalChars_exponent he c hc

theorem literalChars_infinity {s : List Char} {l : Literal} (h : infinity? s = some l) :
    ∀ c ∈ s, isLiteralChar c := by
  simp only [infinity?] at h
  split_ifs at h with hword
  refine literalChars_signed ?_
  rw [hword]
  simp [isLiteralChar]

/-- Number literals are spelled with ASCII characters. -/
theorem literalChars {w : List Char} (h : (ofChars? w).isSome) : ∀ c ∈ w, isLiteralChar c := by
  obtain ⟨l, hl⟩ := Option.isSome_iff_exists.mp h
  simp only [ofChars?, Option.or_eq_some_iff] at hl
  rcases hl with hl | ⟨-, hl | ⟨-, hl | ⟨-, hl⟩⟩⟩
  · simp only [integer?] at hl
    split at hl
    · next hdigits => exact literalChars_signed (literalChars_digits hdigits)
    · cases hl
  · exact literalChars_based hl
  · exact literalChars_decimal hl
  · exact literalChars_infinity hl

end Literal

namespace Script
open Text Numeric

/-- The letters of headings; the long s has the upper case S. -/
def headingLetters : List Char := "NESWnesw".toList ++ ['ſ']

/-- The letters of commands. -/
def commandLetters : List Char := "LRMlrm".toList

/-- A word with the upper case of a heading is one of its letters. -/
theorem heading_letter {w : List Char} (h : upper w ∈ [['N'], ['E'], ['S'], ['W']]) :
    ∃ c ∈ headingLetters, w = [c] := by
  obtain ⟨d, hd, hw⟩ : ∃ d ∈ ['N', 'E', 'S', 'W'], upper w = [d] := by
    simpa using h
  obtain ⟨c, rfl, hc⟩ := upper_eq_singleton hw
  refine ⟨c, ?_, rfl⟩
  have hascii : ∀ d ∈ ['N', 'E', 'S', 'W'], d.toNat < 128 ∧ 0 < d.toNat ∧ d ≠ 'I' := by simp
  obtain ⟨hlt, hpos, hne⟩ := hascii d hd
  rcases upperChar_eq_singleton hc hlt hpos with ⟨hlow, rfl⟩ | ⟨-, rfl⟩ | ⟨rfl, -⟩
  · have hletters : ∀ n : Fin 128, (Char.ofNat n).toUpper ∈ ['N', 'E', 'S', 'W'] →
        Char.ofNat n ∈ headingLetters := by decide +kernel
    exact forall_ascii (P := fun c => c.toUpper ∈ ['N', 'E', 'S', 'W'] → c ∈ headingLetters)
      hletters hlow hd
  · exact absurd rfl hne
  · decide

/-- A character whose upper case has letters of commands only is a letter of a command. -/
theorem command_letter {c : Char} (h : ∀ d ∈ upperChar c, d ∈ ['L', 'R', 'M']) :
    c ∈ commandLetters := by
  have hascii : ∀ d ∈ ['L', 'R', 'M'],
      d.toNat < 128 ∧ 0 < d.toNat ∧ d ≠ 'I' ∧ d ≠ 'S' ∧ d.toNat ∈ [0x4c, 0x4d, 0x52] := by simp
  have hsingle {d : Char} (hd : upperChar c = [d]) : c ∈ commandLetters := by
    have hmem : d ∈ ['L', 'R', 'M'] := h d (by simp [hd])
    obtain ⟨hlt, hpos, hi, hs, -⟩ := hascii d hmem
    rcases upperChar_eq_singleton hd hlt hpos with ⟨hlow, rfl⟩ | ⟨-, rfl⟩ | ⟨-, rfl⟩
    · have hletters : ∀ n : Fin 128, (Char.ofNat n).toUpper ∈ ['L', 'R', 'M'] →
          Char.ofNat n ∈ commandLetters := by decide +kernel
      exact forall_ascii (P := fun c => c.toUpper ∈ ['L', 'R', 'M'] → c ∈ commandLetters)
        hletters hlow hmem
    · exact absurd rfl hi
    · exact absurd rfl hs
  by_cases hc : c.toNat < 128
  · exact hsingle (if_pos hc)
  · have hupper : upperChar c = (upperCode c.toNat).map Char.ofNat := if_neg hc
    rcases upperCode_cases c.toNat with ⟨r, -, -, -, heq⟩ | ⟨e, he, heq⟩ | heq
    · exact hsingle (by rw [hupper, heq]; rfl)
    · -- one of several characters is no letter of a command
      obtain ⟨u, hu, hletter⟩ := (expandingCases_letters e he).2
      have hmem := h (Char.ofNat u) (by rw [hupper, heq]; exact List.mem_map_of_mem hu)
      obtain ⟨-, hpos, -, -, hcode⟩ := hascii _ hmem
      exact absurd (toNat_of_ofNat rfl hpos ▸ hcode) hletter
    · exact hsingle (by rw [hupper, heq]; rfl)

/-- A word that is read is a number literal. -/
theorem literalChars_of_read {w : List Char} {v : Value} (h : Literal.read w = .ok (some v)) :
    ∀ c ∈ w, Literal.isLiteralChar c := by
  refine Literal.literalChars ?_
  cases hl : Literal.ofChars? w with
  | none => simp [Literal.read, hl] at h
  | some l => rfl

/-- A line of two number literals. -/
def IsPlateauLine (line : List Char) : Prop :=
  ∃ x y, words line = [x, y] ∧ ∀ c ∈ x ++ y, Literal.isLiteralChar c

/-- A line of two number literals and the letter of a heading. -/
def IsPositionLine (line : List Char) : Prop :=
  ∃ x y d, words line = [x, y, [d]] ∧ (∀ c ∈ x ++ y, Literal.isLiteralChar c) ∧ d ∈ headingLetters

/-- A line of letters of commands. -/
def IsCommandsLine (line : List Char) : Prop := ∀ c ∈ line, c ∈ commandLetters

section Read
variable {k n : ℕ} {line : List Char}

theorem isPlateauLine_of_read {p : Plateau} (h : readPlateau k line = .ok p) :
    IsPlateauLine line := by
  obtain ⟨a, b, x, y, hw, hx, hy, -⟩ := readPlateau_ok h
  refine ⟨a, b, hw, fun c hc => ?_⟩
  rcases List.mem_append.mp hc with hc | hc
  · exact literalChars_of_read hx c hc
  · exact literalChars_of_read hy c hc

theorem isPositionLine_of_read {r : Rover} (h : readRover k n line = .ok r) :
    IsPositionLine line := by
  obtain ⟨a, b, w, x, y, hw, hx, hy, hheading, -⟩ := readRover_ok h
  obtain ⟨d, hd, rfl⟩ := heading_letter (heading_isSome.mp (Option.isSome_of_eq_some hheading))
  refine ⟨a, b, d, hw, fun c hc => ?_, hd⟩
  rcases List.mem_append.mp hc with hc | hc
  · exact literalChars_of_read hx c hc
  · exact literalChars_of_read hy c hc

theorem isCommandsLine_of_read {cs : List Command} (h : readCommands k n line = .ok cs) :
    IsCommandsLine line := fun c hc =>
  command_letter fun d hd => readCommands_ok h d (List.mem_flatMap.mpr ⟨c, hc, hd⟩)

end Read

/-- An ASCII character, or the long s. -/
def IsPlain (c : Char) : Prop := c.toNat < 128 ∨ c = 'ſ'

theorem headingLetters_plain : ∀ d ∈ headingLetters, IsPlain d := by
  have hascii : ∀ d ∈ "NESWnesw".toList, d.toNat < 128 := by simp
  intro d hd
  rcases List.mem_append.mp hd with hd | hd
  · exact Or.inl (hascii d hd)
  · exact Or.inr (List.mem_singleton.mp hd)

theorem commandLetters_ascii : ∀ d ∈ commandLetters, d.toNat < 128 := by
  simp [commandLetters]

theorem commandLetters_plain : ∀ d ∈ commandLetters, IsPlain d := fun d hd =>
  Or.inl (commandLetters_ascii d hd)

theorem IsCommandsLine.ascii {line : List Char} (h : IsCommandsLine line) :
    ∀ c ∈ line, c.toNat < 128 := fun c hc => commandLetters_ascii c (h c hc)

theorem plain_literals {x y : List Char} (h : ∀ c ∈ x ++ y, Literal.isLiteralChar c)
    {w : List Char} (hw : w ∈ [x, y]) : ∀ c ∈ w, IsPlain c := by
  intro c hc
  refine Or.inl (Literal.isLiteralChar_ascii (h c (List.mem_append.mpr ?_)))
  simp only [List.mem_cons, List.not_mem_nil, or_false] at hw
  rcases hw with rfl | rfl
  · exact Or.inl hc
  · exact Or.inr hc

section Plain
variable {line w : List Char} (hw : w ∈ words line)
include hw

theorem IsPlateauLine.plain (h : IsPlateauLine line) : ∀ c ∈ w, IsPlain c := by
  obtain ⟨x, y, hwords, hchars⟩ := h
  exact plain_literals hchars (hwords ▸ hw)

theorem IsPositionLine.plain (h : IsPositionLine line) : ∀ c ∈ w, IsPlain c := by
  obtain ⟨x, y, d, hwords, hchars, hd⟩ := h
  have hsplit : w ∈ [x, y] ∨ w = [d] := by
    simpa [hwords, or_assoc] using hw
  rcases hsplit with hliteral | rfl
  · exact plain_literals hchars hliteral
  · intro c hc
    rw [List.mem_singleton.mp hc]
    exact headingLetters_plain d hd

theorem IsCommandsLine.plain (h : IsCommandsLine line) : ∀ c ∈ w, IsPlain c := fun c hc =>
  commandLetters_plain c (h c (mem_of_mem_words hw hc))

end Plain

/-- A script that is accepted is a line of two number literals and, for each rover, a line of two
number literals and the letter of a heading, and a line of letters of commands. So all its
characters that are not blank are those of ASCII, except that a heading can be the long s. -/
theorem parse_plain {q : Parser} {text : List Char} {p : Plateau} (h : (q.parse text).2 = .ok p) :
    (∃ (first : List Char) (ps : List (List Char × List Char)),
      lines text = first :: ps.flatMap (fun pair => [pair.1, pair.2]) ∧ IsPlateauLine first ∧
      ∀ pair ∈ ps, IsPositionLine pair.1 ∧ IsCommandsLine pair.2) ∧
    ∀ c ∈ text, isBlank c = false → c.toNat < 128 ∨ c = 'ſ' := by
  obtain ⟨first, ps, start, hlines, hstart, -, hread⟩ := accepted_lines h
  have hfirst := isPlateauLine_of_read hstart
  have hpairs : ∀ pair ∈ ps, IsPositionLine pair.1 ∧ IsCommandsLine pair.2 := by
    refine ((List.forall₂_and_left (R := fun _ _ => True) ps _).mp (hread.flip.imp ?_)).1
    rintro pair r ⟨⟨k, n, hposition⟩, k', n', cs, hcommands⟩
    exact ⟨⟨isPositionLine_of_read hposition, isCommandsLine_of_read hcommands⟩, trivial⟩
  refine ⟨⟨first, ps, hlines, hfirst, hpairs⟩, fun c hc hb => ?_⟩
  -- a character that is not blank is one of a word, and this is a word of one of the lines
  obtain ⟨w, hw, hcw⟩ := exists_word hc hb
  rw [← words_lines, hlines, List.flatMap_cons, List.mem_append, List.mem_flatMap] at hw
  rcases hw with hw | ⟨line, hline, hw⟩
  · exact hfirst.plain hw c hcw
  · obtain ⟨pair, hpair, hmem⟩ := List.mem_flatMap.mp hline
    simp only [List.mem_cons, List.not_mem_nil, or_false] at hmem
    rcases hmem with rfl | rfl
    · exact (hpairs pair hpair).1.plain hw c hcw
    · exact (hpairs pair hpair).2.plain hw c hcw

theorem parse_plain_lower_case :
    let text := "0x5 5.0\n1 2 e\nlmR".toList
    (Parser.new.parse text).2 = .ok ⟨"1", ⟨5, 5⟩, [⟨"1", ⟨1, 3⟩, .east⟩]⟩ ∧
      ∀ c ∈ text, isBlank c = false → c.toNat < 128 ∨ c = 'ſ' := by
  intro text
  have h : (Parser.new.parse text).2 = .ok ⟨"1", ⟨5, 5⟩, [⟨"1", ⟨1, 3⟩, .east⟩]⟩ := by
    decide +kernel
  exact ⟨h, (parse_plain h).2⟩

/-- The long s is taken for a heading: a script is accepted that is not written in ASCII. -/
theorem accepted_long_s :
    let text := "5 5\n1 2 ſ\nL".toList
    (Parser.new.parse text).2 = .ok ⟨"1", ⟨5, 5⟩, [⟨"1", ⟨1, 2⟩, .east⟩]⟩ ∧
      'ſ' ∈ text ∧ isBlank 'ſ' = false ∧ ¬ 'ſ'.toNat < 128 := by
  intro text
  have hcode : 'ſ'.toNat = 0x17f := by simp
  exact ⟨by rfl, by simp [text], by decide +kernel, by omega⟩

end Script

end RoverFleet
