import RoverFleet.Proofs.Document

/-!
# Reading strings and numbers

What is spelled between quotes is read as the characters that it stands for, and a numeral as its
integer, whatever follows.
-/
namespace RoverFleet.Json
open Numeric

/-- What may follow a value: a blank, a comma, a closing bracket or nothing. -/
def Ends (s : List Char) : Prop :=
  ∀ c ∈ s.head?, isSpace c = true ∨ c = ',' ∨ c = ']' ∨ c = '\x7d'

section Blanks
variable {s t b : List Char}

theorem skipSpace_append (hb : Blanks b) (s : List Char) : skipSpace (b ++ s) = skipSpace s :=
  List.dropWhile_append_of_pos hb

theorem skipSpace_cons {c : Char} (hc : isSpace c = false) (s : List Char) :
    skipSpace (c :: s) = c :: s :=
  List.dropWhile_cons_of_neg (by simp [hc])

theorem skipSpace_skipSpace (s : List Char) : skipSpace (skipSpace s) = skipSpace s := by
  induction s with
  | nil => rfl
  | cons c rest ih =>
    cases hc : isSpace c with
    | true =>
      have hskip : skipSpace (c :: rest) = skipSpace rest := List.dropWhile_cons_of_pos hc
      rw [hskip, ih]
    | false => rw [skipSpace_cons hc, skipSpace_cons hc]

theorem ends_nil : Ends [] := by simp [Ends]

theorem Ends.of_blanks (hb : Blanks b) (hs : Ends s) : Ends (b ++ s) := by
  cases b with
  | nil => exact hs
  | cons c rest =>
    intro d hd
    obtain rfl : c = d := by simpa using hd
    exact Or.inl (hb c (by simp))

theorem ends_cons {c : Char} (hc : c = ',' ∨ c = ']' ∨ c = '\x7d') : Ends (c :: s) := by
  intro d hd
  obtain rfl : c = d := by simpa using hd
  exact Or.inr hc

theorem Ends.head (hs : Ends s) {c : Char} (hc : c ∈ s.head?) :
    c.isDigit = false ∧ c ≠ '.' ∧ isExponentMark c = false := by
  have hmarks : ∀ d ∈ [' ', '\t', '\n', '\r', ',', ']', '\x7d'],
      d.isDigit = false ∧ d ≠ '.' ∧ isExponentMark d = false := by simp [isExponentMark]
  refine hmarks c ?_
  rcases hs c hc with h | h | h | h
  · simp only [isSpace, Bool.or_eq_true, decide_eq_true_eq] at h
    rcases h with ((h | h) | h) | h <;> simp [h]
  · simp [h]
  · simp [h]
  · simp [h]

end Blanks

section Strings
variable {fuel : ℕ} {rest : List Char}

theorem readUnit_unit16 {digits : List Char} {unit : ℕ} (h : Unit16 digits unit)
    (rest : List Char) : readUnit (digits ++ rest) = some (unit, rest) := by
  match digits, h.length with
  | [a, b, c, d], _ =>
    have hex (x : Char) (hx : x ∈ [a, b, c, d]) : hexValue? x = some (digitValue x) :=
      if_pos (h.digit x hx)
    have hvalue : (digitValue a * 16 + digitValue b) * 256 + digitValue c * 16 + digitValue d =
        unit := by
      rw [← h.value]
      simp only [ofDigits, List.foldl_cons, List.foldl_nil]
      omega
    simp [readUnit, hex, hvalue]

theorem toNat_not_surrogate (c : Char) : c.toNat < 0xd800 ∨ 0xe000 ≤ c.toNat := by
  rcases c.valid with h | h
  · exact Or.inl h
  · exact Or.inr h.1

/-- A character stands for itself or is spelled with a backslash. -/
theorem Spells.head {s : List Char} {c : Char} (h : Spells s c) :
    (s = [c] ∧ c ≠ '"' ∧ c ≠ '\\' ∧ 0x20 ≤ c.toNat) ∨ ∃ t, s = '\\' :: t := by
  cases h with
  | plain hquote hslash hcontrol => exact Or.inl ⟨rfl, hquote, hslash, hcontrol⟩
  | short _ => exact Or.inr ⟨_, rfl⟩
  | unit _ => exact Or.inr ⟨_, rfl⟩
  | pair _ _ _ => exact Or.inr ⟨_, rfl⟩

theorem readString_plain {c : Char} (hquote : c ≠ '"') (hslash : c ≠ '\\')
    (hcontrol : 0x20 ≤ c.toNat) (s : List Char) :
    readString (fuel + 1) (c :: s) =
      (readString fuel s).bind fun p => some (c :: p.1, p.2) := by
  rw [readString, if_neg (Nat.not_lt.mpr hcontrol)]
  · rfl
  · exact hquote
  · exact hslash

theorem readEscapedCode_unit {digits : List Char} {c : Char} (h : Unit16 digits c.toNat)
    (rest : List Char) : readEscapedCode (digits ++ rest) = some (c, rest) := by
  have hc := toNat_not_surrogate c
  have hhigh : ¬ (0xd800 ≤ c.toNat ∧ c.toNat < 0xdc00) := by omega
  have hlow : ¬ (0xdc00 ≤ c.toNat ∧ c.toNat < 0xe000) := by omega
  simp [readEscapedCode, readUnit_unit16 h, hhigh, hlow, Char.ofNat_toNat]

theorem readEscapedCode_pair {high low : List Char} {unit next : ℕ} (hhigh : Unit16 high unit)
    (hlow : Unit16 low next) (hunit : 0xd800 ≤ unit ∧ unit < 0xdc00)
    (hnext : 0xdc00 ≤ next ∧ next < 0xe000) (rest : List Char) :
    readEscapedCode (high ++ '\\' :: 'u' :: (low ++ rest)) =
      some (Char.ofNat (0x10000 + (unit - 0xd800) * 0x400 + (next - 0xdc00)), rest) := by
  simp [readEscapedCode, readUnit_unit16 hhigh, readUnit_unit16 hlow, hunit, hnext]

/-- Behind a backslash every spelling of a character is read as it. -/
theorem readEscape_spells {s : List Char} {c : Char} (h : Spells ('\\' :: s) c)
    (rest : List Char) : readEscape (s ++ rest) = some (c, rest) := by
  generalize hs : '\\' :: s = t at h
  cases h with
  | plain hquote hslash hcontrol =>
    obtain ⟨rfl, -⟩ := List.cons.inj hs
    exact absurd rfl hslash
  | @short mark c hmark =>
    obtain ⟨-, rfl⟩ := List.cons.inj hs
    simp only [shortEscapes, List.mem_cons, List.not_mem_nil, or_false, Prod.mk.injEq] at hmark
    rcases hmark with ⟨rfl, rfl⟩ | ⟨rfl, rfl⟩ | ⟨rfl, rfl⟩ | ⟨rfl, rfl⟩ | ⟨rfl, rfl⟩ | ⟨rfl, rfl⟩ |
      ⟨rfl, rfl⟩ | ⟨rfl, rfl⟩ <;> rfl
  | @unit digits c hunit =>
    obtain ⟨-, rfl⟩ := List.cons.inj hs
    exact readEscapedCode_unit hunit rest
  | @pair high low c hc hhigh hlow =>
    obtain ⟨-, rfl⟩ := List.cons.inj hs
    have hmax := toNat_lt c
    have hcode : 0x10000 + (0xd800 + (c.toNat - 0x10000) / 0x400 - 0xd800) * 0x400 +
        (0xdc00 + (c.toNat - 0x10000) % 0x400 - 0xdc00) = c.toNat := by omega
    have hread := readEscapedCode_pair hhigh hlow (by omega) (by omega) rest
    rw [hcode, Char.ofNat_toNat] at hread
    have htext : 'u' :: high ++ '\\' :: 'u' :: low ++ rest =
        'u' :: (high ++ '\\' :: 'u' :: (low ++ rest)) := by simp
    rw [← hread]
    exact congrArg readEscape htext

theorem readString_quoted {s cs : List Char} (h : Quoted s cs) (rest : List Char) {fuel : ℕ}
    (hfuel : s.length < fuel) : readString fuel (s ++ '"' :: rest) = some (cs, rest) := by
  induction h generalizing fuel with
  | nil =>
    obtain ⟨fuel, rfl⟩ := Nat.exists_eq_succ_of_ne_zero (Nat.ne_of_gt hfuel)
    rfl
  | @cons s t cs c hc ht ih =>
    rw [List.length_append] at hfuel
    obtain ⟨fuel, rfl⟩ := Nat.exists_eq_succ_of_ne_zero (Nat.ne_of_gt (Nat.zero_lt_of_lt hfuel))
    rcases hc.head with ⟨rfl, hquote, hslash, hcontrol⟩ | ⟨s', rfl⟩
    · rw [List.length_singleton] at hfuel
      have htail : readString fuel (t ++ '"' :: rest) = some (cs, rest) := ih (by omega)
      simp [readString_plain hquote hslash hcontrol, htail]
    · rw [List.length_cons] at hfuel
      have htail : readString fuel (t ++ '"' :: rest) = some (cs, rest) := ih (by omega)
      simp [readString, readEscape_spells hc, htail]

end Strings

section Numbers
variable {digits rest : List Char}

theorem starts_ne {c d : Char} (h : c ≠ d) (s t : List Char) : c :: s ≠ d :: t :=
  fun heq => h (List.cons.inj heq).1

theorem takeWhile_digits (hd : ∀ c ∈ digits, c.isDigit = true) (hr : Ends rest) :
    (digits ++ rest).takeWhile Char.isDigit = digits := by
  have hrest : rest.takeWhile Char.isDigit = [] := by
    cases rest with
    | nil => rfl
    | cons c rest => exact List.takeWhile_cons_of_neg (by simp [(hr.head (c := c) rfl).1])
  rw [List.takeWhile_append_of_pos hd, hrest, List.append_nil]

theorem dropWhile_digits (hd : ∀ c ∈ digits, c.isDigit = true) (hr : Ends rest) :
    (digits ++ rest).dropWhile Char.isDigit = rest := by
  rw [List.dropWhile_append_of_pos hd]
  cases rest with
  | nil => rfl
  | cons c rest => exact List.dropWhile_cons_of_neg (by simp [(hr.head (c := c) rfl).1])

theorem readWhole_whole (h : Whole digits) (hr : Ends rest) :
    readWhole (digits ++ rest) = some (digits, rest) := by
  have htake := takeWhile_digits h.digit hr
  have hdrop := dropWhile_digits h.digit hr
  match digits, h with
  | [], h => exact absurd rfl h.ne
  | c :: more, h =>
    by_cases hc : c = '0'
    · subst hc
      obtain rfl : more = [] := (List.cons.inj (h.leading rfl)).2
      rfl
    · rw [List.cons_append] at htake hdrop ⊢
      rw [readWhole, htake, hdrop]
      · rfl
      · exact starts_ne hc _

theorem readFraction_ends (hr : Ends rest) : readFraction rest = ([], rest) := by
  cases rest with
  | nil => rfl
  | cons c rest =>
    rw [readFraction]
    exact starts_ne (hr.head rfl).2.1 _

theorem readExponent_ends (hr : Ends rest) : readExponent rest = (none, rest) := by
  cases rest with
  | nil => rfl
  | cons c rest => simp [readExponent, (hr.head (c := c) rfl).2.2]

theorem readMagnitude_whole (negative : Bool) (h : Whole digits) (hr : Ends rest) :
    readMagnitude none negative (digits ++ rest) =
      some (.int (negateIf negative (ofDigits 10 digits)), rest) := by
  simp [readMagnitude, readWhole_whole h hr, readFraction_ends hr, readExponent_ends hr]

/-- A numeral starts with a digit or a minus. -/
theorem Numeral.head {s : List Char} {n : ℤ} (h : Numeral s n) :
    ∃ c t, s = c :: t ∧ (c.isDigit = true ∨ c = '-') := by
  cases h with
  | natural h =>
    match s, h with
    | [], h => exact absurd rfl h.ne
    | c :: t, h => exact ⟨c, t, rfl, Or.inl (h.digit c (by simp))⟩
  | negative h => exact ⟨'-', _, rfl, Or.inr rfl⟩

theorem readNumber_numeral {s : List Char} {n : ℤ} (h : Numeral s n) (hr : Ends rest) :
    readNumber none (s ++ rest) = some (.int n, rest) := by
  cases h with
  | natural h =>
    have hread := readMagnitude_whole false h hr
    match s, h with
    | [], h => exact absurd rfl h.ne
    | c :: more, h =>
      have hdigit : c.isDigit = true := h.digit c (by simp)
      have hc : c ≠ '-' := by
        rintro rfl
        cases hdigit
      rw [List.cons_append, readNumber]
      · exact hread
      · exact starts_ne hc _
  | @negative digits h =>
    have hread := readMagnitude_whole true h hr
    have hword :
        readWord "-Infinity" (.double (.infinity true)) ('-' :: digits ++ rest) = none := by
      match digits, h with
      | [], h => exact absurd rfl h.ne
      | c :: more, h =>
        have hdigit : c.isDigit = true := h.digit c (by simp)
        have hc : c ≠ 'I' := by
          rintro rfl
          cases hdigit
        simp [readWord, hc.symm]
    rw [List.cons_append, readNumber, ← List.cons_append, hword, Option.none_or]
    exact hread

theorem numeral_start_ne {c d : Char} (hc : c.isDigit = true ∨ c = '-') (hd : d.isDigit = false)
    (hminus : d ≠ '-') : c ≠ d := by
  rintro rfl
  rcases hc with hc | hc
  · simp [hd] at hc
  · exact hminus hc

theorem readValue_number (limit : Option ℕ) (fuel : ℕ) {c : Char}
    (hc : c.isDigit = true ∨ c = '-') (s : List Char) :
    readValue limit (fuel + 1) (c :: s) = readNumber limit (c :: s) := by
  have hne (d : Char) (hd : d.isDigit = false) (hminus : d ≠ '-') (t : List Char) :
      c :: s ≠ d :: t := starts_ne (numeral_start_ne hc hd hminus) s t
  rw [readValue]
  · exact hne '"' rfl (by decide)
  · exact hne '[' rfl (by decide)
  · exact hne '\x7b' rfl (by decide)
  · exact hne 'n' rfl (by decide)
  · exact hne 't' rfl (by decide)
  · exact hne 'f' rfl (by decide)
  · exact hne 'N' rfl (by decide)
  · exact hne 'I' rfl (by decide)

end Numbers

end RoverFleet.Json
