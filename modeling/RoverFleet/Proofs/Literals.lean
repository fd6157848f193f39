import RoverFleet.Proofs.Grammar

/-!
# Words are read by the grammar

A word is read as the integer that it writes, as a binary64 number if it is a decimal or an
infinity, and as none if it is not of the grammar. A row of decimal digits beyond the digit limit is
an error.
-/
namespace RoverFleet.Literal
open Numeric

section Reading
variable {w : List Char} {k m : ℕ} {n e : ℤ} {negative : Bool}

theorem read_of_ofChars? {l : Literal} (h : ofChars? w = some l) :
    read w = l.value.map some := by
  simp only [read, h]
  cases l.value with
  | error e => rfl
  | ok v => rfl

theorem read_integer (h : IntegerWord w k n) :
    read w = if digitLimit < k then .error (.reading k) else .ok (some (.int n)) := by
  obtain ⟨l, hl, hvalue⟩ := integer?_of_word h
  rw [read_of_ofChars? (ofChars?_of_integer? hl), hvalue]
  split_ifs
  · rfl
  · rfl

theorem read_based {n : ℕ} (h : BasedWord w n) : read w = .ok (some (.int n)) := by
  obtain ⟨l, hl, hvalue⟩ := based?_of_word h
  have hinteger : integer? w = none := (h.unlike .absent).1
  have hchars : ofChars? w = some l := by simp [ofChars?, hinteger, hl]
  rw [read_of_ofChars? hchars, hvalue]
  rfl

theorem read_decimal (hinteger : ∀ k n, ¬ IntegerWord w k n) (h : DecimalWord w negative m e) :
    read w = .ok (some (.double (.ofDecimal negative m e))) := by
  obtain ⟨l, hl, hvalue⟩ := decimal?_of_word h
  have hrow : integer? w = none := by
    rw [Option.eq_none_iff_forall_not_mem]
    intro l hl
    obtain ⟨k, n, hword⟩ := word_of_integer? hl
    exact hinteger k n hword
  have hbased : based? w = none := by
    rw [Option.eq_none_iff_forall_not_mem]
    intro l' hl'
    obtain ⟨n, hword⟩ := word_of_based? hl'
    have hnone : decimal? w = none := (hword.unlike .absent).2
    rw [hnone] at hl
    cases hl
  have hchars : ofChars? w = some l := by simp [ofChars?, hrow, hbased, hl]
  rw [read_of_ofChars? hchars, hvalue]
  rfl

theorem read_infinity (h : InfinityWord w negative) :
    read w = .ok (some (.double (.infinity negative))) := by
  obtain ⟨hrow, hbased, hdecimal⟩ := h.unlike
  have hchars : ofChars? w = some (.infinity negative) := by
    simp [ofChars?, hrow, hbased, hdecimal, infinity?_of_word h]
  rw [read_of_ofChars? hchars]
  rfl

/-- A word is of one of the four kinds, or it is not read as a number. -/
theorem kinds (w : List Char) :
    (∃ k n, IntegerWord w k n) ∨ (∃ n, BasedWord w n) ∨
      ((∀ k n, ¬ IntegerWord w k n) ∧ ∃ negative m e, DecimalWord w negative m e) ∨
      (∃ negative, InfinityWord w negative) ∨ read w = .ok none := by
  cases hl : ofChars? w with
  | none =>
    have hread : read w = .ok none := by simp only [read, hl]
    exact .inr (.inr (.inr (.inr hread)))
  | some l =>
    simp only [ofChars?, Option.or_eq_some_iff] at hl
    rcases hl with hl | ⟨hrow, hl | ⟨-, hl | ⟨-, hl⟩⟩⟩
    · exact .inl (word_of_integer? hl)
    · exact .inr (.inl (word_of_based? hl))
    · refine .inr (.inr (.inl ⟨?_, word_of_decimal? hl⟩))
      intro k n hword
      obtain ⟨l', hl', -⟩ := integer?_of_word hword
      rw [hrow] at hl'
      cases hl'
    · exact .inr (.inr (.inr (.inl (word_of_infinity? hl))))

theorem read_int_iff : read w = .ok (some (.int n)) ↔
    (∃ k ≤ digitLimit, IntegerWord w k n) ∨ ∃ m : ℕ, BasedWord w m ∧ n = m := by
  constructor
  · intro h
    rcases kinds w with ⟨k, n', hw⟩ | ⟨m, hw⟩ | ⟨hno, b, m, e, hw⟩ | ⟨b, hw⟩ | hw
    · rw [read_integer hw] at h
      split_ifs at h with hk
      cases h
      exact .inl ⟨k, Nat.le_of_not_lt hk, hw⟩
    · rw [read_based hw] at h
      cases h
      exact .inr ⟨m, hw, rfl⟩
    · rw [read_decimal hno hw] at h
      cases h
    · rw [read_infinity hw] at h
      cases h
    · rw [hw] at h
      cases h
  · rintro (⟨k, hk, hw⟩ | ⟨m, hw, rfl⟩)
    · rw [read_integer hw]
      exact if_neg (Nat.not_lt.mpr hk)
    · exact read_based hw

theorem read_error_iff {l : DigitLimit} : read w = .error l ↔
    ∃ k n, IntegerWord w k n ∧ digitLimit < k ∧ l = .reading k := by
  constructor
  · intro h
    rcases kinds w with ⟨k, n, hw⟩ | ⟨m, hw⟩ | ⟨hno, b, m, e, hw⟩ | ⟨b, hw⟩ | hw
    · rw [read_integer hw] at h
      split_ifs at h with hk
      cases h
      exact ⟨k, n, hw, hk, rfl⟩
    · rw [read_based hw] at h
      cases h
    · rw [read_decimal hno hw] at h
      cases h
    · rw [read_infinity hw] at h
      cases h
    · rw [hw] at h
      cases h
  · rintro ⟨k, n, hw, hk, rfl⟩
    rw [read_integer hw]
    exact if_pos hk

/-- A word that is read as something else than an integer is none. -/
theorem not_integer_of_read {v : Option Value} (h : read w = .ok v) (hv : ∀ n, v ≠ some (.int n)) :
    (∀ k n, ¬ IntegerWord w k n) ∧ ∀ n, ¬ BasedWord w n := by
  constructor
  · intro k n hw
    rw [read_integer hw] at h
    split_ifs at h
    cases h
    exact hv n rfl
  · intro n hw
    rw [read_based hw] at h
    cases h
    exact hv n rfl

theorem read_double_iff : (∃ x, read w = .ok (some (.double x))) ↔
    (∀ k n, ¬ IntegerWord w k n) ∧ (∀ n, ¬ BasedWord w n) ∧
      ((∃ b m e, DecimalWord w b m e) ∨ ∃ b, InfinityWord w b) := by
  constructor
  · rintro ⟨x, h⟩
    obtain ⟨hinteger, hbased⟩ := not_integer_of_read h nofun
    refine ⟨hinteger, hbased, ?_⟩
    rcases kinds w with ⟨k, n, hw⟩ | ⟨m, hw⟩ | ⟨-, hw⟩ | hw | hw
    · exact absurd hw (hinteger k n)
    · exact absurd hw (hbased m)
    · exact .inl hw
    · exact .inr hw
    · rw [hw] at h
      cases h
  · rintro ⟨hinteger, -, ⟨b, m, e, hw⟩ | ⟨b, hw⟩⟩
    · exact ⟨_, read_decimal hinteger hw⟩
    · exact ⟨_, read_infinity hw⟩

theorem read_none_iff : read w = .ok none ↔
    (∀ k n, ¬ IntegerWord w k n) ∧ (∀ n, ¬ BasedWord w n) ∧
      (∀ b m e, ¬ DecimalWord w b m e) ∧ ∀ b, ¬ InfinityWord w b := by
  constructor
  · intro h
    obtain ⟨hinteger, hbased⟩ := not_integer_of_read h nofun
    refine ⟨hinteger, hbased, ?_, ?_⟩
    · intro b m e hw
      rw [read_decimal hinteger hw] at h
      cases h
    · intro b hw
      rw [read_infinity hw] at h
      cases h
  · rintro ⟨hinteger, hbased, hdecimal, hinfinity⟩
    rcases kinds w with ⟨k, n, hw⟩ | ⟨m, hw⟩ | ⟨-, b, m, e, hw⟩ | ⟨b, hw⟩ | hw
    · exact absurd hw (hinteger k n)
    · exact absurd hw (hbased m)
    · exact absurd hw (hdecimal b m e)
    · exact absurd hw (hinfinity b)
    · exact hw

/-- A word with a character that no literal has is not read as a number. -/
theorem read_foreign {c : Char} (hc : c ∈ w) (hforeign : isLiteralChar c = false) :
    read w = .ok none := by
  have hchars : ofChars? w = none := by
    rw [← Option.not_isSome_iff_eq_none]
    intro h
    rw [literalChars h c hc] at hforeign
    cases hforeign
  simp only [read, hchars]

theorem read_signed_based {sign : List Char} (hsign : Sign sign negative) (hne : sign ≠ [])
    (h : BasedWord w m) : read (sign ++ w) = .ok none := by
  obtain ⟨hinteger, hdecimal⟩ := h.unlike hsign
  obtain ⟨hbased, hinfinity⟩ := h.signed hsign hne
  have hchars : ofChars? (sign ++ w) = none := by
    simp [ofChars?, hinteger, hbased, hdecimal, hinfinity]
  simp only [read, hchars]

theorem row_toDigits {base : ℕ} (hlow : 1 < base) (hhigh : base ≤ 16) (n : ℕ) :
    Row base (Nat.toDigits base n) n := by
  obtain ⟨hdigits, hvalue⟩ := toDigits_spec hlow hhigh n
  refine row_iff.mpr ⟨Nat.toDigits_ne_nil, ?_, hvalue⟩
  intro c hc
  simpa [isDigitOf] using hdigits c hc

theorem integerWord_intChars (n : ℤ) : IntegerWord (intChars n) (natDigits n.natAbs).length n := by
  have hrow : Row 10 (natDigits n.natAbs) n.natAbs := row_toDigits (by decide) (by decide) _
  unfold intChars
  split_ifs with hneg
  · have hword := IntegerWord.mk .minus hrow
    have hn : (if true then -(n.natAbs : ℤ) else n.natAbs) = n := by
      rw [if_pos rfl]
      omega
    rwa [hn] at hword
  · have hword := IntegerWord.mk .absent hrow
    have hn : (if false then -(n.natAbs : ℤ) else n.natAbs) = n := by
      rw [if_neg Bool.false_ne_true]
      omega
    rwa [hn] at hword

theorem read_intChars (h : n.natAbs < 10 ^ digitLimit) :
    read (intChars n) = .ok (some (.int n)) := by
  have hlength : (natDigits n.natAbs).length ≤ digitLimit :=
    (Nat.length_toDigits_le_iff (by decide) (by decide)).mpr h
  exact read_int_iff.mpr (.inl ⟨_, hlength, integerWord_intChars n⟩)

theorem read_marked {mark : Char} {base : ℕ} (hmark : (mark, base) ∈ marks) (n : ℕ) :
    read ('0' :: mark :: Nat.toDigits base n) = .ok (some (.int n)) := by
  have hbases : ∀ p ∈ marks, 1 < p.2 ∧ p.2 ≤ 16 := by decide
  obtain ⟨hlow, hhigh⟩ := hbases _ hmark
  exact read_based (.mk hmark (row_toDigits hlow hhigh n))

end Reading

/-- A word is read as an integer if it is a row of decimal digits within the limit, with or without
a sign, or a row of digits of another base behind its mark, and then as the integer that it writes;
a longer row of decimal digits is an error. It is read as a binary64 number if it is no such row but
a decimal or an infinity, and as none otherwise, as with a character that no literal has or with a
sign before the mark of a base. So the decimal text of an integer within the limit is read as the
integer, and digits of another base behind its mark are read at any length. -/
theorem read_iff_grammar (w : List Char) :
    (∀ n, read w = .ok (some (.int n)) ↔
      (∃ k ≤ digitLimit, IntegerWord w k n) ∨ ∃ m : ℕ, BasedWord w m ∧ n = m) ∧
    (∀ l, read w = .error l ↔ ∃ k n, IntegerWord w k n ∧ digitLimit < k ∧ l = .reading k) ∧
    ((∃ x, read w = .ok (some (.double x))) ↔
      (∀ k n, ¬ IntegerWord w k n) ∧ (∀ n, ¬ BasedWord w n) ∧
        ((∃ b m e, DecimalWord w b m e) ∨ ∃ b, InfinityWord w b)) ∧
    (read w = .ok none ↔
      (∀ k n, ¬ IntegerWord w k n) ∧ (∀ n, ¬ BasedWord w n) ∧
        (∀ b m e, ¬ DecimalWord w b m e) ∧ ∀ b, ¬ InfinityWord w b) ∧
    ((∃ c ∈ w, isLiteralChar c = false) → read w = .ok none) ∧
    (∀ sign b m, Sign sign b → sign ≠ [] → BasedWord w m → read (sign ++ w) = .ok none) ∧
    (∀ n : ℤ, n.natAbs < 10 ^ digitLimit → read (intChars n) = .ok (some (.int n))) ∧
    ∀ (n base : ℕ) (mark : Char), (mark, base) ∈ marks →
      read ('0' :: mark :: Nat.toDigits base n) = .ok (some (.int n)) := by
  refine ⟨fun n => read_int_iff, fun l => read_error_iff, read_double_iff, read_none_iff,
    ?_, ?_, ?_, ?_⟩
  · rintro ⟨c, hc, hforeign⟩
    exact read_foreign hc hforeign
  · intro sign b m hsign hne hw
    exact read_signed_based hsign hne hw
  · intro n h
    exact read_intChars h
  · intro n base mark hmark
    exact read_marked hmark n

theorem read_iff_grammar_leading_zeros :
    IntegerWord ['+', '0', '0', '7'] 3 7 ∧ read ['+', '0', '0', '7'] = .ok (some (.int 7)) ∧
      ('٣' ∈ ['1', '٣'] ∧ isLiteralChar '٣' = false) ∧ read ['1', '٣'] = .ok none ∧
      BasedWord ['0', 'X', '1', 'f'] 31 ∧ read (['-'] ++ ['0', 'X', '1', 'f']) = .ok none ∧
      (-9 : ℤ).natAbs < 10 ^ digitLimit ∧ read (intChars (-9)) = .ok (some (.int (-9))) ∧
      ('o', 8) ∈ marks ∧ read ('0' :: 'o' :: Nat.toDigits 8 511) = .ok (some (.int 511)) := by
  have hrow : Row 10 ['0', '0', '7'] 7 :=
    row_iff.mpr ⟨nofun, List.all_eq_true.mp (by decide), rfl⟩
  have hrow' : Row 16 ['1', 'f'] 31 :=
    row_iff.mpr ⟨nofun, List.all_eq_true.mp (by decide), rfl⟩
  have hseven : IntegerWord ['+', '0', '0', '7'] 3 7 := .mk .plus hrow
  have hbased : BasedWord ['0', 'X', '1', 'f'] 31 := .mk (by decide) hrow'
  have hforeign : '٣' ∈ ['1', '٣'] ∧ isLiteralChar '٣' = false := by decide
  have hnine : (-9 : ℤ).natAbs < 10 ^ digitLimit := by
    calc (-9 : ℤ).natAbs < 10 ^ 1 := by decide
      _ ≤ 10 ^ digitLimit := Nat.pow_le_pow_right (by decide) (by decide)
  refine ⟨hseven, ?_, hforeign, ?_, hbased, ?_, hnine, ?_, by decide, ?_⟩
  · exact ((read_iff_grammar _).1 7).mpr (.inl ⟨3, by decide, hseven⟩)
  · exact (read_iff_grammar _).2.2.2.2.1 ⟨_, hforeign⟩
  · exact (read_iff_grammar _).2.2.2.2.2.1 _ true 31 .minus (by decide) hbased
  · exact (read_iff_grammar []).2.2.2.2.2.2.1 (-9) hnine
  · exact (read_iff_grammar []).2.2.2.2.2.2.2 511 8 'o' (by decide)

example : ["nan", "inf", "infinity", "1_0", " 5", "5\n", "0x", ".", "e5", "1,5", ""].all
    (fun s => (ofChars? s.toList).isNone) = true := by decide +kernel

end RoverFleet.Literal
