import RoverFleet.Proofs.Alphabet

/-!
# The grammar of number literals

The words that are number literals, with what they write: integers of decimal digits, integers of
digits of another base behind its mark, decimals with a point or an exponent, and infinities. Each
recogniser accepts the words of its kind, and takes from them what they write.
-/
namespace RoverFleet.Literal
open Numeric

/-- The character stands for the digit, in lower or in upper case. -/
def Stands (c : Char) (d : ℕ) : Prop := d < 16 ∧ (c = d.digitChar ∨ c = d.digitChar.toUpper)

/-- One or more digits of a base, the most significant one first, that write `n`. -/
structure Row (base : ℕ) (s : List Char) (n : ℕ) : Prop where
  ne : s ≠ []
  writes : ∃ ds, List.Forall₂ Stands s ds ∧ (∀ d ∈ ds, d < base) ∧ Nat.ofDigits base ds.reverse = n

/-- A minus, a plus or nothing, and whether it is the minus. -/
inductive Sign : List Char → Bool → Prop
  | absent : Sign [] false
  | plus : Sign ['+'] false
  | minus : Sign ['-'] true

/-- A word of `k` decimal digits, with or without a sign, that writes `n`. -/
inductive IntegerWord : List Char → ℕ → ℤ → Prop
  | mk {sign digits : List Char} {negative : Bool} {m : ℕ} (hsign : Sign sign negative)
      (hrow : Row 10 digits m) :
      IntegerWord (sign ++ digits) digits.length (if negative then -(m : ℤ) else m)

/-- The marks behind a zero and the bases that they stand for. -/
def marks : List (Char × ℕ) := [('x', 16), ('X', 16), ('o', 8), ('O', 8), ('b', 2), ('B', 2)]

/-- A zero, the mark of a base and digits of that base. -/
inductive BasedWord : List Char → ℕ → Prop
  | mk {mark : Char} {base n : ℕ} {digits : List Char} (hmark : (mark, base) ∈ marks)
      (hrow : Row base digits n) : BasedWord ('0' :: mark :: digits) n

/-- Digits of which the last ones, as many as told, may stand behind a point. -/
inductive Mantissa : List Char → List Char → ℕ → Prop
  | whole (digits : List Char) : Mantissa digits digits 0
  | point (whole fraction : List Char) :
      Mantissa (whole ++ '.' :: fraction) (whole ++ fraction) fraction.length

/-- Nothing, or a mark, a sign and digits. -/
inductive Exponent : List Char → ℤ → Prop
  | absent : Exponent [] 0
  | mk {mark : Char} {sign digits : List Char} {negative : Bool} {m : ℕ}
      (hmark : mark = 'e' ∨ mark = 'E') (hsign : Sign sign negative) (hrow : Row 10 digits m) :
      Exponent (mark :: (sign ++ digits)) (if negative then -(m : ℤ) else m)

/-- A decimal that writes `m * 10 ^ e`, or its opposite behind a minus. -/
inductive DecimalWord : List Char → Bool → ℕ → ℤ → Prop
  | mk {sign mantissa digits tail : List Char} {negative : Bool} {m places : ℕ} {e : ℤ}
      (hsign : Sign sign negative) (hmantissa : Mantissa mantissa digits places)
      (hrow : Row 10 digits m) (htail : Exponent tail e) :
      DecimalWord (sign ++ (mantissa ++ tail)) negative m (e - places)

inductive InfinityWord : List Char → Bool → Prop
  | mk {sign : List Char} {negative : Bool} (hsign : Sign sign negative) :
      InfinityWord (sign ++ "Infinity".toList) negative

section Rows
variable {c : Char} {s : List Char} {base n d : ℕ}

theorem stands_iff : Stands c d ↔ isHexDigit c = true ∧ digitValue c = d := by
  constructor
  · have hdigits : ∀ d < 16, isHexDigit d.digitChar = true ∧ digitValue d.digitChar = d ∧
        isHexDigit d.digitChar.toUpper = true ∧ digitValue d.digitChar.toUpper = d := by decide
    rintro ⟨hd, rfl | rfl⟩
    · exact ⟨(hdigits d hd).1, (hdigits d hd).2.1⟩
    · exact (hdigits d hd).2.2
  · rintro ⟨hc, rfl⟩
    have hascii : c.toNat < 128 := isLiteralChar_ascii (by simp [isLiteralChar, hc])
    have hcodes : ∀ n : Fin 128, isHexDigit (Char.ofNat n) = true →
        digitValue (Char.ofNat n) < 16 ∧ (Char.ofNat n = (digitValue (Char.ofNat n)).digitChar ∨
          Char.ofNat n = (digitValue (Char.ofNat n)).digitChar.toUpper) := by decide +kernel
    exact Text.forall_ascii (P := fun c => isHexDigit c = true → Stands c (digitValue c)) hcodes
      hascii hc

/-- What a row of digits writes is its positional value. -/
theorem ofDigits_eq (base : ℕ) (s : List Char) :
    ofDigits base s = Nat.ofDigits base (s.map digitValue).reverse := by
  induction s using List.reverseRecOn with
  | nil => rfl
  | append_singleton s c ih =>
    have hfold : ofDigits base (s ++ [c]) = ofDigits base s * base + digitValue c := by
      simp [ofDigits, List.foldl_append]
    rw [hfold, ih, List.map_append, List.reverse_append, List.map_singleton, List.reverse_singleton,
      List.singleton_append, Nat.ofDigits_cons]
    ring

theorem forall₂_stands {ds : List ℕ} :
    List.Forall₂ Stands s ds ↔ (∀ c ∈ s, isHexDigit c = true) ∧ s.map digitValue = ds := by
  induction s generalizing ds with
  | nil =>
    rw [List.forall₂_nil_left_iff, List.map_nil, eq_comm]
    simp
  | cons c rest ih =>
    cases ds with
    | nil => simp
    | cons d more => simp [ih, stands_iff, and_and_and_comm]

theorem row_iff : Row base s n ↔
    s ≠ [] ∧ (∀ c ∈ s, isDigitOf base c = true) ∧ ofDigits base s = n := by
  constructor
  · rintro ⟨hne, ds, hds, hlt, rfl⟩
    obtain ⟨hhex, rfl⟩ := forall₂_stands.mp hds
    refine ⟨hne, ?_, ofDigits_eq base s⟩
    intro c hc
    simp [isDigitOf, hhex c hc, hlt _ (List.mem_map_of_mem hc)]
  · rintro ⟨hne, hdigits, rfl⟩
    simp only [isDigitOf, Bool.and_eq_true, decide_eq_true_eq] at hdigits
    refine ⟨hne, s.map digitValue, ?_, ?_, (ofDigits_eq base s).symm⟩
    · exact forall₂_stands.mpr ⟨fun c hc => (hdigits c hc).1, rfl⟩
    · intro d hd
      obtain ⟨c, hc, rfl⟩ := List.mem_map.mp hd
      exact (hdigits c hc).2

theorem isDigitOf_ten (c : Char) : isDigitOf 10 c = c.isDigit := by
  cases hc : isHexDigit c with
  | true =>
    have hascii : c.toNat < 128 := isLiteralChar_ascii (by simp [isLiteralChar, hc])
    have hcodes : ∀ n : Fin 128, isDigitOf 10 (Char.ofNat n) = (Char.ofNat n).isDigit := by
      decide +kernel
    exact Text.forall_ascii (P := fun c => isDigitOf 10 c = c.isDigit) hcodes hascii
  | false =>
    have hdigit : c.isDigit = false := by
      simp only [isHexDigit, Bool.or_eq_false_iff] at hc
      exact hc.1.1
    rw [hdigit, isDigitOf, hc, Bool.false_and]

theorem isDigits_iff : isDigits s = true ↔ Row 10 s (ofDigits 10 s) := by
  rw [row_iff]
  simp [isDigits, isDigitOf_ten]

theorem Row.isDigit (h : Row 10 s n) (hc : c ∈ s) : c.isDigit = true := by
  rw [← isDigitOf_ten]
  exact (row_iff.mp h).2.1 c hc

theorem Row.value (h : Row base s n) : ofDigits base s = n := (row_iff.mp h).2.2

end Rows

section Signs
variable {sign w rest : List Char} {negative : Bool}

theorem splitSign_append (h : Sign sign negative)
    (hrest : ∀ c ∈ rest.head?, c ≠ '-' ∧ c ≠ '+') :
    splitSign (sign ++ rest) = (negative, rest) := by
  cases h with
  | plus => rfl
  | minus => rfl
  | absent =>
    rw [List.nil_append]
    unfold splitSign
    split
    · exact absurd rfl (hrest '-' rfl).1
    · exact absurd rfl (hrest '+' rfl).2
    · rfl

theorem sign_splitSign (w : List Char) :
    ∃ sign, Sign sign (splitSign w).1 ∧ sign ++ (splitSign w).2 = w := by
  unfold splitSign
  split
  · exact ⟨['-'], .minus, rfl⟩
  · exact ⟨['+'], .plus, rfl⟩
  · exact ⟨[], .absent, rfl⟩

theorem ne_sign_of_isDigit {c : Char} (h : c.isDigit = true) : c ≠ '-' ∧ c ≠ '+' := by
  constructor
  · rintro rfl
    cases h
  · rintro rfl
    cases h

theorem Row.head_ne_sign {n : ℕ} (h : Row 10 rest n) : ∀ c ∈ rest.head?, c ≠ '-' ∧ c ≠ '+' := by
  intro c hc
  apply ne_sign_of_isDigit
  exact h.isDigit (List.mem_of_mem_head? hc)

end Signs

section Words
variable {w tail : List Char} {k m : ℕ} {n e : ℤ} {negative : Bool} {l : Literal}

theorem negateIf_natCast (negative : Bool) (m : ℕ) :
    negateIf negative m = if negative then -(m : ℤ) else m := rfl

theorem integer?_of_word (h : IntegerWord w k n) : ∃ l, integer? w = some l ∧
    l.value = if digitLimit < k then .error (.reading k) else .ok (.int n) := by
  obtain @⟨sign, digits, negative, m, hsign, hrow⟩ := h
  have hdigits : isDigits digits = true := isDigits_iff.mpr (hrow.value.symm ▸ hrow)
  refine ⟨.integer negative digits, ?_, ?_⟩
  · rw [integer?, splitSign_append hsign hrow.head_ne_sign]
    simp [hdigits]
  · rw [value, hrow.value, negateIf_natCast]

theorem word_of_integer? (h : integer? w = some l) : ∃ k n, IntegerWord w k n := by
  obtain ⟨sign, hsign, hw⟩ := sign_splitSign w
  have hdigits : isDigits (splitSign w).2 = true := by
    simp only [integer?] at h
    split at h
    · next hdigits => exact hdigits
    · cases h
  rw [← hw]
  exact ⟨_, _, .mk hsign (isDigits_iff.mp hdigits)⟩

theorem baseOf?_eq_some_iff {mark : Char} {base : ℕ} :
    baseOf? mark = some base ↔ (mark, base) ∈ marks := by
  constructor
  · intro h
    unfold baseOf? at h
    split_ifs at h with hx ho hb
    · cases h
      rcases Bool.or_eq_true_iff.mp hx with hx | hx
      · simp [marks, of_decide_eq_true hx]
      · simp [marks, of_decide_eq_true hx]
    · cases h
      rcases Bool.or_eq_true_iff.mp ho with ho | ho
      · simp [marks, of_decide_eq_true ho]
      · simp [marks, of_decide_eq_true ho]
    · cases h
      rcases Bool.or_eq_true_iff.mp hb with hb | hb
      · simp [marks, of_decide_eq_true hb]
      · simp [marks, of_decide_eq_true hb]
  · intro h
    have hmarks : ∀ p ∈ marks, baseOf? p.1 = some p.2 := by decide
    exact hmarks _ h

theorem based?_of_word {n : ℕ} (h : BasedWord w n) : ∃ l, based? w = some l ∧
    l.value = .ok (.int n) := by
  obtain @⟨mark, base, n, digits, hmark, hrow⟩ := h
  obtain ⟨hne, hdigits, hvalue⟩ := row_iff.mp hrow
  refine ⟨.based base digits, ?_, ?_⟩
  · simpa [based?, baseOf?_eq_some_iff.mpr hmark] using ⟨hne, hdigits⟩
  · rw [value, hvalue]

theorem word_of_based? (h : based? w = some l) : ∃ n, BasedWord w n := by
  unfold based? at h
  split at h
  · next mark digits =>
    obtain ⟨base, hbase, h⟩ := Option.bind_eq_some_iff.mp h
    split at h
    · next hrest =>
      simp only [Bool.and_eq_true, Bool.not_eq_true', List.isEmpty_eq_false_iff,
        List.all_eq_true] at hrest
      exact ⟨_, .mk (baseOf?_eq_some_iff.mp hbase) (row_iff.mpr ⟨hrest.1, hrest.2, rfl⟩)⟩
    · cases h
  · cases h

theorem exponent?_of_tail (h : Exponent tail e) : exponent? tail = some e := by
  cases h with
  | absent => rfl
  | @mk mark sign digits negative m hmark hsign hrow =>
    have hdigits : isDigits digits = true := isDigits_iff.mpr (hrow.value.symm ▸ hrow)
    simp [exponent?, hmark, splitSign_append hsign hrow.head_ne_sign, hdigits, hrow.value,
      negateIf_natCast]

theorem tail_of_exponent? (h : exponent? tail = some e) : Exponent tail e := by
  unfold exponent? at h
  split at h
  · cases h
    exact .absent
  · next mark s =>
    split_ifs at h with hmark
    obtain ⟨sign, hsign, hs⟩ := sign_splitSign s
    simp only at h
    split_ifs at h with hdigits
    cases h
    have htail := Exponent.mk (by simpa using hmark) hsign (isDigits_iff.mp hdigits)
    rwa [hs] at htail

theorem Exponent.head (h : Exponent tail e) : ∀ c ∈ tail.head?, c = 'e' ∨ c = 'E' := by
  cases h with
  | absent => simp
  | mk hmark hsign hrow =>
    intro c hc
    obtain rfl : _ = c := by simpa using hc
    exact hmark

/-- Digits are told from what follows them. -/
theorem span_digits {digits rest : List Char} (hdigits : ∀ c ∈ digits, c.isDigit = true)
    (hrest : ∀ c ∈ rest.head?, c.isDigit = false) :
    (digits ++ rest).takeWhile Char.isDigit = digits ∧
      (digits ++ rest).dropWhile Char.isDigit = rest := by
  rw [List.takeWhile_append_of_pos hdigits, List.dropWhile_append_of_pos hdigits]
  cases rest with
  | nil => simp
  | cons c rest => simp [hrest c rfl]

theorem splitFraction_of_ne (h : '.' ∉ tail.head?) : splitFraction tail = ([], tail) := by
  unfold splitFraction
  split
  · exact absurd rfl h
  · rfl

theorem splitFraction_cases (s : List Char) :
    splitFraction s = ([], s) ∨ ∃ fraction rest, s = '.' :: (fraction ++ rest) ∧
      (∀ c ∈ fraction, c.isDigit = true) ∧ splitFraction s = (fraction, rest) := by
  unfold splitFraction
  split
  · next s =>
    refine Or.inr ⟨s.takeWhile Char.isDigit, s.dropWhile Char.isDigit, ?_, ?_, rfl⟩
    · rw [List.takeWhile_append_dropWhile]
    · intro c hc
      exact List.mem_takeWhile_imp hc
  · exact Or.inl rfl

/-- How a text behind its sign is taken apart. -/
theorem decimal?_of_parts {s whole fraction : List Char} (hsign : splitSign w = (negative, s))
    (hwhole : s.takeWhile Char.isDigit = whole)
    (hfraction : splitFraction (s.dropWhile Char.isDigit) = (fraction, tail))
    (hne : whole ++ fraction ≠ []) (htail : Exponent tail e) :
    decimal? w = some (.decimal negative whole fraction e) := by
  have hnonempty : ¬ (whole.isEmpty && fraction.isEmpty) = true := by
    simpa using hne
  simp only [decimal?, hsign, hwhole, hfraction]
  rw [if_neg hnonempty, exponent?_of_tail htail]
  rfl

theorem decimal?_of_word (h : DecimalWord w negative m e) : ∃ l, decimal? w = some l ∧
    l.value = .ok (.double (.ofDecimal negative m e)) := by
  obtain @⟨sign, mantissa, digits, tail, negative, m, places, e, hsign, hmantissa, hrow, htail⟩ := h
  have hend : ∀ c ∈ tail.head?, c.isDigit = false := by
    intro c hc
    rcases htail.head c hc with rfl | rfl
    · rfl
    · rfl
  have hpoint : '.' ∉ tail.head? := by
    intro hc
    rcases htail.head _ hc with h | h
    · cases h
    · cases h
  cases hmantissa with
  | whole =>
    obtain ⟨htake, hdrop⟩ := span_digits (fun c hc => hrow.isDigit hc) hend
    refine ⟨.decimal negative mantissa [] e, ?_, ?_⟩
    · apply decimal?_of_parts (splitSign_append hsign ?_) htake ?_ ?_ htail
      · rw [List.head?_append_of_ne_nil _ hrow.ne]
        exact hrow.head_ne_sign
      · rw [hdrop, splitFraction_of_ne hpoint]
      · simpa using hrow.ne
    · rw [value, List.append_nil, hrow.value]
      rfl
  | point whole fraction =>
    have hwhole : ∀ c ∈ whole, c.isDigit = true :=
      fun c hc => hrow.isDigit (List.mem_append_left fraction hc)
    have hfraction : ∀ c ∈ fraction, c.isDigit = true :=
      fun c hc => hrow.isDigit (List.mem_append_right whole hc)
    have htext : whole ++ '.' :: fraction ++ tail = whole ++ '.' :: (fraction ++ tail) := by simp
    obtain ⟨htake, hdrop⟩ := @span_digits whole ('.' :: (fraction ++ tail)) hwhole (by simp)
    obtain ⟨htake', hdrop'⟩ := span_digits hfraction hend
    refine ⟨.decimal negative whole fraction e, ?_, ?_⟩
    · rw [htext]
      apply decimal?_of_parts (splitSign_append hsign ?_) htake ?_ hrow.ne htail
      · cases whole with
        | nil => simp
        | cons c whole =>
          intro d hd
          obtain rfl : c = d := by simpa using hd
          exact ne_sign_of_isDigit (hwhole c (by simp))
      · rw [hdrop, splitFraction, htake', hdrop']
    · rw [value, hrow.value]

theorem word_of_decimal? (h : decimal? w = some l) :
    ∃ negative m e, DecimalWord w negative m e := by
  obtain ⟨sign, hsign, hw⟩ := sign_splitSign w
  simp only [decimal?] at h
  generalize (splitSign w).2 = s at h hw
  split_ifs at h with hempty
  obtain ⟨e, he, -⟩ := Option.map_eq_some_iff.mp h
  have htail := tail_of_exponent? he
  have hs := List.takeWhile_append_dropWhile (p := Char.isDigit) (l := s)
  have hwhole : ∀ c ∈ s.takeWhile Char.isDigit, c.isDigit = true :=
    fun c hc => List.mem_takeWhile_imp hc
  generalize s.takeWhile Char.isDigit = whole at hs hwhole hempty
  generalize s.dropWhile Char.isDigit = rest at hs htail hempty
  rw [← hw, ← hs]
  rcases splitFraction_cases rest with hsplit | ⟨fraction, tail, rfl, hfraction, hsplit⟩
  · rw [hsplit] at htail hempty
    have hrow : Row 10 whole (ofDigits 10 whole) := by
      rw [← isDigits_iff]
      simpa [isDigits] using ⟨by simpa using hempty, hwhole⟩
    exact ⟨_, _, _, .mk hsign (.whole whole) hrow htail⟩
  · rw [hsplit] at htail hempty
    have hrow : Row 10 (whole ++ fraction) (ofDigits 10 (whole ++ fraction)) := by
      rw [← isDigits_iff]
      simp only [isDigits, Bool.and_eq_true, List.all_eq_true, List.mem_append]
      refine ⟨?_, ?_⟩
      · simpa using hempty
      · rintro c (hc | hc)
        · exact hwhole c hc
        · exact hfraction c hc
    have hword := DecimalWord.mk hsign (.point whole fraction) hrow htail
    rw [List.append_assoc, List.cons_append] at hword
    exact ⟨_, _, _, hword⟩

/-- What stands behind the zero of a word with the mark of a base. -/
theorem marks_spec : ∀ p ∈ marks, p.1.isDigit = false ∧ p.1 ≠ '.' ∧ p.1 ≠ 'e' ∧ p.1 ≠ 'E' := by
  decide

/-- A word with the mark of a base is neither a row of decimal digits nor a decimal, nor is it one
behind a sign. -/
theorem BasedWord.unlike {sign : List Char} {n : ℕ} (hsign : Sign sign negative)
    (h : BasedWord w n) : integer? (sign ++ w) = none ∧ decimal? (sign ++ w) = none := by
  obtain @⟨mark, base, n, digits, hmark, hrow⟩ := h
  obtain ⟨hdigit, hpoint, hlower, hupper⟩ := marks_spec _ hmark
  have hsplit : splitSign (sign ++ '0' :: mark :: digits) = (negative, '0' :: mark :: digits) := by
    apply splitSign_append hsign
    simp
  have hfraction : splitFraction (mark :: digits) = ([], mark :: digits) := by
    apply splitFraction_of_ne
    simpa using hpoint
  constructor
  · simp [integer?, hsplit, isDigits, hdigit]
  · simp [decimal?, hsplit, hdigit, hfraction, exponent?, hlower, hupper]

/-- The mark of a base does not stand behind a sign. -/
theorem BasedWord.signed {sign : List Char} {n : ℕ} (hsign : Sign sign negative) (hne : sign ≠ [])
    (h : BasedWord w n) : based? (sign ++ w) = none ∧ infinity? (sign ++ w) = none := by
  obtain @⟨mark, base, n, digits, hmark, hrow⟩ := h
  cases hsign with
  | absent => exact absurd rfl hne
  | plus => exact ⟨rfl, by simp [infinity?, splitSign]⟩
  | minus => exact ⟨rfl, by simp [infinity?, splitSign]⟩

theorem infinity?_of_word (h : InfinityWord w negative) :
    infinity? w = some (.infinity negative) := by
  obtain @⟨sign, negative, hsign⟩ := h
  have hrest : ∀ c ∈ "Infinity".toList.head?, c ≠ '-' ∧ c ≠ '+' := by
    intro c hc
    obtain rfl : 'I' = c := by simpa using hc
    decide
  have hsplit := splitSign_append hsign hrest
  simp only [infinity?, hsplit]
  exact if_pos trivial

theorem word_of_infinity? (h : infinity? w = some l) : ∃ negative, InfinityWord w negative := by
  obtain ⟨sign, hsign, hw⟩ := sign_splitSign w
  simp only [infinity?] at h
  split_ifs at h with hword
  rw [← hw, hword]
  exact ⟨_, .mk hsign⟩

theorem InfinityWord.unlike (h : InfinityWord w negative) :
    integer? w = none ∧ based? w = none ∧ decimal? w = none := by
  obtain @⟨sign, negative, hsign⟩ := h
  cases hsign with
  | absent => decide +kernel
  | plus => decide +kernel
  | minus => decide +kernel

end Words

end RoverFleet.Literal
