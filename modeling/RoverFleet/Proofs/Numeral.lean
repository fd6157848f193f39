import RoverFleet.Proofs.Outcome
import RoverFleet.Numeric.Literal

/-!
# Numbers that words stand for

The number of a word without the digit limit's bookkeeping: a word of at most 4300 decimal digits
is read as its number, or as none if it is no literal; a longer row of decimal digits is not read.
A natural number that is written within the limit is read again.
-/
namespace RoverFleet.Literal
open Numeric

/-- How many digits a row of decimal digits has, its sign not counted; other words have none. -/
def decimalDigits (w : List Char) : ℕ :=
  match integer? w with
  | some (.integer _ digits) => digits.length
  | _ => 0

def number? (w : List Char) : Option Value := (ofChars? w).bind fun l => l.value.toOption

/-- The integer that a word stands for, if its number is whole. -/
def whole? (w : List Char) : Option ℤ := (number? w).bind Value.whole?

theorem integer?_eq_some {w : List Char} {l : Literal} (h : integer? w = some l) :
    l = .integer (splitSign w).1 (splitSign w).2 := by
  simp only [integer?] at h
  split at h
  · exact (Option.some.inj h).symm
  · cases h

theorem ofChars?_of_integer? {w : List Char} {l : Literal} (h : integer? w = some l) :
    ofChars? w = some l := by
  simp [ofChars?, h]

/-- Only rows of decimal digits are integer literals. -/
theorem integer?_of_ofChars? {w digits : List Char} {negative : Bool}
    (h : ofChars? w = some (.integer negative digits)) :
    integer? w = some (.integer negative digits) := by
  simp only [ofChars?, Option.or_eq_some_iff] at h
  rcases h with h | ⟨-, h | ⟨-, h | ⟨-, h⟩⟩⟩
  · exact h
  · unfold based? at h
    split at h
    · obtain ⟨base, -, h⟩ := Option.bind_eq_some_iff.mp h
      split at h <;> cases h
    · cases h
  · simp only [decimal?] at h
    split at h
    · cases h
    · obtain ⟨e, -, h⟩ := Option.map_eq_some_iff.mp h
      cases h
  · simp only [infinity?] at h
    split at h <;> cases h

theorem decimalDigits_integer {w digits : List Char} {negative : Bool}
    (h : ofChars? w = some (.integer negative digits)) : decimalDigits w = digits.length := by
  simp [decimalDigits, integer?_of_ofChars? h]

theorem read_long {w : List Char} (h : digitLimit < decimalDigits w) :
    read w = .error (.reading (decimalDigits w)) := by
  cases hi : integer? w with
  | none => simp [decimalDigits, hi] at h
  | some l =>
    obtain rfl := integer?_eq_some hi
    have hd := decimalDigits_integer (ofChars?_of_integer? hi)
    rw [hd] at h
    simp [read, ofChars?_of_integer? hi, value, h, hd, bind, Except.bind]

theorem value_short {w : List Char} (h : decimalDigits w ≤ digitLimit) {l : Literal}
    (hl : ofChars? w = some l) : ∃ v, l.value = .ok v := by
  cases l with
  | integer negative digits =>
    rw [decimalDigits_integer hl] at h
    exact ⟨_, if_neg (Nat.not_lt.mpr h)⟩
  | based base digits => exact ⟨_, rfl⟩
  | decimal negative whole fraction exponent => exact ⟨_, rfl⟩
  | infinity negative => exact ⟨_, rfl⟩

theorem read_short {w : List Char} (h : decimalDigits w ≤ digitLimit) :
    read w = .ok (number? w) := by
  cases hl : ofChars? w with
  | none => simp [read, number?, hl]
  | some l =>
    obtain ⟨v, hv⟩ := value_short h hl
    simp [read, number?, hl, hv, bind, Except.bind, pure, Except.pure, Except.toOption]

theorem number?_isSome {w : List Char} (h : decimalDigits w ≤ digitLimit) :
    (number? w).isSome ↔ (ofChars? w).isSome := by
  cases hl : ofChars? w with
  | none => simp [number?, hl]
  | some l =>
    obtain ⟨v, hv⟩ := value_short h hl
    simp [number?, hl, hv, Except.toOption]

theorem splitSign_of_isDigit {c : Char} (hc : c.isDigit) (s : List Char) :
    splitSign (c :: s) = (false, c :: s) := by
  unfold splitSign
  split
  · next h => obtain ⟨rfl, -⟩ := List.cons.inj h; simp at hc
  · next h => obtain ⟨rfl, -⟩ := List.cons.inj h; simp at hc
  · rfl

/-- A row of digits without a sign is an integer literal. -/
theorem ofChars?_digits {s : List Char} (hne : s ≠ []) (hs : ∀ c ∈ s, c.isDigit) :
    ofChars? s = some (.integer false s) := by
  refine ofChars?_of_integer? ?_
  cases s with
  | nil => exact absurd rfl hne
  | cons c rest =>
    have hdigits : isDigits (c :: rest) = true := by
      simpa [isDigits] using hs
    simp [integer?, splitSign_of_isDigit (hs c (by simp)), hdigits]

theorem digitChar_hex : ∀ d < 16, isHexDigit d.digitChar = true ∧ digitValue d.digitChar = d := by
  decide

/-- The digits of a number in a base are digits of that base and stand for the number. -/
theorem toDigits_spec {base : ℕ} (hlow : 1 < base) (hhigh : base ≤ 16) (n : ℕ) :
    (∀ c ∈ Nat.toDigits base n, isHexDigit c = true ∧ digitValue c < base) ∧
      ofDigits base (Nat.toDigits base n) = n := by
  induction n using Nat.strongRecOn with
  | _ n ih =>
    by_cases hn : n < base
    · obtain ⟨hhex, hvalue⟩ := digitChar_hex n (hn.trans_le hhigh)
      rw [Nat.toDigits_of_lt_base hn]
      exact ⟨by simpa [hvalue] using ⟨hhex, hn⟩, by simpa [ofDigits] using hvalue⟩
    · have hmod : n % base < base := Nat.mod_lt n (by omega)
      obtain ⟨hhex, hvalue⟩ := digitChar_hex (n % base) (hmod.trans_le hhigh)
      obtain ⟨ihhex, ihvalue⟩ := ih (n / base) (Nat.div_lt_self (by omega) hlow)
      rw [Nat.toDigits_of_base_le hlow (Nat.le_of_not_lt hn)]
      refine ⟨?_, ?_⟩
      · intro c hc
        rcases List.mem_append.mp hc with hc | hc
        · exact ihhex c hc
        · rw [List.mem_singleton.mp hc, hvalue]
          exact ⟨hhex, hmod⟩
      · have hfold : ofDigits base (Nat.toDigits base (n / base) ++ [(n % base).digitChar]) =
            ofDigits base (Nat.toDigits base (n / base)) * base +
              digitValue (n % base).digitChar := by
          simp [ofDigits, List.foldl_append]
        rw [hfold, ihvalue, hvalue, Nat.div_add_mod']

theorem natDigits_isDigit {n : ℕ} {c : Char} (hc : c ∈ natDigits n) : c.isDigit :=
  Nat.isDigit_of_mem_toDigits (by decide) (by decide) hc

theorem ofDigits_natDigits (n : ℕ) : ofDigits 10 (natDigits n) = n := by
  calc ofDigits 10 (natDigits n) = Nat.ofDigitChars 10 (natDigits n) 0 := by
        rw [Nat.ofDigitChars_eq_foldl, ofDigits]
        refine List.foldl_ext _ _ _ fun m c hc => ?_
        simp [digitValue, natDigits_isDigit hc, Nat.mul_comm]
    _ = n := Nat.ofDigitChars_ten_toDigits

/-- A number that is written in decimal within the digit limit is read again. -/
theorem read_natDigits {n : ℕ} (h : n < 10 ^ digitLimit) :
    read (natDigits n) = .ok (some (.int n)) := by
  have hlen : (natDigits n).length ≤ digitLimit :=
    (Nat.length_toDigits_le_iff (by decide) (by decide)).mpr h
  have hlit : ofChars? (natDigits n) = some (.integer false (natDigits n)) :=
    ofChars?_digits Nat.toDigits_ne_nil fun c hc => natDigits_isDigit hc
  have hvalue : value (.integer false (natDigits n)) = .ok (.int n) := by
    rw [value, if_neg (Nat.not_lt.mpr hlen), ofDigits_natDigits]
    rfl
  simp only [read, hlit, hvalue]
  rfl

end RoverFleet.Literal
