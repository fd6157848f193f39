import RoverFleet.Proofs.Coordinates
import RoverFleet.Proofs.Literals

/-!
# The ends of the range

A decimal is rounded to an infinity from the midpoint above the greatest finite number on, and to a
zero up to half the least positive number. So each decimal literal is read as the number nearest to
what it writes, or as an infinity where there is no such number.
-/
namespace RoverFleet
open Numeric

namespace Numeric

section RoundDiv
variable {num den k : ℕ}

theorem roundDiv_of_lt (h : 2 * (num % den) < den) : roundDiv num den = num / den := if_pos h

theorem roundDiv_of_gt (h : den < 2 * (num % den)) : roundDiv num den = num / den + 1 := by
  unfold roundDiv
  dsimp only
  rw [if_neg (by omega), if_pos h]

theorem roundDiv_of_tie (h : 2 * (num % den) = den) :
    roundDiv num den = num / den + num / den % 2 := by
  unfold roundDiv
  dsimp only
  rw [if_neg (by omega), if_neg (by omega)]

/-- A quotient is rounded beyond an integer if it is above the midpoint that follows the integer, or
at the midpoint and the integer is odd. -/
theorem lt_roundDiv_iff (hden : 0 < den) : k < roundDiv num den ↔
    (2 * k + 1) * den < 2 * num ∨ (2 * k + 1) * den = 2 * num ∧ k % 2 = 1 := by
  have hdiv : num / den * den + num % den = num := Nat.div_add_mod' num den
  have hrest : num % den < den := Nat.mod_lt num hden
  have hlow := le_roundDiv num den
  have hhigh := roundDiv_le num den
  have hexpand : (2 * k + 1) * den = 2 * (k * den) + den := by ring
  rw [hexpand]
  rcases lt_trichotomy k (num / den) with hlt | heq | hgt
  · have hmul : (k + 1) * den ≤ num / den * den := Nat.mul_le_mul_right den hlt
    rw [Nat.succ_mul] at hmul
    omega
  · rcases lt_trichotomy (2 * (num % den)) den with hbelow | htie | habove
    · rw [roundDiv_of_lt hbelow, heq]
      omega
    · rw [roundDiv_of_tie htie, heq]
      omega
    · rw [roundDiv_of_gt habove, heq]
      omega
  · have hmul : (num / den + 1) * den ≤ k * den := Nat.mul_le_mul_right den hgt
    rw [Nat.succ_mul] at hmul
    omega

end RoundDiv

namespace Binary64

section Ranks
variable {negative : Bool} {rank : ℕ}

theorem ofRank_eq_infinity_iff : ofRank negative rank = infinity negative ↔
    2047 * 2 ^ 52 ≤ rank := by
  constructor
  · intro h
    by_contra hlt
    have hfinite := @isFinite_ofRank negative _ (Nat.lt_of_not_le hlt)
    rw [h] at hfinite
    cases hfinite
  · intro h
    exact dif_neg (Nat.not_lt.mpr h)

theorem ofRank_eq_zero_iff : ofRank negative rank = zero negative ↔ rank = 0 := by
  constructor
  · intro h
    have hlt : rank < 2047 * Nat.pow 2 52 := by
      apply lt_of_isFinite_ofRank
      rw [h]
      rfl
    have hexponent := @ofRank_exponent negative _ hlt
    have hfraction := @ofRank_fraction negative _ hlt
    rw [h] at hexponent hfraction
    rw [← Nat.div_add_mod rank (Nat.pow 2 52), ← hexponent, ← hfraction]
    rfl
  · rintro rfl
    rfl

end Ranks

section Ratios
variable {negative : Bool} {num den : ℕ}

theorem nearestRank_eq (num den : ℕ) :
    nearestRank num den = shiftFor num den * 2 ^ 52 + nearestSignificand num den := rfl

/-- The significand before it is rounded: it has at most 53 bits, and 53 unless the unit is the
smallest one. -/
theorem units_bounds (hden : 0 < den) :
    num * Quantity.one < 2 ^ 53 * (den * 2 ^ shiftFor num den) ∧
      (shiftFor num den ≠ 0 →
        2 ^ 52 * (den * 2 ^ shiftFor num den) ≤ num * Quantity.one) := by
  have hunit : 0 < den * 2 ^ shiftFor num den := Nat.mul_pos hden (Nat.two_pow_pos _)
  constructor
  · rw [← Nat.div_lt_iff_lt_mul hunit]
    exact quotient_lt num den
  · intro hs
    rw [← Nat.le_div_iff_mul_le hunit]
    exact le_quotient_of_shiftFor hs

/-- A quotient has the rank of infinity from the midpoint above the greatest finite number on. -/
theorem infinite_rank_iff (hden : 0 < den) : 2047 * 2 ^ 52 ≤ nearestRank num den ↔
    (2 ^ 54 - 1) * (den * 2 ^ 2044) ≤ num * Quantity.one := by
  obtain ⟨hhigh, hlow⟩ := @units_bounds num den hden
  have hle : nearestSignificand num den ≤ 2 ^ 53 := nearestSignificand_le num den
  have hlead := @le_nearestSignificand num den
  have hround : 2 ^ 53 - 1 < nearestSignificand num den ↔ _ :=
    lt_roundDiv_iff (Nat.mul_pos hden (Nat.two_pow_pos (shiftFor num den)))
  have hstep (a : ℕ) : den * 2 ^ (a + 1) = 2 * (den * 2 ^ a) := by ring
  have hmono {a b : ℕ} (h : a ≤ b) : den * 2 ^ a ≤ den * 2 ^ b :=
    Nat.mul_le_mul_left den (Nat.pow_le_pow_right (by decide) h)
  obtain ⟨e, he⟩ : ∃ e, e = 2044 := ⟨_, rfl⟩
  have hdouble := hstep e
  have hquadruple := hstep (e + 1)
  rw [nearestRank_eq, ← he]
  generalize nearestSignificand num den = r at *
  generalize num * Quantity.one = units at *
  generalize shiftFor num den = s at *
  -- The greatest finite numbers have the shift 2045: only there the significand decides.
  rcases lt_trichotomy s (e + 1) with hlt | rfl | hgt
  · have hunit : den * 2 ^ s ≤ den * 2 ^ e := hmono (Nat.le_of_lt_succ hlt)
    generalize den * 2 ^ s = unit at *
    generalize den * 2 ^ e = half at *
    omega
  · generalize den * 2 ^ (e + 1) = unit at *
    generalize den * 2 ^ e = half at *
    omega
  · have hunit : den * 2 ^ (e + 1 + 1) ≤ den * 2 ^ s := hmono hgt
    have hlow' := hlow (by omega)
    have hlead' := hlead (by omega)
    generalize den * 2 ^ s = unit at *
    generalize den * 2 ^ e = half at *
    omega

/-- A quotient has the rank of zero up to half the smallest unit. -/
theorem zero_rank_iff (hden : 0 < den) : nearestRank num den = 0 ↔
    2 * (num * Quantity.one) ≤ den := by
  obtain ⟨-, hlow⟩ := @units_bounds num den hden
  have hlead := @le_nearestSignificand num den
  have hround : 0 < nearestSignificand num den ↔ _ :=
    lt_roundDiv_iff (Nat.mul_pos hden (Nat.two_pow_pos (shiftFor num den)))
  rw [nearestRank_eq]
  generalize nearestSignificand num den = r at *
  generalize num * Quantity.one = units at *
  generalize shiftFor num den = s at *
  rcases Nat.eq_zero_or_pos s with rfl | hpos
  · rw [pow_zero, mul_one] at hround
    omega
  · have hlow' := hlow hpos.ne'
    have hlead' := hlead hpos.ne'
    have hunit : den * 1 ≤ den * 2 ^ s := Nat.mul_le_mul_left den (Nat.two_pow_pos s)
    generalize den * 2 ^ s = unit at *
    omega

theorem cast_one : (Quantity.one : ℚ) = 2 ^ 1074 := by
  have hone : Quantity.one = 2 ^ 1074 := by decide +kernel
  obtain ⟨e, he⟩ : ∃ e, e = 1074 := ⟨_, rfl⟩
  rw [hone, ← he, Nat.cast_pow, Nat.cast_ofNat]

theorem two_mul_one : 2 * (Quantity.one : ℚ) = 2 ^ 1075 := by
  rw [cast_one, ← pow_succ']

theorem ofRatio_eq_infinity_iff (hden : 0 < den) : ofRatio negative num den = infinity negative ↔
    (2 ^ 1024 - 2 ^ 970 : ℚ) ≤ num / den := by
  have hden' : (0 : ℚ) < den := Nat.cast_pos.mpr hden
  have hone : (0 : ℚ) < Quantity.one := Nat.cast_pos.mpr Quantity.one_pos
  have hbound : ((2 ^ 54 - 1 : ℕ) : ℚ) * 2 ^ 2044 = (2 ^ 1024 - 2 ^ 970) * Quantity.one := by
    rw [cast_one, sub_mul, ← pow_add, ← pow_add, Nat.cast_sub (by decide), Nat.cast_one, sub_mul,
      one_mul, Nat.cast_pow, Nat.cast_ofNat, ← pow_add]
  calc ofRatio negative num den = infinity negative
      ↔ 2047 * 2 ^ 52 ≤ nearestRank num den := ofRank_eq_infinity_iff
    _ ↔ (2 ^ 54 - 1) * (den * 2 ^ 2044) ≤ num * Quantity.one := infinite_rank_iff hden
    _ ↔ ((2 ^ 54 - 1 : ℕ) : ℚ) * (den * 2 ^ 2044) ≤ num * Quantity.one := by
        rw [← Nat.cast_le (α := ℚ)]
        simp only [Nat.cast_mul, Nat.cast_pow, Nat.cast_ofNat]
    _ ↔ (2 ^ 1024 - 2 ^ 970) * den * (Quantity.one : ℚ) ≤ num * Quantity.one := by
        rw [mul_left_comm, hbound, mul_left_comm, ← mul_assoc]
    _ ↔ (2 ^ 1024 - 2 ^ 970) * (den : ℚ) ≤ num := mul_le_mul_iff_left₀ hone
    _ ↔ (2 ^ 1024 - 2 ^ 970 : ℚ) ≤ num / den := (le_div_iff₀ hden').symm

theorem ofRatio_eq_zero_iff (hden : 0 < den) : ofRatio negative num den = zero negative ↔
    (num / den : ℚ) ≤ 1 / 2 ^ 1075 := by
  have hden' : (0 : ℚ) < den := Nat.cast_pos.mpr hden
  have htwo : (0 : ℚ) < 2 ^ 1075 := pow_pos two_pos _
  calc ofRatio negative num den = zero negative
      ↔ nearestRank num den = 0 := ofRank_eq_zero_iff
    _ ↔ 2 * (num * Quantity.one) ≤ den := zero_rank_iff hden
    _ ↔ 2 * (num * Quantity.one : ℚ) ≤ den := by
        rw [← Nat.cast_le (α := ℚ)]
        simp only [Nat.cast_mul, Nat.cast_ofNat]
    _ ↔ num * (2 ^ 1075 : ℚ) ≤ den := by rw [mul_left_comm, two_mul_one]
    _ ↔ (num / den : ℚ) ≤ 1 / 2 ^ 1075 := by rw [div_le_div_iff₀ hden' htwo, one_mul]

end Ratios

section Decimals
variable {negative : Bool} {digits : ℕ} {exponent : ℤ} {v : ℚ}

theorem pow_length_natDigits_le (hpos : 0 < digits) :
    10 ^ ((natDigits digits).length - 1) ≤ digits := by
  rcases Nat.eq_zero_or_pos ((natDigits digits).length - 1) with hone | hmore
  · rw [hone]
    exact hpos
  · by_contra hlt
    have hlength : (natDigits digits).length ≤ (natDigits digits).length - 1 :=
      (Nat.length_toDigits_le_iff (by decide) hmore).mpr (Nat.lt_of_not_le hlt)
    omega

/-- A decimal that has more than `n` digits before the point is large. -/
theorem large_of_point {n : ℕ} (hpos : 0 < digits)
    (h : (n : ℤ) < exponent + (natDigits digits).length) :
    (10 : ℚ) ^ n ≤ digits * 10 ^ exponent := by
  have hlength : 0 < (natDigits digits).length := List.length_pos_iff.mpr Nat.toDigits_ne_nil
  have hdigits : (10 : ℚ) ^ (((natDigits digits).length - 1 : ℕ) : ℤ) ≤ digits := by
    exact_mod_cast pow_length_natDigits_le hpos
  calc (10 : ℚ) ^ n = 10 ^ (n : ℤ) := (zpow_natCast _ _).symm
    _ ≤ 10 ^ ((((natDigits digits).length - 1 : ℕ) : ℤ) + exponent) :=
        zpow_le_zpow_right₀ (by norm_num) (by omega)
    _ = 10 ^ (((natDigits digits).length - 1 : ℕ) : ℤ) * 10 ^ exponent :=
        zpow_add₀ (by norm_num) _ _
    _ ≤ digits * 10 ^ exponent := mul_le_mul_of_nonneg_right hdigits (by positivity)

/-- Where a magnitude is rounded to an infinity and where to a zero. -/
structure Extreme (x : Binary64) (negative : Bool) (v : ℚ) : Prop where
  infinity : x = infinity negative ↔ 2 ^ 1024 - 2 ^ 970 ≤ v
  zero : x = zero negative ↔ v ≤ 1 / 2 ^ 1075

theorem pow_lt_sub_pow {k m n : ℕ} (hk : k < m) (hm : m < n) : (2 : ℚ) ^ k < 2 ^ n - 2 ^ m := by
  have hdouble : (2 : ℚ) * 2 ^ m ≤ 2 ^ n := by
    rw [← pow_succ']
    exact pow_le_pow_right₀ one_le_two hm
  calc (2 : ℚ) ^ k < 2 ^ m := pow_lt_pow_right₀ one_lt_two hk
    _ ≤ 2 ^ n - 2 ^ m := by rwa [le_sub_iff_add_le, ← two_mul]

theorem bounds_apart : (1 : ℚ) / 2 ^ 1075 < 2 ^ 1024 - 2 ^ 970 := by
  have hleast : (1 : ℚ) < 2 ^ 1075 := one_lt_pow₀ one_lt_two (by decide)
  calc (1 : ℚ) / 2 ^ 1075 < 1 := (div_lt_one (zero_lt_one.trans hleast)).mpr hleast
    _ = 2 ^ 0 := (pow_zero 2).symm
    _ < 2 ^ 1024 - 2 ^ 970 := pow_lt_sub_pow (by decide) (by decide)

theorem extreme_infinity (h : 2 ^ 1024 - 2 ^ 970 ≤ v) :
    (infinity negative).Extreme negative v where
  infinity := iff_of_true rfl h
  zero := by
    apply iff_of_false nofun
    rw [not_le]
    exact bounds_apart.trans_le h

theorem extreme_zero (h : v ≤ 1 / 2 ^ 1075) : (zero negative).Extreme negative v where
  infinity := by
    apply iff_of_false nofun
    rw [not_le]
    exact h.trans_lt bounds_apart
  zero := iff_of_true rfl h

theorem le_ten_pow : (2 ^ 1024 - 2 ^ 970 : ℚ) ≤ 10 ^ 310 := by
  have hpow : (2 : ℕ) ^ 1024 ≤ 10 ^ 310 := by decide +kernel
  calc (2 ^ 1024 - 2 ^ 970 : ℚ) ≤ 2 ^ 1024 := sub_le_self _ (pow_nonneg two_pos.le _)
    _ ≤ 10 ^ 310 := by exact_mod_cast hpow

/-- A decimal so large or so small that its power of ten is not computed is beyond the end of the
range all the same. -/
theorem ofDecimal_extreme (negative : Bool) (digits : ℕ) (exponent : ℤ) :
    (ofDecimal negative digits exponent).Extreme negative (digits * 10 ^ exponent) := by
  unfold ofDecimal
  dsimp only
  split_ifs with hzero hlarge hsmall
  · apply extreme_zero
    rw [hzero, Nat.cast_zero, zero_mul]
    positivity
  · apply extreme_infinity
    exact le_ten_pow.trans (large_of_point (Nat.pos_of_ne_zero hzero) hlarge)
  · apply extreme_zero
    have hpoint : exponent + (natDigits digits).length ≤ -(324 : ℕ) := by omega
    have hbelow := small_of_point Quantity.two_mul_one_lt hpoint
    rw [mul_right_comm, two_mul_one] at hbelow
    rw [le_div_iff₀' (pow_pos two_pos _)]
    exact hbelow.le
  · have hden : 0 < Nat.pow 10 (-exponent).toNat := Nat.pow_pos (by decide)
    rw [← ratio_eq_zpow]
    exact ⟨ofRatio_eq_infinity_iff hden, ofRatio_eq_zero_iff hden⟩

theorem ofRank_cases (negative : Bool) (rank : ℕ) :
    (ofRank negative rank).isFinite = true ∨ ofRank negative rank = infinity negative := by
  rcases Nat.lt_or_ge rank (2047 * Nat.pow 2 52) with hlt | hge
  · exact .inl (isFinite_ofRank hlt)
  · exact .inr (ofRank_eq_infinity_iff.mpr hge)

theorem ofDecimal_cases (negative : Bool) (digits : ℕ) (exponent : ℤ) :
    (ofDecimal negative digits exponent).isFinite = true ∨
      ofDecimal negative digits exponent = infinity negative := by
  unfold ofDecimal
  dsimp only
  split_ifs
  · exact .inl rfl
  · exact .inr rfl
  · exact .inl rfl
  · exact ofRank_cases negative _

end Decimals

end Binary64

end Numeric

namespace Literal
variable {negative : Bool} {m : ℕ} {e : ℤ} {v : ℚ} {w : List Char} {x : Binary64}

theorem abs_signed (hv : 0 ≤ v) : |signed negative v| = v := by
  cases negative with
  | false => exact abs_of_nonneg hv
  | true =>
    rw [signed, if_pos rfl, abs_neg]
    exact abs_of_nonneg hv

theorem signed_neg_iff (hv : 0 < v) : signed negative v < 0 ↔ negative = true := by
  cases negative with
  | false => exact iff_of_false hv.not_gt Bool.false_ne_true
  | true => exact iff_of_true (neg_lt_zero.mpr hv) rfl

/-- A decimal is rounded to the infinity of its sign where it is rounded to an infinity at all. -/
theorem decimal_infinity_iff :
    Binary64.ofDecimal negative m e = .infinity (decide (signed negative (m * 10 ^ e) < 0)) ↔
      2 ^ 1024 - 2 ^ 970 ≤ (m * 10 ^ e : ℚ) := by
  have hextreme := Binary64.ofDecimal_extreme negative m e
  constructor
  · intro hx
    rcases Binary64.ofDecimal_cases negative m e with hfinite | hinfinity
    · rw [hx] at hfinite
      cases hfinite
    · exact hextreme.infinity.mp hinfinity
  · intro hle
    have hpos : (0 : ℚ) < m * 10 ^ e :=
      calc (0 : ℚ) < 2 ^ 0 := pow_pos two_pos 0
        _ < 2 ^ 1024 - 2 ^ 970 := Binary64.pow_lt_sub_pow (by decide) (by decide)
        _ ≤ m * 10 ^ e := hle
    have hsign : decide (signed negative (m * 10 ^ e) < 0) = negative := by
      rw [Bool.decide_congr (signed_neg_iff hpos), Bool.decide_coe]
    rw [hsign]
    exact hextreme.infinity.mpr hle

theorem decimal_cases :
    (Binary64.ofDecimal negative m e).IsNearest (signed negative (m * 10 ^ e)) ∨
      Binary64.ofDecimal negative m e =
        .infinity (decide (signed negative (m * 10 ^ e) < 0)) := by
  rcases Binary64.ofDecimal_cases negative m e with hfinite | hinfinity
  · exact .inl (decimal_isNearest hfinite)
  · apply Or.inr
    rw [decimal_infinity_iff]
    exact (Binary64.ofDecimal_extreme negative m e).infinity.mp hinfinity

/-- An integer up to 2^53 is not changed by rounding, however it is written. -/
theorem decimal_small {n : ℤ} (hn : n.natAbs ≤ 2 ^ 53)
    (hvalue : signed negative (m * 10 ^ e) = n) :
    (Binary64.ofDecimal negative m e).isFinite = true ∧
      (Binary64.ofDecimal negative m e).toRat = n := by
  have hnonneg : (0 : ℚ) ≤ m * 10 ^ e := by positivity
  have hcast : |(n : ℚ)| ≤ 2 ^ 53 := by
    rw [← Int.cast_abs, Int.abs_eq_natAbs]
    exact_mod_cast hn
  have hbelow : (m * 10 ^ e : ℚ) < 2 ^ 1024 - 2 ^ 970 := by
    calc (m * 10 ^ e : ℚ) = |(n : ℚ)| := by rw [← hvalue, abs_signed hnonneg]
      _ ≤ 2 ^ 53 := hcast
      _ < 2 ^ 1024 - 2 ^ 970 := Binary64.pow_lt_sub_pow (by decide) (by decide)
  rcases @decimal_cases negative m e with hnearest | hinfinity
  · obtain ⟨y, hy, hexact⟩ := Binary64.exists_toRat_eq_intCast hn
    rw [hvalue] at hnearest
    exact ⟨hnearest.finite, hnearest.exact hy hexact⟩
  · exact absurd (decimal_infinity_iff.mp hinfinity) (not_le.mpr hbelow)

/-- A word that is read as a binary64 number, and not an infinity by its name, is a decimal. What it
is read as is the number nearest to the exact value that it writes, of two that are equally near the
one with the even significand, or an infinity: the one with the sign of the value from the midpoint
above the greatest finite number on, and only from there. It is the zero with the sign of the word
up to half the least positive number, and only up to there. Integers up to 2^53 are not changed. -/
theorem read_rounded (h : read w = .ok (some (.double x))) (hname : ∀ b, ¬ InfinityWord w b) :
    (∃ b m e, DecimalWord w b m e) ∧ ∀ b m e, DecimalWord w b m e →
      let q := signed b (m * 10 ^ e)
      (x.IsNearest q ∨ x = .infinity (decide (q < 0))) ∧
      (x = .infinity (decide (q < 0)) ↔ 2 ^ 1024 - 2 ^ 970 ≤ |q|) ∧
      (x = .zero b ↔ |q| ≤ 1 / 2 ^ 1075) ∧
      ∀ n : ℤ, n.natAbs ≤ 2 ^ 53 → q = n → x.isFinite = true ∧ x.toRat = n := by
  obtain ⟨hinteger, -, hword⟩ := read_double_iff.mp ⟨x, h⟩
  constructor
  · rcases hword with hword | ⟨b, hword⟩
    · exact hword
    · exact absurd hword (hname b)
  intro b m e hword q
  have hdouble := read_decimal hinteger hword
  obtain rfl : Binary64.ofDecimal b m e = x := by
    rw [h] at hdouble
    cases hdouble
    rfl
  have hq : |q| = m * 10 ^ e := abs_signed (by positivity)
  rw [hq]
  refine ⟨decimal_cases, decimal_infinity_iff, (Binary64.ofDecimal_extreme b m e).zero, ?_⟩
  intro n hn hvalue
  exact decimal_small hn hvalue

/-- The word of 2^53 + 1 with a point, as near to 2^53 as to the next number. -/
theorem read_rounded_tie :
    let w := "9007199254740993.".toList
    let x : Binary64 := ⟨false, 1076, 0⟩
    read w = .ok (some (.double x)) ∧ (∀ b, ¬ InfinityWord w b) ∧
      DecimalWord w false 9007199254740993 0 ∧
      let q := signed false ((9007199254740993 : ℕ) * 10 ^ (0 : ℤ))
      (x.IsNearest q ∨ x = .infinity (decide (q < 0))) ∧
      (x = .infinity (decide (q < 0)) ↔ 2 ^ 1024 - 2 ^ 970 ≤ |q|) ∧
      (x = .zero false ↔ |q| ≤ 1 / 2 ^ 1075) ∧
      ∀ n : ℤ, n.natAbs ≤ 2 ^ 53 → q = n → x.isFinite = true ∧ x.toRat = n := by
  intro w x
  have hrow : Row 10 ("9007199254740993".toList ++ []) 9007199254740993 :=
    row_iff.mpr ⟨by decide, List.all_eq_true.mp (by decide +kernel), by decide +kernel⟩
  have hword : DecimalWord w false 9007199254740993 0 :=
    .mk .absent (.point _ []) hrow .absent
  have hinteger : ∀ k n, ¬ IntegerWord w k n := by
    intro k n hw
    obtain ⟨l, hl, -⟩ := integer?_of_word hw
    have hnone : integer? w = none := by decide +kernel
    rw [hnone] at hl
    cases hl
  have hname : ∀ b, ¬ InfinityWord w b := by
    intro b hw
    have hnone : infinity? w = none := by decide +kernel
    rw [infinity?_of_word hw] at hnone
    cases hnone
  have hdouble : Binary64.ofDecimal false 9007199254740993 0 = x := by decide +kernel
  have hread : read w = .ok (some (.double x)) := by rw [read_decimal hinteger hword, hdouble]
  exact ⟨hread, hname, hword, (read_rounded hread hname).2 _ _ _ hword⟩

end Literal

end RoverFleet
