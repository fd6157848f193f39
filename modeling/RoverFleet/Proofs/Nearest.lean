import Mathlib
import RoverFleet.Numeric.Rounding

/-!
# Rounding is to the nearest

A decimal is rounded to a binary64 number of which no other is nearer to its exact value, and of two
that are equally near to the one with the even significand. Every finite number is an integer times
2^-1074, so distances are compared as integers.
-/
namespace RoverFleet.Numeric

section RoundDiv
variable {num den : ℕ}

/-- No integer is nearer to a quotient than the rounded one, and none is as near unless it is the
same or the rounded one is even. -/
theorem roundDiv_spec (hden : 0 < den) (k : ℤ) :
    ((roundDiv num den : ℤ) * den - num).natAbs ≤ (k * den - num).natAbs ∧
      (((roundDiv num den : ℤ) * den - num).natAbs = (k * den - num).natAbs →
        k = roundDiv num den ∨ roundDiv num den % 2 = 0) := by
  have hdiv : (num : ℤ) = (num / den : ℕ) * den + (num % den : ℕ) := by
    exact_mod_cast (Nat.div_add_mod' num den).symm
  have hrest : num % den < den := Nat.mod_lt num hden
  have hstep (d : ℤ) : ((num / den : ℕ) + d) * den - num = d * den - (num % den : ℕ) := by
    rw [hdiv]
    ring
  -- Distances are measured from the floor: only the floor and its successor can be nearest.
  obtain ⟨d, rfl⟩ : ∃ d : ℤ, k = (num / den : ℕ) + d := ⟨k - (num / den : ℕ), by omega⟩
  have hbelow : d ≤ -1 → d * den ≤ -den := fun h => by nlinarith
  have hfloor : d = 0 → d * den = 0 := fun h => by simp [h]
  have hceil : d = 1 → d * den = den := fun h => by simp [h]
  have habove : 2 ≤ d → 2 * den ≤ d * den := fun h => by nlinarith
  have hzero := hstep 0
  have hone := hstep 1
  rw [hstep]
  unfold roundDiv
  dsimp only
  rw [zero_mul, add_zero] at hzero
  rw [one_mul] at hone
  generalize d * (den : ℤ) = t at *
  split_ifs with hlow hhigh
  · rw [hzero]
    omega
  · rw [Nat.cast_succ, hone]
    omega
  · rcases Nat.mod_two_eq_zero_or_one (num / den) with hparity | hparity
    · rw [hparity, add_zero, hzero]
      omega
    · rw [hparity, Nat.cast_succ, hone]
      omega

theorem le_roundDiv (num den : ℕ) : num / den ≤ roundDiv num den := by
  unfold roundDiv
  dsimp only
  split_ifs <;> omega

theorem roundDiv_le (num den : ℕ) : roundDiv num den ≤ num / den + 1 := by
  unfold roundDiv
  dsimp only
  split_ifs <;> omega

end RoundDiv

theorem Quantity.one_pos : 0 < one := by decide +kernel

theorem Quantity.two_mul_one_lt : 2 * one < Nat.pow 10 324 := by decide +kernel

theorem Quantity.one_eq_pow : ∃ e, 52 ≤ e ∧ e ≤ 1074 ∧ one = Nat.pow 2 e :=
  ⟨1074, by decide, le_rfl, by decide +kernel⟩

namespace Binary64
variable {x y : Binary64} {v : ℚ}

/-- The units of 2^-1074 of a finite number, with its sign. -/
def signedUnits (x : Binary64) : ℤ := if x.negative then -(x.units : ℤ) else x.units

/-- The exact value of a finite number. -/
def toRat (x : Binary64) : ℚ := x.signedUnits / Quantity.one

def negated (x : Binary64) : Binary64 := { x with negative := !x.negative }

/-- No finite number is nearer to the value, and none is as near unless it has the same value or
the significand is even. -/
structure IsNearest (x : Binary64) (v : ℚ) : Prop where
  finite : x.isFinite = true
  nearest : ∀ y : Binary64, y.isFinite = true → |x.toRat - v| ≤ |y.toRat - v|
  even : ∀ y : Binary64, y.isFinite = true → |x.toRat - v| = |y.toRat - v| →
    y.toRat = x.toRat ∨ x.significand % 2 = 0

theorem signedUnits_negated (x : Binary64) : x.negated.signedUnits = -x.signedUnits := by
  cases hx : x.negative <;> simp [signedUnits, negated, hx, units, significand, shift]

theorem toRat_negated (x : Binary64) : x.negated.toRat = -x.toRat := by
  rw [toRat, toRat, signedUnits_negated, Int.cast_neg, neg_div]

theorem abs_negated_sub_neg (x : Binary64) (v : ℚ) : |x.negated.toRat - -v| = |x.toRat - v| := by
  rw [toRat_negated, ← neg_sub', abs_neg]

theorem abs_sub_neg (x : Binary64) (v : ℚ) : |x.toRat - -v| = |x.negated.toRat - v| := by
  rw [toRat_negated, ← abs_neg, neg_sub', neg_neg]

theorem IsNearest.negated (h : x.IsNearest v) : x.negated.IsNearest (-v) where
  finite := h.finite
  nearest y hy := by
    rw [abs_negated_sub_neg, abs_sub_neg]
    exact h.nearest y.negated hy
  even y hy heq := by
    rw [abs_negated_sub_neg, abs_sub_neg] at heq
    refine (h.even y.negated hy heq).imp (fun hvalue => ?_) id
    rw [toRat_negated, ← hvalue, toRat_negated, neg_neg]

/-- A value that some number has is the value of the nearest one. -/
theorem IsNearest.exact (h : x.IsNearest v) (hy : y.isFinite = true) (hv : y.toRat = v) :
    x.toRat = v := by
  have hle : |x.toRat - v| ≤ |y.toRat - v| := h.nearest y hy
  rw [hv, sub_self, abs_zero] at hle
  exact sub_eq_zero.mp (abs_eq_zero.mp (le_antisymm hle (abs_nonneg _)))

theorem toRat_eq_intCast_iff {n : ℤ} : x.toRat = n ↔ x.signedUnits = n * Quantity.one := by
  have hone : (Quantity.one : ℚ) ≠ 0 := Nat.cast_ne_zero.mpr Quantity.one_pos.ne'
  rw [toRat, div_eq_iff hone]
  exact_mod_cast Iff.rfl

theorem quantity_eq_finite_iff {u : ℤ} :
    x.quantity = .finite u ↔ x.isFinite = true ∧ x.signedUnits = u := by
  unfold quantity
  by_cases hx : x.isFinite = true
  · rw [if_pos hx]
    exact ⟨fun h => ⟨hx, Quantity.finite.inj h⟩, fun h => congrArg _ h.2⟩
  · rw [if_neg hx]
    refine ⟨fun h => ?_, fun h => absurd h.1 hx⟩
    split at h <;> cases h

theorem whole?_eq_some_iff {n : ℤ} :
    x.whole? = some n ↔ x.isFinite = true ∧ x.toRat = n := by
  have hone : (Quantity.one : ℤ) ≠ 0 := Int.natCast_ne_zero.mpr Quantity.one_pos.ne'
  rw [toRat_eq_intCast_iff]
  unfold whole?
  split
  · next u hu =>
    obtain ⟨hx, rfl⟩ := quantity_eq_finite_iff.mp hu
    constructor
    · intro h
      split at h
      · next hrest =>
        obtain rfl := Option.some.inj h
        exact ⟨hx, (Int.ediv_mul_cancel (Int.dvd_of_emod_eq_zero hrest)).symm⟩
      · cases h
    · rintro ⟨-, hn⟩
      rw [hn, if_pos (Int.mul_emod_left n _), Int.mul_ediv_cancel n hone]
  · next hne =>
    refine ⟨nofun, fun h => absurd (quantity_eq_finite_iff.mpr ⟨h.1, rfl⟩) (hne _)⟩

/-- A finite number is either a multiple of a power of two or of a magnitude with fewer than 53 bits
in that unit. -/
theorem units_coarse (x : Binary64) (s : ℕ) :
    2 ^ s ∣ x.units ∨ 0 < s ∧ x.units < 2 ^ 52 * 2 ^ s := by
  have hsignificand : x.significand < 2 ^ 53 := by
    have := x.fraction.isLt
    simp only [Nat.pow_eq] at this
    unfold significand
    split
    · omega
    · simp only [Nat.pow_eq]
      omega
  by_cases hs : s ≤ x.shift
  · exact .inl (Dvd.dvd.mul_left (pow_dvd_pow 2 hs) _)
  · obtain ⟨t, rfl⟩ : ∃ t, s = t + 1 := ⟨s - 1, by omega⟩
    refine .inr ⟨by omega, ?_⟩
    calc x.significand * Nat.pow 2 x.shift
        ≤ x.significand * 2 ^ t :=
          Nat.mul_le_mul_left _ (Nat.pow_le_pow_right (by decide) (by omega))
      _ < 2 ^ 53 * 2 ^ t := Nat.mul_lt_mul_of_pos_right hsignificand (Nat.two_pow_pos t)
      _ = 2 ^ 52 * 2 ^ (t + 1) := by ring

section OfRank
variable {negative : Bool} {rank s q : ℕ}

theorem ofRank_negative (negative : Bool) (rank : ℕ) :
    (ofRank negative rank).negative = negative := by
  unfold ofRank
  split <;> rfl

theorem signedUnits_ofRank (rank : ℕ) :
    (ofRank false rank).signedUnits = (ofRank false rank).units := by
  rw [signedUnits, ofRank_negative]
  exact if_neg Bool.false_ne_true

theorem lt_of_isFinite_ofRank (h : (ofRank negative rank).isFinite = true) :
    rank < 2047 * Nat.pow 2 52 := by
  by_contra hge
  rw [ofRank, dif_neg hge] at h
  cases h

theorem ofRank_exponent (h : rank < 2047 * Nat.pow 2 52) :
    ((ofRank negative rank).exponent : ℕ) = rank / Nat.pow 2 52 := by
  rw [ofRank, dif_pos h]

theorem ofRank_fraction (h : rank < 2047 * Nat.pow 2 52) :
    ((ofRank negative rank).fraction : ℕ) = rank % Nat.pow 2 52 := by
  rw [ofRank, dif_pos h]

theorem significand_of_exponent_zero (h : (x.exponent : ℕ) = 0) : x.significand = x.fraction :=
  if_pos (Fin.ext h)

theorem significand_of_exponent_pos (h : 0 < (x.exponent : ℕ)) :
    x.significand = Nat.pow 2 52 + x.fraction :=
  if_neg fun heq => by simp [heq] at h

/-- A rank is a shift and a number of at most 53 bits, which has 53 bits unless the shift is zero;
the number of that rank is theirs. -/
theorem ofRank_units (hq : q ≤ Nat.pow 2 53) (hs : s = 0 ∨ Nat.pow 2 52 ≤ q)
    (hfinite : (ofRank negative (s * Nat.pow 2 52 + q)).isFinite = true) :
    (ofRank negative (s * Nat.pow 2 52 + q)).units = q * 2 ^ s ∧
      (q % 2 = 0 → (ofRank negative (s * Nat.pow 2 52 + q)).significand % 2 = 0) := by
  have hlt := lt_of_isFinite_ofRank hfinite
  have hexponent := @ofRank_exponent negative _ hlt
  have hfraction := @ofRank_fraction negative _ hlt
  generalize ofRank negative (s * Nat.pow 2 52 + q) = x at *
  simp only [units, shift, Nat.pow_eq] at hq hs hexponent hfraction ⊢
  rcases lt_trichotomy q (2 ^ 53) with hlow | rfl | hhigh
  · rcases Nat.lt_or_ge q (2 ^ 52) with hsmall | hlarge
    · obtain rfl : s = 0 := by omega
      rw [significand_of_exponent_zero (by omega), show (x.exponent : ℕ) = 0 by omega,
        show (x.fraction : ℕ) = q by omega]
      exact ⟨rfl, id⟩
    · rw [significand_of_exponent_pos (by omega), show (x.exponent : ℕ) = s + 1 by omega,
        show Nat.pow 2 52 + (x.fraction : ℕ) = q by simp only [Nat.pow_eq]; omega]
      exact ⟨rfl, id⟩
  · rw [significand_of_exponent_pos (by omega), show (x.exponent : ℕ) = s + 2 by omega,
      show (x.fraction : ℕ) = 0 by omega]
    exact ⟨by simp only [Nat.pow_eq]; rw [show s + 2 - 1 = s + 1 from rfl]; ring, fun _ => rfl⟩
  · omega

end OfRank

section OfRatio
variable {negative : Bool} {num den : ℕ}

/-- The rounded quotient of `nearestRank`: the significand, in units of the power of two that leaves
53 bits. -/
def nearestSignificand (num den : ℕ) : ℕ :=
  roundDiv (num * Quantity.one) (den * 2 ^ shiftFor num den)

theorem quotient_lt (num den : ℕ) :
    num * Quantity.one / (den * 2 ^ shiftFor num den) < 2 ^ 53 := by
  rw [← Nat.div_div_eq_div_mul, Nat.div_lt_iff_lt_mul (Nat.two_pow_pos _), ← pow_add]
  refine Nat.lt_log2_self.trans_le (Nat.pow_le_pow_right (by decide) ?_)
  unfold shiftFor
  omega

theorem nearestSignificand_le (num den : ℕ) : nearestSignificand num den ≤ Nat.pow 2 53 :=
  (roundDiv_le _ _).trans (quotient_lt num den)

theorem le_quotient_of_shiftFor (h : shiftFor num den ≠ 0) :
    2 ^ 52 ≤ num * Quantity.one / (den * 2 ^ shiftFor num den) := by
  have hlog : (num * Quantity.one / den).log2 = 52 + shiftFor num den := by
    unfold shiftFor at h ⊢
    omega
  have hne : num * Quantity.one / den ≠ 0 := by
    rintro hzero
    simp [shiftFor, hzero] at h
  rw [← Nat.div_div_eq_div_mul, Nat.le_div_iff_mul_le (Nat.two_pow_pos _), ← pow_add, ← hlog]
  exact Nat.log2_self_le hne

theorem le_nearestSignificand (h : shiftFor num den ≠ 0) :
    2 ^ 52 ≤ nearestSignificand num den :=
  (le_quotient_of_shiftFor h).trans (le_roundDiv _ _)

/-- No binary64 number is nearer to a quotient than the rounded one, when it is rounded in a unit
in which it has 53 bits or in the smallest one. -/
theorem roundDiv_nearest {units s : ℕ} (hden : 0 < den)
    (hlead : s ≠ 0 → 2 ^ 52 ≤ units / (den * 2 ^ s)) (y : Binary64) :
    ((roundDiv units (den * 2 ^ s) : ℤ) * (2 ^ s : ℕ) * den - units).natAbs ≤
        (y.signedUnits * den - units).natAbs ∧
      (((roundDiv units (den * 2 ^ s) : ℤ) * (2 ^ s : ℕ) * den - units).natAbs =
          (y.signedUnits * den - units).natAbs →
        y.signedUnits = roundDiv units (den * 2 ^ s) * (2 ^ s : ℕ) ∨
          roundDiv units (den * 2 ^ s) % 2 = 0) := by
  have hden' : 0 < den * 2 ^ s := Nat.mul_pos hden (Nat.two_pow_pos _)
  have hscale (k : ℤ) : k * ((den * 2 ^ s : ℕ) : ℤ) = k * (2 ^ s : ℕ) * den := by
    push_cast
    ring
  have hspec := fun k : ℤ => @roundDiv_spec units _ hden' k
  simp only [hscale] at hspec
  rcases units_coarse y s with ⟨c, hc⟩ | ⟨hs, hc⟩
  · obtain ⟨k, hk⟩ : ∃ k : ℤ, y.signedUnits = k * (2 ^ s : ℕ) := by
      unfold signedUnits
      rw [hc, Nat.mul_comm]
      cases y.negative
      · exact ⟨c, by simp⟩
      · exact ⟨-c, by simp⟩
    rw [hk]
    exact ⟨(hspec k).1, fun h => ((hspec k).2 h).imp (fun hq => by rw [hq]) id⟩
  · -- A number with fewer bits is below the quotient's leading bit, which is nearer.
    have hlead' := (Nat.le_div_iff_mul_le hden').mp (hlead hs.ne')
    have hle : y.signedUnits ≤ y.units := by
      unfold signedUnits
      split <;> omega
    have hunits : y.signedUnits < ((2 ^ 52 : ℕ) : ℤ) * (2 ^ s : ℕ) :=
      hle.trans_lt (by exact_mod_cast hc)
    have hbelow : y.signedUnits * den < ((2 ^ 52 : ℕ) : ℤ) * (2 ^ s : ℕ) * den :=
      mul_lt_mul_of_pos_right hunits (by exact_mod_cast hden)
    have habove : ((2 ^ 52 : ℕ) : ℤ) * (2 ^ s : ℕ) * den ≤ units := by
      rw [← hscale]
      exact_mod_cast hlead'
    have hnear := (hspec (2 ^ 52 : ℕ)).1
    generalize ((2 ^ 52 : ℕ) : ℤ) * (2 ^ s : ℕ) * den = t at *
    generalize y.signedUnits * den = w at *
    omega

theorem ofRatio_signedUnits (h : (ofRatio false num den).isFinite = true) :
    (ofRatio false num den).signedUnits =
        nearestSignificand num den * (2 ^ shiftFor num den : ℕ) ∧
      (nearestSignificand num den % 2 = 0 → (ofRatio false num den).significand % 2 = 0) := by
  have hs : shiftFor num den = 0 ∨ Nat.pow 2 52 ≤ nearestSignificand num den := by
    by_cases hs : shiftFor num den = 0
    · exact .inl hs
    · exact .inr (le_nearestSignificand hs)
  obtain ⟨hunits, heven⟩ := ofRank_units (nearestSignificand_le num den) hs h
  refine ⟨?_, heven⟩
  rw [← Nat.cast_mul, ← hunits]
  exact signedUnits_ofRank _

theorem abs_toRat_sub_ratio (hden : 0 < den) (y : Binary64) :
    |y.toRat - num / den| =
      ((y.signedUnits * den - (num * Quantity.one : ℕ)).natAbs : ℚ) / (Quantity.one * den) := by
  have hone : (0 : ℚ) < Quantity.one := Nat.cast_pos.mpr Quantity.one_pos
  have hden' : (0 : ℚ) < den := Nat.cast_pos.mpr hden
  have hsub : y.toRat - num / den =
      ((y.signedUnits * den - (num * Quantity.one : ℕ) : ℤ) : ℚ) / (Quantity.one * den) := by
    rw [toRat, div_sub_div _ _ hone.ne' hden'.ne']
    push_cast
    ring
  rw [hsub, abs_div, abs_of_pos (mul_pos hone hden'), Nat.cast_natAbs, Int.cast_abs]

theorem ofRatio_isNearest (hden : 0 < den) (h : (ofRatio false num den).isFinite = true) :
    (ofRatio false num den).IsNearest (num / den) := by
  have hpos : (0 : ℚ) < Quantity.one * den :=
    mul_pos (Nat.cast_pos.mpr Quantity.one_pos) (Nat.cast_pos.mpr hden)
  obtain ⟨hunits, heven⟩ := ofRatio_signedUnits h
  have hspec := @roundDiv_nearest den (num * Quantity.one) _ hden
    (@le_quotient_of_shiftFor num den)
  refine ⟨h, fun y _ => ?_, fun y _ heq => ?_⟩
  · rw [abs_toRat_sub_ratio hden, abs_toRat_sub_ratio hden, div_le_div_iff_of_pos_right hpos,
      Nat.cast_le, hunits]
    exact (hspec y).1
  · rw [abs_toRat_sub_ratio hden, abs_toRat_sub_ratio hden, div_left_inj' hpos.ne',
      Nat.cast_inj, hunits] at heq
    refine ((hspec y).2 heq).imp (fun hy => ?_) heven
    rw [toRat, toRat, hunits, hy]
    rfl

end OfRatio

section OfDecimal
variable {negative : Bool} {digits : ℕ} {exponent : ℤ}

theorem isNearest_zero (hv : ∀ y : Binary64, y.isFinite = true → |v| ≤ |y.toRat - v|) :
    (zero negative).IsNearest v := by
  have hunits : (zero negative).signedUnits = 0 := by cases negative <;> rfl
  have hzero : (zero negative).toRat = 0 := by rw [toRat, hunits, Int.cast_zero, zero_div]
  refine ⟨rfl, fun y hy => ?_, fun y _ _ => .inr rfl⟩
  rw [hzero, zero_sub, abs_neg]
  exact hv y hy

/-- Zero is the number nearest to a value of which twice is less than 2^-1074. -/
theorem isNearest_zero_of_small (hpos : 0 ≤ v) (hv : 2 * v * Quantity.one < 1) :
    (zero negative).IsNearest v := by
  have hone : (0 : ℚ) < Quantity.one := Nat.cast_pos.mpr Quantity.one_pos
  refine isNearest_zero fun y _ => ?_
  rw [abs_of_nonneg hpos]
  rcases eq_or_ne y.signedUnits 0 with hy | hy
  · rw [toRat, hy, Int.cast_zero, zero_div, zero_sub, abs_neg]
    exact le_abs_self v
  · have hunit : 2 * v ≤ |y.toRat| := by
      have hge : (1 : ℚ) ≤ |(y.signedUnits : ℚ)| := by
        exact_mod_cast Int.one_le_abs hy
      rw [toRat, abs_div, abs_of_pos hone, le_div_iff₀ hone]
      exact hv.le.trans hge
    calc v = 2 * v - |v| := by rw [abs_of_nonneg hpos]; ring
      _ ≤ |y.toRat| - |v| := sub_le_sub_right hunit _
      _ ≤ |y.toRat - v| := abs_sub_abs_le_abs_sub _ _

theorem lt_pow_length_natDigits (n : ℕ) : n < 10 ^ (natDigits n).length := by
  have hpos : 0 < (natDigits n).length := List.length_pos_iff.mpr Nat.toDigits_ne_nil
  exact (Nat.length_toDigits_le_iff (by decide) hpos).mp le_rfl

/-- A decimal whose digits all stand at least `n` places behind the point is small. -/
theorem small_of_point {n : ℕ} (hone : 2 * Quantity.one < Nat.pow 10 n)
    (h : exponent + (natDigits digits).length ≤ -n) :
    2 * ((digits : ℚ) * 10 ^ exponent) * Quantity.one < 1 := by
  have hten : (0 : ℚ) < 10 ^ (-n : ℤ) := zpow_pos (by norm_num) _
  have hdigits : (digits : ℚ) ≤ 10 ^ ((natDigits digits).length : ℤ) := by
    exact_mod_cast (lt_pow_length_natDigits digits).le
  have hbelow : (digits : ℚ) * 10 ^ exponent ≤ 10 ^ (-n : ℤ) :=
    calc (digits : ℚ) * 10 ^ exponent
        ≤ 10 ^ ((natDigits digits).length : ℤ) * 10 ^ exponent :=
          mul_le_mul_of_nonneg_right hdigits (by positivity)
      _ = 10 ^ ((natDigits digits).length + exponent) := (zpow_add₀ (by norm_num) _ _).symm
      _ ≤ 10 ^ (-n : ℤ) := zpow_le_zpow_right₀ (by norm_num) (by omega)
  calc 2 * ((digits : ℚ) * 10 ^ exponent) * Quantity.one
      = (digits : ℚ) * 10 ^ exponent * (2 * Quantity.one : ℕ) := by push_cast; ring
    _ ≤ 10 ^ (-n : ℤ) * (2 * Quantity.one : ℕ) :=
        mul_le_mul_of_nonneg_right hbelow (Nat.cast_nonneg _)
    _ < 10 ^ (-n : ℤ) * (Nat.pow 10 n : ℕ) := mul_lt_mul_of_pos_left (Nat.cast_lt.mpr hone) hten
    _ = 1 := by
        rw [Nat.pow_eq, Nat.cast_pow, zpow_neg, zpow_natCast]
        exact inv_mul_cancel₀ (by positivity)

theorem ratio_eq_zpow (digits : ℕ) (exponent : ℤ) :
    ((digits * Nat.pow 10 exponent.toNat : ℕ) : ℚ) / (Nat.pow 10 (-exponent).toNat : ℕ) =
      digits * 10 ^ exponent := by
  obtain ⟨n, rfl | rfl⟩ := exponent.eq_nat_or_neg
  · simp
  · simp [div_eq_mul_inv]

/-- A decimal is rounded to the nearest number, unless it is rounded to an infinity. -/
theorem ofDecimal_isNearest (h : (ofDecimal false digits exponent).isFinite = true) :
    (ofDecimal false digits exponent).IsNearest (digits * 10 ^ exponent) := by
  unfold ofDecimal at h ⊢
  dsimp only at h ⊢
  split_ifs at h ⊢ with hzero hlarge hsmall
  · refine isNearest_zero fun y _ => ?_
    simp [hzero]
  · cases h
  · exact isNearest_zero_of_small (by positivity) (small_of_point Quantity.two_mul_one_lt (by omega))
  · rw [← ratio_eq_zpow]
    exact ofRatio_isNearest (Nat.pow_pos (by decide)) h

theorem ofRank_true (rank : ℕ) : ofRank true rank = (ofRank false rank).negated := by
  unfold ofRank
  split <;> rfl

theorem ofDecimal_true (digits : ℕ) (exponent : ℤ) :
    ofDecimal true digits exponent = (ofDecimal false digits exponent).negated := by
  unfold ofDecimal
  dsimp only
  split_ifs
  · rfl
  · rfl
  · rfl
  · exact ofRank_true _

end OfDecimal

section Integers

theorem isFinite_ofRank {negative : Bool} {rank : ℕ} (h : rank < 2047 * Nat.pow 2 52) :
    (ofRank negative rank).isFinite = true := by
  have hexponent := @ofRank_exponent negative _ h
  refine decide_eq_true (Fin.lt_def.mpr ?_)
  rw [hexponent]
  simp only [Nat.pow_eq] at h ⊢
  change _ < 2047
  omega

theorem rank_lt {s q : ℕ} (hs : s ≤ 1074) (hq : q ≤ 2 ^ 53) :
    s * Nat.pow 2 52 + q < 2047 * Nat.pow 2 52 := by
  simp only [Nat.pow_eq]
  omega

/-- A natural number up to 2^53 has 53 bits in some unit not above one. -/
theorem exists_significand {m e : ℕ} (hpos : 0 < m) (hm : m ≤ 2 ^ 53) (he : 52 ≤ e) :
    ∃ q s, 2 ^ 52 ≤ q ∧ q ≤ 2 ^ 53 ∧ s ≤ e ∧ q * 2 ^ s = m * Nat.pow 2 e := by
  rw [Nat.pow_eq]
  rcases hm.lt_or_eq with hlt | rfl
  · have hlog : m.log2 ≤ 52 := by
      have := (Nat.log2_lt hpos.ne').mpr hlt
      omega
    have hscale : 2 ^ m.log2 * 2 ^ (52 - m.log2) = 2 ^ 52 := by
      rw [← pow_add, Nat.add_sub_cancel' hlog]
    refine ⟨m * 2 ^ (52 - m.log2), e - (52 - m.log2), ?_, ?_, by omega, ?_⟩
    · rw [← hscale]
      exact Nat.mul_le_mul_right _ (Nat.log2_self_le hpos.ne')
    · calc m * 2 ^ (52 - m.log2) ≤ 2 ^ (m.log2 + 1) * 2 ^ (52 - m.log2) :=
            Nat.mul_le_mul_right _ Nat.lt_log2_self.le
        _ = 2 ^ m.log2 * 2 ^ (52 - m.log2) * 2 := by ring
        _ = 2 ^ 53 := by rw [hscale, ← pow_succ]
    · rw [mul_assoc, ← pow_add, Nat.add_sub_cancel' (by omega)]
  · exact ⟨2 ^ 53, e, by decide, le_rfl, le_rfl, rfl⟩

theorem exists_toRat_eq_natCast {m : ℕ} (hm : m ≤ 2 ^ 53) :
    ∃ x : Binary64, x.isFinite = true ∧ x.toRat = (m : ℤ) := by
  rcases Nat.eq_zero_or_pos m with rfl | hpos
  · exact ⟨zero false, rfl, toRat_eq_intCast_iff.mpr (by rw [Nat.cast_zero, zero_mul]; rfl)⟩
  · obtain ⟨e, hlow, hhigh, hone⟩ := Quantity.one_eq_pow
    obtain ⟨q, s, hq, hq', hs, hscale⟩ := exists_significand hpos hm hlow
    have hfinite := @isFinite_ofRank false _ (rank_lt (hs.trans hhigh) hq')
    refine ⟨_, hfinite, toRat_eq_intCast_iff.mpr ?_⟩
    rw [signedUnits_ofRank, (ofRank_units hq' (.inr hq) hfinite).1, hscale, hone, Nat.cast_mul]

theorem exists_toRat_eq_intCast {n : ℤ} (hn : n.natAbs ≤ 2 ^ 53) :
    ∃ x : Binary64, x.isFinite = true ∧ x.toRat = n := by
  obtain ⟨x, hx, hvalue⟩ := exists_toRat_eq_natCast hn
  rcases Int.natAbs_eq n with h | h
  · exact ⟨x, hx, by rw [hvalue, ← h]⟩
  · refine ⟨x.negated, hx, ?_⟩
    rw [toRat_negated, hvalue, h, Int.cast_neg]
    simp

end Integers

end Binary64

end RoverFleet.Numeric
