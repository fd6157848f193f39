import RoverFleet.Proofs.Acceptance
import RoverFleet.Proofs.Nearest

/-!
# Coordinates are what their literals write

The exact value of a literal is a rational number. An accepted script has its plateau and its rovers
at the values of its literals when these are integers without point and exponent, and at the nearest
binary64 numbers otherwise, so at the values too if they are binary64 numbers.
-/
namespace RoverFleet
open Numeric

namespace Literal
variable {negative : Bool} {base : ℕ} {digits whole fraction w : List Char} {exponent n : ℤ}
  {v : ℚ} {l : Literal}

def signed (negative : Bool) (v : ℚ) : ℚ := if negative then -v else v

/-- The exact value that a literal writes; an infinity has none. -/
def rational? : Literal → Option ℚ
  | .integer negative digits => some (signed negative (ofDigits 10 digits))
  | .based base digits => some (ofDigits base digits)
  | .decimal negative whole fraction exponent =>
    some (signed negative ((ofDigits 10 whole + ofDigits 10 fraction / 10 ^ fraction.length) *
      10 ^ exponent))
  | .infinity _ => none

/-- Whether a literal has a point or an exponent. -/
def isDecimal : Literal → Bool
  | .decimal .. => true
  | _ => false

theorem foldl_digits (base m : ℕ) (s : List Char) :
    s.foldl (fun n c => n * base + digitValue c) m = m * base ^ s.length + ofDigits base s := by
  induction s generalizing m with
  | nil => simp [ofDigits]
  | cons c rest ih =>
    rw [ofDigits, List.foldl_cons, List.foldl_cons, ih, ih (0 * base + _), List.length_cons]
    ring

theorem ofDigits_append (base : ℕ) (s t : List Char) :
    ofDigits base (s ++ t) = ofDigits base s * base ^ t.length + ofDigits base t := by
  rw [ofDigits, List.foldl_append, foldl_digits]
  rfl

/-- The digits before and after the point as one row of digits. -/
theorem ofDigits_fraction (whole fraction : List Char) (exponent : ℤ) :
    (ofDigits 10 (whole ++ fraction) : ℚ) * 10 ^ (exponent - fraction.length) =
      (ofDigits 10 whole + ofDigits 10 fraction / 10 ^ fraction.length) * 10 ^ exponent := by
  have hten : (10 : ℚ) ≠ 0 := by norm_num
  rw [ofDigits_append, zpow_sub₀ hten, zpow_natCast]
  push_cast
  field_simp

theorem signed_negateIf (negative : Bool) (m : ℕ) :
    signed negative m = (negateIf negative m : ℤ) := by
  cases negative <;> simp [signed, negateIf]

/-- A decimal literal that is read as a finite number is read as the one nearest to its value. -/
theorem decimal_isNearest {m : ℕ}
    (h : (Binary64.ofDecimal negative m exponent).isFinite = true) :
    (Binary64.ofDecimal negative m exponent).IsNearest (signed negative (m * 10 ^ exponent)) := by
  cases negative with
  | false => exact Binary64.ofDecimal_isNearest h
  | true =>
    rw [Binary64.ofDecimal_true] at h ⊢
    exact (Binary64.ofDecimal_isNearest h).negated

/-- How a literal that writes `v` is read as the coordinate `n`. -/
structure IsReadAs (l : Literal) (v : ℚ) (n : ℤ) : Prop where
  exact : l.rational? = some v
  /-- Without point and exponent nothing is rounded. -/
  integral : l.isDecimal = false → v = n
  /-- With a point or an exponent the coordinate is the nearest binary64 number itself. -/
  rounded : l.isDecimal = true →
    ∃ x : Binary64, l.value = .ok (.double x) ∧ x.IsNearest v ∧ x.toRat = n
  /-- What binary64 can represent is not changed. -/
  representable : ∀ x : Binary64, x.isFinite = true → x.toRat = v → v = n
  small : ∀ m : ℤ, m.natAbs ≤ 2 ^ 53 → v = m → n = m

theorem IsReadAs.of_integral (hexact : l.rational? = some (n : ℚ)) (hl : l.isDecimal = false) :
    l.IsReadAs n n where
  exact := hexact
  integral _ := rfl
  rounded h := absurd (h.symm.trans hl) nofun
  representable _ _ _ := rfl
  small _ _ h := by exact_mod_cast h

theorem IsReadAs.of_isNearest {x : Binary64} (hexact : l.rational? = some v)
    (hl : l.isDecimal = true) (hvalue : l.value = .ok (.double x)) (hx : x.IsNearest v)
    (hn : x.toRat = n) : l.IsReadAs v n where
  exact := hexact
  integral h := absurd (h.symm.trans hl) nofun
  rounded _ := ⟨x, hvalue, hx, hn⟩
  representable y hy hv := by rw [← hn, hx.exact hy hv]
  small m hm hv := by
    obtain ⟨y, hy, hvalue⟩ := Binary64.exists_toRat_eq_intCast hm
    have hexact := hx.exact hy (hvalue.trans hv.symm)
    rw [hn, hv] at hexact
    exact_mod_cast hexact

theorem isReadAs_of_value {x : Value} (hv : l.value = .ok x) (hn : x.whole? = some n) :
    ∃ v, l.IsReadAs v n := by
  cases l with
  | integer negative digits =>
    rw [value] at hv
    split at hv
    · cases hv
    · cases hv
      cases hn
      exact ⟨_, .of_integral (congrArg some (signed_negateIf negative _)) rfl⟩
  | based base digits =>
    cases hv
    cases hn
    exact ⟨_, .of_integral (congrArg some (Int.cast_natCast _).symm) rfl⟩
  | decimal negative whole fraction exponent =>
    cases hv
    obtain ⟨hfinite, hn⟩ := Binary64.whole?_eq_some_iff.mp hn
    have hnearest := decimal_isNearest hfinite
    rw [ofDigits_fraction] at hnearest
    exact ⟨_, .of_isNearest rfl rfl rfl hnearest hn⟩
  | infinity negative =>
    cases hv
    have hwhole : (Binary64.infinity negative).whole? = some n := hn
    exact absurd (Binary64.whole?_eq_some_iff.mp hwhole).1 Bool.false_ne_true

theorem isReadAs_of_read {x : Value} (h : read w = .ok (some x)) (hn : x.whole? = some n) :
    ∃ l v, ofChars? w = some l ∧ l.IsReadAs v n := by
  unfold read at h
  split at h
  · cases h
  · next l hl =>
    obtain ⟨y, hy, hx⟩ := bind_ok_iff.mp h
    cases hx
    obtain ⟨v, hv⟩ := isReadAs_of_value hy hn
    exact ⟨l, v, hl, hv⟩

end Literal

namespace Script
variable {x y : Value} {id : String} {p : Plateau} {c : Cell} {text : List Char}

theorem ofBounds_ok (h : Plateau.ofBounds id x y = .ok p) :
    x.whole? = some (p.bounds.maxX : ℤ) ∧ y.whole? = some (p.bounds.maxY : ℤ) := by
  unfold Plateau.ofBounds at h
  split at h
  · next m n hx hy =>
    split_ifs at h with hneg
    cases h
    rw [hx, hy]
    dsimp only
    exact ⟨by rw [Int.toNat_of_nonneg (by omega)], by rw [Int.toNat_of_nonneg (by omega)]⟩
  · cases h

theorem startCell_ok (h : Rover.startCell x y = .ok c) :
    x.whole? = some c.x ∧ y.whole? = some c.y := by
  unfold Rover.startCell at h
  split at h
  · next m n hx hy =>
    split_ifs at h
    cases h
    exact ⟨hx, hy⟩
  · cases h

/-- Whether a word is a literal that is read as the coordinate. -/
def Writes (w : List Char) (n : ℤ) : Prop := ∃ l v, Literal.ofChars? w = some l ∧ l.IsReadAs v n

/-- The plateau of an accepted script has the bounds that its first line writes, and each rover is
placed where its position line says. -/
theorem accepted_coordinates (h : (run text).result = .ok p) :
    ∃ (first : List Char) (ps : List (List Char × List Char)),
      lines text = first :: ps.flatMap (fun pair => [pair.1, pair.2]) ∧
      (∃ a b, Text.words first = [a, b] ∧ Writes a p.bounds.maxX ∧ Writes b p.bounds.maxY) ∧
      List.Forall₂ (fun r pair => ∃ a b c, Text.words pair.1 = [a, b, c] ∧
        Writes a r.cell.x ∧ Writes b r.cell.y) (placedRovers (run text).journal) ps := by
  obtain ⟨first, ps, start, hl, hstart, hbounds, hrovers⟩ := accepted_lines h
  refine ⟨first, ps, hl, ?_, hrovers.imp ?_⟩
  · obtain ⟨a, b, x, y, hwords, hx, hy, hplateau⟩ := readPlateau_ok hstart
    obtain ⟨hwholeX, hwholeY⟩ := ofBounds_ok hplateau
    rw [hbounds]
    exact ⟨a, b, hwords, Literal.isReadAs_of_read hx hwholeX, Literal.isReadAs_of_read hy hwholeY⟩
  · rintro r pair ⟨⟨k, n, hr⟩, -⟩
    obtain ⟨a, b, c, x, y, hwords, hx, hy, -, hcell⟩ := readRover_ok hr
    obtain ⟨hwholeX, hwholeY⟩ := startCell_ok hcell
    exact ⟨a, b, c, hwords, Literal.isReadAs_of_read hx hwholeX,
      Literal.isReadAs_of_read hy hwholeY⟩

theorem accepted_coordinates_large :
    let text := "9007199254740993.0 0x5\n1.5e1 +2 N\nL".toList
    (run text).result = .ok ⟨"1", ⟨9007199254740992, 5⟩, [⟨"1", ⟨15, 2⟩, .west⟩]⟩ ∧
      ∃ (first : List Char) (ps : List (List Char × List Char)),
        lines text = first :: ps.flatMap (fun pair => [pair.1, pair.2]) ∧
        (∃ a b, Text.words first = [a, b] ∧ Writes a 9007199254740992 ∧ Writes b 5) ∧
        List.Forall₂ (fun r pair => ∃ a b c, Text.words pair.1 = [a, b, c] ∧
          Writes a r.cell.x ∧ Writes b r.cell.y) (placedRovers (run text).journal) ps := by
  intro text
  have h : (run text).result =
      .ok ⟨"1", ⟨9007199254740992, 5⟩, [⟨"1", ⟨15, 2⟩, .west⟩]⟩ := by decide +kernel
  exact ⟨h, accepted_coordinates h⟩

/-- A fraction that vanishes in rounding is accepted: the exact value of the literal is no
integer. -/
theorem accepted_vanishing_fraction :
    let word := "5.000000000000000000001".toList
    let text := word ++ " 5".toList
    (run text).result = .ok ⟨"1", ⟨5, 5⟩, []⟩ ∧
      Text.words text = [word, "5".toList] ∧
      (∃ l, Literal.ofChars? word = some l ∧ l.rational? = some (5 + 1 / 10 ^ 21)) ∧
      ∀ n : ℤ, (5 + 1 / 10 ^ 21 : ℚ) ≠ n := by
  have hdigits : ofDigits 10 ['5'] = 5 ∧ ofDigits 10 "000000000000000000001".toList = 1 ∧
      "000000000000000000001".toList.length = 21 := by decide +kernel
  have hexact : (Literal.decimal false ['5'] "000000000000000000001".toList 0).rational? =
      some (5 + 1 / 10 ^ 21) := by
    rw [Literal.rational?, hdigits.1, hdigits.2.1, hdigits.2.2]
    norm_num [Literal.signed]
  refine ⟨by decide +kernel, by decide +kernel, ⟨_, by decide +kernel, hexact⟩, fun n hn => ?_⟩
  have hscaled : (5 * 10 ^ 21 + 1 : ℚ) = n * 10 ^ 21 := by
    rw [← hn]
    norm_num
  have hwhole : (5 * 10 ^ 21 + 1 : ℤ) = n * 10 ^ 21 := by exact_mod_cast hscaled
  omega

end Script

end RoverFleet
