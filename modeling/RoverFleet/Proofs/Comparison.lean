import RoverFleet.Proofs.Extremes

/-!
# Comparisons are exact

A coordinate is an integer of any size, a truth value or a binary64 number, and counts by its exact
value, which is a real number or an infinity. Whether a point lies inside bounds or is occupied
depends on these values alone, and neither holds of a point with a NaN, which has no value. So does
the equality of places, but for a NaN: it is equal to itself as an object, and to nothing else.
-/
namespace RoverFleet
open Numeric

namespace Numeric

namespace Quantity
variable {a b : Quantity} {u v n : ℤ}

/-- The real number that is so many units of 2^-1074. -/
noncomputable def ofUnits (u : ℤ) : ℝ := u / one

/-- The extended real number that a quantity is. -/
noncomputable def extended? : Quantity → Option EReal
  | .undefined => none
  | .infinite negative => some (if negative then ⊥ else ⊤)
  | .finite units => some (ofUnits units)

theorem ofUnits_mul_one (n : ℤ) : ofUnits (n * one) = n := by
  have hone : (one : ℝ) ≠ 0 := Nat.cast_ne_zero.mpr one_pos.ne'
  rw [ofUnits, Int.cast_mul, Int.cast_natCast, mul_div_cancel_right₀ _ hone]

theorem ofUnits_neg (u : ℤ) : ofUnits (-u) = -ofUnits u := by
  rw [ofUnits, Int.cast_neg, neg_div, ofUnits]

theorem ofUnits_le_iff : ofUnits u ≤ ofUnits v ↔ u ≤ v := by
  have hone : (0 : ℝ) < one := Nat.cast_pos.mpr one_pos
  rw [ofUnits, ofUnits, div_le_div_iff_of_pos_right hone, Int.cast_le]

theorem extended?_ofInt (n : ℤ) : (ofInt n).extended? = some ((n : ℝ) : EReal) := by
  rw [ofInt, extended?, ofUnits_mul_one]

/-- Quantities are ordered as their exact values. -/
theorem le_iff : a.le b = true ↔ ∃ x ∈ a.extended?, ∃ y ∈ b.extended?, x ≤ y := by
  cases a with
  | undefined => simp [le, extended?]
  | infinite n =>
    cases b with
    | undefined => simp [le, extended?]
    | infinite m => cases n <;> cases m <;> simp [le, extended?]
    | finite v => cases n <;> simp [le, extended?]
  | finite u =>
    cases b with
    | undefined => simp [le, extended?]
    | infinite m => cases m <;> simp [le, extended?]
    | finite v => simp [le, extended?, ofUnits_le_iff]

/-- Quantities are the same if they have the same exact value. -/
theorem same_iff : a.same b = true ↔ ∃ x, a.extended? = some x ∧ b.extended? = some x := by
  rw [same, Bool.and_eq_true, le_iff, le_iff]
  constructor
  · rintro ⟨⟨x, hx, y, hy, hle⟩, y', hy', x', hx', hle'⟩
    obtain rfl := Option.mem_unique hx hx'
    obtain rfl := Option.mem_unique hy hy'
    obtain rfl := le_antisymm hle hle'
    exact ⟨x, hx, hy⟩
  · rintro ⟨x, hx, hy⟩
    exact ⟨⟨x, hx, x, hy, le_rfl⟩, x, hy, x, hx, le_rfl⟩

end Quantity

namespace Binary64

/-- The magnitude that the fields of a finite number stand for: the fraction of 52 bits is set
behind a one, and behind a zero in the smallest exponent. -/
noncomputable def magnitude (x : Binary64) : ℝ :=
  if x.exponent.val = 0 then x.fraction.val / (2 : ℕ) ^ 52 * (2 : ℕ) ^ (-1022 : ℤ)
  else (1 + x.fraction.val / (2 : ℕ) ^ 52) * (2 : ℕ) ^ ((x.exponent.val : ℤ) - 1023)

/-- The exact value of a number. The greatest exponent is that of the infinities, and with a
fraction it stands for no number. -/
noncomputable def extended? (x : Binary64) : Option EReal :=
  if x.exponent.val < 2047 then
    some ((if x.negative then -x.magnitude else x.magnitude : ℝ) : EReal)
  else if x.fraction.val = 0 then some (if x.negative then ⊥ else ⊤)
  else none

/-- A multiple of a power of two, with the point moved to the left by `i` places. -/
theorem scaled_eq (m : ℝ) (s i j : ℕ) :
    m * 2 ^ s / 2 ^ (i + j) = m / 2 ^ i * 2 ^ ((s : ℤ) - j) := by
  rw [zpow_sub₀ two_ne_zero, zpow_natCast, zpow_natCast, pow_add]
  field_simp

theorem units_div_one (x : Binary64) :
    (x.units : ℝ) / Quantity.one = x.significand / 2 ^ 52 * 2 ^ ((x.shift : ℤ) - 1022) := by
  have hone : (Quantity.one : ℝ) = 2 ^ (52 + 1022) := by
    rw [← Rat.cast_natCast, cast_one, Rat.cast_pow, Rat.cast_ofNat]
  rw [hone, ← Nat.cast_ofNat (R := ℤ), ← scaled_eq, units, Nat.cast_mul, Nat.pow_eq, Nat.cast_pow,
    Nat.cast_ofNat]

/-- The units of a number amount to the magnitude that its fields stand for. -/
theorem ofUnits_units (x : Binary64) : Quantity.ofUnits x.units = x.magnitude := by
  rw [Quantity.ofUnits, Int.cast_natCast, units_div_one, magnitude, Nat.cast_ofNat]
  split_ifs with hexponent
  · -- the smallest exponent shifts nothing
    rw [significand_of_exponent_zero hexponent, shift, hexponent]
    rfl
  · have hpos : 0 < (x.exponent : ℕ) := Nat.pos_of_ne_zero hexponent
    have hshift : (x.shift : ℤ) - 1022 = (x.exponent : ℤ) - 1023 := by
      rw [shift]
      omega
    have hsignificand : (x.significand : ℝ) = 2 ^ 52 + (x.fraction.val : ℝ) := by
      rw [significand_of_exponent_pos hpos]
      norm_num
    rw [hshift, hsignificand, add_div, div_self (pow_ne_zero 52 two_ne_zero)]

/-- The quantity of a number has the value that the fields of the number stand for. -/
theorem extended?_quantity (x : Binary64) : x.quantity.extended? = x.extended? := by
  have hfinite : x.isFinite = true ↔ (x.exponent : ℕ) < 2047 := by
    simp [isFinite, Fin.lt_def]
  have hfraction : x.fraction = 0 ↔ (x.fraction : ℕ) = 0 := Fin.ext_iff
  unfold quantity extended?
  simp only [hfinite, hfraction]
  split_ifs <;> simp [Quantity.extended?, Quantity.ofUnits_neg, ofUnits_units, *]

/-- The exponent of the infinities with a fraction. -/
def IsNaN (x : Binary64) : Prop := x.exponent.val = 2047 ∧ x.fraction.val ≠ 0

theorem extended?_of_isNaN {x : Binary64} (h : x.IsNaN) : x.extended? = none := by
  simp [extended?, h.1, h.2]

theorem extended?_of_not_finite {x : Binary64} (h : x.isFinite = false) :
    ∀ e ∈ x.extended?, e = ⊥ ∨ e = ⊤ := by
  have hexponent : ¬ (x.exponent : ℕ) < 2047 := by
    simpa [isFinite, Fin.lt_def] using h
  unfold extended?
  rw [if_neg hexponent]
  split_ifs <;> simp

end Binary64

end Numeric

namespace Value
variable {v w u : Value} {m : ℕ} {n : ℤ}

/-- Integers, truth values and binary64 numbers. -/
inductive IsNumber : Value → Prop
  | bool (b : Bool) : IsNumber (.bool b)
  | int (n : ℤ) : IsNumber (.int n)
  | double (x : Binary64) : IsNumber (.double x)

/-- The exact value of a number; truth values count as 1 and 0. -/
noncomputable def extended? : Value → Option EReal
  | .bool b => some (if b then 1 else 0)
  | .int n => some ((n : ℝ) : EReal)
  | .double x => x.extended?
  | _ => none

/-- The exact value lies between 0 and a bound. -/
def IsBetween (v : Value) (max : ℕ) : Prop :=
  ∃ e, v.extended? = some e ∧ 0 ≤ e ∧ e ≤ ((max : ℝ) : EReal)

/-- The exact values are equal. -/
def Equals (v w : Value) : Prop := ∃ e, v.extended? = some e ∧ w.extended? = some e

theorem Equals.symm (h : v.Equals w) : w.Equals v := by
  obtain ⟨e, hv, hw⟩ := h
  exact ⟨e, hw, hv⟩

theorem Equals.trans (h : v.Equals w) (h' : w.Equals u) : v.Equals u := by
  obtain ⟨e, hv, hw⟩ := h
  obtain ⟨e', hw', hu⟩ := h'
  obtain rfl := Option.some.inj (hw.symm.trans hw')
  exact ⟨e, hv, hu⟩

theorem IsNumber.quantity? (h : v.IsNumber) :
    ∃ q, v.quantity? = some q ∧ q.extended? = v.extended? := by
  cases h with
  | bool b =>
    refine ⟨_, rfl, ?_⟩
    rw [Quantity.extended?_ofInt]
    cases b <;> simp [extended?]
  | int n => exact ⟨_, rfl, Quantity.extended?_ofInt n⟩
  | double x => exact ⟨_, rfl, x.extended?_quantity⟩

theorem same_of_quantity? {a b : Quantity} (hv : v.quantity? = some a) (hw : w.quantity? = some b) :
    v.same w = a.same b := by
  cases v <;> cases w <;> simp_all [same, quantity?]

/-- Numbers are the same if their exact values are equal. -/
theorem same_iff (hv : v.IsNumber) (hw : w.IsNumber) : v.same w = true ↔ v.Equals w := by
  obtain ⟨a, ha, hvalue⟩ := hv.quantity?
  obtain ⟨b, hb, hvalue'⟩ := hw.quantity?
  rw [same_of_quantity? ha hb, Quantity.same_iff, hvalue, hvalue', Equals]

theorem equals_int_iff : (int n).Equals v ↔ v.extended? = some ((n : ℝ) : EReal) := by
  constructor
  · rintro ⟨e, hn, hv⟩
    rwa [← Option.some.inj hn] at hv
  · exact fun h => ⟨_, rfl, h⟩

/-- A number lies between 0 and a bound if its quantity does. -/
theorem isBetween_of_quantity? {q : Quantity} (hq : q.extended? = v.extended?) :
    ((Quantity.ofInt 0).le q && q.le (.ofInt m)) = true ↔ v.IsBetween m := by
  rw [Bool.and_eq_true, Quantity.le_iff, Quantity.le_iff, Quantity.extended?_ofInt,
    Quantity.extended?_ofInt, hq, IsBetween]
  cases v.extended? <;> simp

theorem isBetween_int_iff : (int n).IsBetween m ↔ 0 ≤ n ∧ n ≤ m := by
  constructor
  · rintro ⟨e, he, hlow, hhigh⟩
    obtain rfl := Option.some.inj he
    exact ⟨by exact_mod_cast hlow, by exact_mod_cast hhigh⟩
  · rintro ⟨hlow, hhigh⟩
    exact ⟨_, rfl, by exact_mod_cast hlow, by exact_mod_cast hhigh⟩

/-- An infinity lies between no bounds, and neither does a NaN. -/
theorem not_isBetween_of_not_finite {x : Binary64} (h : x.isFinite = false) :
    ¬ (double x).IsBetween m := by
  rintro ⟨e, he, hlow, hhigh⟩
  rcases Binary64.extended?_of_not_finite h e he with rfl | rfl
  · exact absurd (le_bot_iff.mp hlow) EReal.zero_ne_bot
  · exact absurd (top_le_iff.mp hhigh) (EReal.coe_ne_top _)

theorem not_equals_of_isNaN {x : Binary64} (h : x.IsNaN) : ¬ (double x).Equals w := by
  rintro ⟨e, he, -⟩
  rw [extended?, Binary64.extended?_of_isNaN h] at he
  cases he

end Value

namespace Point

/-- Both coordinates are numbers. -/
structure IsNumeric (p : Point) : Prop where
  x : p.x.IsNumber
  y : p.y.IsNumber

theorem isNumeric_toPoint (c : Cell) : c.toPoint.IsNumeric := ⟨.int c.x, .int c.y⟩

end Point

namespace Memory
variable {m : Memory} {a b c : ℕ}

/-- Objects that are numbers are equal if they are the same object or have equal exact values. -/
theorem equal_iff (ha : (m a).IsNumber) (hb : (m b).IsNumber) :
    m.equal a b = true ↔ a = b ∨ (m a).Equals (m b) := by
  rw [equal, Bool.or_eq_true, beq_iff_eq, Value.same_iff ha hb]

/-- A number other than a NaN has a value, so that only values count when it is compared. -/
theorem equal_iff_of_extended? (ha : (m a).IsNumber) (hb : (m b).IsNumber) {e : EReal}
    (he : (m a).extended? = some e) : m.equal a b = true ↔ (m a).Equals (m b) := by
  rw [equal_iff ha hb, or_iff_right_of_imp]
  rintro rfl
  exact ⟨e, he, he⟩

theorem equal_comm (ha : (m a).IsNumber) (hb : (m b).IsNumber) : m.equal a b = m.equal b a := by
  rw [Bool.eq_iff_iff, equal_iff ha hb, equal_iff hb ha]
  exact ⟨Or.imp Eq.symm Value.Equals.symm, Or.imp Eq.symm Value.Equals.symm⟩

theorem equal_trans (ha : (m a).IsNumber) (hb : (m b).IsNumber) (hc : (m c).IsNumber)
    (h : m.equal a b = true) (h' : m.equal b c = true) : m.equal a c = true := by
  rw [equal_iff ha hb] at h
  rw [equal_iff hb hc] at h'
  rw [equal_iff ha hc]
  rcases h with rfl | hab
  · exact h'
  · rcases h' with rfl | hbc
    · exact Or.inr hab
    · exact Or.inr (hab.trans hbc)

/-- A NaN is equal to no other object. -/
theorem eq_of_equal_of_isNaN (ha : (m a).IsNumber) (hb : (m b).IsNumber) {x : Binary64}
    (hx : x.IsNaN) (hvalue : m a = .double x) (h : m.equal a b = true) : a = b := by
  rw [equal_iff ha hb, hvalue] at h
  exact h.resolve_right (Value.not_equals_of_isNaN hx)

/-- The objects of a cell are integers: they are equal to what has their values. -/
theorem equal_int (n : ℤ) (h : m a = .int n) : m.equal a b = (Value.int n).same (m b) := by
  have hself : (Value.int n).same (.int n) = true :=
    (Value.same_iff (.int n) (.int n)).mpr ⟨_, rfl, rfl⟩
  by_cases hab : a = b
  · subst hab
    rw [equal, beq_self_eq_true, Bool.true_or, h, hself]
  · rw [equal, beq_eq_false_iff_ne.mpr hab, Bool.false_or, h]

end Memory

namespace Value

/-- A number that is no NaN has an exact value. -/
theorem IsNumber.exists_extended? {v : Value} (h : v.IsNumber)
    (hnan : ∀ x : Binary64, x.IsNaN → v ≠ .double x) : ∃ e, v.extended? = some e := by
  cases h with
  | bool b => exact ⟨_, rfl⟩
  | int n => exact ⟨_, rfl⟩
  | double x =>
    by_contra hnone
    refine hnan x ?_ rfl
    have hx : x.extended? = none := Option.eq_none_iff_forall_ne_some.mpr fun e he => hnone ⟨e, he⟩
    have hexponent : x.exponent.val ≤ 2047 := Nat.lt_succ_iff.mp x.exponent.isLt
    unfold Binary64.extended? at hx
    split_ifs at hx with hfinite hfraction
    exact ⟨le_antisymm hexponent (not_lt.mp hfinite), hfraction⟩

end Value

namespace Place
variable {m : Memory} {a b c : Place}

theorem equal_iff (ha : (m.point a).IsNumeric) (hb : (m.point b).IsNumeric) :
    a.equal m b = true ↔ (a.x = b.x ∨ (m a.x).Equals (m b.x)) ∧
      (a.y = b.y ∨ (m a.y).Equals (m b.y)) := by
  rw [equal, Bool.and_eq_true, Memory.equal_iff ha.x hb.x, Memory.equal_iff ha.y hb.y]

/-- Without a NaN places are equal if the exact values of their coordinates are. -/
theorem equal_iff_of_not_nan (ha : (m.point a).IsNumeric) (hb : (m.point b).IsNumeric)
    (hnan : ∀ x : Binary64, x.IsNaN → m a.x ≠ .double x ∧ m a.y ≠ .double x) :
    a.equal m b = true ↔ (m a.x).Equals (m b.x) ∧ (m a.y).Equals (m b.y) := by
  obtain ⟨e, he⟩ := ha.x.exists_extended? fun x hx => (hnan x hx).1
  obtain ⟨f, hf⟩ := ha.y.exists_extended? fun x hx => (hnan x hx).2
  rw [equal, Bool.and_eq_true, Memory.equal_iff_of_extended? ha.x hb.x he,
    Memory.equal_iff_of_extended? ha.y hb.y hf]

/-- A NaN is shared by places that are equal. -/
theorem shared_of_equal (ha : (m.point a).IsNumeric) (hb : (m.point b).IsNumeric) {x : Binary64}
    (hx : x.IsNaN) (h : a.equal m b = true) :
    (m a.x = .double x → a.x = b.x) ∧ (m a.y = .double x → a.y = b.y) := by
  obtain ⟨hequalX, hequalY⟩ := Bool.and_eq_true_iff.mp h
  exact ⟨fun hvalue => Memory.eq_of_equal_of_isNaN ha.x hb.x hx hvalue hequalX,
    fun hvalue => Memory.eq_of_equal_of_isNaN ha.y hb.y hx hvalue hequalY⟩

theorem equal_self (m : Memory) (a : Place) : a.equal m a = true := by
  simp [equal, Memory.equal]

theorem equal_comm (ha : (m.point a).IsNumeric) (hb : (m.point b).IsNumeric) :
    a.equal m b = b.equal m a := by
  rw [equal, equal, Memory.equal_comm ha.x hb.x, Memory.equal_comm ha.y hb.y]

theorem equal_trans (ha : (m.point a).IsNumeric) (hb : (m.point b).IsNumeric)
    (hc : (m.point c).IsNumeric) (h : a.equal m b = true) (h' : b.equal m c = true) :
    a.equal m c = true := by
  obtain ⟨hx, hy⟩ := Bool.and_eq_true_iff.mp h
  obtain ⟨hx', hy'⟩ := Bool.and_eq_true_iff.mp h'
  exact Bool.and_eq_true_iff.mpr
    ⟨Memory.equal_trans ha.x hb.x hc.x hx hx', Memory.equal_trans ha.y hb.y hc.y hy hy'⟩

/-- Places of which one is a cell are equal if the other has the coordinates of the cell. -/
theorem equal_of_cell {cell : Cell} (h : m.point a = cell.toPoint) (b : Place) :
    a.equal m b = cell.isAt (m.point b) := by
  obtain ⟨hx, hy⟩ := Point.mk.inj h
  rw [equal, Cell.isAt, Memory.equal_int cell.x hx, Memory.equal_int cell.y hy, Memory.point]

end Place

namespace Cell
variable {p : Point}

/-- A cell is at a point that has exactly its coordinates. -/
theorem isAt_iff {c : Cell} (hp : p.IsNumeric) : c.isAt p = true ↔
    p.x.extended? = some ((c.x : ℝ) : EReal) ∧ p.y.extended? = some ((c.y : ℝ) : EReal) := by
  rw [isAt, Bool.and_eq_true, Value.same_iff (.int c.x) hp.x, Value.same_iff (.int c.y) hp.y,
    Value.equals_int_iff, Value.equals_int_iff]

theorem isAt_toPoint_iff {c d : Cell} : c.isAt d.toPoint = true ↔ c = d := by
  have hcast {m n : ℤ} : (Value.int m).extended? = some ((n : ℝ) : EReal) ↔ n = m := by
    rw [Value.extended?, Option.some.injEq, EReal.coe_eq_coe_iff, Int.cast_inj, eq_comm]
  rw [isAt_iff (Point.isNumeric_toPoint d), toPoint, hcast, hcast, Cell.mk.injEq]

end Cell

namespace Bounds
variable {b : Bounds} {p : Point}

theorem contains?_of_quantity? {q r : Quantity} (hx : p.x.quantity? = some q)
    (hy : p.y.quantity? = some r) : b.contains? p =
      some (((Quantity.ofInt 0).le q && q.le (.ofInt b.maxX)) &&
        ((Quantity.ofInt 0).le r && r.le (.ofInt b.maxY))) := by
  simp only [contains?, hx, hy, bind, Option.bind, pure]
  cases (Quantity.ofInt 0).le q && q.le (.ofInt b.maxX) <;> rfl

/-- A point of numbers lies inside if the exact value of each coordinate is between 0 and the
bound. -/
theorem contains?_iff (hp : p.IsNumeric) : ∃ inside, b.contains? p = some inside ∧
    (inside = true ↔ p.x.IsBetween b.maxX ∧ p.y.IsBetween b.maxY) := by
  obtain ⟨q, hq, hx⟩ := hp.x.quantity?
  obtain ⟨r, hr, hy⟩ := hp.y.quantity?
  refine ⟨_, contains?_of_quantity? hq hr, ?_⟩
  rw [Bool.and_eq_true, Value.isBetween_of_quantity? hx, Value.isBetween_of_quantity? hy]

theorem contains?_toPoint (c : Cell) : b.contains? c.toPoint = some (decide (b.Contains c)) := by
  obtain ⟨inside, hinside, hiff⟩ := @contains?_iff b _ (Point.isNumeric_toPoint c)
  rw [hinside, Option.some.injEq, Bool.eq_iff_iff, hiff, decide_eq_true_iff, Contains, Cell.toPoint,
    Value.isBetween_int_iff, Value.isBetween_int_iff, and_assoc]

/-- With an infinity or a NaN for a coordinate, a point does not lie inside. -/
theorem contains?_of_not_finite (hp : p.IsNumeric) {x : Binary64} (hx : x.isFinite = false)
    (h : p.x = .double x ∨ p.y = .double x) : b.contains? p = some false := by
  obtain ⟨inside, hinside, hiff⟩ := @contains?_iff b p hp
  rw [hinside, Option.some.injEq, Bool.eq_false_iff, ne_eq, hiff]
  rintro ⟨hbetweenX, hbetweenY⟩
  rcases h with h | h
  · exact Value.not_isBetween_of_not_finite hx (h ▸ hbetweenX)
  · exact Value.not_isBetween_of_not_finite hx (h ▸ hbetweenY)

end Bounds

namespace Plateau
variable {p : Plateau} {a : Point} {exclude : Option String}

/-- A point of numbers is occupied if a rover of another id has exactly its values. -/
theorem occupiedAt_iff (ha : a.IsNumeric) : p.occupiedAt a exclude = true ↔
    ∃ r ∈ p.rovers, some r.id ≠ exclude ∧ a.x.extended? = some ((r.cell.x : ℝ) : EReal) ∧
      a.y.extended? = some ((r.cell.y : ℝ) : EReal) := by
  simp only [occupiedAt, List.any_eq_true, Bool.and_eq_true, decide_eq_true_eq,
    Cell.isAt_iff ha]

theorem occupiedAt_toPoint (cell : Cell) :
    p.occupiedAt cell.toPoint exclude = decide (p.Occupied cell exclude) := by
  rw [Bool.eq_iff_iff, decide_eq_true_iff]
  simp only [occupiedAt, List.any_eq_true, Bool.and_eq_true, decide_eq_true_eq,
    Cell.isAt_toPoint_iff, Occupied]

/-- The questions about places of numbers are answered by the exact values of the coordinates. A
place lies inside if both values are between 0 and the bounds, which is so of no infinity and of no
NaN. Places are equal if in each coordinate they share the object or the values are equal: without a
NaN this depends on the values alone, and with a NaN it takes the same object in both places. So a
place is equal to itself, and equality is symmetric and transitive among all kinds of numbers. A
place is occupied if a rover of another id than the excluded one has exactly its values; a rover
stands on a cell, for which equality of places comes to that. Cells are judged in the same way when
rovers are placed and moved. -/
theorem answers_exact (p : Plateau) (exclude : Option String) (m : Memory) {a b c : Place}
    (ha : (m.point a).IsNumeric) (hb : (m.point b).IsNumeric) (hc : (m.point c).IsNumeric) :
    (∃ inside, p.bounds.contains? (m.point a) = some inside ∧ (inside = true ↔
      (m a.x).IsBetween p.bounds.maxX ∧ (m a.y).IsBetween p.bounds.maxY)) ∧
    (∀ x : Binary64, x.isFinite = false → m a.x = .double x ∨ m a.y = .double x →
      p.bounds.contains? (m.point a) = some false) ∧
    (a.equal m b = true ↔ (a.x = b.x ∨ (m a.x).Equals (m b.x)) ∧
      (a.y = b.y ∨ (m a.y).Equals (m b.y))) ∧
    ((∀ x : Binary64, x.IsNaN → m a.x ≠ .double x ∧ m a.y ≠ .double x) →
      (a.equal m b = true ↔ (m a.x).Equals (m b.x) ∧ (m a.y).Equals (m b.y))) ∧
    (∀ x : Binary64, x.IsNaN → a.equal m b = true →
      (m a.x = .double x → a.x = b.x) ∧ (m a.y = .double x → a.y = b.y)) ∧
    a.equal m a = true ∧
    a.equal m b = b.equal m a ∧
    (a.equal m b = true → b.equal m c = true → a.equal m c = true) ∧
    (p.occupiedAt (m.point a) exclude = true ↔ ∃ r ∈ p.rovers, some r.id ≠ exclude ∧
      (m a.x).extended? = some ((r.cell.x : ℝ) : EReal) ∧
      (m a.y).extended? = some ((r.cell.y : ℝ) : EReal)) ∧
    ∀ cell : Cell, (∀ q : Place, m.point q = cell.toPoint → q.equal m a = cell.isAt (m.point a)) ∧
      p.bounds.contains? cell.toPoint = some (decide (p.bounds.Contains cell)) ∧
      p.occupiedAt cell.toPoint exclude = decide (p.Occupied cell exclude) :=
  ⟨Bounds.contains?_iff ha, fun _ hx h => Bounds.contains?_of_not_finite ha hx h,
    Place.equal_iff ha hb, Place.equal_iff_of_not_nan ha hb,
    fun _ hx h => Place.shared_of_equal ha hb hx h, Place.equal_self m a, Place.equal_comm ha hb,
    Place.equal_trans ha hb hc, occupiedAt_iff ha, fun cell =>
      ⟨fun _ hq => Place.equal_of_cell hq a, Bounds.contains?_toPoint cell,
        occupiedAt_toPoint cell⟩⟩

/-- The integer above 2^53 that no binary64 number equals is told apart from 2^53. A place with a
NaN is equal to itself, but not to one with another NaN. -/
theorem answers_exact_beyond_doubles :
    let p : Plateau := ⟨"1", ⟨2 ^ 53 + 1, 1⟩, [⟨"1", ⟨2 ^ 53 + 1, 1⟩, .north⟩]⟩
    let objects : List Value := [.int (2 ^ 53 + 1), .bool true, .double ⟨false, 1076, 0⟩, .int 1,
      .double (.notANumber false), .double (.notANumber false)]
    let m : Memory := fun k => (objects[k]?).getD .null
    let odd : Place := ⟨0, 1⟩
    let even : Place := ⟨2, 3⟩
    let nan : Place := ⟨4, 3⟩
    let other : Place := ⟨5, 3⟩
    (m.point odd).IsNumeric ∧ (m.point even).IsNumeric ∧ (m.point nan).IsNumeric ∧
      (m.point other).IsNumeric ∧ p.bounds.contains? (m.point odd) = some true ∧
      p.occupiedAt (m.point odd) none = true ∧ odd.equal m even = false ∧
      even.equal m odd = false ∧ nan.equal m nan = true ∧ nan.equal m other = false ∧
      p.bounds.contains? (m.point nan) = some false := by
  intro p objects m odd even nan other
  have hodd : (m.point odd).IsNumeric := ⟨.int _, .bool true⟩
  have heven : (m.point even).IsNumeric := ⟨.double _, .int 1⟩
  have hnan : (m.point nan).IsNumeric := ⟨.double _, .int 1⟩
  have hother : (m.point other).IsNumeric := ⟨.double _, .int 1⟩
  have hone : (Value.bool true).extended? = some (((1 : ℤ) : ℝ) : EReal) := by
    simp [Value.extended?]
  obtain ⟨⟨inside, hinside, hiff⟩, -, hequal, -, -, -, hcomm, -, hoccupied, -⟩ :=
    answers_exact p none m hodd heven hnan
  obtain ⟨-, hinfinite, -, -, hshared, hself, -⟩ := answers_exact p none m hnan hother hnan
  have hbetween : inside = true := by
    refine hiff.mpr ⟨Value.isBetween_int_iff.mpr (by decide), _, hone, ?_, ?_⟩
    · exact_mod_cast zero_le_one (α := ℝ)
    · exact le_rfl
  have hpower : (m even.x).extended? = some (((2 ^ 53 : ℝ)) : EReal) := by
    norm_num [m, objects, even, Value.extended?, Binary64.extended?, Binary64.magnitude]
  have hvalues : ¬ (m odd.x).Equals (m even.x) := by
    rw [show m odd.x = .int (2 ^ 53 + 1) from rfl, Value.equals_int_iff, hpower, Option.some.injEq,
      EReal.coe_eq_coe_iff]
    norm_num
  have hdifferent : odd.equal m even = false := by
    rw [Bool.eq_false_iff, ne_eq, hequal]
    rintro ⟨hsame | hsame, -⟩
    · exact absurd hsame (by decide)
    · exact hvalues hsame
  have hapart : nan.equal m other = false := by
    rw [Bool.eq_false_iff]
    intro h
    exact absurd ((hshared _ ⟨rfl, by decide⟩ h).1 rfl) (by decide)
  refine ⟨hodd, heven, hnan, hother, hbetween ▸ hinside, ?_, hdifferent, hcomm ▸ hdifferent, hself,
    hapart, ?_⟩
  · exact hoccupied.mpr ⟨_, List.mem_singleton_self _, nofun, rfl, hone⟩
  · exact hinfinite _ rfl (.inl rfl)

/-- Two places that share a NaN are equal, though a NaN has no value. -/
theorem equal_shared_nan :
    let m : Memory := fun k => if k = 0 then .double (.notANumber false) else .int 1
    let a : Place := ⟨0, 1⟩
    let b : Place := ⟨0, 2⟩
    (m.point a).IsNumeric ∧ (m.point b).IsNumeric ∧
      (∃ x : Binary64, x.IsNaN ∧ m a.x = .double x ∧ m b.x = .double x) ∧ a.equal m b = true ∧
      ¬ ((m a.x).Equals (m b.x) ∧ (m a.y).Equals (m b.y)) := by
  intro m a b
  have hnan : (Binary64.notANumber false).IsNaN := ⟨rfl, by decide⟩
  have ha : (m.point a).IsNumeric := ⟨.double _, .int 1⟩
  have hb : (m.point b).IsNumeric := ⟨.double _, .int 1⟩
  have hequal : a.equal m b = true :=
    (Place.equal_iff ha hb).mpr ⟨Or.inl rfl, Or.inr ⟨_, rfl, rfl⟩⟩
  refine ⟨ha, hb, ⟨_, hnan, rfl, rfl⟩, hequal, ?_⟩
  rintro ⟨hequal, -⟩
  exact Value.not_equals_of_isNaN hnan hequal

end Plateau

end RoverFleet
