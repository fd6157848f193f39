import RoverFleet.Proofs.Nearest
import RoverFleet.Proofs.Outcome
import RoverFleet.Session
import RoverFleet.Simulation

/-!
# Making plateaus and rovers

Plateaus and rovers are made of two values that are exactly natural numbers, and have just these
as their bounds or coordinates. Of other values it is first said that they are not whole, whatever
their signs, and only then that they are negative. The heading of a rover is looked at after its
cell.
-/
namespace RoverFleet
open Numeric

namespace Value

/-- The value is a number other than a truth value, and is exactly the integer. -/
inductive IsExactly : Value → ℤ → Prop
  | int (n : ℤ) : IsExactly (.int n) n
  | double {x : Binary64} {n : ℤ} (finite : x.isFinite = true) (exact : x.toRat = n) :
      IsExactly (.double x) n

def IsWhole (v : Value) : Prop := ∃ n, v.IsExactly n

def IsNatural (v : Value) : Prop := ∃ n : ℕ, v.IsExactly n

variable {v : Value}

theorem isExactly_iff {n : ℤ} : v.IsExactly n ↔ v.whole? = some n := by
  cases v with
  | int m =>
    constructor
    · rintro ⟨⟩
      rfl
    · intro h
      obtain rfl : m = n := Option.some.inj h
      exact .int m
  | double x =>
    rw [whole?, Binary64.whole?_eq_some_iff]
    constructor
    · intro h
      cases h with
      | double hfinite hexact => exact ⟨hfinite, hexact⟩
    · rintro ⟨hfinite, hexact⟩
      exact .double hfinite hexact
  | _ => exact ⟨nofun, nofun⟩

theorem IsExactly.unique {m n : ℤ} (hm : v.IsExactly m) (hn : v.IsExactly n) : m = n :=
  Option.some.inj ((isExactly_iff.mp hm).symm.trans (isExactly_iff.mp hn))

end Value

/-- Why nothing is made of two values: one of them is not whole, or else one is negative. -/
inductive Unfit (x y : Value) (notWhole negative : Refusal) : Refusal → Prop
  | notWhole (h : ¬ (x.IsWhole ∧ y.IsWhole)) : Unfit x y notWhole negative notWhole
  | negative {m n : ℤ} (hx : x.IsExactly m) (hy : y.IsExactly n) (h : m < 0 ∨ n < 0) :
      Unfit x y notWhole negative negative

section Coordinates
variable {α : Type} {x y : Value} {notWhole negative r : Refusal} {f : ℤ → ℤ → α}

theorem Unfit.unique {r' : Refusal} (h : Unfit x y notWhole negative r)
    (h' : Unfit x y notWhole negative r') : r = r' := by
  cases h with
  | notWhole h =>
    cases h' with
    | notWhole h' => rfl
    | negative hx hy => exact absurd ⟨⟨_, hx⟩, _, hy⟩ h
  | negative hx hy =>
    cases h' with
    | notWhole h' => exact absurd ⟨⟨_, hx⟩, _, hy⟩ h'
    | negative => rfl

theorem Unfit.not_natural (h : Unfit x y notWhole negative r) :
    ¬ (x.IsNatural ∧ y.IsNatural) := by
  rintro ⟨⟨i, hx⟩, j, hy⟩
  cases h with
  | notWhole h => exact h ⟨⟨i, hx⟩, j, hy⟩
  | negative hm hn h =>
    rw [hm.unique hx, hn.unique hy] at h
    omega

/-- What is made of two values that must be whole and then not negative. -/
def ofCoordinates (notWhole negative : Refusal) (f : ℤ → ℤ → α) (x y : Value) :
    Except Refusal α :=
  match x.whole?, y.whole? with
  | some m, some n => if m < 0 ∨ n < 0 then .error negative else .ok (f m n)
  | _, _ => .error notWhole

theorem ofCoordinates_cases (notWhole negative : Refusal) (f : ℤ → ℤ → α) (x y : Value) :
    (∃ m n : ℕ, x.IsExactly m ∧ y.IsExactly n ∧
        ofCoordinates notWhole negative f x y = .ok (f m n)) ∨
      ∃ r, Unfit x y notWhole negative r ∧ ofCoordinates notWhole negative f x y = .error r := by
  unfold ofCoordinates
  split
  · next m n hx hy =>
    rw [← Value.isExactly_iff] at hx hy
    by_cases hneg : m < 0 ∨ n < 0
    · exact .inr ⟨negative, .negative hx hy hneg, if_pos hneg⟩
    · obtain ⟨i, rfl⟩ := Int.eq_ofNat_of_zero_le (not_lt.mp fun h => hneg (.inl h))
      obtain ⟨j, rfl⟩ := Int.eq_ofNat_of_zero_le (not_lt.mp fun h => hneg (.inr h))
      exact .inl ⟨i, j, hx, hy, if_neg hneg⟩
  · next hnone =>
    refine .inr ⟨notWhole, .notWhole ?_, rfl⟩
    rintro ⟨⟨m, hx⟩, n, hy⟩
    exact hnone m n (Value.isExactly_iff.mp hx) (Value.isExactly_iff.mp hy)

theorem ofCoordinates_ok_iff {a : α} : ofCoordinates notWhole negative f x y = .ok a ↔
    ∃ m n : ℕ, x.IsExactly m ∧ y.IsExactly n ∧ a = f m n := by
  rcases ofCoordinates_cases notWhole negative f x y with ⟨i, j, hx, hy, hok⟩ | ⟨r, hr, herror⟩
  · rw [hok]
    constructor
    · rintro ⟨rfl⟩
      exact ⟨i, j, hx, hy, rfl⟩
    · rintro ⟨m, n, hm, hn, rfl⟩
      rw [hx.unique hm, hy.unique hn]
  · rw [herror]
    refine ⟨nofun, ?_⟩
    rintro ⟨m, n, hm, hn, -⟩
    exact absurd ⟨⟨m, hm⟩, n, hn⟩ hr.not_natural

theorem ofCoordinates_error_iff :
    ofCoordinates notWhole negative f x y = .error r ↔ Unfit x y notWhole negative r := by
  rcases ofCoordinates_cases notWhole negative f x y with ⟨i, j, hx, hy, hok⟩ | ⟨r', hr', herror⟩
  · rw [hok]
    exact ⟨nofun, fun h => absurd ⟨⟨i, hx⟩, j, hy⟩ h.not_natural⟩
  · rw [herror, Except.error.injEq]
    exact ⟨fun h => h ▸ hr', hr'.unique⟩

end Coordinates

namespace Heading
variable {v : Value} {s : String}

/-- What is said of a value that names no heading: what it is, or that this cannot be written. -/
def misnaming (v : Value) : Trouble :=
  match v.quotedText with
  | .ok text => .unknownHeading text
  | .error l => .ofLimit l

theorem ofText?_text (h : Heading) : ofText? h.text = some h := by
  cases h <;> rfl

theorem eq_text_of_ofText? {h : Heading} (hs : ofText? s = some h) : s = h.text := by
  unfold ofText? ofChars? at hs
  have hchars : s.toList = [h.letter] := by simpa using List.find?_some hs
  rw [← String.toList_inj, hchars, text, String.toList_singleton]

theorem ofText?_eq_none (hs : s ∉ ["N", "E", "S", "W"]) : ofText? s = none := by
  cases hh : ofText? s with
  | none => rfl
  | some h =>
    refine absurd ?_ hs
    rw [eq_text_of_ofText? hh]
    cases h <;> decide

theorem ofValue_text (h : Heading) : ofValue (.string h.text) = .ok h := by
  simp only [ofValue, ofText?_text, Option.elim]

theorem ofValue_of_misnamed (hv : ∀ letter ∈ ["N", "E", "S", "W"], v ≠ .string letter) :
    ofValue v = .error (misnaming v) := by
  unfold ofValue misnaming
  cases v with
  | string s =>
    have hs : ofText? s = none := ofText?_eq_none fun hs => hv s hs rfl
    simp only [hs, Option.elim]
    generalize (Value.string s).quotedText = quoted
    cases quoted <;> rfl
  | _ =>
    generalize Value.quotedText _ = quoted
    cases quoted <;> rfl

theorem exists_heading_or (v : Value) : (∃ h : Heading, v = .string h.text) ∨
    ∀ letter ∈ ["N", "E", "S", "W"], v ≠ .string letter := by
  by_cases hv : ∃ h : Heading, v = .string h.text
  · exact .inl hv
  · refine .inr ?_
    intro letter hletter heq
    simp only [List.mem_cons, List.not_mem_nil, or_false] at hletter
    rcases hletter with rfl | rfl | rfl | rfl
    · exact hv ⟨.north, heq⟩
    · exact hv ⟨.east, heq⟩
    · exact hv ⟨.south, heq⟩
    · exact hv ⟨.west, heq⟩

theorem ofValue_ok_iff {h : Heading} : ofValue v = .ok h ↔ v = .string h.text := by
  constructor
  · intro hv
    rcases exists_heading_or v with ⟨h', rfl⟩ | hletters
    · rw [ofValue_text] at hv
      rw [Except.ok.inj hv]
    · rw [ofValue_of_misnamed hletters] at hv
      cases hv
  · rintro rfl
    exact ofValue_text h

theorem ofValue_error_iff {t : Trouble} : ofValue v = .error t ↔
    (∀ letter ∈ ["N", "E", "S", "W"], v ≠ .string letter) ∧ t = misnaming v := by
  rcases exists_heading_or v with ⟨h, rfl⟩ | hletters
  · have hmem : h.text ∈ ["N", "E", "S", "W"] := by cases h <;> decide
    rw [ofValue_text]
    exact ⟨nofun, fun hnot => absurd rfl (hnot.1 h.text hmem)⟩
  · rw [ofValue_of_misnamed hletters, Except.error.injEq, eq_comm]
    exact (and_iff_right hletters).symm

end Heading

theorem Rover.startCell_eq (x y : Value) :
    startCell x y = ofCoordinates .cellNotWhole .cellNegative Cell.mk x y := rfl

theorem Plateau.ofBounds_eq (id : String) (x y : Value) :
    ofBounds id x y = ofCoordinates .boundsNotWhole .boundsNegative
      (fun m n => ⟨id, ⟨m.toNat, n.toNat⟩, []⟩) x y := rfl

theorem Rover.make_ok_iff {id : String} {x y heading : Value} {r : Rover} :
    make id x y heading = .ok r ↔ ∃ m n : ℕ, ∃ h : Heading,
      x.IsExactly m ∧ y.IsExactly n ∧ heading = .string h.text ∧ r = ⟨id, ⟨m, n⟩, h⟩ := by
  simp only [make, bind_ok_iff, mapError_ok_iff, pure_ok_iff, startCell_eq, ofCoordinates_ok_iff,
    Heading.ofValue_ok_iff]
  constructor
  · rintro ⟨cell, ⟨m, n, hx, hy, rfl⟩, h, hh, rfl⟩
    exact ⟨m, n, h, hx, hy, hh, rfl⟩
  · rintro ⟨m, n, h, hx, hy, hh, rfl⟩
    exact ⟨_, ⟨m, n, hx, hy, rfl⟩, h, hh, rfl⟩

theorem Rover.make_error_iff {id : String} {x y heading : Value} {t : Trouble} :
    make id x y heading = .error t ↔
      (∃ r, Unfit x y .cellNotWhole .cellNegative r ∧ t = .ofRefusal r) ∨
        (x.IsNatural ∧ y.IsNatural) ∧
          (∀ letter ∈ ["N", "E", "S", "W"], heading ≠ .string letter) ∧
          t = Heading.misnaming heading := by
  simp only [make, bind_error_iff, mapError_error_iff, mapError_ok_iff, startCell_eq,
    ofCoordinates_error_iff, ofCoordinates_ok_iff, Heading.ofValue_error_iff, pure_ne_error,
    and_false, exists_false, or_false]
  constructor
  · rintro (⟨r, hr, rfl⟩ | ⟨cell, ⟨m, n, hx, hy, -⟩, hheading⟩)
    · exact .inl ⟨r, hr, rfl⟩
    · exact .inr ⟨⟨⟨m, hx⟩, n, hy⟩, hheading⟩
  · rintro (⟨r, hr, rfl⟩ | ⟨⟨⟨m, hx⟩, n, hy⟩, hheading⟩)
    · exact .inl ⟨r, hr, rfl⟩
    · exact .inr ⟨_, ⟨m, n, hx, hy, rfl⟩, hheading⟩

/-- A plateau is made of two values exactly if they are natural numbers, and has these as its
bounds, and so is a rover, if its heading is a letter of a heading. In other cases it is refused:
where a value is not whole for that reason, then where one is negative, and only for a rover whose
cell is made because of its heading. -/
theorem made_iff_natural (id : String) (x y heading : Value) :
    (∀ p, Plateau.ofBounds id x y = .ok p ↔
      ∃ m n : ℕ, x.IsExactly m ∧ y.IsExactly n ∧ p = ⟨id, ⟨m, n⟩, []⟩) ∧
    (∀ r, Plateau.ofBounds id x y = .error r ↔ Unfit x y .boundsNotWhole .boundsNegative r) ∧
    (∀ r, Rover.make id x y heading = .ok r ↔ ∃ m n : ℕ, ∃ h : Heading,
      x.IsExactly m ∧ y.IsExactly n ∧ heading = .string h.text ∧ r = ⟨id, ⟨m, n⟩, h⟩) ∧
    (∀ t, Rover.make id x y heading = .error t ↔
      (∃ r, Unfit x y .cellNotWhole .cellNegative r ∧ t = .ofRefusal r) ∨
        (x.IsNatural ∧ y.IsNatural) ∧
          (∀ letter ∈ ["N", "E", "S", "W"], heading ≠ .string letter) ∧
          t = Heading.misnaming heading) ∧
    [Refusal.boundsNotWhole, .boundsNegative, .cellNotWhole, .cellNegative].map
        Simulation.Fault.ofRefusal =
      ["Plateau boundaries must be integers", "Plateau boundaries must be non-negative",
        "Rover positions must be integers", "Rover positions must be non-negative"].map
        fun message => ⟨"InvalidInitializationError", message, message, none⟩ := by
  refine ⟨fun p => ?_, fun r => ?_, fun r => Rover.make_ok_iff, fun t => Rover.make_error_iff, rfl⟩
  · simp only [Plateau.ofBounds_eq, ofCoordinates_ok_iff, Int.toNat_natCast]
  · rw [Plateau.ofBounds_eq, ofCoordinates_error_iff]

/-- Negative zero and a number beyond 2^53 are bounds; a truth value beside a negative number is not
whole; and a heading in lower case is none. -/
theorem made_iff_natural_signed_zero :
    let zero : Value := .double (.zero true)
    let large : Value := .double ⟨false, 1083, ⟨1, by decide⟩⟩
    Plateau.ofBounds "1" zero large = .ok ⟨"1", ⟨0, 2 ^ 60 + 2 ^ 8⟩, []⟩ ∧
      Plateau.ofBounds "1" (.bool true) (.int (-1)) = .error .boundsNotWhole ∧
      Plateau.ofBounds "1" (.double (.notANumber false)) zero = .error .boundsNotWhole ∧
      Rover.make "1" large (.int (-1)) (.string "n") = .error (.ofRefusal .cellNegative) ∧
      Rover.make "1" zero large (.string "n") = .error (.unknownHeading "\x27n\x27") := by
  intro zero large
  have hzero : zero.IsExactly (0 : ℕ) :=
    .double (by decide) (Binary64.toRat_eq_intCast_iff.mpr (by decide +kernel))
  have hlarge : large.IsExactly ((2 ^ 60 + 2 ^ 8 : ℕ) : ℤ) :=
    .double (by decide) (Binary64.toRat_eq_intCast_iff.mpr (by decide +kernel))
  have hbool : ¬ (Value.bool true).IsWhole := nofun
  have hnan : ¬ (Value.double (.notANumber false)).IsWhole := by
    rintro ⟨n, hn⟩
    cases hn with
    | double hfinite => exact Bool.false_ne_true hfinite
  have hletters : ∀ letter ∈ ["N", "E", "S", "W"], Value.string "n" ≠ .string letter := by simp
  have hmisnaming : Heading.misnaming (.string "n") = .unknownHeading "\x27n\x27" := by
    decide +kernel
  refine ⟨?_, ?_, ?_, ?_, ?_⟩
  · exact ((made_iff_natural "1" zero large .null).1 _).mpr ⟨0, _, hzero, hlarge, rfl⟩
  · exact ((made_iff_natural "1" _ _ .null).2.1 _).mpr (.notWhole fun h => hbool h.1)
  · exact ((made_iff_natural "1" _ _ .null).2.1 _).mpr (.notWhole fun h => hnan h.1)
  · have hnegative : Unfit large (.int (-1)) .cellNotWhole .cellNegative .cellNegative :=
      .negative hlarge (.int (-1)) (.inr (by decide))
    exact ((made_iff_natural "1" _ _ (.string "n")).2.2.2.1 _).mpr (.inl ⟨_, hnegative, rfl⟩)
  · exact ((made_iff_natural "1" _ _ (.string "n")).2.2.2.1 _).mpr
      (.inr ⟨⟨⟨0, hzero⟩, _, hlarge⟩, hletters, hmisnaming.symm⟩)

end RoverFleet
