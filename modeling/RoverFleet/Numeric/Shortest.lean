import RoverFleet.Numeric.Decimal
import RoverFleet.Numeric.Binary64

/-!
# Shortest decimal text of a binary64 number

The text of a finite number has the fewest digits that read back as that number, and of those the
nearest. The digits are found on the decimal grids of 1, 2, … 17 digits; how they are laid out is
a value of `Layout`.
-/
namespace RoverFleet.Numeric

/-- A decimal numeral `digits * 10 ^ exponent`. -/
structure Numeral where
  digits : Nat
  exponent : Int
  deriving DecidableEq, Repr

namespace Numeral

/-- Zeros at the end of the digits go into the exponent; `fuel` bounds their number. -/
def dropZeros : Nat → Numeral → Numeral
  | 0, d => d
  | fuel + 1, d =>
    if d.digits % 10 = 0 ∧ d.digits ≠ 0 then dropZeros fuel ⟨d.digits / 10, d.exponent + 1⟩ else d

end Numeral

/-- Where positional digits end and an exponent begins, and how the exponent is written. -/
structure Layout where
  /-- Numbers whose point lies at or before this place have an exponent. -/
  least : Int
  /-- Numbers whose point lies after this place have an exponent. -/
  greatest : Int
  /-- Whether exponents that are not negative have a sign. -/
  signed : Bool
  /-- The least number of digits of an exponent. -/
  width : Nat

namespace Layout

def exponentChars (l : Layout) (e : Int) : List Char :=
  let digits := natDigits e.natAbs
  (if e < 0 then ['-'] else if l.signed then ['+'] else []) ++
    List.replicate (l.width - digits.length) '0' ++ digits

/-- A positive numeral without zeros at its end. -/
def chars (l : Layout) (d : Numeral) : List Char :=
  let digits := natDigits d.digits
  let point := d.exponent + digits.length
  if l.least < point ∧ point ≤ l.greatest then
    if point ≤ 0 then '0' :: '.' :: List.replicate (-point).toNat '0' ++ digits
    else if d.exponent < 0 then digits.take point.toNat ++ '.' :: digits.drop point.toNat
    else digits ++ List.replicate d.exponent.toNat '0' ++ ['.', '0']
  else
    let mantissa := match digits with
      | first :: more@(_ :: _) => first :: '.' :: more
      | digits => digits
    mantissa ++ 'e' :: l.exponentChars (point - 1)

end Layout

namespace Binary64

/-- The place `k` with `10 ^ k ≤ num / den < 10 ^ (k + 1)`. -/
def leadingPlace (num den : Nat) : Int :=
  if den ≤ num then (natDigits (num / den)).length - 1
  else
    let k := (natDigits (den / num)).length
    if den ≤ num * Nat.pow 10 (k - 1) then 1 - k else -k

/-- The numeral nearest to `num / den` on the grid of step `10 ^ place`, provided that it lies
between `low / den` and `high / den`, with the ends or without them. -/
def onGrid? (low num high den : Nat) (ends : Bool) (place : Int) : Option Numeral :=
  let up := Nat.pow 10 (-place).toNat
  let step := den * Nat.pow 10 place.toNat
  let within (d : Nat) : Bool :=
    if ends then low * up ≤ d * step && d * step ≤ high * up
    else low * up < d * step && d * step < high * up
  let floor := num * up / step
  let rest := num * up % step
  match within floor, within (floor + 1) with
  | true, true =>
    if 2 * rest < step then some ⟨floor, place⟩
    else if step < 2 * rest then some ⟨floor + 1, place⟩
    else some ⟨floor + floor % 2, place⟩
  | true, false => some ⟨floor, place⟩
  | false, true => some ⟨floor + 1, place⟩
  | false, false => none

/-- The shortest numeral of a positive finite number. Quarters of the unit hold the middles
between neighbours; below a power of two the gap is half as wide. -/
def shortest (x : Binary64) : Numeral :=
  let num := 4 * x.units
  let den := 4 * Quantity.one
  let half := 2 * Nat.pow 2 x.shift
  let below := if x.fraction.val = 0 ∧ 1 < x.exponent.val then half / 2 else half
  let place := leadingPlace num den
  let grids := (List.range 17).map fun n : Nat => place - n
  match grids.findSome? (onGrid? (num - below) num (num + half) den (x.significand % 2 = 0)) with
  | some d => d.dropZeros 400
  | none => ⟨x.units, 0⟩

/-- The text of a finite number. -/
def finiteChars (l : Layout) (x : Binary64) : List Char :=
  (if x.negative then ['-'] else []) ++
    (if x.units = 0 then ['0', '.', '0'] else l.chars x.shortest)

end Binary64

end RoverFleet.Numeric
