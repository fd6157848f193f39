import RoverFleet.Numeric.Decimal
import RoverFleet.Numeric.Binary64

/-!
# Rounding to binary64

A positive quotient of two natural numbers is rounded to the nearest binary64 number, halves to
the even neighbour. All arithmetic is exact; decimal exponents far outside the range are settled
without raising ten to their power.
-/
namespace RoverFleet.Numeric

/-- The integer nearest to `num / den`, a half going to the even neighbour. -/
def roundDiv (num den : Nat) : Nat :=
  let floor := num / den
  let rest := num % den
  if 2 * rest < den then floor
  else if den < 2 * rest then floor + 1
  else floor + floor % 2

namespace Binary64

/-- The power of two, counted from 2^-1074, that leaves at most 53 bits of the quotient. -/
def shiftFor (num den : Nat) : Nat := (num * Quantity.one / den).log2 - 52

/-- The rank of the binary64 magnitude nearest to `num / den`. -/
def nearestRank (num den : Nat) : Nat :=
  let shift := shiftFor num den
  shift * Nat.pow 2 52 + roundDiv (num * Quantity.one) (den * Nat.pow 2 shift)

def ofRatio (negative : Bool) (num den : Nat) : Binary64 :=
  ofRank negative (nearestRank num den)

/-- The number nearest to `digits * 10 ^ exponent`. -/
def ofDecimal (negative : Bool) (digits : Nat) (exponent : Int) : Binary64 :=
  if digits = 0 then zero negative
  else
    let point := exponent + (natDigits digits).length
    if 310 < point then infinity negative
    else if point < -323 then zero negative
    else ofRatio negative (digits * Nat.pow 10 exponent.toNat) (Nat.pow 10 (-exponent).toNat)

end Binary64

end RoverFleet.Numeric
