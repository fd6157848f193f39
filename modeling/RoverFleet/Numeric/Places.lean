import RoverFleet.Numeric.Rounding
import RoverFleet.Numeric.Shortest

/-!
# Decimal text with a number of places

A quotient of two natural numbers is written with a given number of digits after the point, or with
one digit before it and an exponent. The last digit is rounded to nearest, a half to the even one.
-/
namespace RoverFleet.Numeric

/-- A point and the digits after it; without digits the point is left out unless it is kept. -/
def pointAndDigits (keepPoint : Bool) (digits : List Char) : List Char :=
  if digits.isEmpty && !keepPoint then [] else '.' :: digits

/-- Digits with zeros in front, up to the given number. -/
def padDigits (count : Nat) (digits : List Char) : List Char :=
  List.replicate (count - digits.length) '0' ++ digits

def fixedChars (keepPoint : Bool) (places num den : Nat) : List Char :=
  let digits := padDigits (places + 1) (natDigits (roundDiv (num * Nat.pow 10 places) den))
  let whole := digits.length - places
  digits.take whole ++ pointAndDigits keepPoint (digits.drop whole)

/-- The leading digits of `num / den`, of which `places` stand after the first, and the exponent of
the first one. -/
def leadingDigits (places num den : Nat) : Nat × Int :=
  if num = 0 then (0, 0)
  else
    let place := Binary64.leadingPlace num den
    let digits := roundDiv (num * Nat.pow 10 (places - place).toNat)
      (den * Nat.pow 10 (place - places).toNat)
    if digits < Nat.pow 10 (places + 1) then (digits, place) else (digits / 10, place + 1)

def mantissaChars (keepPoint : Bool) (places digits : Nat) : List Char :=
  let digits := padDigits (places + 1) (natDigits digits)
  digits.take 1 ++ pointAndDigits keepPoint (digits.drop 1)

/-- Takes off the zeros at the end of the digits after a point, and the point if none are left. -/
def dropPlaces (s : List Char) : List Char :=
  if s.contains '.' then
    let rest := s.reverse.dropWhile (· = '0')
    (if rest.head? = some '.' then rest.drop 1 else rest).reverse
  else s

end RoverFleet.Numeric
