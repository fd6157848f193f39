/-!
# Binary64 numbers

A binary64 number is its three fields. Every finite one is a whole multiple of 2^-1074, so
its exact value is an integer in that unit, and comparison with integers of any size is exact.
-/
namespace RoverFleet.Numeric

structure Binary64 where
  negative : Bool
  exponent : Fin 2048
  fraction : Fin (Nat.pow 2 52)
  deriving DecidableEq, Repr

/-- An exact real value, an infinity, or no number at all. -/
inductive Quantity where
  | undefined
  | infinite (negative : Bool)
  | finite (units : Int)
  deriving DecidableEq, Repr

namespace Quantity

/-- How many units of 2^-1074 make one. -/
def one : Nat := Nat.pow 2 1074

def ofInt (n : Int) : Quantity := .finite (n * one)

/-- The order of the extended reals; the undefined quantity is below nothing. -/
def le : Quantity → Quantity → Bool
  | .undefined, _ => false
  | _, .undefined => false
  | .infinite true, _ => true
  | _, .infinite false => true
  | .infinite false, _ => false
  | _, .infinite true => false
  | .finite a, .finite b => a ≤ b

/-- Equality of values; the undefined quantity equals nothing. -/
def same (a b : Quantity) : Bool := a.le b && b.le a

end Quantity

namespace Binary64

def isFinite (x : Binary64) : Bool := x.exponent < 2047

/-- The leading bit is explicit only in the smallest exponent. -/
def significand (x : Binary64) : Nat :=
  if x.exponent = 0 then x.fraction else Nat.pow 2 52 + x.fraction

/-- The power of two, counted from 2^-1074, that the significand is multiplied by. -/
def shift (x : Binary64) : Nat := x.exponent - 1

/-- The magnitude of a finite number in units of 2^-1074. -/
def units (x : Binary64) : Nat := x.significand * Nat.pow 2 x.shift

def quantity (x : Binary64) : Quantity :=
  if x.isFinite then .finite (if x.negative then -(x.units : Int) else x.units)
  else if x.fraction = 0 then .infinite x.negative
  else .undefined

/-- The integer that the number is equal to, if there is one. -/
def whole? (x : Binary64) : Option Int :=
  match x.quantity with
  | .finite u => if u % Quantity.one = 0 then some (u / Quantity.one) else none
  | _ => none

/-- Magnitudes in their order: the fields read as one number. -/
def rank (x : Binary64) : Nat := x.exponent * Nat.pow 2 52 + x.fraction

/-- The number of the given sign and rank; ranks from that of infinity on give infinity. -/
def ofRank (negative : Bool) (rank : Nat) : Binary64 :=
  if h : rank < 2047 * Nat.pow 2 52 then
    ⟨negative, ⟨rank / Nat.pow 2 52, by simp only [Nat.pow_eq] at h ⊢; omega⟩,
      ⟨rank % Nat.pow 2 52, Nat.mod_lt _ (by decide)⟩⟩
  else ⟨negative, 2047, 0⟩

def zero (negative : Bool) : Binary64 := ⟨negative, 0, 0⟩

def infinity (negative : Bool) : Binary64 := ⟨negative, 2047, 0⟩

/-- Not a number: the fraction has its first bit only. -/
def notANumber (negative : Bool) : Binary64 := ⟨negative, 2047, ⟨Nat.pow 2 51, by decide⟩⟩

/-- The interchange word: sign, exponent and fraction from the top. -/
def toWord (x : Binary64) : Nat := (if x.negative then Nat.pow 2 63 else 0) + x.rank

def ofWord (w : Nat) : Binary64 :=
  ⟨w / Nat.pow 2 63 % 2 = 1, ⟨w / Nat.pow 2 52 % 2048, Nat.mod_lt _ (by decide)⟩,
    ⟨w % Nat.pow 2 52, Nat.mod_lt _ (by decide)⟩⟩

end Binary64

end RoverFleet.Numeric
