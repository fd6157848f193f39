import RoverFleet.Value
import RoverFleet.Numeric.Rounding

/-!
# Number literals

A word is a number literal if it is a row of decimal digits with or without a sign, a row of
digits of base 16, 8 or 2 after its mark, a decimal with a point or an exponent, or an infinity.
Digits are those of ASCII. The first two kinds stand for integers, the others for binary64 numbers.
-/
namespace RoverFleet
open Numeric

inductive Literal where
  | integer (negative : Bool) (digits : List Char)
  | based (base : Nat) (digits : List Char)
  | decimal (negative : Bool) (whole fraction : List Char) (exponent : Int)
  | infinity (negative : Bool)
  deriving DecidableEq, Repr

namespace Literal

def isDigits (s : List Char) : Bool := !s.isEmpty && s.all Char.isDigit

def integer? (s : List Char) : Option Literal :=
  let (negative, digits) := splitSign s
  if isDigits digits then some (.integer negative digits) else none

/-- The base that the mark after a zero stands for. -/
def baseOf? (mark : Char) : Option Nat :=
  if mark = 'x' || mark = 'X' then some 16
  else if mark = 'o' || mark = 'O' then some 8
  else if mark = 'b' || mark = 'B' then some 2
  else none

def isDigitOf (base : Nat) (c : Char) : Bool :=
  isHexDigit c && digitValue c < base

def based? : List Char → Option Literal
  | '0' :: mark :: digits => do
    let base ← baseOf? mark
    if !digits.isEmpty && digits.all (isDigitOf base) then some (.based base digits) else none
  | _ => none

/-- The exponent that ends a literal; nothing stands for zero. -/
def exponent? : List Char → Option Int
  | [] => some 0
  | mark :: s =>
    if mark = 'e' || mark = 'E' then
      let (negative, digits) := splitSign s
      if isDigits digits then some (negateIf negative (ofDigits 10 digits)) else none
    else none

/-- The digits after a point, and the rest. -/
def splitFraction : List Char → List Char × List Char
  | '.' :: s => (s.takeWhile Char.isDigit, s.dropWhile Char.isDigit)
  | s => ([], s)

def decimal? (s : List Char) : Option Literal :=
  let (negative, s) := splitSign s
  let whole := s.takeWhile Char.isDigit
  let (fraction, s) := splitFraction (s.dropWhile Char.isDigit)
  if whole.isEmpty && fraction.isEmpty then none
  else (exponent? s).map (.decimal negative whole fraction)

def infinity? (s : List Char) : Option Literal :=
  let (negative, s) := splitSign s
  if s = "Infinity".toList then some (.infinity negative) else none

def ofChars? (s : List Char) : Option Literal :=
  (integer? s).or ((based? s).or ((decimal? s).or (infinity? s)))

/-- The number that a literal stands for; too long a row of decimal digits is not read. -/
def value : Literal → Except DigitLimit Value
  | .integer negative digits =>
    if digitLimit < digits.length then .error (.reading digits.length)
    else .ok (.int (negateIf negative (ofDigits 10 digits)))
  | .based base digits => .ok (.int (ofDigits base digits))
  | .decimal negative whole fraction exponent =>
    .ok (.double (.ofDecimal negative (ofDigits 10 (whole ++ fraction))
      (exponent - fraction.length)))
  | .infinity negative => .ok (.double (.infinity negative))

/-- The number that a word stands for, if it is a literal. -/
def read (s : List Char) : Except DigitLimit (Option Value) :=
  match ofChars? s with
  | none => .ok none
  | some l => return some (← l.value)

end Literal

end RoverFleet
