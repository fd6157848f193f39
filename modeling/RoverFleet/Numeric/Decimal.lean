/-!
# Decimal text of integers

Integers are written in base ten without leading zeros. A decimal text of more than
4300 digits is neither read nor written; texts in other bases have no limit.
-/
namespace RoverFleet.Numeric

/-- The greatest number of decimal digits that is read or written. -/
def digitLimit : Nat := 4300

/-- A decimal text was too long to read, or would be too long to write. -/
inductive DigitLimit where
  | reading (digits : Nat)
  | writing
  deriving DecidableEq, Repr

namespace DigitLimit

def message : DigitLimit → String
  | .reading digits =>
    "Exceeds the limit (4300 digits) for integer string conversion: value has " ++ toString digits ++
      " digits; use sys.set_int_max_str_digits() to increase the limit"
  | .writing =>
    "Exceeds the limit (4300 digits) for integer string conversion; " ++
      "use sys.set_int_max_str_digits() to increase the limit"

end DigitLimit

/-- The value of a digit in any base up to sixteen. -/
def digitValue (c : Char) : Nat :=
  if c.isDigit then c.toNat - 48
  else if c.isLower then c.toNat - 87
  else c.toNat - 55

/-- The number that a row of digits stands for, most significant digit first. -/
def ofDigits (base : Nat) (digits : List Char) : Nat :=
  digits.foldl (fun n c => n * base + digitValue c) 0

def isHexDigit (c : Char) : Bool :=
  c.isDigit || ('a' ≤ c && c ≤ 'f') || ('A' ≤ c && c ≤ 'F')

/-- Whether a text starts with a minus sign, and what follows its sign. -/
def splitSign : List Char → Bool × List Char
  | '-' :: s => (true, s)
  | '+' :: s => (false, s)
  | s => (false, s)

def negateIf (negative : Bool) (n : Int) : Int := if negative then -n else n

def natDigits (n : Nat) : List Char := Nat.toDigits 10 n

def intChars (n : Int) : List Char :=
  if n < 0 then '-' :: natDigits n.natAbs else natDigits n.natAbs

/-- The decimal text of an integer of any size. -/
def intText (n : Int) : String := String.ofList (intChars n)

/-- Whether the decimal text of `n` keeps within the limit; the sign does not count. -/
def Printable (n : Int) : Prop := n.natAbs < Nat.pow 10 digitLimit

instance (n : Int) : Decidable (Printable n) := inferInstanceAs (Decidable (_ < _))

/-- The decimal text of an integer within the limit. -/
def writeInt (n : Int) : Except DigitLimit String :=
  if Printable n then .ok (intText n) else .error .writing

/-- The lower-case hexadecimal digits of a number. -/
def hexDigits (n : Nat) : List Char := Nat.toDigits 16 n

/-- Hexadecimal digits, with zeros in front up to the given width. -/
def hexPadded (width n : Nat) : List Char :=
  List.replicate (width - (hexDigits n).length) '0' ++ hexDigits n

end RoverFleet.Numeric
