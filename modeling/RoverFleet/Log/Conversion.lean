import RoverFleet.Value
import RoverFleet.Numeric.Places

/-!
# Conversions

A conversion says how an argument is written in its place. Its letter gives the kind of text; the name
of the argument, flags, the least width of its field and a precision may stand before the letter.
-/
namespace RoverFleet.Log
open Numeric

/-- Arguments that are still to be written, and those that are called by a name. -/
structure Arguments where
  named : Option Fields
  next : List Value

namespace Arguments

/-- A single object that is not empty gives its values by name, and is an argument itself too. -/
def ofList : List Value → Arguments
  | [.object (f :: fs)] => ⟨some (f :: fs), [.object (f :: fs)]⟩
  | vs => ⟨none, vs⟩

/-- None is left over; an object of named arguments need not be used up. -/
def isDone (a : Arguments) : Bool := a.named.isSome || a.next.isEmpty

def take? (a : Arguments) : Option (Value × Arguments) :=
  match a.next with
  | v :: vs => some (v, { a with next := vs })
  | [] => none

/-- The argument of a name comes next, and no other behind it. -/
def select? (a : Arguments) (name : String) : Option Arguments := do
  return { a with next := [← (← a.named).lookup name] }

end Arguments

structure Conversion where
  /-- The text stands at the left of its field. -/
  left : Bool
  /-- Zeros fill the field of a number behind its sign. -/
  zeros : Bool
  plus : Bool
  blank : Bool
  /-- The mark of a base, or a point without digits after it, is written. -/
  marked : Bool
  width : Nat
  precision : Option Nat
  letter : Char
  deriving DecidableEq, Repr

namespace Conversion

def isFlag (c : Char) : Bool := ['#', '0', '-', ' ', '+'].contains c

/-- A letter before the kind of text that changes nothing. -/
def dropLength : List Char → List Char
  | 'h' :: s => s
  | 'l' :: s => s
  | 'L' :: s => s
  | s => s

/-- Reads a name up to the bracket that closes it, where `depth` more are open. -/
def readName? (depth : Nat) : List Char → Option (List Char × List Char)
  | [] => none
  | c :: s =>
    if c = ')' then
      match depth with
      | 0 => some ([], s)
      | depth + 1 => (readName? depth s).map fun r => (c :: r.1, r.2)
    else (readName? (if c = '(' then depth + 1 else depth) s).map fun r => (c :: r.1, r.2)

/-- Selects the argument that a name between brackets calls for. -/
def readSelection? (a : Arguments) : List Char → Option (Arguments × List Char)
  | '(' :: s => do
    let (name, rest) ← readName? 0 s
    return (← a.select? (String.ofList name), rest)
  | s => some (a, s)

/-- The integer of an argument that is one. -/
def integer? : Value → Option Int
  | .bool b => some (if b then 1 else 0)
  | .int n => some n
  | _ => none

/-- The largest width and the largest precision that a field can have. -/
def fieldLimit : Nat := 2147483647

def readNumber? (a : Arguments) : List Char → Option (Int × Arguments × List Char)
  | '*' :: s => do
    let (v, a) ← a.take?
    return (← integer? v, a, s)
  | s => some (ofDigits 10 (s.takeWhile Char.isDigit), a, s.dropWhile Char.isDigit)

/-- Reads a width or a precision: digits, or a star in whose place the next argument stands. -/
def readCount? (a : Arguments) (s : List Char) : Option (Int × Arguments × List Char) :=
  (readNumber? a s).filter fun r => r.1.natAbs ≤ fieldLimit

/-- Reads a precision behind a point; one below zero counts as zero. -/
def readPrecision? (a : Arguments) : List Char → Option (Option Nat × Arguments × List Char)
  | '.' :: s => do
    let (n, a, rest) ← readCount? a s
    return (some n.toNat, a, rest)
  | s => some (none, a, s)

/-- Reads what stands after a percent sign. A width below zero puts the text at the left. -/
def read? (a : Arguments) (s : List Char) : Option (Conversion × Arguments × List Char) := do
  let (a, s) ← readSelection? a s
  let flags := s.takeWhile isFlag
  let (width, a, s) ← readCount? a (s.dropWhile isFlag)
  let (precision, a, s) ← readPrecision? a s
  match dropLength s with
  | letter :: rest =>
    return (⟨flags.contains '-' || width < 0, flags.contains '0', flags.contains '+',
      flags.contains ' ', flags.contains '#', width.natAbs, precision, letter⟩, a, rest)
  | [] => none

/-! Fields -/

/-- Fills a field; `front` stays before the zeros. -/
def field (k : Conversion) (zeros : Bool) (front body : List Char) : List Char :=
  let gap := k.width - (front.length + body.length)
  if k.left then front ++ body ++ List.replicate gap ' '
  else if zeros then front ++ List.replicate gap '0' ++ body
  else List.replicate gap ' ' ++ front ++ body

def sign (k : Conversion) (negative : Bool) : List Char :=
  if negative then ['-'] else if k.plus then ['+'] else if k.blank then [' '] else []

def textField (k : Conversion) (s : List Char) : List Char := k.field false [] s

/-- A text of which the precision tells how many characters are written. -/
def cutField (k : Conversion) (s : String) : List Char :=
  k.textField (s.toList.take (k.precision.getD s.length))

/-- A number whose precision tells how many digits there are at least. -/
def integerField (k : Conversion) (n : Int) (mark digits : List Char) : List Char :=
  k.field k.zeros (k.sign (n < 0) ++ if k.marked then mark else [])
    (padDigits (k.precision.getD 0) digits)

def fractionField (k : Conversion) (negative : Bool) (s : List Char) : List Char :=
  k.field k.zeros (k.sign negative) s

/-! Values of arguments -/

/-- The integer part of a number. -/
def integerPart? : Value → Option Int
  | .double x =>
    match x.quantity with
    | .finite units => some (units.tdiv Quantity.one)
    | _ => none
  | v => integer? v

/-- The binary64 number of an argument; an integer must not be too large for one. -/
def double? : Value → Option Binary64
  | .double x => some x
  | v => (integer? v).bind fun n =>
    let x := Binary64.ofRatio (n < 0) n.natAbs 1
    if x.isFinite then some x else none

def character? : Value → Option Char
  | .string s =>
    match s.toList with
    | [c] => some c
    | _ => none
  | v => (integer? v).bind fun n =>
    if 0 ≤ n ∧ n.toNat.isValidChar then some (Char.ofNat n.toNat) else none

/-! Texts of numbers -/

def upperCase (capital : Bool) (s : List Char) : List Char := if capital then s.map Char.toUpper else s

def placesOf (k : Conversion) : Nat := k.precision.getD 6

/-- One digit before the point, and an exponent of at least two digits. -/
def exponentChars (k : Conversion) (num den : Nat) : List Char :=
  let (digits, place) := leadingDigits k.placesOf num den
  mantissaChars k.marked k.placesOf digits ++ 'e' :: Value.messageLayout.exponentChars place

/-- The shorter form: the precision counts all digits, and zeros at the end are left out. -/
def generalChars (k : Conversion) (num den : Nat) : List Char :=
  let places := k.placesOf - 1
  let (digits, place) := leadingDigits places num den
  let tidy := if k.marked then id else dropPlaces
  if -4 ≤ place ∧ place ≤ places then tidy (fixedChars k.marked (places - place).toNat num den)
  else tidy (mantissaChars k.marked places digits) ++ 'e' :: Value.messageLayout.exponentChars place

/-- The text of a number by the lower-case letter of its form. -/
def fractionChars (k : Conversion) (form : Char) (x : Binary64) : List Char :=
  match x.quantity with
  | .undefined => "nan".toList
  | .infinite _ => "inf".toList
  | .finite _ =>
    if form = 'e' then k.exponentChars x.units Quantity.one
    else if form = 'f' then fixedChars k.marked k.placesOf x.units Quantity.one
    else k.generalChars x.units Quantity.one

def ofDouble (k : Conversion) (x : Binary64) : List Char :=
  let negative := x.negative && x.quantity ≠ .undefined
  k.fractionField negative (upperCase k.letter.isUpper (k.fractionChars k.letter.toLower x))

/-- An integer in a base other than ten; a capital letter gives capital digits. -/
def inBase (k : Conversion) (base : Nat) (n : Int) : List Char :=
  k.integerField n ['0', k.letter] (upperCase k.letter.isUpper (Nat.toDigits base n.natAbs))

def inDecimal? (k : Conversion) (n : Int) : Option (List Char) :=
  if Printable n then some (k.integerField n [] (natDigits n.natAbs)) else none

/-- The text of an argument, if it is of the kind that the letter asks for. -/
def write? (k : Conversion) (v : Value) : Option (List Char) :=
  match k.letter with
  | 's' => v.text.toOption.map k.cutField
  | 'r' => v.quotedText.toOption.map k.cutField
  | 'a' => v.quotedText.toOption.map fun s => k.cutField (Text.Quoted.asciiText s)
  | 'c' => (character? v).map fun c => k.textField [c]
  | 'd' | 'i' | 'u' => (integerPart? v).bind k.inDecimal?
  | 'x' | 'X' => (integer? v).map (k.inBase 16)
  | 'o' => (integer? v).map (k.inBase 8)
  | 'e' | 'E' | 'f' | 'F' | 'g' | 'G' => (double? v).map k.ofDouble
  | _ => none

end Conversion

end RoverFleet.Log
