import RoverFleet.Numeric.Shortest
import RoverFleet.Text.Quoted

/-!
# Values

Trees of null, truth values, integers, binary64 numbers, strings, moments, lists and objects whose
fields keep their order. `Value.text` is how a value reads inside a message.
-/
namespace RoverFleet
open Numeric

inductive Value where
  | null
  | bool (b : Bool)
  | int (n : Int)
  | double (x : Binary64)
  | string (s : String)
  /-- A date, a time of day, or both, as the row of its numbers. -/
  | moment (numbers : List Nat)
  | list (items : List Value)
  | object (fields : List (String × Value))
  deriving Inhabited, Repr

abbrev Fields := List (String × Value)

namespace Fields

/-- Sets a field in its place, or adds it at the end. -/
def put (key : String) (v : Value) : Fields → Fields
  | [] => [(key, v)]
  | (k, w) :: rest => if k = key then (k, v) :: rest else (k, w) :: put key v rest

def has (fields : Fields) (key : String) : Bool := fields.any (·.1 == key)

end Fields

namespace Value

/-- The exact value of a number; truth values count as 1 and 0. -/
def quantity? : Value → Option Quantity
  | .bool b => some (.ofInt (if b then 1 else 0))
  | .int n => some (.ofInt n)
  | .double x => some x.quantity
  | _ => none

/-- The integer that a number other than a truth value is equal to. -/
def whole? : Value → Option Int
  | .int n => some n
  | .double x => x.whole?
  | _ => none

/-- How numbers are laid out inside messages. -/
def messageLayout : Layout := ⟨-4, 16, true, 2⟩

def doubleText (x : Binary64) : String :=
  match x.quantity with
  | .undefined => "nan"
  | .infinite negative => if negative then "-inf" else "inf"
  | .finite _ => String.ofList (x.finiteChars messageLayout)

/-- The numbers of a moment with hyphens between them. -/
def momentText (numbers : List Nat) : String :=
  "-".intercalate (numbers.map fun n => String.ofList (natDigits n))

mutual

/-- The text of a value in which strings are quoted. -/
def quotedText : Value → Except DigitLimit String
  | .null => .ok "None"
  | .bool b => .ok (if b then "True" else "False")
  | .int n => writeInt n
  | .double x => .ok (doubleText x)
  | .string s => .ok (Text.quoted s)
  | .moment numbers => .ok (momentText numbers)
  | .list items => return "[" ++ ", ".intercalate (← itemTexts items) ++ "]"
  | .object fields => return "\x7b" ++ ", ".intercalate (← fieldTexts fields) ++ "\x7d"

def itemTexts : List Value → Except DigitLimit (List String)
  | [] => .ok []
  | v :: rest => return (← quotedText v) :: (← itemTexts rest)

def fieldTexts : List (String × Value) → Except DigitLimit (List String)
  | [] => .ok []
  | (k, v) :: rest => return (Text.quoted k ++ ": " ++ (← quotedText v)) :: (← fieldTexts rest)

end

/-- The text of a value inside a message: a string stands as it is. -/
def text : Value → Except DigitLimit String
  | .string s => .ok s
  | v => quotedText v

mutual

/-- Equality: numbers by exact value, lists item by item, objects by key. -/
def same : Value → Value → Bool
  | .null, .null => true
  | .string s, .string t => s == t
  | .moment ms, .moment ns => ms == ns
  | .list xs, .list ys => sameItems xs ys
  | .object xs, .object ys => xs.length == ys.length && sameFields xs ys
  | v, w =>
    match v.quantity?, w.quantity? with
    | some a, some b => a.same b
    | _, _ => false

def sameItems : List Value → List Value → Bool
  | [], [] => true
  | v :: vs, w :: ws => same v w && sameItems vs ws
  | _, _ => false

def sameFields : List (String × Value) → List (String × Value) → Bool
  | [], _ => true
  | (k, v) :: rest, ws =>
    (match ws.lookup k with
    | some w => same v w
    | none => false) && sameFields rest ws

end

end Value

end RoverFleet
