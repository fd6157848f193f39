import RoverFleet.Codec.Fault

/-!
# UTF-16

Units of two bytes in either order; two units that form a surrogate pair are one character.
-/
namespace RoverFleet.Codec.Utf16

inductive Order where
  | little
  | big
  deriving DecidableEq, Repr

namespace Order

def codec : Order → String
  | .little => "utf-16-le"
  | .big => "utf-16-be"

/-- The unit of two successive bytes. -/
def unit (o : Order) (a b : UInt8) : Nat :=
  match o with
  | .little => b.toNat * 256 + a.toNat
  | .big => a.toNat * 256 + b.toNat

/-- The two bytes of a unit. -/
def bytes (o : Order) (unit : Nat) : List UInt8 :=
  match o with
  | .little => [.ofNat (unit % 256), .ofNat (unit / 256)]
  | .big => [.ofNat (unit / 256), .ofNat (unit % 256)]

end Order

def IsHigh (unit : Nat) : Prop := 0xd800 ≤ unit ∧ unit < 0xdc00

def IsLow (unit : Nat) : Prop := 0xdc00 ≤ unit ∧ unit < 0xe000

instance (unit : Nat) : Decidable (IsHigh unit) := inferInstanceAs (Decidable (_ ∧ _))

instance (unit : Nat) : Decidable (IsLow unit) := inferInstanceAs (Decidable (_ ∧ _))

/-- The code point of a surrogate pair. -/
def pairCode (high low : Nat) : Nat := 0x10000 + (high - 0xd800) * 0x400 + (low - 0xdc00)

def decodeFrom (o : Order) (position : Nat) : List UInt8 → Except Undecodable (List Char)
  | [] => .ok []
  | [a] => .error ⟨o.codec, position, [a], .truncated⟩
  | a :: b :: rest =>
    let unit := o.unit a b
    if IsHigh unit then
      match rest with
      | c :: d :: rest =>
        if IsLow (o.unit c d) then
          return Char.ofNat (pairCode unit (o.unit c d)) :: (← decodeFrom o (position + 4) rest)
        else .error ⟨o.codec, position, [a, b], .loneHigh⟩
      | short => .error ⟨o.codec, position, a :: b :: short, .endOfData⟩
    else if IsLow unit then .error ⟨o.codec, position, [a, b], .loneLow⟩
    else return Char.ofNat unit :: (← decodeFrom o (position + 2) rest)

def decode (o : Order) (bytes : List UInt8) : Except Undecodable (List Char) := decodeFrom o 0 bytes

def encodeChar (o : Order) (c : Char) : List UInt8 :=
  let n := c.toNat
  if n < 0x10000 then o.bytes n
  else o.bytes (0xd800 + (n - 0x10000) / 0x400) ++ o.bytes (0xdc00 + (n - 0x10000) % 0x400)

def encode (o : Order) (s : List Char) : List UInt8 := s.flatMap (encodeChar o)

/-- The order that a leading mark tells. -/
def order? : List UInt8 → Option Order
  | 0xff :: 0xfe :: _ => some .little
  | 0xfe :: 0xff :: _ => some .big
  | _ => none

end RoverFleet.Codec.Utf16
