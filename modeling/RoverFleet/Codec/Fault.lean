import RoverFleet.Numeric.Decimal

/-!
# Undecodable bytes

What is wrong with bytes that a codec cannot decode, and where.
-/
namespace RoverFleet.Codec

inductive Flaw where
  | startByte
  | continuation
  | endOfData
  | truncated
  | loneLow
  | loneHigh
  | range
  | foreign (reason : String)
  deriving DecidableEq, Repr

structure Undecodable where
  codec : String
  start : Nat
  /-- The bytes at fault. -/
  bytes : List UInt8
  flaw : Flaw
  deriving DecidableEq, Repr

namespace Flaw

def message : Flaw → String
  | .startByte => "invalid start byte"
  | .continuation => "invalid continuation byte"
  | .endOfData => "unexpected end of data"
  | .truncated => "truncated data"
  | .loneLow => "illegal encoding"
  | .loneHigh => "illegal UTF-16 surrogate"
  | .range => "ordinal not in range(128)"
  | .foreign reason => reason

end Flaw

namespace Undecodable

def place (u : Undecodable) : String :=
  match u.bytes with
  | [b] =>
    "byte 0x" ++ String.ofList (Numeric.hexPadded 2 b.toNat) ++ " in position " ++ toString u.start
  | bytes =>
    "bytes in position " ++ toString u.start ++ "-" ++ toString (u.start + bytes.length - 1)

def message (u : Undecodable) : String :=
  "\x27" ++ u.codec ++ "\x27 codec can\x27t decode " ++ u.place ++ ": " ++ u.flaw.message

end Undecodable

end RoverFleet.Codec
