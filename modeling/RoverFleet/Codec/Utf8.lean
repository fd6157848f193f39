import RoverFleet.Codec.Fault

/-!
# UTF-8

The decoder takes one byte at a time. Inside a sequence it holds the bytes taken so far, how many
are still owed, and the range of the next one; the range of the second byte keeps out overlong
forms, surrogates and code points above the last.
-/
namespace RoverFleet.Codec.Utf8

/-- A sequence that has begun. -/
structure Pending where
  /-- The bytes taken so far, the last one first. -/
  taken : List UInt8
  owed : Nat
  low : Nat
  high : Nat
  code : Nat

/-- What the first byte of a sequence of several bytes promises. -/
def begin? (b : UInt8) : Option Pending :=
  let n := b.toNat
  if 0xc2 ≤ n ∧ n ≤ 0xdf then some ⟨[b], 1, 0x80, 0xbf, n - 0xc0⟩
  else if n = 0xe0 then some ⟨[b], 2, 0xa0, 0xbf, 0⟩
  else if n = 0xed then some ⟨[b], 2, 0x80, 0x9f, 0xd⟩
  else if 0xe1 ≤ n ∧ n ≤ 0xef then some ⟨[b], 2, 0x80, 0xbf, n - 0xe0⟩
  else if n = 0xf0 then some ⟨[b], 3, 0x90, 0xbf, 0⟩
  else if n = 0xf4 then some ⟨[b], 3, 0x80, 0x8f, 4⟩
  else if 0xf1 ≤ n ∧ n ≤ 0xf3 then some ⟨[b], 3, 0x80, 0xbf, n - 0xf0⟩
  else none

def fault (position : Nat) (bytes : List UInt8) (flaw : Flaw) : Undecodable :=
  ⟨"utf-8", position - bytes.length, bytes, flaw⟩

/-- Decodes from the given position on, inside a sequence or between two. -/
def decodeFrom (position : Nat) : Option Pending → List UInt8 → Except Undecodable (List Char)
  | none, [] => .ok []
  | some p, [] => .error (fault position p.taken.reverse .endOfData)
  | none, b :: rest =>
    if b.toNat < 0x80 then return Char.ofNat b.toNat :: (← decodeFrom (position + 1) none rest)
    else
      match begin? b with
      | some p => decodeFrom (position + 1) (some p) rest
      | none => .error (fault (position + 1) [b] .startByte)
  | some p, b :: rest =>
    if p.low ≤ b.toNat ∧ b.toNat ≤ p.high then
      let code := p.code * 64 + (b.toNat - 0x80)
      if p.owed ≤ 1 then return Char.ofNat code :: (← decodeFrom (position + 1) none rest)
      else decodeFrom (position + 1) (some ⟨b :: p.taken, p.owed - 1, 0x80, 0xbf, code⟩) rest
    else .error (fault position p.taken.reverse .continuation)

def decode (bytes : List UInt8) : Except Undecodable (List Char) := decodeFrom 0 none bytes

def tail (n : Nat) : UInt8 := .ofNat (0x80 + n % 64)

def encodeChar (c : Char) : List UInt8 :=
  let n := c.toNat
  if n < 0x80 then [.ofNat n]
  else if n < 0x800 then [.ofNat (0xc0 + n / 64), tail n]
  else if n < 0x10000 then [.ofNat (0xe0 + n / 4096), tail (n / 64), tail n]
  else [.ofNat (0xf0 + n / 262144), tail (n / 4096), tail (n / 64), tail n]

def encode (s : List Char) : List UInt8 := s.flatMap encodeChar

/-- The bytes of the byte order mark. -/
def mark : List UInt8 := [0xef, 0xbb, 0xbf]

/-- Drops one leading mark. Fewer bytes than a mark has, if a mark could begin so, hold nothing. -/
def decodeMarked (bytes : List UInt8) : Except Undecodable (List Char) :=
  if bytes.length < 3 ∧ bytes.isPrefixOf mark then .ok []
  else if mark.isPrefixOf bytes then decode (bytes.drop 3)
  else decode bytes

end RoverFleet.Codec.Utf8
