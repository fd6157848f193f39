import RoverFleet.Codec.Utf8
import RoverFleet.Codec.Utf16
import RoverFleet.Text.Uppercase

/-!
# Encodings

The encodings of script files and their names. Letter case does not matter in a name, and any run
of characters other than ASCII letters, digits and points divides it in the same way. An encoding
has one proper name and others.
-/
namespace RoverFleet.Codec

inductive Encoding where
  | utf8Marked
  | utf8
  | ascii
  | latin1
  | utf16Marked
  | utf16 (order : Utf16.Order)
  deriving DecidableEq, Repr

/-- Why bytes are not decoded. Codecs that are not written out here may have faults of their own. -/
inductive DecodeFault where
  | undecodable (u : Undecodable)
  | noMark
  | foreign (message : String)
  deriving DecidableEq, Repr

abbrev Decoder := List UInt8 → Except DecodeFault (List Char)

/-- Why a name gives no encoding of text. -/
inductive NameFault where
  | unknown (name : String)
  | notText (name : String)
  deriving DecidableEq, Repr

namespace NameFault

def message : NameFault → String
  | .unknown name => "unknown encoding: " ++ name
  | .notText name =>
    "\x27" ++ name ++ "\x27 is not a text encoding; use codecs.open() to handle arbitrary codecs"

end NameFault

namespace Encoding

def isNameChar (c : Char) : Bool := c.isAlphanum || c = '.'

/-- The parts of a name in lower case, with underscores between them. -/
def normalName (name : String) : String :=
  let parts := (name.toList.map fun c => if isNameChar c then c.toLower else ' ').splitOn ' '
  "_".intercalate ((parts.filter (!·.isEmpty)).map String.ofList)

/-- What a name stands for: an encoding of text, or one of bytes as bytes or of text as text. -/
inductive Kind where
  | text (e : Encoding)
  | other
  deriving DecidableEq, Repr

/-- The names proper. -/
def names : List (String × Kind) :=
  [("utf_8_sig", .text .utf8Marked), ("utf_8", .text .utf8), ("ascii", .text .ascii),
    ("latin_1", .text .latin1), ("utf_16", .text .utf16Marked),
    ("utf_16_le", .text (.utf16 .little)), ("utf_16_be", .text (.utf16 .big)),
    ("rot_13", .other), ("hex_codec", .other), ("base64_codec", .other), ("bz2_codec", .other),
    ("zlib_codec", .other), ("quopri_codec", .other), ("uu_codec", .other)]

/-- Other names, by the encodings that they stand for. -/
def aliasLists : List (Kind × List String) :=
  [(.text .utf8, ["utf8", "u8", "utf", "cp65001", "utf8_ucs2", "utf8_ucs4"]),
    (.text .ascii, ["us_ascii", "646", "us", "cp367", "ibm367", "csascii", "iso646_us", "iso_ir_6",
      "iso_646.irv_1991", "ansi_x3.4_1968", "ansi_x3_4_1968", "ansi_x3.4_1986"]),
    (.text .latin1, ["latin1", "latin", "l1", "8859", "cp819", "ibm819", "csisolatin1", "iso8859",
      "iso8859_1", "iso_8859_1", "iso_8859_1_1987", "iso_ir_100"]),
    (.text .utf16Marked, ["utf16", "u16"]),
    (.text (.utf16 .little), ["utf_16le", "unicodelittleunmarked"]),
    (.text (.utf16 .big), ["utf_16be", "unicodebigunmarked"]),
    (.other, ["rot13", "hex", "base64", "base_64", "bz2", "zip", "zlib", "quopri",
      "quoted_printable", "quotedprintable", "uu"])]

def aliases : List (String × Kind) :=
  aliasLists.flatMap fun group => group.2.map (·, group.1)

/-- Points count as underscores in the names that are not proper ones. -/
def kind? (name : String) : Option Kind :=
  let normal := normalName name
  let divided := String.ofList (normal.toList.map fun c => if c = '.' then '_' else c)
  (names.lookup normal).or ((aliases.lookup normal).or (aliases.lookup divided))

def decodeAsciiFrom (position : Nat) : List UInt8 → Except Undecodable (List Char)
  | [] => .ok []
  | b :: rest =>
    if b.toNat < 0x80 then return Char.ofNat b.toNat :: (← decodeAsciiFrom (position + 1) rest)
    else .error ⟨"ascii", position, [b], .range⟩

def decodeUtf16Marked (bytes : List UInt8) : Except DecodeFault (List Char) :=
  match Utf16.order? bytes with
  | some o => (Utf16.decodeFrom o 2 (bytes.drop 2)).mapError .undecodable
  | none => do
    let s ← (Utf16.decode .little bytes).mapError .undecodable
    if s.isEmpty then return s else throw .noMark

def decode (e : Encoding) (bytes : List UInt8) : Except DecodeFault (List Char) :=
  match e with
  | .utf8Marked => (Utf8.decodeMarked bytes).mapError .undecodable
  | .utf8 => (Utf8.decode bytes).mapError .undecodable
  | .ascii => (decodeAsciiFrom 0 bytes).mapError .undecodable
  | .latin1 => .ok (bytes.map fun b => Char.ofNat b.toNat)
  | .utf16Marked => decodeUtf16Marked bytes
  | .utf16 o => (Utf16.decode o bytes).mapError .undecodable

end Encoding

/-- The decoder of a name: that of an encoding, or one of the others that there are. -/
def decoderOf (others : String → Option Decoder) (name : String) : Except NameFault Decoder :=
  match Encoding.kind? name with
  | some (.text e) => .ok e.decode
  | some .other => .error (.notText name)
  | none => (others name).elim (.error (.unknown name)) .ok

/-- Every line end, of one character or two, becomes a line feed. -/
def unifyLineEnds : List Char → List Char
  | [] => []
  | '\r' :: '\n' :: s => '\n' :: unifyLineEnds s
  | c :: s => (if c = '\r' then '\n' else c) :: unifyLineEnds s

end RoverFleet.Codec
