import RoverFleet.Proofs.Reading
import RoverFleet.Proofs.Utf8

/-!
# Running a file is running its text

A file that holds a text in an encoding is decoded to that text, whatever the encoding, and is run
as the text with its line ends unified.
-/
namespace RoverFleet
namespace Codec

namespace Utf16
variable {o : Order} {n position : ℕ} {c : Char} {s : List Char} {rest : List UInt8}

theorem exists_bytes (h : n < 0x10000) : ∃ a b, o.bytes n = [a, b] ∧ o.unit a b = n := by
  have hlow : (UInt8.ofNat (n % 256)).toNat = n % 256 := Utf8.toNat_ofNat (by omega)
  have hhigh : (UInt8.ofNat (n / 256)).toNat = n / 256 := Utf8.toNat_ofNat (by omega)
  cases o with
  | little =>
    refine ⟨_, _, rfl, ?_⟩
    simp only [Order.unit, hlow, hhigh]
    omega
  | big =>
    refine ⟨_, _, rfl, ?_⟩
    simp only [Order.unit, hlow, hhigh]
    omega

theorem decodeFrom_unit (h : n < 0x10000) (hhigh : ¬ IsHigh n) (hlow : ¬ IsLow n)
    (rest : List UInt8) :
    decodeFrom o position (o.bytes n ++ rest) =
      (decodeFrom o (position + 2) rest).map (Char.ofNat n :: ·) := by
  obtain ⟨a, b, hbytes, rfl⟩ := exists_bytes (o := o) h
  rw [hbytes, List.cons_append, List.singleton_append, decodeFrom.eq_def]
  dsimp only
  rw [if_neg hhigh, if_neg hlow, Utf8.do_cons]

theorem decodeFrom_pair {m : ℕ} (hhigh : IsHigh n) (hlow : IsLow m) (rest : List UInt8) :
    decodeFrom o position (o.bytes n ++ (o.bytes m ++ rest)) =
      (decodeFrom o (position + 4) rest).map (Char.ofNat (pairCode n m) :: ·) := by
  have hn : n < 0x10000 := hhigh.2.trans (by decide)
  have hm : m < 0x10000 := hlow.2.trans (by decide)
  obtain ⟨a, b, hbytes, rfl⟩ := exists_bytes (o := o) hn
  obtain ⟨c, d, hbytes', rfl⟩ := exists_bytes (o := o) hm
  rw [hbytes, hbytes', List.cons_append, List.singleton_append, List.cons_append,
    List.singleton_append, decodeFrom]
  simp only [if_pos hhigh, if_pos hlow, Utf8.do_cons]

theorem decodeFrom_encodeChar (c : Char) (rest : List UInt8) :
    ∃ length, decodeFrom o position (encodeChar o c ++ rest) =
      (decodeFrom o (position + length) rest).map (c :: ·) := by
  have hvalid : c.toNat.isValidChar := c.valid
  unfold Nat.isValidChar at hvalid
  unfold encodeChar
  dsimp only
  split_ifs with hone
  · refine ⟨2, ?_⟩
    rw [decodeFrom_unit hone (fun h => by unfold IsHigh at h; omega)
      (fun h => by unfold IsLow at h; omega), Char.ofNat_toNat]
  · refine ⟨4, ?_⟩
    have hcode : pairCode (0xd800 + (c.toNat - 0x10000) / 0x400)
        (0xdc00 + (c.toNat - 0x10000) % 0x400) = c.toNat := by
      unfold pairCode
      omega
    rw [List.append_assoc, decodeFrom_pair ⟨by omega, by omega⟩ ⟨by omega, by omega⟩, hcode,
      Char.ofNat_toNat]

/-- A text is read as it is written. -/
theorem decodeFrom_encode (s : List Char) : decodeFrom o position (encode o s) = .ok s := by
  induction s generalizing position with
  | nil => rfl
  | cons c s ih =>
    obtain ⟨length, hc⟩ := @decodeFrom_encodeChar o position c (encode o s)
    rw [encode, List.flatMap_cons, ← encode, hc, ih]
    rfl

end Utf16

/-- How a text is written in an encoding; a leading mark is one of the encoding's own. -/
inductive Encodes : Encoding → List Char → List UInt8 → Prop
  | utf8Marked (t : List Char) :
    Encodes .utf8Marked t (Utf8.mark ++ t.flatMap String.utf8EncodeChar)
  | utf8Unmarked {t : List Char} (h : t.head? ≠ some '\ufeff') :
    Encodes .utf8Marked t (t.flatMap String.utf8EncodeChar)
  | utf8 (t : List Char) : Encodes .utf8 t (t.flatMap String.utf8EncodeChar)
  | ascii {t : List Char} (h : ∀ c ∈ t, c.toNat < 0x80) :
    Encodes .ascii t (t.map fun c => .ofNat c.toNat)
  | latin1 {t : List Char} (h : ∀ c ∈ t, c.toNat < 0x100) :
    Encodes .latin1 t (t.map fun c => .ofNat c.toNat)
  | utf16Marked (o : Utf16.Order) (t : List Char) :
    Encodes .utf16Marked t (o.bytes 0xfeff ++ Utf16.encode o t)
  | utf16 (o : Utf16.Order) (t : List Char) : Encodes (.utf16 o) t (Utf16.encode o t)

/-- The text after every pair of carriage return and line feed, and every other carriage return,
has become a line feed. -/
inductive Unified : List Char → List Char → Prop
  | nil : Unified [] []
  | pair {s t : List Char} (h : Unified s t) : Unified ('\r' :: '\n' :: s) ('\n' :: t)
  | lone {s t : List Char} (hs : s.head? ≠ some '\n') (h : Unified s t) :
    Unified ('\r' :: s) ('\n' :: t)
  | other {s t : List Char} {c : Char} (hc : c ≠ '\r') (h : Unified s t) :
    Unified (c :: s) (c :: t)

theorem unified_unifyLineEnds (s : List Char) : Unified s (unifyLineEnds s) := by
  fun_induction unifyLineEnds s with
  | case1 => exact .nil
  | case2 s ih => exact .pair ih
  | case3 c s hs ih =>
    split_ifs with hc
    · subst hc
      refine .lone (fun hhead => ?_) ih
      obtain ⟨rest, rfl⟩ := List.head?_eq_some_iff.mp hhead
      exact hs rest rfl rfl
    · exact .other hc ih

/-- A text is unified in one way only. -/
theorem Unified.eq {s t u : List Char} (h : Unified s t) (h' : Unified s u) : t = u := by
  induction h generalizing u with
  | nil =>
    cases h'
    rfl
  | pair h ih =>
    cases h' with
    | pair h' => rw [ih h']
    | lone hs h' => exact absurd rfl hs
    | other hc h' => exact absurd rfl hc
  | lone hs h ih =>
    cases h' with
    | pair h' => exact absurd rfl hs
    | lone hs h' => rw [ih h']
    | other hc h' => exact absurd rfl hc
  | other hc h ih =>
    cases h' with
    | pair h' => exact absurd rfl hc
    | lone hs h' => exact absurd rfl hc
    | other hc h' => rw [ih h']

section Encodings
variable {e : Encoding} {t : List Char} {bytes : List UInt8}

theorem decodeAsciiFrom_of_ascii {position : ℕ} (h : ∀ c ∈ t, c.toNat < 0x80) :
    Encoding.decodeAsciiFrom position (t.map fun c => .ofNat c.toNat) = .ok t := by
  induction t generalizing position with
  | nil => rfl
  | cons c t ih =>
    have hc : c.toNat < 0x80 := h c (by simp)
    have hbyte : (UInt8.ofNat c.toNat).toNat = c.toNat := Utf8.toNat_ofNat (by omega)
    rw [List.map_cons, Encoding.decodeAsciiFrom, hbyte, if_pos hc,
      ih fun d hd => h d (List.mem_cons_of_mem c hd), Char.ofNat_toNat]
    rfl

theorem map_latin1 (h : ∀ c ∈ t, c.toNat < 0x100) :
    (t.map fun c => UInt8.ofNat c.toNat).map (fun b => Char.ofNat b.toNat) = t := by
  have hchar (c : Char) (hc : c ∈ t) : Char.ofNat (UInt8.ofNat c.toNat).toNat = c := by
    rw [Utf8.toNat_ofNat (h c hc), Char.ofNat_toNat]
  rw [List.map_map]
  exact (List.map_congr_left hchar).trans (List.map_id t)

theorem utf8EncodeChars_eq (t : List Char) : t.flatMap String.utf8EncodeChar = Utf8.encode t := by
  rw [Utf8.encode, funext Utf8.encodeChar_eq]

/-- What a text is written as is read as the text. -/
theorem Encodes.decode (h : Encodes e t bytes) : e.decode bytes = .ok t := by
  cases h with
  | utf8Marked =>
    rw [utf8EncodeChars_eq, Encoding.decode, Utf8.decodeMarked_mark]
    rfl
  | utf8Unmarked h =>
    rw [utf8EncodeChars_eq, Encoding.decode, Utf8.decodeMarked_unmarked h]
    rfl
  | utf8 =>
    rw [utf8EncodeChars_eq, Encoding.decode, Utf8.decode_ok_iff.mpr rfl]
    rfl
  | ascii h =>
    rw [Encoding.decode, decodeAsciiFrom_of_ascii h]
    rfl
  | latin1 h => exact congrArg Except.ok (map_latin1 h)
  | utf16Marked o =>
    have horder : Utf16.order? (o.bytes 0xfeff ++ Utf16.encode o t) = some o := by
      cases o <;> rfl
    have hdrop : (o.bytes 0xfeff ++ Utf16.encode o t).drop 2 = Utf16.encode o t := by
      cases o <;> rfl
    rw [Encoding.decode, Encoding.decodeUtf16Marked, horder]
    dsimp only
    rw [hdrop, Utf16.decodeFrom_encode]
    rfl
  | utf16 o =>
    rw [Encoding.decode, Utf16.decode, Utf16.decodeFrom_encode]
    rfl

end Encodings

end Codec

namespace Script
open Codec

/-- The encodings by the names that the documentation gives them. -/
def documentedNames : List (String × Encoding) :=
  [("utf-8-sig", .utf8Marked), ("utf-8", .utf8), ("ascii", .ascii), ("latin-1", .latin1),
    ("utf-16", .utf16Marked), ("utf-16-le", .utf16 .little), ("utf-16-be", .utf16 .big)]

theorem names_documented {name : String} {e : Encoding} (h : (name, e) ∈ documentedNames) :
    e.Names name := by
  have hnames : ∀ pair ∈ documentedNames, pair.1.toList.contains '\x00' = false ∧
      Encoding.kind? pair.1 = some (.text pair.2) := by decide +kernel
  obtain ⟨hnul, hkind⟩ := hnames _ h
  exact ⟨hnul, hkind⟩

end Script

namespace Simulation
open Files Codec

/-- A file that holds a text in an encoding is run as the one text that it is with its line ends
unified. The bytes that are read as UTF-8 are exactly the encodings of texts, each of which is read
as its text. -/
theorem ofFile_eq_ofText {sys : System} {base : Option String} {name path : String} {e : Encoding}
    {l : Location} {bytes : List UInt8} {t : List Char}
    (he : e.Names name) (hl : Script.locate sys base path = .ok l)
    (hfile : sys.Holds l.toPath bytes) (ht : Encodes e t bytes) :
    (∃ u, (∀ u', Unified t u' ↔ u' = u) ∧ Script.load sys base name path = .ok u ∧
      ofFile sys base name path = .ok (ofText u (some path))) ∧
      (∀ bytes s, Encoding.utf8.decode bytes = .ok s ↔
        bytes = s.flatMap String.utf8EncodeChar) ∧
      ∀ bytes bytes' s, Encoding.utf8.decode bytes = .ok s → Encoding.utf8.decode bytes' = .ok s →
        bytes = bytes' := by
  have hload : Script.load sys base name path = .ok (unifyLineEnds t) := by
    rw [Script.load_of_holds he hl hfile, Script.decodeFile, ht.decode]
  have hutf8 (bytes : List UInt8) (s : List Char) :
      Encoding.utf8.decode bytes = .ok s ↔ bytes = s.flatMap String.utf8EncodeChar := by
    rw [utf8EncodeChars_eq, ← Utf8.decode_ok_iff]
    exact mapError_ok_iff
  have hunified (u : List Char) : Unified t u ↔ u = unifyLineEnds t :=
    ⟨fun hu => hu.eq (unified_unifyLineEnds t), fun hu => hu ▸ unified_unifyLineEnds t⟩
  refine ⟨⟨_, hunified, hload, ofFile_of_text hload⟩, hutf8, ?_⟩
  intro bytes bytes' s hs hs'
  exact ((hutf8 _ _).mp hs).trans ((hutf8 _ _).mp hs').symm

theorem ofFile_eq_ofText_big_endian :
    let text := "5 5\r\n1 2 N\rM".toList
    let h : Host := ⟨⟨[(["f"], .file (Utf16.Order.big.bytes 0xfeff ++ Utf16.encode .big text))]⟩,
      [], []⟩
    Encoding.utf16Marked.Names "utf-16" ∧ Script.locate h none "f" = .ok ["f"] ∧
      ∃ u, (∀ u', Unified text u' ↔ u' = u) ∧ Script.load h none "utf-16" "f" = .ok u ∧
        ofFile h none "utf-16" "f" = .ok (ofText u (some "f")) := by
  intro text h
  have he : Encoding.utf16Marked.Names "utf-16" := Script.names_documented (by decide +kernel)
  have hl : Script.locate h none "f" = .ok ["f"] := by decide +kernel
  have hfile : h.fileAt? (Location.toPath ["f"]) =
      .ok (some (Utf16.Order.big.bytes 0xfeff ++ Utf16.encode .big text)) := by decide +kernel
  exact ⟨he, hl, (ofFile_eq_ofText he hl (Host.holds_of_fileAt? hfile) (.utf16Marked .big text)).1⟩

end Simulation

end RoverFleet
