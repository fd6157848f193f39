import RoverFleet.Proofs.Numeral
import RoverFleet.Json.Printer
import RoverFleet.Json.Reader

/-!
# JSON documents

The grammar of JSON texts, with the tree that each denotes: null, truth values, integers of any
size, strings, lists, and objects whose keys are distinct. What is written for such a tree is a
document that denotes it, whatever the style.
-/
namespace RoverFleet

/-- A tree without binary64 numbers and moments, whose objects have distinct keys. -/
inductive Value.Tree : Value → Prop
  | null : Tree .null
  | bool (b : Bool) : Tree (.bool b)
  | int (n : ℤ) : Tree (.int n)
  | string (s : String) : Tree (.string s)
  | list {items : List Value} (h : ∀ v ∈ items, Tree v) : Tree (.list items)
  | object {fields : Fields} (hkeys : (fields.map Prod.fst).Nodup)
      (h : ∀ f ∈ fields, Tree f.2) : Tree (.object fields)

namespace Json
open Numeric

/-- Blanks that may stand around values. -/
def Blanks (s : List Char) : Prop := ∀ c ∈ s, isSpace c = true

/-- A row of decimal digits without a zero in front of others. -/
structure Whole (digits : List Char) : Prop where
  ne : digits ≠ []
  digit : ∀ c ∈ digits, c.isDigit = true
  leading : digits.head? = some '0' → digits = ['0']

inductive Numeral : List Char → ℤ → Prop
  | natural {digits : List Char} (h : Whole digits) : Numeral digits (ofDigits 10 digits)
  | negative {digits : List Char} (h : Whole digits) :
      Numeral ('-' :: digits) (-(ofDigits 10 digits : ℤ))

/-- The four hexadecimal digits of a UTF-16 unit. -/
structure Unit16 (digits : List Char) (unit : ℕ) : Prop where
  length : digits.length = 4
  digit : ∀ c ∈ digits, isHexDigit c = true
  value : ofDigits 16 digits = unit

/-- The letters behind a backslash, with the characters that they stand for. -/
def shortEscapes : List (Char × Char) :=
  [('"', '"'), ('\\', '\\'), ('/', '/'), ('b', '\x08'), ('f', '\x0c'), ('n', '\n'), ('r', '\r'),
    ('t', '\t')]

/-- The spellings of a character inside a string. -/
inductive Spells : List Char → Char → Prop
  | plain {c : Char} (hquote : c ≠ '"') (hslash : c ≠ '\\') (hcontrol : 0x20 ≤ c.toNat) :
      Spells [c] c
  | short {mark c : Char} (h : (mark, c) ∈ shortEscapes) : Spells ['\\', mark] c
  | unit {digits : List Char} {c : Char} (h : Unit16 digits c.toNat) :
      Spells ('\\' :: 'u' :: digits) c
  | pair {high low : List Char} {c : Char} (hc : 0x10000 ≤ c.toNat)
      (hhigh : Unit16 high (0xd800 + (c.toNat - 0x10000) / 0x400))
      (hlow : Unit16 low (0xdc00 + (c.toNat - 0x10000) % 0x400)) :
      Spells ('\\' :: 'u' :: high ++ '\\' :: 'u' :: low) c

/-- The text between the quotes of a string. -/
inductive Quoted : List Char → List Char → Prop
  | nil : Quoted [] []
  | cons {s t cs : List Char} {c : Char} (hc : Spells s c) (ht : Quoted t cs) :
      Quoted (s ++ t) (c :: cs)

/-- The text of a value, with the blanks around it. -/
structure Item where
  before : List Char
  text : List Char
  after : List Char
  value : Value

/-- A key, as it is spelled, with the blanks around it, and the item behind the colon. -/
structure Field where
  before : List Char
  spelling : List Char
  after : List Char
  key : List Char
  item : Item

namespace Item

def chars (i : Item) : List Char := i.before ++ i.text ++ i.after

structure Blank (i : Item) : Prop where
  before : Blanks i.before
  after : Blanks i.after

end Item

namespace Field

def chars (f : Field) : List Char :=
  f.before ++ '"' :: f.spelling ++ '"' :: f.after ++ ':' :: f.item.chars

/-- The key with its value. -/
def pair (f : Field) : String × Value := (String.ofList f.key, f.item.value)

structure Blank (f : Field) : Prop where
  before : Blanks f.before
  after : Blanks f.after
  item : f.item.Blank

end Field

def itemChars (items : List Item) : List Char := List.intercalate [','] (items.map Item.chars)

def fieldChars (fields : List Field) : List Char := List.intercalate [','] (fields.map Field.chars)

/-- The texts of a tree. -/
inductive Denotes : List Char → Value → Prop
  | null : Denotes "null".toList .null
  | yes : Denotes "true".toList (.bool true)
  | no : Denotes "false".toList (.bool false)
  | int {s : List Char} {n : ℤ} (h : Numeral s n) : Denotes s (.int n)
  | string {s cs : List Char} (h : Quoted s cs) :
      Denotes ('"' :: s ++ ['"']) (.string (String.ofList cs))
  | emptyList {b : List Char} (hb : Blanks b) : Denotes ('[' :: b ++ [']']) (.list [])
  | list {items : List Item} (hne : items ≠ []) (hb : ∀ i ∈ items, i.Blank)
      (h : ∀ i ∈ items, Denotes i.text i.value) :
      Denotes ('[' :: itemChars items ++ [']']) (.list (items.map Item.value))
  | emptyObject {b : List Char} (hb : Blanks b) : Denotes ('\x7b' :: b ++ ['\x7d']) (.object [])
  | object {fields : List Field} (hne : fields ≠ []) (hb : ∀ f ∈ fields, f.Blank)
      (hkeys : (fields.map fun f => f.pair.1).Nodup) (hq : ∀ f ∈ fields, Quoted f.spelling f.key)
      (h : ∀ f ∈ fields, Denotes f.item.text f.item.value) :
      Denotes ('\x7b' :: fieldChars fields ++ ['\x7d']) (.object (fields.map Field.pair))

/-- A whole text is that of a tree with blanks around it. -/
def Document (s : List Char) (v : Value) : Prop :=
  ∃ before text after, Blanks before ∧ Blanks after ∧ Denotes text v ∧ s = before ++ text ++ after

section Digits
variable {n : ℕ}

theorem natDigits_head (hn : 0 < n) : (natDigits n).head? ≠ some '0' := by
  induction n using Nat.strongRecOn with
  | _ n ih =>
    by_cases hlt : n < 10
    · have hdigits : natDigits n = [n.digitChar] := Nat.toDigits_of_lt_base hlt
      have hdigit : ∀ d < 10, 0 < d → d.digitChar ≠ '0' := by decide
      rw [hdigits]
      simpa using hdigit n hlt hn
    · have hdigits : natDigits n = natDigits (n / 10) ++ [(n % 10).digitChar] :=
        Nat.toDigits_of_base_le (by decide) (Nat.le_of_not_lt hlt)
      have hne : natDigits (n / 10) ≠ [] := Nat.toDigits_ne_nil
      rw [hdigits, List.head?_append_of_ne_nil _ hne]
      exact ih (n / 10) (Nat.div_lt_self hn (by decide)) (by omega)

theorem natDigits_whole (n : ℕ) : Whole (natDigits n) where
  ne := Nat.toDigits_ne_nil
  digit _ hc := Literal.natDigits_isDigit hc
  leading h := by
    rcases Nat.eq_zero_or_pos n with rfl | hn
    · rfl
    · exact absurd h (natDigits_head hn)

theorem numeral_intChars (n : ℤ) : Numeral (intChars n) n := by
  have hvalue := Literal.ofDigits_natDigits n.natAbs
  unfold intChars
  split
  · next hneg =>
    have h := Numeral.negative (natDigits_whole n.natAbs)
    have hn : -(n.natAbs : ℤ) = n := by omega
    rwa [hvalue, hn] at h
  · next hneg =>
    have h := Numeral.natural (natDigits_whole n.natAbs)
    have hn : (n.natAbs : ℤ) = n := by omega
    rwa [hvalue, hn] at h

theorem hexDigits_spec (n : ℕ) :
    (∀ c ∈ hexDigits n, isHexDigit c = true) ∧ ofDigits 16 (hexDigits n) = n := by
  obtain ⟨hdigits, hvalue⟩ := @Literal.toDigits_spec 16 (by decide) le_rfl n
  exact ⟨fun c hc => (hdigits c hc).1, hvalue⟩

theorem ofDigits_zeros (k : ℕ) (s : List Char) :
    ofDigits 16 (List.replicate k '0' ++ s) = ofDigits 16 s := by
  induction k with
  | zero => rfl
  | succ k ih =>
    rw [List.replicate_succ, List.cons_append, ← ih]
    rfl

theorem unit16_hexPadded (hn : n < 0x10000) : Unit16 (hexPadded 4 n) n where
  length := by
    have hlen : (hexDigits n).length ≤ 4 :=
      (Nat.length_toDigits_le_iff (by decide) (by decide)).mpr hn
    simp only [hexPadded, List.length_append, List.length_replicate]
    omega
  digit c hc := by
    rcases List.mem_append.mp hc with hc | hc
    · rw [List.eq_of_mem_replicate hc]
      rfl
    · exact (hexDigits_spec n).1 c hc
  value := by rw [hexPadded, ofDigits_zeros, (hexDigits_spec n).2]

end Digits

theorem toNat_lt (c : Char) : c.toNat < 0x110000 := by
  rcases c.valid with h | h
  · exact Nat.lt_trans h (by decide)
  · exact h.2

theorem spells_escapeCode (c : Char) : Spells (escapeCode c.toNat) c := by
  unfold escapeCode
  split
  · next hc => exact .unit (unit16_hexPadded hc)
  · next hc =>
    have hmax := toNat_lt c
    have hhigh : Unit16 (hexPadded 4 (0xd800 + (c.toNat - 0x10000) / 0x400)) _ :=
      unit16_hexPadded (by omega)
    have hlow : Unit16 (hexPadded 4 (0xdc00 + (c.toNat - 0x10000) % 0x400)) _ :=
      unit16_hexPadded (by omega)
    exact .pair (Nat.le_of_not_lt hc) hhigh hlow

/-- What is written for a character is one of its spellings. -/
theorem spells_escapeChar (ascii : Bool) (c : Char) : Spells (escapeChar ascii c) c := by
  unfold escapeChar
  split_ifs with hquote hslash hback htab hfeed hform hreturn hcode
  · subst hquote
    exact .short (by decide)
  · subst hslash
    exact .short (by decide)
  · subst hback
    exact .short (by decide)
  · subst htab
    exact .short (by decide)
  · subst hfeed
    exact .short (by decide)
  · subst hform
    exact .short (by decide)
  · subst hreturn
    exact .short (by decide)
  · exact spells_escapeCode c
  · have hcontrol : 0x20 ≤ c.toNat := by
      simp only [Bool.or_eq_true, decide_eq_true_eq, not_or, not_lt] at hcode
      exact hcode.1
    exact .plain hquote hslash hcontrol

theorem quoted_flatMap (ascii : Bool) (cs : List Char) :
    Quoted (cs.flatMap (escapeChar ascii)) cs := by
  induction cs with
  | nil => exact .nil
  | cons c rest ih => exact .cons (spells_escapeChar ascii c) ih

/-- A style that sets nothing but blanks around values, and commas between them. -/
structure Style.Regular (style : Style) : Prop where
  lineBreak : ∀ depth, Blanks (style.lineBreak depth)
  separator : ∃ gap, Blanks gap ∧ style.separator = ',' :: gap

theorem indented_regular : indented.Regular where
  lineBreak depth := by
    intro c hc
    rcases List.mem_cons.mp hc with rfl | hc
    · rfl
    · rw [List.eq_of_mem_replicate hc]
      rfl
  separator := ⟨[], by simp [Blanks], rfl⟩

theorem blanks_nil : Blanks [] := by simp [Blanks]

theorem Blanks.append {s t : List Char} (hs : Blanks s) (ht : Blanks t) : Blanks (s ++ t) := by
  intro c hc
  rcases List.mem_append.mp hc with hc | hc
  · exact hs c hc
  · exact ht c hc

/-- Parts with commas between them, when each part can be set between any blanks: the first one
stands behind the lead, every other one behind a comma and the given blanks. -/
theorem exists_separated {α β : Type} (whole : β → α) (chars : β → List Char)
    (text : α → List Char) (Fits : β → Prop) {gap tail : List Char} (hgap : Blanks gap)
    (htail : Blanks tail)
    (make : ∀ a before after, Blanks before → Blanks after →
      ∃ b, whole b = a ∧ Fits b ∧ chars b = before ++ text a ++ after)
    (a : α) (rest : List α) {lead : List Char} (hlead : Blanks lead) :
    ∃ bs : List β, bs.map whole = a :: rest ∧ (∀ b ∈ bs, Fits b) ∧
      List.intercalate [','] (bs.map chars) =
        lead ++ text a ++ rest.flatMap (fun a => ',' :: gap ++ text a) ++ tail := by
  induction rest generalizing a lead with
  | nil =>
    obtain ⟨b, hb, hfits, hchars⟩ := make a lead tail hlead htail
    exact ⟨[b], by simp [hb], by simpa using hfits, by simp [hchars]⟩
  | cons next rest ih =>
    obtain ⟨b, hb, hfits, hchars⟩ := make a lead [] hlead blanks_nil
    obtain ⟨bs, hbs, hall, hjoined⟩ := ih next hgap
    have hne : bs.map chars ≠ [] := by
      intro hnil
      rw [List.map_eq_nil_iff.mp hnil] at hbs
      cases hbs
    refine ⟨b :: bs, by rw [List.map_cons, hb, hbs], ?_, ?_⟩
    · intro x hx
      rcases List.mem_cons.mp hx with rfl | hx
      · exact hfits
      · exact hall x hx
    · rw [List.map_cons, List.intercalate_cons_of_ne_nil hne, hchars, hjoined]
      simp

def memberChars (style : Style) (depth : ℕ) (field : String × Value) : List Char :=
  stringChars style.ascii field.1 ++ ':' :: ' ' :: chars style depth field.2

section Printed
variable {style : Style}

theorem moreItems_eq (depth : ℕ) (items : List Value) :
    moreItems style depth items =
      items.flatMap fun v => style.separator ++ style.lineBreak depth ++ chars style depth v := by
  induction items with
  | nil => rfl
  | cons v rest ih => rw [moreItems, ih, List.flatMap_cons]

theorem moreFields_eq (depth : ℕ) (fields : Fields) :
    moreFields style depth fields =
      fields.flatMap fun f =>
        style.separator ++ style.lineBreak depth ++ memberChars style depth f := by
  induction fields with
  | nil => rfl
  | cons f rest ih =>
    obtain ⟨key, v⟩ := f
    rw [moreFields, ih, List.flatMap_cons, memberChars]
    simp

variable (hstyle : style.Regular)
include hstyle

theorem exists_items (depth : ℕ) (v : Value) (rest : List Value) :
    ∃ items : List Item, items.map Item.value = v :: rest ∧
      (∀ i ∈ items, i.Blank ∧ i.text = chars style (depth + 1) i.value) ∧
      chars style depth (.list (v :: rest)) = '[' :: itemChars items ++ [']'] := by
  obtain ⟨gap, hgap, hseparator⟩ := hstyle.separator
  obtain ⟨items, hvalues, hitems, hchars⟩ :=
    exists_separated Item.value Item.chars (chars style (depth + 1))
      (fun i => i.Blank ∧ i.text = chars style (depth + 1) i.value)
      (hgap.append (hstyle.lineBreak (depth + 1))) (hstyle.lineBreak depth)
      (fun v before after hbefore hafter =>
        ⟨⟨before, chars style (depth + 1) v, after, v⟩, rfl, ⟨⟨hbefore, hafter⟩, rfl⟩, rfl⟩)
      v rest (hstyle.lineBreak (depth + 1))
  refine ⟨items, hvalues, hitems, ?_⟩
  rw [itemChars, hchars, chars, moreItems_eq, hseparator]
  simp

theorem exists_fields (depth : ℕ) (field : String × Value) (rest : Fields) :
    ∃ fields : List Field, fields.map Field.pair = field :: rest ∧
      (∀ f ∈ fields, f.Blank ∧ Quoted f.spelling f.key ∧
        f.item.text = chars style (depth + 1) f.item.value) ∧
      chars style depth (.object (field :: rest)) = '\x7b' :: fieldChars fields ++ ['\x7d'] := by
  obtain ⟨gap, hgap, hseparator⟩ := hstyle.separator
  have hspace : Blanks [' '] := by simp [Blanks, isSpace]
  obtain ⟨fields, hpairs, hfields, hchars⟩ :=
    exists_separated Field.pair Field.chars (memberChars style (depth + 1))
      (fun f => f.Blank ∧ Quoted f.spelling f.key ∧
        f.item.text = chars style (depth + 1) f.item.value)
      (hgap.append (hstyle.lineBreak (depth + 1))) (hstyle.lineBreak depth)
      (fun field before after hbefore hafter => by
        obtain ⟨key, v⟩ := field
        refine ⟨⟨before, key.toList.flatMap (escapeChar style.ascii), [], key.toList,
          [' '], chars style (depth + 1) v, after, v⟩, ?_, ?_, ?_⟩
        · simp [Field.pair]
        · exact ⟨⟨hbefore, blanks_nil, hspace, hafter⟩, quoted_flatMap _ _, rfl⟩
        · simp [Field.chars, Item.chars, memberChars, stringChars])
      field rest (hstyle.lineBreak (depth + 1))
  refine ⟨fields, hpairs, hfields, ?_⟩
  obtain ⟨key, v⟩ := field
  rw [fieldChars, hchars, chars, moreFields_eq, hseparator]
  simp [memberChars]

/-- What is written for a tree denotes it. -/
theorem denotes_chars {v : Value} (hv : v.Tree) (depth : ℕ) :
    Denotes (chars style depth v) v := by
  -- The parts of a list or an object stand one level deeper, so the depth varies.
  induction hv generalizing depth with
  | null => exact .null
  | bool b =>
    cases b with
    | true => exact .yes
    | false => exact .no
  | int n => exact .int (numeral_intChars n)
  | string s =>
    have h := Denotes.string (quoted_flatMap style.ascii s.toList)
    rwa [String.ofList_toList] at h
  | @list values h ih =>
    cases values with
    | nil => exact .emptyList blanks_nil
    | cons v rest =>
      obtain ⟨items, hvalues, hitems, hchars⟩ := exists_items hstyle depth v rest
      have hne : items ≠ [] := by
        rintro rfl
        cases hvalues
      have hdenotes : ∀ i ∈ items, Denotes i.text i.value := by
        intro i hi
        have hmem : i.value ∈ v :: rest := hvalues ▸ List.mem_map_of_mem hi
        rw [(hitems i hi).2]
        exact ih i.value hmem (depth + 1)
      rw [hchars, ← hvalues]
      exact .list hne (fun i hi => (hitems i hi).1) hdenotes
  | @object pairs hkeys h ih =>
    cases pairs with
    | nil => exact .emptyObject blanks_nil
    | cons field rest =>
      obtain ⟨fields, hpairs, hfields, hchars⟩ := exists_fields hstyle depth field rest
      have hne : fields ≠ [] := by
        rintro rfl
        cases hpairs
      have hdenotes : ∀ f ∈ fields, Denotes f.item.text f.item.value := by
        intro f hf
        have hmem : f.pair ∈ field :: rest := hpairs ▸ List.mem_map_of_mem hf
        rw [(hfields f hf).2.2]
        exact ih f.pair hmem (depth + 1)
      have hdistinct : (fields.map fun f => f.pair.1).Nodup := by
        rw [← hpairs, List.map_map] at hkeys
        exact hkeys
      rw [hchars, ← hpairs]
      exact .object hne (fun f hf => (hfields f hf).1) hdistinct
        (fun f hf => (hfields f hf).2.1) hdenotes

/-- The text of a tree is a document. -/
theorem document_render {v : Value} (hv : v.Tree) : Document (render style v).toList v :=
  ⟨[], chars style 0 v, [], blanks_nil, blanks_nil, denotes_chars hstyle hv 0, by simp [render]⟩

end Printed

end Json

end RoverFleet
