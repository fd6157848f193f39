import RoverFleet.Proofs.Scalars

/-!
# Reading documents

The reader without a limit reads every text of the grammar as the tree that the text denotes, and
leaves what follows. So a document denotes one tree only.
-/
namespace RoverFleet.Json

/-- The reader takes the text, and no more of what follows. -/
def Reads (s : List Char) (v : Value) : Prop :=
  ∀ fuel rest, s.length ≤ fuel + 1 → Ends rest →
    readValue none (fuel + 1) (s ++ rest) = some (v, rest)

/-- The text of a tree starts with a character that is neither a blank nor a closing bracket. -/
theorem Denotes.head {s : List Char} {v : Value} (h : Denotes s v) :
    ∃ c t, s = c :: t ∧ isSpace c = false ∧ c ≠ ']' := by
  cases h with
  | null => exact ⟨'n', _, rfl, rfl, by decide⟩
  | yes => exact ⟨'t', _, rfl, rfl, by decide⟩
  | no => exact ⟨'f', _, rfl, rfl, by decide⟩
  | int h =>
    obtain ⟨c, t, rfl, hc⟩ := h.head
    have hspace : isSpace c = false := by
      have hblank : c ≠ ' ' := numeral_start_ne hc rfl (by decide)
      have htab : c ≠ '\t' := numeral_start_ne hc rfl (by decide)
      have hfeed : c ≠ '\n' := numeral_start_ne hc rfl (by decide)
      have hreturn : c ≠ '\r' := numeral_start_ne hc rfl (by decide)
      simp [isSpace, hblank, htab, hfeed, hreturn]
    exact ⟨c, t, rfl, hspace, numeral_start_ne hc rfl (by decide)⟩
  | string _ => exact ⟨'"', _, rfl, rfl, by decide⟩
  | emptyList _ => exact ⟨'[', _, rfl, rfl, by decide⟩
  | list _ _ _ => exact ⟨'[', _, rfl, rfl, by decide⟩
  | emptyObject _ => exact ⟨'\x7b', _, rfl, rfl, by decide⟩
  | object _ _ _ _ _ => exact ⟨'\x7b', _, rfl, rfl, by decide⟩

theorem Denotes.skipSpace_eq {s : List Char} {v : Value} (h : Denotes s v) (rest : List Char) :
    skipSpace (s ++ rest) = s ++ rest := by
  obtain ⟨c, t, rfl, hc, -⟩ := h.head
  exact skipSpace_cons hc (t ++ rest)

section Separated
variable {α β : Type} (chars : α → List Char)

theorem separated_start (a : α) (more : List α) (rest : List Char) :
    ∃ s, List.intercalate [','] ((a :: more).map chars) ++ rest = chars a ++ s := by
  cases more with
  | nil => exact ⟨rest, by simp⟩
  | cons b more =>
    exact ⟨',' :: (List.intercalate [','] ((b :: more).map chars) ++ rest),
      by simp [List.intercalate_cons_of_ne_nil]⟩

/-- A reader of parts that takes one part with the comma or the bracket behind it takes all parts,
when its fuel exceeds the length of their text. -/
theorem read_separated {chars : α → List Char} {read : ℕ → Reader (List β)} {whole : α → β}
    {close : Char} {Fits : α → Prop}
    (hlast : ∀ fuel a rest, Fits a → (chars a).length ≤ fuel →
      read (fuel + 1) (chars a ++ close :: rest) = some ([whole a], rest))
    (hnext : ∀ fuel a rest, Fits a → (chars a).length ≤ fuel →
      read (fuel + 1) (chars a ++ ',' :: rest) =
        (read fuel rest).map fun p => (whole a :: p.1, p.2))
    {as : List α} (hne : as ≠ []) (h : ∀ a ∈ as, Fits a) {fuel : ℕ}
    (hfuel : (List.intercalate [','] (as.map chars)).length < fuel) (rest : List Char) :
    read fuel (List.intercalate [','] (as.map chars) ++ close :: rest) =
      some (as.map whole, rest) := by
  -- Each part takes one step of the fuel; its comma is the character that pays for it.
  induction as generalizing fuel with
  | nil => exact absurd rfl hne
  | cons a more ih =>
    obtain ⟨fuel, rfl⟩ := Nat.exists_eq_succ_of_ne_zero (Nat.ne_of_gt (Nat.zero_lt_of_lt hfuel))
    have ha := h a List.mem_cons_self
    cases more with
    | nil =>
      rw [List.map_singleton, List.intercalate_singleton] at hfuel ⊢
      exact hlast fuel a rest ha (Nat.le_of_lt_succ hfuel)
    | cons b more =>
      have htext : List.intercalate [','] ((a :: b :: more).map chars) =
          chars a ++ ',' :: List.intercalate [','] ((b :: more).map chars) := by
        simp [List.intercalate_cons_of_ne_nil]
      rw [htext, List.length_append, List.length_cons] at hfuel
      have hrest : read fuel (List.intercalate [','] ((b :: more).map chars) ++ close :: rest) =
          some ((b :: more).map whole, rest) :=
        ih (List.cons_ne_nil b more) (fun c hc => h c (List.mem_cons_of_mem a hc)) (by omega)
      rw [htext, List.append_assoc, List.cons_append, hnext fuel a _ ha (by omega), hrest]
      rfl

end Separated

section Sequences
variable {limit : Option ℕ} {fuel : ℕ} {rest : List Char}

theorem readItems_skipSpace (s : List Char) :
    readItems limit fuel (skipSpace s) = readItems limit fuel s := by
  cases fuel with
  | zero => rfl
  | succ fuel => rw [readItems, readItems, skipSpace_skipSpace]

theorem readFields_skipSpace (s : List Char) :
    readFields limit fuel (skipSpace s) = readFields limit fuel s := by
  cases fuel with
  | zero => rfl
  | succ fuel => rw [readFields, readFields, skipSpace_skipSpace]

/-- The value of an item is read from behind the blanks in front of it, and what comes behind the
blanks after it is left. -/
theorem readValue_item {i : Item} (hb : i.Blank) (hd : Denotes i.text i.value)
    (h : Reads i.text i.value) (hfuel : i.chars.length ≤ fuel) (hr : Ends rest) :
    readValue none fuel (skipSpace (i.chars ++ rest)) = some (i.value, i.after ++ rest) := by
  have htext : i.chars ++ rest = i.before ++ (i.text ++ (i.after ++ rest)) := by
    simp [Item.chars]
  have hlen : i.text.length ≤ fuel := by
    simp only [Item.chars, List.length_append] at hfuel
    omega
  obtain ⟨fuel, rfl⟩ : ∃ k, fuel = k + 1 := by
    obtain ⟨c, t, hc, -, -⟩ := hd.head
    rw [hc, List.length_cons] at hlen
    exact Nat.exists_eq_succ_of_ne_zero (by omega)
  rw [htext, skipSpace_append hb.before, hd.skipSpace_eq]
  exact h fuel _ hlen (hr.of_blanks hb.after)

theorem readItems_last {i : Item} (hb : i.Blank) (hd : Denotes i.text i.value)
    (h : Reads i.text i.value) (hfuel : i.chars.length ≤ fuel) :
    readItems none (fuel + 1) (i.chars ++ ']' :: rest) = some ([i.value], rest) := by
  have hread := readValue_item hb hd h hfuel (ends_cons (s := rest) (Or.inr (Or.inl rfl)))
  have hnext : skipSpace (i.after ++ ']' :: rest) = ']' :: rest := by
    rw [skipSpace_append hb.after, skipSpace_cons rfl]
  simp [readItems, hread, hnext]

theorem readItems_next {i : Item} (hb : i.Blank) (hd : Denotes i.text i.value)
    (h : Reads i.text i.value) (hfuel : i.chars.length ≤ fuel) :
    readItems none (fuel + 1) (i.chars ++ ',' :: rest) =
      (readItems none fuel rest).map fun p => (i.value :: p.1, p.2) := by
  have hread := readValue_item hb hd h hfuel (ends_cons (s := rest) (Or.inl rfl))
  have hnext : skipSpace (i.after ++ ',' :: rest) = ',' :: rest := by
    rw [skipSpace_append hb.after, skipSpace_cons rfl]
  rw [readItems, hread]
  cases hmore : readItems none fuel rest <;> simp [hnext, hmore]

theorem readItems_itemChars {items : List Item} (hne : items ≠ [])
    (h : ∀ i ∈ items, i.Blank ∧ Denotes i.text i.value ∧ Reads i.text i.value)
    (hfuel : (itemChars items).length < fuel) :
    readItems none fuel (itemChars items ++ ']' :: rest) = some (items.map Item.value, rest) :=
  read_separated (fun _ _ _ hi hlen => readItems_last hi.1 hi.2.1 hi.2.2 hlen)
    (fun _ _ _ hi hlen => readItems_next hi.1 hi.2.1 hi.2.2 hlen) hne h hfuel rest

theorem itemChars_start {items : List Item} (hne : items ≠ []) (hb : ∀ i ∈ items, i.Blank)
    (hd : ∀ i ∈ items, Denotes i.text i.value) (rest : List Char) :
    ∃ c t, skipSpace (itemChars items ++ rest) = c :: t ∧ c ≠ ']' := by
  match items, hne with
  | i :: more, _ =>
    have hi := List.mem_cons_self (a := i) (l := more)
    obtain ⟨s, hs⟩ := separated_start Item.chars i more rest
    have htext : itemChars (i :: more) ++ rest = i.before ++ (i.text ++ (i.after ++ s)) := by
      simpa [itemChars, Item.chars] using hs
    obtain ⟨c, t, hc, -, hclose⟩ := (hd i hi).head
    refine ⟨c, t ++ (i.after ++ s), ?_, hclose⟩
    rw [htext, skipSpace_append (hb i hi).before, (hd i hi).skipSpace_eq, hc, List.cons_append]

/-- A field is read up to the value behind the colon. -/
theorem readField {f : Field} (hb : f.Blank) (hq : Quoted f.spelling f.key) (rest : List Char) :
    ∃ s, skipSpace (f.chars ++ rest) = '"' :: s ∧
      readString (s.length + 1) s = some (f.key, f.after ++ ':' :: (f.item.chars ++ rest)) ∧
      skipSpace (f.after ++ ':' :: (f.item.chars ++ rest)) = ':' :: (f.item.chars ++ rest) := by
  have htext : f.chars ++ rest = f.before ++
      '"' :: (f.spelling ++ '"' :: (f.after ++ ':' :: (f.item.chars ++ rest))) := by
    simp [Field.chars]
  refine ⟨f.spelling ++ '"' :: (f.after ++ ':' :: (f.item.chars ++ rest)), ?_, ?_, ?_⟩
  · rw [htext, skipSpace_append hb.before, skipSpace_cons rfl]
  · refine readString_quoted hq _ ?_
    rw [List.length_append]
    omega
  · rw [skipSpace_append hb.after, skipSpace_cons rfl]

theorem fieldChars_start {fields : List Field} (hne : fields ≠ []) (hb : ∀ f ∈ fields, f.Blank)
    (hq : ∀ f ∈ fields, Quoted f.spelling f.key) (rest : List Char) :
    ∃ t, skipSpace (fieldChars fields ++ rest) = '"' :: t := by
  match fields, hne with
  | f :: more, _ =>
    have hf := List.mem_cons_self (a := f) (l := more)
    obtain ⟨s, hs⟩ := separated_start Field.chars f more rest
    obtain ⟨t, hstart, -, -⟩ := readField (hb f hf) (hq f hf) s
    exact ⟨t, by rw [fieldChars, hs, hstart]⟩

theorem readValue_field {f : Field} (hb : f.Blank) (hd : Denotes f.item.text f.item.value)
    (h : Reads f.item.text f.item.value) (hfuel : f.chars.length ≤ fuel) (hr : Ends rest) :
    readValue none fuel (skipSpace (f.item.chars ++ rest)) =
      some (f.item.value, f.item.after ++ rest) := by
  have hlen : f.item.chars.length ≤ fuel := by
    simp only [Field.chars, List.length_append, List.length_cons] at hfuel
    omega
  exact readValue_item hb.item hd h hlen hr

section OneField
variable {f : Field} (hb : f.Blank) (hq : Quoted f.spelling f.key)
  (hd : Denotes f.item.text f.item.value) (h : Reads f.item.text f.item.value)
  (hfuel : f.chars.length ≤ fuel)
include hb hq hd h hfuel

theorem readFields_last :
    readFields none (fuel + 1) (f.chars ++ '\x7d' :: rest) = some ([f.pair], rest) := by
  obtain ⟨s, hstart, hkey, hcolon⟩ := readField hb hq ('\x7d' :: rest)
  have hread := readValue_field hb hd h hfuel (ends_cons (s := rest) (Or.inr (Or.inr rfl)))
  have hnext : skipSpace (f.item.after ++ '\x7d' :: rest) = '\x7d' :: rest := by
    rw [skipSpace_append hb.item.after, skipSpace_cons rfl]
  rw [readFields, hstart]
  simp [hkey, hcolon, hread, hnext, Field.pair]

theorem readFields_next :
    readFields none (fuel + 1) (f.chars ++ ',' :: rest) =
      (readFields none fuel rest).map fun p => (f.pair :: p.1, p.2) := by
  obtain ⟨s, hstart, hkey, hcolon⟩ := readField hb hq (',' :: rest)
  have hread := readValue_field hb hd h hfuel (ends_cons (s := rest) (Or.inl rfl))
  have hnext : skipSpace (f.item.after ++ ',' :: rest) = ',' :: rest := by
    rw [skipSpace_append hb.item.after, skipSpace_cons rfl]
  rw [readFields, hstart]
  cases hmore : readFields none fuel rest <;>
    simp [hkey, hcolon, hread, hnext, hmore, Field.pair]

end OneField

theorem readFields_fieldChars {fields : List Field} (hne : fields ≠ [])
    (h : ∀ f ∈ fields, f.Blank ∧ Quoted f.spelling f.key ∧ Denotes f.item.text f.item.value ∧
      Reads f.item.text f.item.value)
    (hfuel : (fieldChars fields).length < fuel) :
    readFields none fuel (fieldChars fields ++ '\x7d' :: rest) =
      some (fields.map Field.pair, rest) :=
  read_separated (fun _ _ _ hf hlen => readFields_last hf.1 hf.2.1 hf.2.2.1 hf.2.2.2 hlen)
    (fun _ _ _ hf hlen => readFields_next hf.1 hf.2.1 hf.2.2.1 hf.2.2.2 hlen) hne h hfuel rest

end Sequences

section Keys
variable {fields : Fields}

theorem put_of_notMem {key : String} (h : key ∉ fields.map Prod.fst) (v : Value) :
    Fields.put key v fields = fields ++ [(key, v)] := by
  induction fields with
  | nil => rfl
  | cons f rest ih =>
    rw [List.map_cons, List.mem_cons, not_or] at h
    rw [Fields.put, if_neg (Ne.symm h.1), ih h.2]
    rfl

/-- Fields with distinct keys are set one behind the other. -/
theorem foldl_put (done : Fields) (h : ((done ++ fields).map Prod.fst).Nodup) :
    fields.foldl (fun all f => Fields.put f.1 f.2 all) done = done ++ fields := by
  induction fields generalizing done with
  | nil => simp
  | cons f rest ih =>
    have hkey : f.1 ∉ done.map Prod.fst := by
      intro hmem
      rw [List.map_append, List.nodup_append] at h
      exact h.2.2 f.1 hmem f.1 (by simp) rfl
    have hrest := ih (done ++ [f]) (by simpa using h)
    rw [List.foldl_cons, put_of_notMem hkey, hrest]
    simp

end Keys

theorem readValue_list (limit : Option ℕ) (fuel : ℕ) {c : Char} {s t : List Char}
    (hs : skipSpace s = c :: t) (hc : c ≠ ']') :
    readValue limit (fuel + 1) ('[' :: s) =
      (readItems limit fuel s).map fun p => (.list p.1, p.2) := by
  rw [readValue]
  split
  · next heq => exact absurd (List.cons.inj (hs.symm.trans heq)).1 hc
  · rw [readItems_skipSpace]
    cases readItems limit fuel s <;> rfl

theorem readValue_object (limit : Option ℕ) (fuel : ℕ) {c : Char} {s t : List Char}
    (hs : skipSpace s = c :: t) (hc : c ≠ '\x7d') :
    readValue limit (fuel + 1) ('\x7b' :: s) =
      (readFields limit fuel s).map fun p =>
        (.object (p.1.foldl (fun all f => Fields.put f.1 f.2 all) []), p.2) := by
  rw [readValue]
  split
  · next heq => exact absurd (List.cons.inj (hs.symm.trans heq)).1 hc
  · rw [readFields_skipSpace]
    cases readFields limit fuel s <;> rfl

/-- The text of a tree is read as the tree. -/
theorem Denotes.reads {s : List Char} {v : Value} (h : Denotes s v) : Reads s v := by
  -- A bracket takes one step of the fuel and one character at least, so that what is left of the
  -- fuel is enough for the text between the brackets.
  induction h with
  | null => exact fun _ _ _ _ => rfl
  | yes => exact fun _ _ _ _ => rfl
  | no => exact fun _ _ _ _ => rfl
  | int h =>
    intro fuel rest hfuel hr
    obtain ⟨c, t, rfl, hc⟩ := h.head
    rw [List.cons_append, readValue_number none fuel hc]
    exact readNumber_numeral h hr
  | @string s cs h =>
    intro fuel rest hfuel hr
    have hread : readString ((s ++ '"' :: rest).length + 1) (s ++ '"' :: rest) = some (cs, rest) :=
      readString_quoted h rest (by rw [List.length_append]; omega)
    have htext : '"' :: s ++ ['"'] ++ rest = '"' :: (s ++ '"' :: rest) := by simp
    rw [htext, readValue, hread]
    rfl
  | @emptyList b hb =>
    intro fuel rest hfuel hr
    have htext : '[' :: b ++ [']'] ++ rest = '[' :: (b ++ ']' :: rest) := by simp
    rw [htext, readValue, skipSpace_append hb, skipSpace_cons rfl]
    rfl
  | @list items hne hb h ih =>
    intro fuel rest hfuel hr
    have htext : '[' :: itemChars items ++ [']'] ++ rest =
        '[' :: (itemChars items ++ ']' :: rest) := by simp
    have hlen : (itemChars items).length < fuel := by
      simp only [List.length_append, List.length_cons, List.length_nil] at hfuel
      omega
    have hread : readItems none fuel (itemChars items ++ ']' :: rest) =
        some (items.map Item.value, rest) :=
          readItems_itemChars hne (fun i hi => ⟨hb i hi, h i hi, ih i hi⟩) hlen
    obtain ⟨c, t, hstart, hc⟩ := itemChars_start hne hb h (']' :: rest)
    rw [htext, readValue_list none fuel hstart hc, hread]
    rfl
  | @emptyObject b hb =>
    intro fuel rest hfuel hr
    have htext : '\x7b' :: b ++ ['\x7d'] ++ rest = '\x7b' :: (b ++ '\x7d' :: rest) := by simp
    rw [htext, readValue, skipSpace_append hb, skipSpace_cons rfl]
    rfl
  | @object fields hne hb hkeys hq h ih =>
    intro fuel rest hfuel hr
    have htext : '\x7b' :: fieldChars fields ++ ['\x7d'] ++ rest =
        '\x7b' :: (fieldChars fields ++ '\x7d' :: rest) := by simp
    have hlen : (fieldChars fields).length < fuel := by
      simp only [List.length_append, List.length_cons, List.length_nil] at hfuel
      omega
    have hread : readFields none fuel (fieldChars fields ++ '\x7d' :: rest) =
        some (fields.map Field.pair, rest) :=
          readFields_fieldChars hne (fun f hf => ⟨hb f hf, hq f hf, h f hf, ih f hf⟩) hlen
    have hset : (fields.map Field.pair).foldl (fun all f => Fields.put f.1 f.2 all) [] =
        fields.map Field.pair := foldl_put [] (by rwa [List.nil_append, List.map_map])
    obtain ⟨t, hstart⟩ := fieldChars_start hne hb hq ('\x7d' :: rest)
    rw [htext, readValue_object none fuel hstart (by decide), hread, Option.map_some, hset]

section Documents
variable {s : List Char} {v : Value}

theorem skipSpace_blanks {b : List Char} (hb : Blanks b) : skipSpace b = [] := by
  have h := skipSpace_append hb []
  rwa [List.append_nil] at h

/-- A document is read as the tree that it denotes. -/
theorem Document.parseWithin (h : Document s v) :
    parseWithin? none (String.ofList s) = some v := by
  obtain ⟨before, text, after, hbefore, hafter, hd, rfl⟩ := h
  have hskip : skipSpace (before ++ text ++ after) = text ++ after := by
    rw [List.append_assoc, skipSpace_append hbefore, hd.skipSpace_eq]
  have hends : Ends after := by
    have h := ends_nil.of_blanks hafter
    rwa [List.append_nil] at h
  have hread := hd.reads (text ++ after).length after
    (by rw [List.length_append]; omega) hends
  simp only [parseWithin?, String.toList_ofList, hskip, hread, skipSpace_blanks hafter]
  rfl

/-- No document denotes two trees. -/
theorem Document.unique {w : Value} (hv : Document s v) (hw : Document s w) : v = w :=
  Option.some.inj (hv.parseWithin.symm.trans hw.parseWithin)

end Documents

end RoverFleet.Json
