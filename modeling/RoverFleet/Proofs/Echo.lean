import RoverFleet.Proofs.Width

/-!
# Reports that are printed as they are

The only control characters in the text of a success are line feeds, as JSON or from a console
without colours. So it holds no terminal sequence, and nothing of it is lost when it is printed.
-/
namespace RoverFleet
open Numeric

namespace Text
variable {s t sep : List Char}

/-- A text without control characters but those that JSON counts as blanks. -/
def Clean (s : List Char) : Prop := ∀ c ∈ s, Json.isSpace c = true ∨ 0x20 ≤ c.toNat

instance (s : List Char) : Decidable (Clean s) := List.decidableBAll _ s

theorem Shown.clean (h : Shown s) : Clean s := fun c hc => Or.inr (h c hc)

theorem clean_nil : Clean [] := by simp [Clean]

theorem clean_cons {c : Char} :
    Clean (c :: s) ↔ (Json.isSpace c = true ∨ 0x20 ≤ c.toNat) ∧ Clean s := List.forall_mem_cons

theorem clean_append : Clean (s ++ t) ↔ Clean s ∧ Clean t := List.forall_mem_append

theorem clean_intercalate (hsep : Clean sep) {l : List (List Char)} (h : ∀ s ∈ l, Clean s) :
    Clean (sep.intercalate l) := by
  induction l with
  | nil => exact clean_nil
  | cons s rest ih =>
    obtain ⟨hs, hrest⟩ := List.forall_mem_cons.mp h
    cases rest with
    | nil => rwa [List.intercalate_singleton]
    | cons t more =>
      rw [List.intercalate_cons_cons]
      exact clean_append.mpr ⟨clean_append.mpr ⟨hs, hsep⟩, ih hrest⟩

end Text

namespace Json
open Text

theorem Blanks.clean {s : List Char} (h : Blanks s) : Clean s := fun c hc => Or.inl (h c hc)

theorem Numeral.clean {s : List Char} {n : ℤ} (h : Numeral s n) : Clean s := by
  have hwhole {digits : List Char} (h : Whole digits) : Clean digits := by
    intro c hc
    have hdigit := Char.isDigit_iff_toNat.mp (h.digit c hc)
    simp only [Char.reduceToNat] at hdigit
    omega
  cases h with
  | natural h => exact hwhole h
  | negative h => exact clean_cons.mpr ⟨by decide, hwhole h⟩

theorem Unit16.clean {digits : List Char} {unit : ℕ} (h : Unit16 digits unit) : Clean digits := by
  intro c hc
  have hhex := h.digit c hc
  simp only [isHexDigit, Bool.or_eq_true, Bool.and_eq_true, decide_eq_true_eq, Char.le_def,
    Char.isDigit_iff_toNat, UInt32.le_iff_toNat_le] at hhex
  have hcode : c.val.toNat = c.toNat := rfl
  simp only [hcode, Char.reduceToNat] at hhex
  simp at hhex
  omega

theorem Spells.clean {s : List Char} {c : Char} (h : Spells s c) : Clean s := by
  have hslash : Clean ['\\', 'u'] := by decide
  cases h with
  | plain _ _ hcontrol => exact List.forall_mem_singleton.mpr (Or.inr hcontrol)
  | short h =>
    have hmarks : ∀ e ∈ shortEscapes, Clean ['\\', e.1] := by decide
    exact hmarks _ h
  | unit h => exact clean_append.mpr ⟨hslash, h.clean⟩
  | pair hc hhigh hlow =>
    exact clean_append.mpr ⟨clean_append.mpr ⟨hslash, hhigh.clean⟩,
      clean_append.mpr ⟨hslash, hlow.clean⟩⟩

theorem Quoted.clean {s cs : List Char} (h : Quoted s cs) : Clean s := by
  induction h with
  | nil => exact clean_nil
  | cons hc ht ih => exact clean_append.mpr ⟨hc.clean, ih⟩

theorem Item.clean {i : Item} (hb : i.Blank) (h : Clean i.text) : Clean i.chars :=
  clean_append.mpr ⟨clean_append.mpr ⟨hb.before.clean, h⟩, hb.after.clean⟩

theorem Field.clean {f : Field} (hb : f.Blank) (hq : Quoted f.spelling f.key)
    (h : Clean f.item.text) : Clean f.chars := by
  have hsign : Clean ['"'] ∧ Clean [':'] := by decide
  have hkey : Clean (f.before ++ '"' :: f.spelling) :=
    clean_append.mpr ⟨hb.before.clean, clean_append.mpr ⟨hsign.1, hq.clean⟩⟩
  have hkeyAfter : Clean (f.before ++ '"' :: f.spelling ++ '"' :: f.after) :=
    clean_append.mpr ⟨hkey, clean_append.mpr ⟨hsign.1, hb.after.clean⟩⟩
  exact clean_append.mpr ⟨hkeyAfter, clean_append.mpr ⟨hsign.2, Item.clean hb.item h⟩⟩

/-- The control characters of a document are blanks. -/
theorem Denotes.clean {s : List Char} {v : Value} (h : Denotes s v) : Clean s := by
  have hwrap {a b : Char} {t : List Char} (hab : Clean [a, b]) (ht : Clean t) :
      Clean (a :: t ++ [b]) := by
    obtain ⟨ha, hb⟩ := clean_cons.mp hab
    exact clean_append.mpr ⟨clean_cons.mpr ⟨ha, ht⟩, hb⟩
  induction h with
  | null => decide
  | yes => decide
  | no => decide
  | int h => exact h.clean
  | string h => exact hwrap (by decide) h.clean
  | emptyList hb => exact hwrap (by decide) hb.clean
  | list hne hb h ih =>
    refine hwrap (by decide) (clean_intercalate (by decide) fun t ht => ?_)
    obtain ⟨i, hi, rfl⟩ := List.mem_map.mp ht
    exact Item.clean (hb i hi) (ih i hi)
  | emptyObject hb => exact hwrap (by decide) hb.clean
  | object hne hb hkeys hq h ih =>
    refine hwrap (by decide) (clean_intercalate (by decide) fun t ht => ?_)
    obtain ⟨f, hf, rfl⟩ := List.mem_map.mp ht
    exact Field.clean (hb f hf) (hq f hf) (ih f hf)

theorem Document.clean {s : List Char} {v : Value} (h : Document s v) : Clean s := by
  obtain ⟨before, text, after, hbefore, hafter, htext, rfl⟩ := h
  exact clean_append.mpr ⟨clean_append.mpr ⟨hbefore.clean, htext.clean⟩, hafter.clean⟩

end Json

namespace Report
open Text Plateau

end Report

end RoverFleet
