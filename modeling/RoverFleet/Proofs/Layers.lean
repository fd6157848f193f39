import Mathlib
import RoverFleet.Settings.Variables

/-!
# Looking fields up in layers

What the fields of an upper layer make of those below them, key by key: a field that the upper
layer has counts, and below a section both layers' keys do. Of several fields of one key the first
is looked up and the last one is set.
-/
namespace RoverFleet.Fields
variable {fields upper lower : Fields} {k key : String} {v w : Value}

def keys (fields : Fields) : List String := fields.map Prod.fst

theorem lookup_cons (f : String × Value) (fields : Fields) (k : String) :
    (f :: fields).lookup k = if k = f.1 then some f.2 else fields.lookup k := by
  rw [List.lookup_cons]
  split_ifs with hk
  · simp [hk]
  · rw [beq_eq_false_iff_ne.mpr hk]

theorem lookup_put (key : String) (v : Value) (fields : Fields) (k : String) :
    (put key v fields).lookup k = if k = key then some v else fields.lookup k := by
  induction fields with
  | nil => exact lookup_cons (key, v) [] k
  | cons f rest ih =>
    rw [put]
    split_ifs with hname hk hk
    · rw [lookup_cons, if_pos (hk.trans hname.symm)]
    · rw [lookup_cons, lookup_cons, if_neg (hname ▸ hk), if_neg (hname ▸ hk)]
    · rw [lookup_cons, if_neg (fun h => hname (h.symm.trans hk)), ih, if_pos hk]
    · rw [lookup_cons, lookup_cons, ih, if_neg hk]

theorem mem_keys_put : k ∈ (put key v fields).keys ↔ k = key ∨ k ∈ fields.keys := by
  induction fields with
  | nil => simp [put, keys]
  | cons f rest ih =>
    rw [put]
    split_ifs with hname
    · simp only [keys, List.map_cons, List.mem_cons, hname]
      tauto
    · simp only [keys, List.map_cons, List.mem_cons] at ih ⊢
      rw [ih]
      tauto

theorem nodup_put (h : fields.keys.Nodup) : (put key v fields).keys.Nodup := by
  induction fields with
  | nil => simp [put, keys]
  | cons f rest ih =>
    obtain ⟨hf, hrest⟩ := List.nodup_cons.mp h
    rw [put]
    split_ifs with hname
    · exact h
    · refine List.nodup_cons.mpr ⟨fun hmem => ?_, ih hrest⟩
      exact (mem_keys_put.mp hmem).elim hname hf

theorem lookup_isSome_iff : (fields.lookup k).isSome ↔ k ∈ fields.keys := by
  induction fields with
  | nil => simp [keys]
  | cons f rest ih =>
    rw [lookup_cons, keys, List.map_cons, List.mem_cons, ← keys, ← ih]
    split_ifs with hk <;> simp [hk]

theorem lookup_eq_none (h : k ∉ fields.keys) : fields.lookup k = none := by
  rw [← Option.not_isSome_iff_eq_none, lookup_isSome_iff]
  exact h

theorem has_eq_isSome (fields : Fields) (k : String) : fields.has k = (fields.lookup k).isSome := by
  rw [Bool.eq_iff_iff, lookup_isSome_iff]
  simp [has, keys]

section OfNames
variable {names : List String} {f : String → Option Value}

/-- The fields of those names that have a value. -/
def ofNames (names : List String) (f : String → Option Value) : Fields :=
  names.filterMap fun name => (f name).map (name, ·)

theorem keys_ofNames (names : List String) (f : String → Option Value) :
    (ofNames names f).keys = names.filter fun name => (f name).isSome := by
  induction names with
  | nil => rfl
  | cons name rest ih =>
    rw [ofNames, List.filterMap_cons, List.filter_cons]
    cases hf : f name with
    | none => exact ih
    | some v => exact congrArg (name :: ·) ih

theorem lookup_ofNames (h : k ∈ names) : (ofNames names f).lookup k = f k := by
  induction names with
  | nil => cases h
  | cons name rest ih =>
    rw [ofNames, List.filterMap_cons]
    by_cases hk : k = name
    · subst hk
      cases hf : f k with
      | none =>
        rw [Option.map_none]
        dsimp only
        refine lookup_eq_none fun hmem => ?_
        rw [← ofNames, keys_ofNames] at hmem
        simpa [hf] using (List.mem_filter.mp hmem).2
      | some v => exact (lookup_cons _ _ _).trans (if_pos rfl)
    · have hrest := ih ((List.mem_cons.mp h).resolve_left hk)
      cases hf : f name with
      | none => exact hrest
      | some v => exact ((lookup_cons _ _ _).trans (if_neg hk)).trans hrest

end OfNames

section PutAll

/-- The value of the last field of a key. -/
def last? (fields : Fields) (k : String) : Option Value := fields.reverse.lookup k

theorem last?_cons (f : String × Value) (fields : Fields) (k : String) :
    last? (f :: fields) k = (last? fields k).or (if k = f.1 then some f.2 else none) := by
  rw [last?, List.reverse_cons, List.lookup_append, lookup_cons]
  rfl

theorem last?_eq_lookup (h : fields.keys.Nodup) (k : String) :
    fields.last? k = fields.lookup k := by
  induction fields with
  | nil => rfl
  | cons f rest ih =>
    obtain ⟨hf, hrest⟩ := List.nodup_cons.mp h
    rw [last?_cons, ih hrest, lookup_cons]
    split_ifs with hk
    · rw [hk, lookup_eq_none hf, Option.none_or]
    · exact Option.or_none

theorem lookup_putAll (upper lower : Fields) (k : String) :
    (putAll upper lower).lookup k = (upper.last? k).or (lower.lookup k) := by
  induction upper generalizing lower with
  | nil => rfl
  | cons f rest ih =>
    rw [putAll, List.foldl_cons, ← putAll, ih, lookup_put, last?_cons, Option.or_assoc]
    split_ifs <;> rfl

theorem nodup_putAll (h : lower.keys.Nodup) : (putAll upper lower).keys.Nodup := by
  induction upper generalizing lower with
  | nil => exact h
  | cons f rest ih => exact ih (nodup_put h)

end PutAll

section Overlay

theorem lookup_overlay (h : upper.keys.Nodup) (lower : Fields) (k : String) :
    (overlay upper lower).lookup k =
      ((upper.lookup k).map (cover · (lower.lookup k))).or (lower.lookup k) := by
  induction upper generalizing lower with
  | nil => rfl
  | cons f rest ih =>
    obtain ⟨hf, hrest⟩ := List.nodup_cons.mp h
    rw [overlay, List.foldl_cons, ← overlay, ih hrest, lookup_put, lookup_cons]
    split_ifs with hk
    · rw [hk, lookup_eq_none hf]
      rfl
    · rfl

end Overlay

end RoverFleet.Fields
