import RoverFleet.Proofs.Form
import RoverFleet.Simulation

/-!
# Edits of layout and case

Blanks around lines and between words, blank lines around the script, carriage returns and the case
of headings and commands are edited without any effect: the form of the script stays, and with it
the outcome of its simulation.
-/
namespace RoverFleet

section Strip
variable {α : Type} {p : α → Bool} {a b : List α}

theorem rdropWhile_append_of_all (hb : ∀ x ∈ b, p x = true) (a : List α) :
    (a ++ b).rdropWhile p = a.rdropWhile p := by
  have hdrop : (b.reverse ++ a.reverse).dropWhile p = a.reverse.dropWhile p :=
    List.dropWhile_append_of_pos fun x hx => hb x (List.mem_reverse.mp hx)
  rw [List.rdropWhile, List.reverse_append, hdrop, List.rdropWhile]

/-- Dropping at both ends does not see what is dropped in front. -/
theorem strip_all_append (ha : ∀ x ∈ a, p x = true) (b : List α) :
    ((a ++ b).dropWhile p).rdropWhile p = (b.dropWhile p).rdropWhile p := by
  rw [List.dropWhile_append_of_pos ha]

theorem strip_append_all (hb : ∀ x ∈ b, p x = true) (a : List α) :
    ((a ++ b).dropWhile p).rdropWhile p = (a.dropWhile p).rdropWhile p := by
  rw [List.dropWhile_append]
  split
  · next ha =>
    have hnil : b.dropWhile p = [] := List.dropWhile_eq_nil_iff.mpr hb
    rw [hnil, List.isEmpty_iff.mp ha]
  · exact rdropWhile_append_of_all hb _

/-- Dropping at both ends stops at an element that stays. -/
theorem strip_around {x : α} (hx : p x = false) (a b : List α) :
    ((a ++ x :: b).dropWhile p).rdropWhile p = a.dropWhile p ++ x :: b.rdropWhile p := by
  have hfront : (a ++ x :: b).dropWhile p = a.dropWhile p ++ x :: b := by
    have hb : (x :: b).dropWhile p = x :: b := List.dropWhile_cons_of_neg (by simp [hx])
    rw [List.dropWhile_append, hb]
    split
    · next ha => rw [List.isEmpty_iff.mp ha, List.nil_append]
    · rfl
  have hback (c : List α) : (c ++ x :: b).rdropWhile p = c ++ x :: b.rdropWhile p := by
    have hc : (x :: c.reverse).dropWhile p = x :: c.reverse :=
      List.dropWhile_cons_of_neg (by simp [hx])
    rw [List.rdropWhile, List.reverse_append, List.reverse_cons, List.append_assoc,
      List.singleton_append, List.dropWhile_append, hc]
    split
    · next hb =>
      have hnil : b.rdropWhile p = [] := by
        rw [List.rdropWhile, List.isEmpty_iff.mp hb, List.reverse_nil]
      simp [hnil]
    · simp [List.rdropWhile]
  rw [hfront, hback]

end Strip

namespace Text
variable {c : Char} {a b u v gap : List Char}

theorem trim_padded (hu : ∀ c ∈ u, isBlank c = true) (hv : ∀ c ∈ v, isBlank c = true)
    (s : List Char) : trim isBlank (u ++ s ++ v) = trim isBlank s :=
  (strip_append_all hv (u ++ s)).trans (strip_all_append hu s)

theorem trim_around (hc : isBlank c = false) (a b : List Char) :
    trim isBlank (a ++ c :: b) = a.dropWhile isBlank ++ c :: b.rdropWhile isBlank :=
  strip_around hc a b

/-- Any blanks between two parts of a line divide its words in the same way. -/
theorem words_gap (hne : gap ≠ []) (hgap : ∀ c ∈ gap, isBlank c = true) (a b : List Char) :
    words (a ++ gap ++ b) = words a ++ words b := by
  cases gap with
  | nil => exact absurd rfl hne
  | cons c rest =>
    have hc : isBlank c = true := hgap c (by simp)
    have hrest : ∀ d ∈ rest, isBlank d = true := fun d hd => hgap d (by simp [hd])
    rw [List.append_assoc, List.cons_append, words_append_cons_blank hc, words_blanks_append hrest]

theorem words_solid_append {w : List Char} (hne : w ≠ []) (hw : ∀ c ∈ w, isBlank c = false)
    (s : List Char) : words (w ++ s) = (w ++ (wordSplit s).1) :: (wordSplit s).2 := by
  rw [words, wordSplit_append hw]
  exact consWord_of_ne (by simp [hne]) _

/-- A text is a solid end behind blanks, or behind nothing. -/
theorem exists_solid_end (s : List Char) : ∃ w, (∀ c ∈ w, isBlank c = false) ∧
    (s = w ∨ ∃ before gap, s = before ++ gap :: w ∧ isBlank gap = true) := by
  induction s with
  | nil => exact ⟨[], by simp, Or.inl rfl⟩
  | cons c rest ih =>
    obtain ⟨w, hw, rfl | ⟨before, gap, rfl, hgap⟩⟩ := ih
    · cases hc : isBlank c with
      | true => exact ⟨rest, hw, Or.inr ⟨[], c, rfl, hc⟩⟩
      | false => exact ⟨c :: rest, by simpa [hc] using hw, Or.inl rfl⟩
    · exact ⟨w, hw, Or.inr ⟨c :: before, gap, rfl, hgap⟩⟩

/-- The words before a letter, the two parts of the word that it stands in, and the words behind
do not depend on the letter. -/
theorem exists_words_around (a b : List Char) : ∃ ws w v vs, ∀ c, isBlank c = false →
    words (a ++ c :: b) = ws ++ (w ++ c :: v) :: vs ∧ words (a ++ [c]) = ws ++ [w ++ [c]] := by
  obtain ⟨w, hw, ha⟩ := exists_solid_end a
  have hend {c : Char} (hc : isBlank c = false) (s : List Char) :
      words (w ++ c :: s) = (w ++ c :: (wordSplit s).1) :: (wordSplit s).2 := by
    have hsolid : ∀ d ∈ w ++ [c], isBlank d = false := by
      intro d hd
      rcases List.mem_append.mp hd with hd | hd
      · exact hw d hd
      · rwa [List.mem_singleton.mp hd]
    have hsplit := words_solid_append (by simp) hsolid s
    simpa using hsplit
  rcases ha with rfl | ⟨before, gap, rfl, hgap⟩
  · refine ⟨[], a, (wordSplit b).1, (wordSplit b).2, fun c hc => ⟨?_, ?_⟩⟩
    · exact hend hc b
    · exact hend hc []
  · refine ⟨words before, w, (wordSplit b).1, (wordSplit b).2, fun c hc => ⟨?_, ?_⟩⟩
    · rw [List.append_assoc, List.cons_append, words_append_cons_blank hgap, hend hc]
    · rw [List.append_assoc, List.cons_append, words_append_cons_blank hgap, hend hc]
      rfl

/-- The same ASCII letter, in upper or in lower case. -/
def SameLetter (c d : Char) : Prop := c.isAlpha = true ∧ c.toLower = d.toLower

instance (c d : Char) : Decidable (SameLetter c d) := inferInstanceAs (Decidable (_ ∧ _))

theorem isAlpha_toNat (h : c.isAlpha = true) : 65 ≤ c.toNat ∧ c.toNat ≤ 122 := by
  simp only [Char.isAlpha, Char.isUpper, Char.isLower, Bool.or_eq_true, Bool.and_eq_true,
    decide_eq_true_eq, ge_iff_le, UInt32.le_iff_toNat_le] at h
  change (65 ≤ c.toNat ∧ c.toNat ≤ 90) ∨ 97 ≤ c.toNat ∧ c.toNat ≤ 122 at h
  omega

theorem isBlank_of_isAlpha (h : c.isAlpha = true) : isBlank c = false := by
  have hc := isAlpha_toNat h
  simp only [isBlank, inRanges, blanks, List.any_cons, List.any_nil, Bool.or_false,
    Bool.or_eq_false_iff, Bool.and_eq_false_imp, decide_eq_true_eq, decide_eq_false_iff_not, not_le]
  omega

theorem upperChar_of_isAlpha (h : c.isAlpha = true) : upperChar c = [c.toUpper] := by
  have hc := isAlpha_toNat h
  exact if_pos (by omega)

section Case
variable {d : Char} (h : SameLetter c d)
include h

theorem SameLetter.isAlpha : c.isAlpha = true ∧ d.isAlpha = true := by
  obtain ⟨hc, hcase⟩ := h
  have hd : d.isAlpha = c.isAlpha := by
    rw [← Char.isAlpha_toLower_eq_isAlpha d, ← hcase, Char.isAlpha_toLower_eq_isAlpha]
  exact ⟨hc, hd.trans hc⟩

theorem SameLetter.solid : isBlank c = false ∧ isBlank d = false :=
  ⟨isBlank_of_isAlpha h.isAlpha.1, isBlank_of_isAlpha h.isAlpha.2⟩

theorem SameLetter.upper_eq (a b : List Char) : upper (a ++ c :: b) = upper (a ++ d :: b) := by
  have hcase : c.toUpper = d.toUpper := by
    rw [← Char.toUpper_toLower_eq_toUpper c, h.2, Char.toUpper_toLower_eq_toUpper]
  simp only [upper, List.flatMap_append, List.flatMap_cons, upperChar_of_isAlpha h.isAlpha.1,
    upperChar_of_isAlpha h.isAlpha.2, hcase]

end Case

end Text

namespace Script
open Text

/-- The number of the line behind the given ones; blank lines at the start are not counted. -/
def lineNumber (before : List (List Char)) : ℕ :=
  (before.dropWhile fun l => l.all isBlank).length + 1

/-- One edit that neither adds nor removes a word. -/
inductive Edit (text text' : List Char) : Prop
  /-- Blanks are added at the ends of a line. -/
  | ends (before after : List (List Char)) (line u v : List Char)
      (hu : ∀ c ∈ u, isBlank c = true) (hv : ∀ c ∈ v, isBlank c = true)
      (hfrom : Text.lines text = before ++ line :: after)
      (hto : Text.lines text' = before ++ (u ++ line ++ v) :: after)
  /-- Blanks between two parts of a plateau or position line give way to others. -/
  | gap (before after : List (List Char)) (a b gap gap' : List Char)
      (hline : lineNumber before = 1 ∨ lineNumber before % 2 = 0)
      (hne : gap ≠ []) (hgap : ∀ c ∈ gap, isBlank c = true)
      (hne' : gap' ≠ []) (hgap' : ∀ c ∈ gap', isBlank c = true)
      (hfrom : Text.lines text = before ++ (a ++ gap ++ b) :: after)
      (hto : Text.lines text' = before ++ (a ++ gap' ++ b) :: after)
  /-- A blank line is added, with nothing but blank lines before it or behind it. -/
  | blankLine (before after : List (List Char)) (line : List Char)
      (hline : ∀ c ∈ line, isBlank c = true)
      (hends : (∀ l ∈ before, ∀ c ∈ l, isBlank c = true) ∨
        ∀ l ∈ after, ∀ c ∈ l, isBlank c = true)
      (hfrom : Text.lines text = before ++ after)
      (hto : Text.lines text' = before ++ line :: after)
  /-- A line feed gets a carriage return in front. -/
  | lineEnd (s t : List Char) (hfrom : text = s ++ '\n' :: t)
      (hto : text' = s ++ '\r' :: '\n' :: t)
  /-- A letter in the third word of a position line changes its case. -/
  | heading (before after : List (List Char)) (a b : List Char) (c d : Char)
      (hline : lineNumber before % 2 = 0) (hthird : (words (a ++ [c])).length = 3)
      (hcase : SameLetter c d)
      (hfrom : Text.lines text = before ++ (a ++ c :: b) :: after)
      (hto : Text.lines text' = before ++ (a ++ d :: b) :: after)
  /-- A letter in a commands line changes its case. -/
  | command (before after : List (List Char)) (a b : List Char) (c d : Char)
      (hline : lineNumber before % 2 = 1) (hone : lineNumber before ≠ 1)
      (hcase : SameLetter c d)
      (hfrom : Text.lines text = before ++ (a ++ c :: b) :: after)
      (hto : Text.lines text' = before ++ (a ++ d :: b) :: after)

variable {text text' : List Char}

theorem bare_replicate (n : ℕ) : bare (List.replicate n []) = [] := by
  have hall : ∀ l ∈ List.replicate n ([] : List Char), l.isEmpty = true := by
    intro l hl
    rw [List.eq_of_mem_replicate hl]
    rfl
  rw [bare, List.dropWhile_eq_nil_iff.mpr hall]
  rfl

/-- The lines of a script depend on the trimmed lines that are not empty ones at the ends; where
there are none, the script is one empty line. -/
theorem lines_eq (text : List Char) :
    lines text = if bare (trimmedLines text) = [] then [[]] else bare (trimmedLines text) := by
  by_cases h : trim isBlank text = []
  · obtain ⟨m, n, hmn⟩ := trimmedLines_lines text
    have hlines : lines text = [[]] := by rw [lines, h]; rfl
    have hbare : bare (trimmedLines text) = [] := by
      rw [hmn, hlines, ← List.replicate_one, List.replicate_append_replicate,
        List.replicate_append_replicate]
      exact bare_replicate _
    rw [if_pos hbare, hlines]
  · have hbare := lines_eq_bare h
    have hne : bare (trimmedLines text) ≠ [] := hbare ▸ lines_ne_nil text
    rw [if_neg hne, hbare]

theorem lines_of_bare_eq (h : bare (trimmedLines text) = bare (trimmedLines text')) :
    lines text = lines text' := by
  rw [lines_eq, lines_eq text', h]

theorem forms_around (k : ℕ) (before after : List (List Char)) (line : List Char) :
    forms k (before ++ line :: after) =
      forms k before ++ form (k + before.length) line :: forms (k + before.length + 1) after := by
  induction before generalizing k with
  | nil => rfl
  | cons l rest ih =>
    have hlen : k + 1 + rest.length = k + (rest.length + 1) := by omega
    simp only [List.cons_append, forms, ih, List.length_cons, hlen]

/-- A line that is replaced by one of the same form leaves the forms of the script. -/
theorem forms_of_line_eq {before after : List (List Char)} {line line' : List Char}
    (hfrom : Text.lines text = before ++ line :: after)
    (hto : Text.lines text' = before ++ line' :: after)
    (h : form (lineNumber before) (trim isBlank line) =
      form (lineNumber before) (trim isBlank line')) :
    forms 1 (lines text) = forms 1 (lines text') := by
  have htrimmed : trimmedLines text =
      before.map (trim isBlank) ++ trim isBlank line :: after.map (trim isBlank) := by
    rw [trimmedLines, hfrom, List.map_append, List.map_cons]
  have htrimmed' : trimmedLines text' =
      before.map (trim isBlank) ++ trim isBlank line' :: after.map (trim isBlank) := by
    rw [trimmedLines, hto, List.map_append, List.map_cons]
  by_cases hempty : trim isBlank line = []
  · have hempty' : trim isBlank line' = [] := nil_of_form_eq (hempty ▸ h)
    have hlines : lines text = lines text' :=
      lines_of_bare_eq (by rw [htrimmed, htrimmed', hempty, hempty'])
    rw [hlines]
  · have hempty' : trim isBlank line' ≠ [] := ne_nil_of_form_eq h hempty
    have hbare (l : List Char) (hl : l ≠ []) := strip_around (p := List.isEmpty)
      (List.isEmpty_eq_false_iff.mpr hl) (before.map (trim isBlank)) (after.map (trim isBlank))
    have hlen : ((before.map (trim isBlank)).dropWhile List.isEmpty).length + 1 =
        lineNumber before := by
      have hblank : (List.isEmpty ∘ trim isBlank) = fun l => l.all isBlank := by
        funext l
        rw [Bool.eq_iff_iff, Function.comp_apply, List.isEmpty_iff, trim_eq_nil_iff,
          List.all_eq_true]
      rw [List.dropWhile_map, hblank, List.length_map, lineNumber]
    rw [lines_eq, lines_eq text', htrimmed, htrimmed', bare, bare, hbare _ hempty,
      hbare _ hempty', if_neg (by simp), if_neg (by simp), forms_around, forms_around,
      Nat.add_comm 1, hlen, h]

theorem form_of_words_eq {k : ℕ} {a b : List Char} (hk : k = 1 ∨ k % 2 = 0)
    (hnil : a = [] ↔ b = []) (h : words a = words b) : form k a = form k b := by
  by_cases ha : a = []
  · rw [ha, hnil.mp ha]
  · have hb : b ≠ [] := fun hb => ha (hnil.mpr hb)
    rcases hk with rfl | hk
    · rw [form_plateau ha, form_plateau hb, h]
    · rw [form_position hk ha, form_position hk hb, h]

theorem form_gap {k : ℕ} {a b gap gap' : List Char} (hk : k = 1 ∨ k % 2 = 0)
    (hne : gap ≠ []) (hgap : ∀ c ∈ gap, isBlank c = true)
    (hne' : gap' ≠ []) (hgap' : ∀ c ∈ gap', isBlank c = true) :
    form k (trim isBlank (a ++ gap ++ b)) = form k (trim isBlank (a ++ gap' ++ b)) := by
  have hnil {g : List Char} (hg : ∀ c ∈ g, isBlank c = true) :
      trim isBlank (a ++ g ++ b) = [] ↔ ∀ c ∈ a ++ b, isBlank c = true := by
    rw [trim_eq_nil_iff]
    simp only [List.mem_append, or_imp, forall_and]
    tauto
  have hwords : words (a ++ gap ++ b) = words (a ++ gap' ++ b) := by
    rw [words_gap hne hgap, words_gap hne' hgap']
  refine form_of_words_eq hk ((hnil hgap).trans (hnil hgap').symm) ?_
  rw [words_trim, words_trim, hwords]

section Case
variable {k : ℕ} {a b : List Char} {c d : Char} (h : SameLetter c d)
include h

theorem trim_letter : trim isBlank (a ++ c :: b) ≠ [] ∧ trim isBlank (a ++ d :: b) ≠ [] := by
  rw [trim_around h.solid.1, trim_around h.solid.2]
  simp

theorem form_heading (hk : k % 2 = 0) (hthird : (words (a ++ [c])).length = 3) :
    form k (trim isBlank (a ++ c :: b)) = form k (trim isBlank (a ++ d :: b)) := by
  obtain ⟨ws, w, v, vs, haround⟩ := exists_words_around a b
  obtain ⟨hc, hend⟩ := haround c h.solid.1
  obtain ⟨hd, -⟩ := haround d h.solid.2
  have htwo : ws.length = 2 := by
    rw [hend, List.length_append, List.length_singleton] at hthird
    omega
  have hheaded (u : List Char) : headed (ws ++ u :: vs) = ws ++ upper u :: vs.map upper := by
    rw [headed, ← htwo, List.take_left, List.drop_left, List.map_cons]
  rw [form_position hk (trim_letter h).1, form_position hk (trim_letter h).2, words_trim,
    words_trim, hc, hd, hheaded, hheaded, h.upper_eq]

theorem form_command (hk : k % 2 = 1) (hone : k ≠ 1) :
    form k (trim isBlank (a ++ c :: b)) = form k (trim isBlank (a ++ d :: b)) := by
  rw [form_commands hk hone (trim_letter h).1, form_commands hk hone (trim_letter h).2,
    trim_around h.solid.1, trim_around h.solid.2, h.upper_eq]

end Case

theorem bare_blankLine {before after : List (List Char)} {line : List Char}
    (hline : ∀ c ∈ line, isBlank c = true)
    (hends : (∀ l ∈ before, ∀ c ∈ l, isBlank c = true) ∨
      ∀ l ∈ after, ∀ c ∈ l, isBlank c = true) :
    bare ((before ++ line :: after).map (trim isBlank)) =
      bare ((before ++ after).map (trim isBlank)) := by
  have hempty {ls : List (List Char)} (hls : ∀ l ∈ ls, ∀ c ∈ l, isBlank c = true) :
      ∀ l ∈ ls.map (trim isBlank), l.isEmpty = true := by
    intro l hl
    obtain ⟨l, hmem, rfl⟩ := List.mem_map.mp hl
    exact List.isEmpty_iff.mpr (trim_eq_nil_iff.mpr (hls l hmem))
  rcases hends with hbefore | hafter
  · have hfront : ∀ l ∈ before ++ [line], ∀ c ∈ l, isBlank c = true := by
      intro l hl
      rcases List.mem_append.mp hl with hl | hl
      · exact hbefore l hl
      · exact List.mem_singleton.mp hl ▸ hline
    have hdropped {ls : List (List Char)} (hls : ∀ l ∈ ls, ∀ c ∈ l, isBlank c = true) :
        bare ((ls ++ after).map (trim isBlank)) = bare (after.map (trim isBlank)) := by
      rw [List.map_append]
      exact strip_all_append (hempty hls) _
    rw [List.append_cons, hdropped hfront, hdropped hbefore]
  · have hback : ∀ l ∈ line :: after, ∀ c ∈ l, isBlank c = true := by
      intro l hl
      rcases List.mem_cons.mp hl with rfl | hl
      · exact hline
      · exact hafter l hl
    have hdropped {ls : List (List Char)} (hls : ∀ l ∈ ls, ∀ c ∈ l, isBlank c = true) :
        bare ((before ++ ls).map (trim isBlank)) = bare (before.map (trim isBlank)) := by
      rw [List.map_append]
      exact strip_append_all (hempty hls) _
    rw [hdropped hback, hdropped hafter]

theorem trimmedLines_lineEnd (s t : List Char) :
    trimmedLines (s ++ '\r' :: '\n' :: t) = trimmedLines (s ++ '\n' :: t) := by
  obtain ⟨before, last, hs, hreturn⟩ := lines_concat (c := '\r') (by decide) s
  have hlast : trim isBlank (last ++ ['\r']) = trim isBlank last := trim_concat_blank rfl last
  rw [List.append_cons, trimmedLines, trimmedLines, lines_append_feed, lines_append_feed, hreturn,
    hs]
  simp only [List.map_append, List.map_cons, hlast]

/-- Every edit leaves the forms of the script. -/
theorem Edit.forms_eq (h : Edit text text') : forms 1 (lines text) = forms 1 (lines text') := by
  cases h with
  | ends before after line u v hu hv hfrom hto =>
    refine forms_of_line_eq hfrom hto ?_
    rw [trim_padded hu hv]
  | gap before after a b gap gap' hline hne hgap hne' hgap' hfrom hto =>
    exact forms_of_line_eq hfrom hto (form_gap hline hne hgap hne' hgap')
  | blankLine before after line hline hends hfrom hto =>
    have hbare : bare (trimmedLines text) = bare (trimmedLines text') := by
      rw [trimmedLines, trimmedLines, hfrom, hto, bare_blankLine hline hends]
    rw [lines_of_bare_eq hbare]
  | lineEnd s t hfrom hto =>
    subst hfrom hto
    rw [lines_of_bare_eq (congrArg bare (trimmedLines_lineEnd s t).symm)]
  | heading before after a b c d hline hthird hcase hfrom hto =>
    exact forms_of_line_eq hfrom hto (form_heading hcase hline hthird)
  | command before after a b c d hline hone hcase hfrom hto =>
    exact forms_of_line_eq hfrom hto (form_command hcase hline hone)

theorem Edit.run_eq (h : Edit text text') : run text = run text' :=
  runLines_of_forms_eq h.forms_eq

end Script

namespace Simulation
open Script

/-- Edits of layout and case, made and undone in any number, change nothing of a simulation: not its
report or the digit limit that ends it, and not its journal. -/
theorem ofText_edited {text text' : List Char} (h : Relation.EqvGen Edit text text')
    (source : Option String) : ofText text source = ofText text' source := by
  induction h with
  | rel a b hedit => rw [ofText, ofText, hedit.run_eq]
  | refl a => rfl
  | symm a b _ ih => exact ih.symm
  | trans a b c _ _ ih ih' => exact ih.trans ih'

/-- A script that fails at its commands, first with a blank line in front, then laid out anew and
in other letters. -/
theorem ofText_edited_wrong_command :
    let text := "\n5 5\n1 2 N\nLX".toList
    let text' := "5\t 5\r\n1 2 n\nlX\u3000".toList
    let fault := Fault.ofFlaw 3 (.command 1 'X')
    Relation.EqvGen Edit text text' ∧
      (ofText text none).result = .ok (failure fault none) ∧
      ofText text none = ofText text' none := by
  intro text text' fault
  have hbare : Edit "5 5\n1 2 N\nLX".toList text :=
    .blankLine [] _ [] (by simp) (Or.inl (by simp)) rfl rfl
  have hgap : Edit "5 5\n1 2 N\nLX".toList "5\t 5\n1 2 N\nLX".toList :=
    .gap [] _ ['5'] ['5'] [' '] ['\t', ' '] (Or.inl rfl) (by simp) (List.all_eq_true.mp rfl)
      (by simp) (List.all_eq_true.mp rfl) rfl rfl
  have hheading : Edit "5\t 5\n1 2 N\nLX".toList "5\t 5\n1 2 n\nLX".toList :=
    .heading ["5\t 5".toList] _ "1 2 ".toList [] 'N' 'n' (by decide) (by decide) (by decide) rfl rfl
  have hcommand : Edit "5\t 5\n1 2 n\nLX".toList "5\t 5\n1 2 n\nlX".toList :=
    .command ["5\t 5".toList, "1 2 n".toList] _ [] ['X'] 'L' 'l' (by decide) (by decide) (by decide)
      rfl rfl
  have hreturn : Edit "5\t 5\n1 2 n\nlX".toList "5\t 5\r\n1 2 n\nlX".toList :=
    .lineEnd "5\t 5".toList _ rfl rfl
  have hend : Edit "5\t 5\r\n1 2 n\nlX".toList text' :=
    .ends ["5\t 5\r".toList, "1 2 n".toList] [] "lX".toList [] ['\u3000'] (by simp)
      (List.all_eq_true.mp rfl) rfl rfl
  have hedited : Relation.EqvGen Edit text text' :=
    (.trans _ _ _ (.symm _ _ (.rel _ _ hbare)) (.trans _ _ _ (.rel _ _ hgap)
      (.trans _ _ _ (.rel _ _ hheading) (.trans _ _ _ (.rel _ _ hcommand)
        (.trans _ _ _ (.rel _ _ hreturn) (.rel _ _ hend))))))
  exact ⟨hedited, rfl, ofText_edited hedited none⟩

end Simulation

end RoverFleet
