import RoverFleet.Proofs.Agreement

/-!
# The width of a page

A console that wraps no lines may still take blanks off their ends, which depends on the width of
the page. Where no line ends in a blank, a page that has columns bears the same text whatever its
width is. A page of negative width bears none.
-/
namespace RoverFleet

/-- A page without columns. -/
def Format.NoPage (width : Option ℤ) : Prop := ∃ n ∈ width, n < 0

theorem Format.pageWidth_lt_iff (width : Option ℤ) : pageWidth width < 1 ↔ NoPage width := by
  cases width with
  | none => simp [pageWidth, NoPage]
  | some n =>
    have hsome : NoPage (some n) ↔ n < 0 := by simp [NoPage]
    rw [hsome, pageWidth]
    split_ifs <;> omega

namespace Report
open Format

section Printing
variable {c : Console} (hc : c.Lawful) {width : ℤ} {lines : List Line}
include hc

theorem printLines_narrow (hwidth : width < 1) (lines : List Line) :
    printLines c width lines = "" := by
  have hnothing : (lines.map (c width)).flatMap String.toList = [] := by
    simp [hc.narrow width _ hwidth]
  rw [printLines, String.toList_join, hnothing]
  rfl

theorem printLines_soft {v w : ℤ} (hv : 1 ≤ v) (hw : 1 ≤ w) (hsoft : ∀ l ∈ lines, l.IsSoft) :
    printLines c v lines = printLines c w lines := by
  have hsame : lines.map (c v) = lines.map (c w) :=
    List.map_congr_left fun l hl => hc.soft v w l hv hw (hsoft l hl)
  rw [printLines, printLines, hsame]

end Printing

/-- The lines of the report for people are soft. -/
def Soft (r : Report) (verbose : Bool) : Prop :=
  ∀ lines, r.textLines verbose = .ok lines → ∀ l ∈ lines, l.IsSoft

/-- Rovers that went well are shown on soft lines. -/
theorem soft_success {p : Plateau} (hp : p.Orderly) (source : Option String) (verbose : Bool) :
    (Simulation.success p source).Soft verbose := by
  intro lines hlines l hl
  obtain ⟨ws, hrow⟩ := textLines_rows hp hlines l.text (List.mem_map_of_mem hl)
  exact (isPlain_of_row hrow).isSoft

/-- The text for people at any width, from the one at the usual width. -/
theorem format_of_width {c : Console} (hc : c.Lawful) (r : Report) (verbose : Bool)
    (width : Option ℤ) :
    (NoPage width → r.format c { verbose, width } = (r.format c { verbose }).map fun _ => "") ∧
      (¬ NoPage width → r.Soft verbose →
        r.format c { verbose, width } = r.format c { verbose }) := by
  have husual : 1 ≤ pageWidth none := by decide
  cases hlines : r.textLines verbose with
  | error m =>
    have herror (w : Option ℤ) : r.format c { verbose, width := w } = .error m := by
      simp [format, hlines, bind, Except.bind]
    simp [herror, Except.map]
  | ok lines =>
    rw [format_of_lines hlines, format_of_lines hlines]
    refine ⟨fun hnarrow => ?_, fun hpage hsoft => ?_⟩
    · rw [printLines_narrow hc ((pageWidth_lt_iff width).mpr hnarrow)]
      rfl
    · have hwide : 1 ≤ pageWidth width :=
        Int.not_lt.mp fun h => hpage ((pageWidth_lt_iff width).mp h)
      rw [printLines_soft hc hwide husual (hsoft lines hlines)]

/-- Two widths give the same error, or none; and they give the same text of soft lines exactly when
both are negative or none is, or when there is no text to be lost. The lines of a success are
soft. -/
theorem format_width_iff {c : Console} (hc : c.Lawful) (r : Report) (verbose : Bool)
    (v w : Option ℤ) :
    (∀ m, r.format c { verbose, width := v } = .error m ↔
      r.format c { verbose, width := w } = .error m) ∧
    (r.Soft verbose → (r.format c { verbose, width := v } = r.format c { verbose, width := w } ↔
      (NoPage v ↔ NoPage w) ∨ ∀ text, r.format c { verbose } = .ok text → text = "")) ∧
    ∀ p source, p.Orderly → r = Simulation.success p source → r.Soft verbose := by
  refine ⟨fun m => ?_, fun hsoft => ?_, fun p source hp hr => hr ▸ soft_success hp source verbose⟩
  · cases hlines : r.textLines verbose with
    | error m' => simp [format, hlines, bind, Except.bind]
    | ok lines => simp [format_of_lines hlines]
  · have hlost : (r.format c { verbose }).map (fun _ => "") = r.format c { verbose } ↔
        ∀ text, r.format c { verbose } = .ok text → text = "" := by
      cases r.format c { verbose } with
      | error m => simp [Except.map]
      | ok text => simp [Except.map, eq_comm]
    obtain ⟨hvneg, hvpos⟩ := r.format_of_width hc verbose v
    obtain ⟨hwneg, hwpos⟩ := r.format_of_width hc verbose w
    by_cases hv : NoPage v <;> by_cases hw : NoPage w
    · simp [hv, hw, hvneg hv, hwneg hw]
    · rw [hvneg hv, hwpos hw hsoft, hlost]
      simp [hv, hw]
    · rw [hvpos hv hsoft, hwneg hw, eq_comm, hlost]
      simp [hv, hw]
    · simp [hv, hw, hvpos hv hsoft, hwpos hw hsoft]

/-- A rover on pages of twenty, of 120 and of minus one columns. -/
theorem format_width_iff_one_rover :
    let r := Simulation.success ⟨"1", ⟨5, 5⟩, [⟨"1", ⟨1, 3⟩, .north⟩]⟩ none
    r.Soft false ∧ r.format .standard { width := some 20 } = r.format .standard {} ∧
      r.format .standard { width := some (-1) } ≠ r.format .standard {} := by
  intro r
  have hrun : (Script.run "5 5\n1 2 N\nLMLMLMLMM".toList).result =
      .ok ⟨"1", ⟨5, 5⟩, [⟨"1", ⟨1, 3⟩, .north⟩]⟩ := by rfl
  have htext : r.format .standard {} = .ok "1 3 N" := by decide +kernel
  have hiff (w : ℤ) := format_width_iff Console.standard_lawful r false (some w) none
  have hsoft : r.Soft false := (hiff 20).2.2 _ _ (Script.run_orderly hrun).1 rfl
  refine ⟨hsoft, ((hiff 20).2.1 hsoft).mpr (Or.inl (by simp [NoPage])), fun hsame => ?_⟩
  rcases ((hiff (-1)).2.1 hsoft).mp hsame with hpages | hempty
  · simp [NoPage] at hpages
  · exact absurd (hempty _ htext) (by decide)

/-- A rover that is lost on a page of negative width. -/
theorem format_no_page :
    let r : Report :=
      { ok := true, operation := "simulate", error := none, remarks := none
        data := [("rovers", .list [.object (Rover.fields ⟨"1", ⟨1, 3⟩, .north⟩)])] }
    r.format .standard { width := some 80 } = .ok "1 3 N" ∧
      r.format .standard { width := some (-1) } = .ok "" := by
  decide +kernel

end Report

end RoverFleet
