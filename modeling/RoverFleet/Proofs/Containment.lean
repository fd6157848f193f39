import RoverFleet.Proofs.Judgement
import RoverFleet.Proofs.Lines
import RoverFleet.Simulation

/-!
# Every simulation is reported

A simulation ends with a report, or with the digit limit where a number cannot be read or written.
The numbers that are written are the bounds of the plateau and the coordinates of a cell that is
refused. Such a cell is named by the script, or lies at most one step outside the bounds; so all
numbers can be written if those of the script are small enough.
-/
namespace RoverFleet
open Numeric

theorem printable_iff {n : ℤ} : Printable n ↔ n.natAbs < 10 ^ digitLimit := by
  rw [Printable, Nat.pow_eq]

/-- A word that the digit limit lets through, and whose number is less than the largest that can be
written. -/
structure Literal.Modest (w : List Char) : Prop where
  digits : Literal.decimalDigits w ≤ digitLimit
  number : ∀ n, Literal.whole? w = some n → n < 10 ^ digitLimit - 1

/-- The bounds and the coordinates one step outside can be written. -/
structure Bounds.Modest (b : Bounds) : Prop where
  x : b.maxX + 1 < 10 ^ digitLimit
  y : b.maxY + 1 < 10 ^ digitLimit

namespace Bounds.Modest
variable {b : Bounds} (hb : b.Modest)
include hb

theorem printable : Printable b.maxX ∧ Printable b.maxY := by
  have hx := hb.x
  have hy := hb.y
  rw [printable_iff, printable_iff, Int.natAbs_natCast, Int.natAbs_natCast]
  exact ⟨Nat.lt_of_succ_lt hx, Nat.lt_of_succ_lt hy⟩

/-- From a cell inside, the cell ahead is at most one step outside. -/
theorem printable_ahead {r : Rover} (hr : b.Contains r.cell) :
    Printable r.ahead.x ∧ Printable r.ahead.y := by
  obtain ⟨hx, hx', hy, hy'⟩ := hr
  have hmaxX := hb.x
  have hmaxY := hb.y
  have hstep : (-1 ≤ r.heading.stepX ∧ r.heading.stepX ≤ 1) ∧
      -1 ≤ r.heading.stepY ∧ r.heading.stepY ≤ 1 := by
    cases r.heading <;> decide
  rw [printable_iff, printable_iff, Rover.ahead]
  generalize 10 ^ digitLimit = limit at hmaxX hmaxY ⊢
  dsimp only
  omega

end Bounds.Modest

theorem Refusal.report_of_printable {r : Refusal} (h : ∀ n ∈ r.numbers, Printable n) :
    r.report = .refused r := if_pos h

namespace Script

/-- A stop at a number that cannot be read or written. -/
def Stop.IsLimit (stop : Stop) : Prop := ∃ l, stop = .limit l

theorem Stop.ofFailure_report {r : Refusal} (h : ∀ n ∈ r.numbers, Printable n) :
    ¬ (Stop.ofFailure r.report).IsLimit := by
  rw [Refusal.report_of_printable h]
  rintro ⟨l, hl⟩
  cases hl

section Line
variable {k : ℕ} {line : List Char} (hw : ∀ w ∈ Text.words line, Literal.Modest w)
include hw

/-- The coordinates that a line names are less than the largest number that can be written. -/
theorem cellOf_lt : (cellOf line).x + 1 < (10 ^ digitLimit : ℕ) ∧
    (cellOf line).y + 1 < (10 ^ digitLimit : ℕ) := by
  have hlimit : (1 : ℤ) < 10 ^ digitLimit := one_lt_pow₀ (by decide) (by decide)
  have hcoordinate (i : ℕ) :
      ((Text.words line)[i]?.bind Literal.whole?).getD 0 + 1 < (10 ^ digitLimit : ℕ) := by
    push_cast
    cases hv : (Text.words line)[i]?.bind Literal.whole? with
    | none => simpa using hlimit
    | some n =>
      obtain ⟨w, hmem, hn⟩ := Option.bind_eq_some_iff.mp hv
      exact lt_sub_iff_add_lt.mp ((hw w (List.mem_of_getElem? hmem)).number n hn)
  exact ⟨hcoordinate 0, hcoordinate 1⟩

theorem plateauChecks_not_limit {stop : Stop} (h : Check.Fail (plateauChecks k line) stop) :
    ¬ stop.IsLimit := by
  obtain ⟨c, hc, hnot, rfl⟩ := h.exists_mem
  simp only [plateauChecks, List.mem_append, List.mem_cons, List.not_mem_nil, or_false,
    List.mem_map] at hc
  rintro ⟨l, hl⟩
  rcases hc with ((rfl | rfl) | ⟨w, hw', rfl⟩) | rfl | rfl | rfl
  · cases hl
  · cases hl
  · exact hnot (hw w hw').digits
  · cases hl
  · cases hl
  · cases hl

theorem roverChecks_not_limit {stop : Stop} (h : Check.Fail (roverChecks k line) stop) :
    ¬ stop.IsLimit := by
  obtain ⟨c, hc, hnot, rfl⟩ := h.exists_mem
  simp only [roverChecks, List.mem_append, List.mem_cons, List.not_mem_nil, or_false,
    List.mem_map] at hc
  rintro ⟨l, hl⟩
  rcases hc with ((rfl | rfl) | ⟨w, hw', rfl⟩) | rfl | rfl | rfl | rfl
  · cases hl
  · cases hl
  · exact hnot (hw w (List.mem_of_mem_take hw')).digits
  · cases hl
  · cases hl
  · cases hl
  · cases hl

end Line

theorem letterChecks_not_limit {k : ℕ} {line : List Char} {stop : Stop}
    (h : Check.Fail (letterChecks k line) stop) : ¬ stop.IsLimit := by
  obtain ⟨c, hc, -, rfl⟩ := h.exists_mem
  simp only [letterChecks, List.mem_cons, List.mem_map] at hc
  rintro ⟨l, hl⟩
  rcases hc with rfl | ⟨c, -, rfl⟩
  · cases hl
  · cases hl

theorem placingChecks_not_limit {p : Plateau} (hb : p.bounds.Modest) {r : Rover}
    (hr : Printable r.cell.x ∧ Printable r.cell.y) {stop : Stop}
    (h : Check.Fail (placingChecks p r) stop) : ¬ stop.IsLimit := by
  obtain ⟨c, hc, -, rfl⟩ := h.exists_mem
  simp only [placingChecks, List.mem_cons, List.not_mem_nil, or_false] at hc
  rcases hc with rfl | rfl <;> dsimp only
  · refine Stop.ofFailure_report ?_
    simp [Refusal.numbers, hr, hb.printable]
  · refine Stop.ofFailure_report ?_
    simp [Refusal.numbers, hr]

theorem moveChecks_not_limit {p : Plateau} (hb : p.bounds.Modest) {r : Rover}
    (hr : p.bounds.Contains r.cell) {cs : List Command} {stop : Stop}
    (h : Check.Fail (moveChecks p r cs) stop) : ¬ stop.IsLimit := by
  induction cs generalizing r with
  | nil =>
    obtain ⟨c, hc, -⟩ := h.exists_mem
    simp [moveChecks] at hc
  | cons c rest ih =>
    cases c with
    | left => exact ih (r := r.after .left) hr h
    | right => exact ih (r := r.after .right) hr h
    | move =>
      have hahead := hb.printable_ahead hr
      rcases Check.fail_cons.mp h with ⟨-, rfl⟩ | ⟨hin, h⟩
      · dsimp only
        refine Stop.ofFailure_report ?_
        simp [Refusal.numbers, hahead, hb.printable]
      · rcases Check.fail_cons.mp h with ⟨-, rfl⟩ | ⟨-, h⟩
        · dsimp only
          refine Stop.ofFailure_report ?_
          simp [Refusal.numbers, hahead]
        · exact ih hin h

namespace Stage

/-- The numbers of a stage can be written, and so can those one step further. -/
def Modest : Stage → Prop
  | .opening => True
  | .driven p => p.bounds.Modest
  | .placed p r => p.bounds.Modest ∧ p.bounds.Contains r.cell

variable {s : Stage} (hs : s.Modest) {k : ℕ} {line : List Char}
  (hw : ∀ w ∈ Text.words line, Literal.Modest w)
include hs hw

theorem Modest.next (h : Check.Pass (s.checks k line)) : (s.next k line).Modest := by
  cases s with
  | opening =>
    obtain ⟨hx, hy⟩ := cellOf_lt hw
    have hnonneg : 0 ≤ (cellOf line).x ∧ 0 ≤ (cellOf line).y :=
      h ⟨_, .refused .boundsNegative⟩ (by simp [checks, plateauChecks])
    constructor <;> dsimp only <;> omega
  | driven p =>
    obtain ⟨-, hplacing⟩ := Check.pass_append.mp h
    exact ⟨hs, (Check.pass_cons.mp hplacing).1⟩
  | placed p r => exact hs.1

theorem Modest.not_limit {stop : Stop} (h : Check.Fail (s.checks k line) stop) :
    ¬ stop.IsLimit := by
  cases s with
  | opening => exact plateauChecks_not_limit hw h
  | driven p =>
    rcases Check.fail_append.mp h with h | ⟨hpass, h⟩
    · exact roverChecks_not_limit hw h
    · -- large negative coordinates have been refused before, by a message without numbers
      have hnonneg : 0 ≤ (cellOf line).x ∧ 0 ≤ (cellOf line).y :=
        hpass ⟨_, .refused .cellNegative⟩ (by simp [roverChecks])
      obtain ⟨hx, hy⟩ := cellOf_lt hw
      refine placingChecks_not_limit hs ?_ h
      rw [printable_iff, printable_iff, roverOf]
      dsimp only
      omega
  | placed p r =>
    rcases Check.fail_append.mp h with h | ⟨-, h⟩
    · exact letterChecks_not_limit h
    · exact moveChecks_not_limit hs.1 hs.2 h

end Stage

theorem Passed.modest {ls : List (List Char)} {s : Stage} (h : Passed ls s)
    (hw : ∀ l ∈ ls, ∀ w ∈ Text.words l, Literal.Modest w) : s.Modest := by
  induction h with
  | nil => trivial
  | snoc before pass ih =>
    exact Stage.Modest.next (ih fun l hl => hw l (by simp [hl])) (hw _ (by simp)) pass

/-- Among modest words no line fails because of the digit limit. -/
theorem FailsAt.not_limit {ls : List (List Char)} {k : ℕ} {stop : Stop} (h : FailsAt ls k stop)
    (hw : ∀ l ∈ ls, ∀ w ∈ Text.words l, Literal.Modest w) : ¬ stop.IsLimit := by
  obtain ⟨before, line, rest, s, rfl, rfl, hs, hfail⟩ := h
  have hmodest : s.Modest := hs.modest fun l hl => hw l (by simp [hl])
  exact hmodest.not_limit (hw line (by simp)) hfail

theorem words_completed {text l : List Char} (hl : l ∈ completed (lines text)) {w : List Char}
    (hw : w ∈ Text.words l) : w ∈ Text.words text := by
  have hmem : l ∈ lines text := by
    unfold completed at hl
    split at hl
    · rcases List.mem_append.mp hl with hl | hl
      · exact hl
      · obtain rfl := List.mem_singleton.mp hl
        cases hw
    · exact hl
  rw [← words_lines]
  exact List.mem_flatMap.mpr ⟨l, hmem, hw⟩

theorem run_not_limit {text : List Char} (hw : ∀ w ∈ Text.words text, Literal.Modest w)
    {stop : Stop} (h : (run text).result = .error stop) : ¬ stop.IsLimit := by
  have hfail := ((run_judged text).error_iff (run text).line stop).mp ⟨h, rfl⟩
  exact hfail.not_limit fun l hl w hw' => hw w (words_completed hl hw')

end Script

namespace Simulation

theorem ofText_ok {text : List Char} {p : Plateau} (h : (Script.run text).result = .ok p)
    (source : Option String) : (ofText text source).result = .ok (success p source) := by
  simp only [ofText, h]

theorem ofText_fault {text : List Char} {stop : Script.Stop} {f : Fault}
    (h : (Script.run text).result = .error stop) (hf : Fault.ofStop stop = .ok f)
    (source : Option String) : (ofText text source).result = .ok (failure f source) := by
  simp only [ofText, h, hf, failing]

theorem ofText_limit {text : List Char} {l : DigitLimit}
    (h : (Script.run text).result = .error (.limit l)) (source : Option String) :
    (ofText text source).result = .error l := by
  simp only [ofText, h, Fault.ofStop]

/-- Every stop but the digit limit is a fault. -/
theorem exists_fault {stop : Script.Stop} (h : ¬ stop.IsLimit) :
    ∃ f, Fault.ofStop stop = .ok f := by
  cases stop with
  | malformed line flaw => exact ⟨_, rfl⟩
  | refused r => exact ⟨_, rfl⟩
  | limit l => exact absurd ⟨l, rfl⟩ h

/-- A simulation reports the plateau of its run or the fault that stopped it, or ends with the digit
limit that stopped it. It ends with a report if no word of the text has more decimal digits than
the limit or stands for the largest number that can be written or a larger one. -/
theorem ofText_contained (text : List Char) (source : Option String) :
    let run := Script.run text
    let result := (ofText text source).result
    ((∃ p, run.result = .ok p ∧ result = .ok (success p source)) ∨
      (∃ stop f, run.result = .error stop ∧ Fault.ofStop stop = .ok f ∧
        result = .ok (failure f source)) ∨
      ∃ l, run.result = .error (.limit l) ∧ result = .error l) ∧
    ((∀ w ∈ Text.words text, Literal.Modest w) → ∃ report, result = .ok report) := by
  intro run result
  cases h : (Script.run text).result with
  | ok p =>
    have hresult := ofText_ok h source
    exact ⟨Or.inl ⟨p, rfl, hresult⟩, fun _ => ⟨_, hresult⟩⟩
  | error stop =>
    by_cases hl : stop.IsLimit
    · obtain ⟨l, rfl⟩ := hl
      refine ⟨Or.inr (Or.inr ⟨l, rfl, ofText_limit h source⟩), fun hw => ?_⟩
      exact absurd ⟨l, rfl⟩ (Script.run_not_limit hw h)
    · obtain ⟨f, hf⟩ := exists_fault hl
      have hresult := ofText_fault h hf source
      exact ⟨Or.inr (Or.inl ⟨stop, f, rfl, hf, hresult⟩), fun _ => ⟨_, hresult⟩⟩

/-- A rover that is sent over the bounds: the refusal is reported. -/
theorem ofText_contained_moved_outside :
    let text := "5 5\n0 0 W\nM".toList
    (∀ w ∈ Text.words text, Literal.Modest w) ∧
      (Script.run text).result = .error (.refused (.movedOutside "1" ⟨-1, 0⟩ ⟨5, 5⟩)) ∧
      ∃ report, (ofText text none).result = .ok report := by
  intro text
  have hsmall : ∀ w ∈ Text.words text, Literal.decimalDigits w ≤ digitLimit ∧
      ∀ n ∈ Literal.whole? w, n < 9 := by decide +kernel
  have hlimit : (9 : ℤ) ≤ 10 ^ digitLimit - 1 := by
    have hpow : (10 : ℤ) ^ 1 ≤ 10 ^ digitLimit := pow_le_pow_right₀ (by decide) (by decide)
    exact le_sub_iff_add_le.mpr hpow
  have hw : ∀ w ∈ Text.words text, Literal.Modest w := fun w hw =>
    ⟨(hsmall w hw).1, fun n hn => lt_of_lt_of_le ((hsmall w hw).2 n hn) hlimit⟩
  exact ⟨hw, by decide +kernel, (ofText_contained text none).2 hw⟩

end Simulation

end RoverFleet
