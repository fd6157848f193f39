import RoverFleet.Proofs.Containment
import RoverFleet.Proofs.Course
import RoverFleet.Proofs.Exchange
import RoverFleet.Proofs.Reprint

/-!
# Other bounds

The bounds of a plateau matter to a run only through the trails of its rovers. A script that
succeeds also succeeds with other bounds if the trails of its rovers stay inside these, and ends
with the same rovers. Otherwise it stops at the first rover whose trail leaves them, where the
first cell outside is refused.
-/
namespace RoverFleet

namespace Plateau

def withBounds (b : Bounds) (p : Plateau) : Plateau := { p with bounds := b }

@[simp] theorem withBounds_bounds (b : Bounds) (p : Plateau) : (p.withBounds b).bounds = b := rfl

/-- What is clear stays clear under other bounds if it is inside. -/
theorem Clear.withBounds {p : Plateau} {b : Bounds} {cells : List Cell} (h : p.Clear cells)
    (hin : ∀ c ∈ cells, b.Contains c) : (p.withBounds b).Clear cells :=
  fun c hc => ⟨hin c hc, (h c hc).2⟩

end Plateau

theorem find?_append_replicate {α : Type} {l : List α} {a : α} (ha : a ∈ l) (f : α → Bool) (n : ℕ) :
    (l ++ List.replicate n a).find? f = l.find? f := by
  rw [List.find?_append]
  cases hl : l.find? f with
  | some c => rfl
  | none =>
    have hfa : ¬ f a = true := List.find?_eq_none.mp hl a ha
    exact List.find?_eq_none.mpr fun c hc => List.eq_of_mem_replicate hc ▸ hfa

/-- Number `n` is the first whose trail leaves the bounds, and `c` its first cell outside. -/
structure Bounds.LeftFirst (b : Bounds) (trails : ℕ → List Cell) (n : ℕ) (c : Cell) : Prop where
  before : ∀ m < n, ∀ d ∈ trails m, b.Contains d
  first : (trails n).find? (¬ b.Contains ·) = some c

namespace Bounds.LeftFirst
variable {b : Bounds} {trails : ℕ → List Cell} {n : ℕ} {c : Cell}

theorem outside (h : b.LeftFirst trails n c) : ¬ b.Contains c := by
  simpa using List.find?_some h.first

theorem zero (h : (trails 0).find? (¬ b.Contains ·) = some c) : b.LeftFirst trails 0 c :=
  ⟨fun m hm => absurd hm m.not_lt_zero, h⟩

theorem succ (h₀ : ∀ d ∈ trails 0, b.Contains d) (h : b.LeftFirst (fun i => trails (i + 1)) n c) :
    b.LeftFirst trails (n + 1) c := by
  refine ⟨?_, h.first⟩
  rintro (_ | m) hm d hd
  · exact h₀ d hd
  · exact h.before m (Nat.lt_of_succ_lt_succ hm) d hd

end Bounds.LeftFirst

/-- Within other bounds a run that succeeds is refused at the first cell outside. -/
theorem Rover.run_withBounds {p : Plateau} {r r' : Rover} {cs : List Command} {b : Bounds}
    {c : Cell} (hrun : r.run (some p) cs = .ok r') (hstart : b.Contains r.cell)
    (hc : (r.trail cs).find? (¬ b.Contains ·) = some c) :
    r.run (some (p.withBounds b)) cs = .error (Refusal.movedOutside r.id c b).report := by
  have hadmits := (run_ok_iff_admits.mp hrun).1
  have hout : ¬ b.Contains c := by simpa using List.find?_some hc
  rw [find?_trail, course, List.find?_cons_of_neg (by simpa using hstart)] at hc
  obtain ⟨before, after, rfl, hbefore, hahead⟩ := find?_targets hc
  have hin : ∀ d ∈ r.targets before, (p.withBounds b).Admits r.id d := by
    intro d hd
    have hmem : d ∈ r.targets (before ++ .move :: after) := by
      rw [targets_append]
      exact List.mem_append_left _ hd
    exact ⟨by simpa using hbefore d hd, (hadmits d hmem).2⟩
  have hnot : ¬ (p.withBounds b).Admits r.id (r.walk before).ahead := fun h => hout (hahead ▸ h.1)
  rw [run_of_offence hin hnot, hahead, Plateau.offence]
  exact congrArg (fun refusal : Refusal => Except.error refusal.report) (if_neg hout)

namespace Script
open Numeric Plateau Text

/-- The number of the line and the refusal at which a run stops when the trail of rover `n` leaves
the bounds at a cell: if it starts there it is not placed, else it is not moved there. -/
def stopOutside (b : Bounds) (n : ℕ) (trail : List Cell) (c : Cell) : ℕ × Refusal :=
  if trail.head? = some c then (2 * n, .placedOutside (toString n) c b)
  else (2 * n + 1, .movedOutside (toString n) c b)

/-- Cells behind a trail have no influence on where the rover is stopped. -/
theorem stopOutside_append {trail : List Cell} (h : trail ≠ []) (b : Bounds) (n : ℕ)
    (later : List Cell) (c : Cell) :
    stopOutside b n (trail ++ later) c = stopOutside b n trail c := by
  simp only [stopOutside, List.head?_append_of_ne_nil _ h]

section First
variable {k n : ℕ} {p : Plateau} (hn : n = p.rovers.length + 1)
  {position commands : List Char} {r : Rover} {cs : List Command}
  (hr : readRover (k + 1) n position = .ok r) (hcs : readCommands (k + 2) n commands = .ok cs)
  (hclear : p.Clear (r.trail cs)) (rest : List (List Char × List Char))
include hn hr hcs hclear

/-- Behind a rover with a clear trail a run goes on as that of the rovers after it. -/
theorem runRovers_cons_of_clear (hp : p.Orderly) :
    let run := runRovers k n p ((position, commands) :: rest)
    let later := runRovers (k + 2) (n + 1) (p.register (r.walk cs)) rest
    run.line = later.line ∧ run.result = later.result := by
  obtain ⟨henter, hrun⟩ := (enter_run_iff_clear hp hn hr cs).mpr ⟨hclear, rfl⟩
  have hdrive : drive (k + 2) n (p.register r) r commands = .ok (r.walk cs, cs.length) :=
    drive_ok_iff.mpr ⟨cs, hcs, hrun, rfl⟩
  simp only [runRovers, henter, hdrive, and_self]

/-- A rover on a clear trail is stopped by other bounds at its first cell outside. -/
theorem runRovers_cons_outside (hp : p.Orderly) (hk : k + 1 = 2 * n) {b : Bounds} {c : Cell}
    (hc : (r.trail cs).find? (¬ b.Contains ·) = some c) :
    let run := runRovers k n (p.withBounds b) ((position, commands) :: rest)
    let stop := stopOutside b n (r.trail cs) c
    run.line = stop.1 ∧ run.result = .error (.ofFailure stop.2.report) := by
  have hid := readRover_id hr
  obtain ⟨later, hlater⟩ := Rover.trail_eq_cons cs r
  have hhead : (r.trail cs).head? = some r.cell := by rw [hlater, List.head?_cons]
  have hfree := (hclear r.cell (Rover.cell_mem_trail cs r)).2
  by_cases hstart : b.Contains r.cell
  · have hne : (r.trail cs).head? ≠ some c := by
      rw [hhead]
      rintro ⟨rfl⟩
      exact absurd hstart (by simpa using List.find?_some hc)
    have henter : enter (k + 1) n (p.withBounds b) position = .ok r :=
      enter_ok_iff.mpr ⟨hr, placing_ok_iff_free.mpr ⟨hstart, hfree⟩⟩
    have hrun := ((enter_run_iff_clear hp hn hr cs).mpr ⟨hclear, rfl⟩).2
    have hrefused : r.run (some ((p.withBounds b).register r)) cs =
        .error (Refusal.movedOutside (toString n) c b).report := by
      rw [Rover.run_register rfl, Rover.run_withBounds (run_own hrun) hstart hc, hid]
    have hdrive : drive (k + 2) n ((p.withBounds b).register r) r commands =
        .error (.ofFailure (Refusal.movedOutside (toString n) c b).report) := by
      simp only [drive, hcs, hrefused, bind, Except.bind, Except.mapError]
    simp only [runRovers, henter, hdrive, stopOutside, if_neg hne]
    exact ⟨congrArg (· + 1) hk, trivial⟩
  · obtain rfl : r.cell = c := by simpa [hlater, hstart] using hc
    have hrefused : (p.withBounds b).placing r =
        .error (Refusal.placedOutside (toString n) r.cell b).report := by
      rw [← hid]
      exact if_pos hstart
    have henter : enter (k + 1) n (p.withBounds b) position =
        .error (.ofFailure (Refusal.placedOutside (toString n) r.cell b).report) := by
      simp only [enter, hr, hrefused, bind, Except.bind, Except.mapError]
    simp only [runRovers, henter, stopOutside, if_pos hhead]
    exact ⟨hk, trivial⟩

end First

/-- Rovers that go through within some bounds go through within others with the same poses, or
stop at the first cell at which one leaves these. -/
theorem runRovers_withBounds {k n : ℕ} {p q : Plateau} {b : Bounds} (hp : p.Orderly)
    (hp' : (p.withBounds b).Orderly) (hn : n = p.rovers.length + 1) (hk : k + 1 = 2 * n)
    {ps : List (List Char × List Char)} (hrun : (runRovers k n p ps).result = .ok q) :
    let trails := fun i => cellsAt (n + i) (momentsFrom k n p ps)
    let run := runRovers k n (p.withBounds b) ps
    (∀ i, ∀ c ∈ trails i, b.Contains c) ∧ run.result = .ok (q.withBounds b) ∨
      ∃ i c, b.LeftFirst trails i c ∧
        let stop := stopOutside b (n + i) (trails i) c
        run.line = stop.1 ∧ run.result = .error (.ofFailure stop.2.report) := by
  induction ps generalizing k n p with
  | nil =>
    cases hrun
    exact Or.inl ⟨fun i c hc => by simp [momentsFrom, cellsAt] at hc, rfl⟩
  | cons pair rest ih =>
    obtain ⟨position, commands⟩ := pair
    obtain ⟨r, cs, hr, hcs, hclear, hrest⟩ := (runRovers_cons_iff_clear hp hn).mp hrun
    intro trails run
    have hfirst : trails 0 = cellsAt n (momentsFrom k n p ((position, commands) :: rest)) := rfl
    obtain ⟨stay, hcells⟩ := cellsAt_cons hp hn hr hcs hclear rest
    have hlast := Rover.walk_cell_mem_trail cs r
    cases hc : (r.trail cs).find? (¬ b.Contains ·) with
    | some c =>
      refine Or.inr ⟨0, c, .zero ?_, ?_⟩
      · rw [hfirst, hcells, find?_append_replicate hlast, hc]
      · rw [hfirst, hcells, stopOutside_append (List.ne_nil_of_mem hlast)]
        exact runRovers_cons_outside hn hr hcs hclear rest hp hk hc
    | none =>
      have hin : ∀ c ∈ r.trail cs, b.Contains c :=
        fun c hmem => by simpa using List.find?_eq_none.mp hc c hmem
      have hin₀ : ∀ c ∈ trails 0, b.Contains c := fun c hmem =>
        hin c ((mem_cellsAt_iff hp hn hr hcs hclear rest c).mp hmem)
      -- the rovers after this one are on their own from here on
      have hshift (i : ℕ) : n + (i + 1) = n + 1 + i := by ring
      have htrails (i : ℕ) : cellsAt (n + 1 + i)
          (momentsFrom (k + 2) (n + 1) (p.register (r.walk cs)) rest) = trails (i + 1) := by
        rw [← hshift]
        exact (cellsAt_cons_of_lt hp hn hr hcs hclear (by omega) rest).symm
      have hclear' := hclear.withBounds hin
      obtain ⟨ho, -, hnext⟩ := register_next hp hn hr hclear
      obtain ⟨ho', -, -⟩ := register_next hp' hn hr hclear'
      obtain ⟨hline, hresult⟩ :=
        runRovers_cons_of_clear (p := p.withBounds b) hn hr hcs hclear' rest hp'
      have hrest := ih ho ho' hnext (by omega) hrest
      simp only [htrails] at hrest
      rcases hrest with ⟨hall, hok⟩ | ⟨i, c, hleft, hstop⟩
      · exact Or.inl ⟨Nat.rec hin₀ fun i _ => hall i, hresult.trans hok⟩
      · refine Or.inr ⟨i + 1, c, hleft.succ hin₀, ?_⟩
        rw [hshift]
        exact ⟨hline.trans hstop.1, hresult.trans hstop.2⟩

/-- The text in which the plateau line, the first line that is not blank, names other bounds. -/
def resize (b : Bounds) (text : List Char) : List Char :=
  match (Text.lines text).dropWhile blankLine with
  | [] => text
  | _ :: rest =>
    joined ((Text.lines text).takeWhile blankLine ++
      (intText b.maxX ++ " " ++ intText b.maxY).toList :: rest)

theorem lines_resize {text first : List Char} {rest : List (List Char)}
    (hlines : lines text = first :: rest) (hne : ∀ l ∈ lines text, l ≠ []) (b : Bounds) :
    lines (resize b text) = (intText b.maxX ++ " " ++ intText b.maxY).toList :: rest := by
  rw [hlines, List.forall_mem_cons] at hne
  obtain ⟨m, n, pad, f, body, htake, hdrop, hpad, -, hbody⟩ := exists_split hlines hne.1
  have hsplit : pad ++ f :: body = Text.lines text := by
    rw [← htake, ← hdrop, List.takeWhile_append_dropWhile]
  have hneat := spaced_neat (by simp) (bounds_words b)
  simp only [resize, hdrop, htake, bounds_spaced]
  refine lines_joined_of_padded (List.cons_ne_nil _ _)
    (List.forall_mem_cons.mpr ⟨hneat.ne, hne.2⟩) ?_ hpad (n := n) ?_
  · intro l hl
    rcases List.mem_append.mp hl with hl | hl
    · exact feed_notMem_of_mem_lines (hsplit ▸ List.mem_append_left _ hl)
    · rcases List.mem_cons.mp hl with rfl | hl
      · exact feed_notMem_spaced (bounds_words b)
      · exact feed_notMem_of_mem_lines
          (hsplit ▸ List.mem_append_right _ (List.mem_cons_of_mem _ hl))
  · rw [List.map_cons, hneat.trim, hbody, List.cons_append]

/-- With other bounds a script goes through, or stops at the first cell outside. -/
theorem run_resize_cases {text : List Char} {p : Plateau} (h : (run text).result = .ok p)
    {b : Bounds} (hx : b.maxX < 10 ^ digitLimit) (hy : b.maxY < 10 ^ digitLimit) :
    let resized := run (resize b text)
    (∀ n, ∀ c ∈ trail text n, b.Contains c) ∧ resized.result = .ok (p.withBounds b) ∨
      ∃ n c, b.LeftFirst (trail text) n c ∧
        let stop := stopOutside b n (trail text n) c
        resized.line = stop.1 ∧ resized.result = .error (.ofFailure stop.2.report) := by
  obtain ⟨first, rest, start, hlines, hstart, hrun⟩ := run_ok_iff.mp h
  obtain ⟨b₀, rfl⟩ := readPlateau_empty hstart
  have hlines' := lines_resize hlines (passed_lines h).ne_nil b
  have hresized : run (resize b text) =
      let run := runRovers 1 1 ⟨"1", b, []⟩ (pairs rest)
      { run with journal := .marked ⟨"1", b, []⟩ :: run.journal } := by
    rw [run, hlines']
    simp only [runLines, readPlateau_bounds hx hy]
  have htrail (i : ℕ) := trail_eq_cellsAt hlines hstart (1 + i)
  rw [hresized]
  rcases runRovers_withBounds (b := b) (Orderly.empty "1" b₀) (Orderly.empty "1" b) rfl rfl hrun
    with ⟨hall, hok⟩ | ⟨i, c, hleft, hstop⟩
  · refine Or.inl ⟨?_, hok⟩
    rintro (_ | i) c hc
    · simp [trail_zero] at hc
    · rw [Nat.add_comm i 1, htrail] at hc
      exact hall i c hc
  · refine Or.inr ⟨1 + i, c, ⟨?_, (htrail i).symm ▸ hleft.first⟩, (htrail i).symm ▸ hstop⟩
    rintro (_ | m) hm d hd
    · simp [trail_zero] at hd
    · rw [Nat.add_comm m 1, htrail] at hd
      exact hleft.before m (by omega) d hd

/-- A stop outside can be reported if the bounds and the cell are small enough. -/
theorem stopOutside_report {b : Bounds} (hx : b.maxX < 10 ^ digitLimit)
    (hy : b.maxY < 10 ^ digitLimit) {c : Cell} (hc : Printable c.x ∧ Printable c.y) (n : ℕ)
    (trail : List Cell) :
    (stopOutside b n trail c).2.report = .refused (stopOutside b n trail c).2 := by
  refine Refusal.report_of_printable ?_
  have hb : Printable b.maxX ∧ Printable b.maxY :=
    ⟨printable_natCast.mpr hx, printable_natCast.mpr hy⟩
  unfold stopOutside
  split <;> simp [Refusal.numbers, hc, hb]

theorem lt_digitLimit {n : ℕ} (h : n < 10 ^ 4299) : n < 10 ^ digitLimit :=
  h.trans_le (by gcongr <;> decide)

theorem printable_of_lt {z : ℤ} (hnonneg : 0 ≤ z) (h : z < 10 ^ 4299) : Printable z := by
  obtain ⟨n, rfl⟩ := Int.eq_ofNat_of_zero_le hnonneg
  have hn : n < 10 ^ 4299 := by exact_mod_cast h
  exact printable_natCast.mpr (lt_digitLimit hn)

/-- The plateau line of a script that succeeds is replaced by one that names other bounds. The
script succeeds if and only if all cells that its rovers occupied are inside these bounds, and then
ends with the same rovers. Otherwise, among coordinates within the digit limit, it stops at the
first rover whose trail leaves the bounds: it is refused where it is to be placed outside, or else
where it is first to be moved outside. -/
theorem run_resize {text : List Char} {p : Plateau} (h : (run text).result = .ok p) {b : Bounds}
    (hx : b.maxX < 10 ^ 4299) (hy : b.maxY < 10 ^ 4299) :
    let resized := run (resize b text)
    ((∃ q, resized.result = .ok q) ↔
      ∀ n, ∀ c ∈ trail text n, c.x ≤ b.maxX ∧ c.y ≤ b.maxY) ∧
    (∀ q, resized.result = .ok q → q = p.withBounds b) ∧
    ((∀ n, ∀ c ∈ trail text n, c.x < 10 ^ 4299 ∧ c.y < 10 ^ 4299) →
      (¬ ∃ q, resized.result = .ok q) → ∃ n c, b.LeftFirst (trail text) n c ∧
        let stop := stopOutside b n (trail text n) c
        resized.line = stop.1 ∧ resized.result = .error (.refused stop.2)) := by
  intro resized
  have hx' := lt_digitLimit hx
  have hy' := lt_digitLimit hy
  rcases run_resize_cases h hx' hy' with ⟨hin, hok⟩ | ⟨n, c, hleft, hline, hresult⟩
  · refine ⟨⟨fun _ n c hc => ?_, fun _ => ⟨_, hok⟩⟩, fun q hq => ?_, fun _ hnot => ?_⟩
    · obtain ⟨-, hcx, -, hcy⟩ := hin n c hc
      exact ⟨hcx, hcy⟩
    · cases hok.symm.trans hq
      rfl
    · exact absurd ⟨_, hok⟩ hnot
  · have hmem : c ∈ trail text n := List.mem_of_find?_eq_some hleft.first
    obtain ⟨hcx, hcy⟩ := trail_nonneg hmem
    have hnot : ¬ ∃ q, resized.result = .ok q := by
      rintro ⟨q, hq⟩
      cases hresult.symm.trans hq
    refine ⟨⟨fun hok => absurd hok hnot, fun hin => ?_⟩, fun q hq => absurd ⟨q, hq⟩ hnot, ?_⟩
    · obtain ⟨hcx', hcy'⟩ := hin n c hmem
      exact absurd ⟨hcx, hcx', hcy, hcy'⟩ hleft.outside
    · intro hsmall _
      obtain ⟨hcx', hcy'⟩ := hsmall n c hmem
      have hc := And.intro (printable_of_lt hcx hcx') (printable_of_lt hcy hcy')
      refine ⟨n, c, hleft, hline, hresult.trans ?_⟩
      rw [stopOutside_report hx' hy' hc]
      rfl

/-- Both trails stay inside (5, 3), but the second rover is moved out of (4, 3). -/
theorem run_resize_two_rovers :
    let text := "5 5\n1 2 N\nLMLMLMLMM\n3 3 E\nMMRMMRMRRM".toList
    let p : Plateau := ⟨"1", ⟨5, 5⟩, [⟨"1", ⟨1, 3⟩, .north⟩, ⟨"2", ⟨5, 1⟩, .east⟩]⟩
    (run text).result = .ok p ∧ (run (resize ⟨5, 3⟩ text)).result = .ok (p.withBounds ⟨5, 3⟩) ∧
      (∀ n, ∀ c ∈ trail text n, c.x < 10 ^ 4299 ∧ c.y < 10 ^ 4299) ∧
      (¬ ∃ q, (run (resize ⟨4, 3⟩ text)).result = .ok q) ∧
      (∃ n c, Bounds.LeftFirst ⟨4, 3⟩ (trail text) n c ∧
        let stop := stopOutside ⟨4, 3⟩ n (trail text n) c
        (run (resize ⟨4, 3⟩ text)).line = stop.1 ∧
          (run (resize ⟨4, 3⟩ text)).result = .error (.refused stop.2)) ∧
      stopOutside ⟨4, 3⟩ 2 (trail text 2) ⟨5, 3⟩ = (5, .movedOutside "2" ⟨5, 3⟩ ⟨4, 3⟩) := by
  intro text p
  have h : (run text).result = .ok p := by rfl
  have hlarge (n : ℕ) (hn : n < 10) : n < 10 ^ 4299 :=
    hn.trans_le (le_self_pow₀ (by decide) (by decide))
  have hlarge' (z : ℤ) (hz : z < 10) : z < 10 ^ 4299 :=
    hz.trans_le (le_self_pow₀ (by decide) (by decide))
  have hcells : ∀ q ∈ moments text, ∀ r ∈ q.rovers,
      (r.cell.x ≤ 5 ∧ r.cell.y ≤ 3) ∧ r.cell.x < 10 ∧ r.cell.y < 10 := by decide +kernel
  have hin : ∀ n, ∀ c ∈ trail text n, c.x ≤ 5 ∧ c.y ≤ 3 := by
    intro n c hc
    obtain ⟨q, hq, r, hr, rfl⟩ := exists_of_mem_trail hc
    exact (hcells q hq r hr).1
  have hsmall : ∀ n, ∀ c ∈ trail text n, c.x < 10 ^ 4299 ∧ c.y < 10 ^ 4299 := by
    intro n c hc
    obtain ⟨q, hq, r, hr, rfl⟩ := exists_of_mem_trail hc
    exact (hcells q hq r hr).2.imp (hlarge' _) (hlarge' _)
  obtain ⟨hok, hsame, -⟩ := run_resize h (b := ⟨5, 3⟩) (hlarge 5 (by decide)) (hlarge 3 (by decide))
  obtain ⟨q, hq⟩ := hok.mpr hin
  have herror : (run (resize ⟨4, 3⟩ text)).result =
      .error (.refused (.movedOutside "2" ⟨5, 3⟩ ⟨4, 3⟩)) := by decide +kernel
  have hnot : ¬ ∃ q, (run (resize ⟨4, 3⟩ text)).result = .ok q := by
    rintro ⟨q, hq⟩
    cases herror.symm.trans hq
  obtain ⟨-, -, hstop⟩ := run_resize h (b := ⟨4, 3⟩) (hlarge 4 (by decide)) (hlarge 3 (by decide))
  exact ⟨h, hsame q hq ▸ hq, hsmall, hnot, hstop hsmall hnot, by decide +kernel⟩

end Script

end RoverFleet
