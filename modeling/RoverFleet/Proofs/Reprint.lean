import RoverFleet.Proofs.Law
import RoverFleet.Proofs.Layout
import RoverFleet.Proofs.Moments
import RoverFleet.Proofs.Turning

/-!
# Printing a plateau as a script

A plateau that a run ended with is printed as a script: its bounds, and each rover as it stands
with a line of turns that add up to whole turns. Running that script leads to the plateau again.
-/
namespace RoverFleet.Script
open Numeric Text Plateau

/-- A line of turns that add up to whole turns. -/
structure WholeTurns (line : List Char) : Prop where
  ne : line ≠ []
  letters : ∀ c ∈ line, c = 'L' ∨ c = 'R'
  whole : (4 : ℤ) ∣ line.count 'L' - line.count 'R'

/-- The script of a plateau, with a line of turns for each rover. -/
def reprint (p : Plateau) (turns : List (List Char)) : Except DigitLimit (List Char) := do
  let x ← writeInt p.bounds.maxX
  let y ← writeInt p.bounds.maxY
  let poses ← p.rovers.mapM Rover.text?
  let pairs := (poses.map String.toList).zip turns
  return joined ((x ++ " " ++ y).toList :: pairs.flatMap fun pair => [pair.1, pair.2])

theorem natDigits_word (n : ℕ) : Word (natDigits n) :=
  ⟨Nat.toDigits_ne_nil, fun _ hc => isBlank_of_isDigit (Literal.natDigits_isDigit hc)⟩

theorem letter_word (h : Heading) : Word [h.letter] := by
  cases h <;> exact ⟨by simp, by simp [Heading.letter]; rfl⟩

theorem WholeTurns.word {line : List Char} (ht : WholeTurns line) : Word line where
  ne := ht.ne
  solid c hc := by rcases ht.letters c hc with rfl | rfl <;> rfl

theorem intText_natCast (n : ℕ) : intText n = String.ofList (natDigits n) := by
  rw [intText, intChars, if_neg (Int.natCast_nonneg n).not_gt, Int.natAbs_natCast]

theorem bounds_spaced (b : Bounds) :
    (intText b.maxX ++ " " ++ intText b.maxY).toList =
      spaced [natDigits b.maxX, natDigits b.maxY] := by
  simp [intText_natCast, spaced]

theorem text_spaced (id : String) (x y : ℕ) (h : Heading) :
    (Rover.text ⟨id, ⟨x, y⟩, h⟩).toList = spaced [natDigits x, natDigits y, [h.letter]] := by
  simp [Rover.text, Heading.text, intText_natCast, spaced]

theorem bounds_words (b : Bounds) : ∀ w ∈ [natDigits b.maxX, natDigits b.maxY], Word w := by
  simp [natDigits_word]

theorem pose_words (x y : ℕ) (h : Heading) :
    ∀ w ∈ [natDigits x, natDigits y, [h.letter]], Word w := by
  simp [natDigits_word, letter_word]

theorem Contains.natural {b : Bounds} {c : Cell} (h : b.Contains c) :
    ∃ x y : ℕ, c = ⟨x, y⟩ ∧ x ≤ b.maxX ∧ y ≤ b.maxY := by
  obtain ⟨hx, hx', hy, hy'⟩ := h
  refine ⟨c.x.toNat, c.y.toNat, ?_, by omega, by omega⟩
  rw [Int.toNat_of_nonneg hx, Int.toNat_of_nonneg hy]

section Reading
variable {b : Bounds} (hx : b.maxX < 10 ^ digitLimit) (hy : b.maxY < 10 ^ digitLimit)
include hx hy

theorem readPlateau_bounds (k : ℕ) :
    readPlateau k (intText b.maxX ++ " " ++ intText b.maxY).toList = .ok ⟨"1", b, []⟩ := by
  have hne := (spaced_neat (by simp) (bounds_words b)).ne
  have hwords := words_spaced (by simp) (bounds_words b)
  have hnonneg : ¬ ((b.maxX : ℤ) < 0 ∨ (b.maxY : ℤ) < 0) := by omega
  rw [bounds_spaced]
  simp only [readPlateau, List.isEmpty_iff, if_neg hne, hwords, Literal.read_natDigits hx,
    Literal.read_natDigits hy, Except.mapError, bind, Except.bind, ofBounds, Value.whole?,
    if_neg hnonneg, Int.toNat_natCast]

theorem readRover_text (k : ℕ) {n : ℕ} {r : Rover} (hid : r.id = toString n)
    (hin : b.Contains r.cell) : readRover k n r.text.toList = .ok r := by
  obtain ⟨x, y, hc, hxb, hyb⟩ := Contains.natural hin
  obtain ⟨id, cell, heading⟩ := r
  obtain rfl : cell = ⟨x, y⟩ := hc
  have hne := (spaced_neat (by simp) (pose_words x y heading)).ne
  have hwords := words_spaced (by simp) (pose_words x y heading)
  have hread := Literal.read_natDigits (Nat.lt_of_le_of_lt hxb hx)
  have hread' := Literal.read_natDigits (Nat.lt_of_le_of_lt hyb hy)
  have hnonneg : ¬ ((x : ℤ) < 0 ∨ (y : ℤ) < 0) := by omega
  have hheading : Heading.ofChars? (upper [heading.letter]) = some heading := by
    cases heading <;> rfl
  rw [text_spaced]
  simp only [readRover, List.isEmpty_iff, if_neg hne, hwords, hread, hread', hheading,
    Except.mapError, bind, Except.bind, Rover.startCell, Value.whole?, if_neg hnonneg]
  exact congrArg (fun id => Except.ok (Rover.mk id ⟨x, y⟩ heading)) hid.symm

end Reading

section Turns
variable {line : List Char} (h : ∀ c ∈ line, c = 'L' ∨ c = 'R')
include h

theorem upper_turns : upper line = line := by
  induction line with
  | nil => rfl
  | cons c rest ih =>
    simp only [List.mem_cons, forall_eq_or_imp] at h
    have hrest : upper (c :: rest) = upperChar c ++ upper rest := List.flatMap_cons
    rw [hrest, ih h.2]
    rcases h.1 with rfl | rfl <;> rfl

theorem readCommands_turns (hne : line ≠ []) (k n : ℕ) :
    readCommands k n line = .ok (commandsOf line) := by
  rw [readCommands, List.isEmpty_eq_false_iff.mpr hne]
  refine (decides_letters k n (upper line)).ok_iff.mpr ⟨?_, rfl⟩
  rw [upper_turns h]
  intro check hcheck
  obtain ⟨c, hc, rfl⟩ := List.mem_map.mp hcheck
  rcases h c hc with rfl | rfl <;> simp

/-- The commands of a line of turns are its turns. -/
theorem commandsOf_turns : .move ∉ commandsOf line ∧
    (commandsOf line).count .left = line.count 'L' ∧
    (commandsOf line).count .right = line.count 'R' := by
  rw [commandsOf, upper_turns h]
  induction line with
  | nil => simp
  | cons c rest ih =>
    simp only [List.mem_cons, forall_eq_or_imp] at h
    obtain ⟨hmove, hleft, hright⟩ := ih h.2
    rcases h.1 with rfl | rfl
    · have hc : Command.ofChar? 'L' = some .left := rfl
      simp [List.filterMap_cons_some hc, hmove, hleft, hright]
    · have hc : Command.ofChar? 'R' = some .right := rfl
      simp [List.filterMap_cons_some hc, hmove, hleft, hright]

end Turns

theorem WholeTurns.run {line : List Char} (ht : WholeTurns line) (site : Option Plateau)
    (r : Rover) : r.run site (commandsOf line) = .ok r := by
  obtain ⟨hmove, hleft, hright⟩ := commandsOf_turns ht.letters
  rw [Rover.run_turns hmove, Rover.walk_whole_turns hmove]
  rw [hleft, hright]
  exact ht.whole

theorem notMem_of_nodup {α : Type} {f : Rover → α} {r : Rover} {done rest : List Rover}
    (h : ((done ++ r :: rest).map f).Nodup) : f r ∉ done.map f := by
  rw [List.map_append, List.map_cons] at h
  exact fun hr => (List.nodup_cons.mp (List.nodup_middle.mp h)).1 (List.mem_append_left _ hr)

/-- The rovers of an orderly plateau are placed and turned one after another, each beside those
before it. -/
theorem runRovers_reprint {k n : ℕ} {id : String} {b : Bounds} {done rs : List Rover}
    {turns : List (List Char)} (hx : b.maxX < 10 ^ digitLimit) (hy : b.maxY < 10 ^ digitLimit)
    (hp : Orderly ⟨id, b, done ++ rs⟩) (hn : n = done.length + 1)
    (hlen : turns.length = rs.length) (ht : ∀ line ∈ turns, WholeTurns line) :
    (runRovers k n ⟨id, b, done⟩ ((rs.map (·.text.toList)).zip turns)).result =
      .ok ⟨id, b, done ++ rs⟩ := by
  induction rs generalizing k n done turns with
  | nil => simp [runRovers]
  | cons r rest ih =>
    cases turns with
    | nil => simp at hlen
    | cons line lines =>
      simp only [List.mem_cons, forall_eq_or_imp] at ht
      simp only [List.length_cons, Nat.add_right_cancel_iff] at hlen
      have hin : b.Contains r.cell := hp.sound.inside r (by simp)
      have hid : r.id = toString n := by
        have := congrArg (·[done.length]?) hp.numbered
        simpa [hn, Nat.add_comm] using this
      have hplace : Plateau.placing ⟨id, b, done⟩ r = .ok () := by
        refine placing_ok_iff.mpr ⟨hin, ?_⟩
        rintro ⟨s, hs, -, hc⟩
        exact notMem_of_nodup hp.sound.cells (List.mem_map.mpr ⟨s, hs, hc⟩)
      have hregister : Plateau.register ⟨id, b, done⟩ r = ⟨id, b, done ++ [r]⟩ := by
        rw [register, put_of_id_notMem (notMem_of_nodup hp.sound.ids)]
      have henter : enter (k + 1) n ⟨id, b, done⟩ r.text.toList = .ok r :=
        enter_ok_iff.mpr ⟨readRover_text hx hy _ hid hin, hplace⟩
      have hread := readCommands_turns ht.1.letters ht.1.ne (k + 2) n
      refine runRovers_cons_ok_iff.mpr ⟨r, _, r, henter, hread, ht.1.run _ r, ?_⟩
      have happend : done ++ r :: rest = done ++ [r] ++ rest := List.append_cons done r rest
      rw [hregister, happend]
      exact ih (happend ▸ hp) (by simp [hn]) hlen ht.2

theorem pairs_flatMap (ps : List (List Char × List Char)) :
    pairs (ps.flatMap fun pair => [pair.1, pair.2]) = ps := by
  induction ps with
  | nil => rfl
  | cons pair rest ih => simp [pairs, ih]

/-- The lines of the script that a plateau is printed as. -/
def reprintLines (p : Plateau) (turns : List (List Char)) : List (List Char) :=
  (intText p.bounds.maxX ++ " " ++ intText p.bounds.maxY).toList ::
    ((p.rovers.map (·.text.toList)).zip turns).flatMap fun pair => [pair.1, pair.2]

theorem reprintLines_neat {p : Plateau} {turns : List (List Char)}
    (hin : ∀ r ∈ p.rovers, p.bounds.Contains r.cell) (ht : ∀ line ∈ turns, WholeTurns line) :
    ∀ l ∈ reprintLines p turns, Neat l ∧ '\n' ∉ l := by
  simp only [reprintLines, List.mem_cons, forall_eq_or_imp]
  refine ⟨?_, fun l hl => ?_⟩
  · rw [bounds_spaced]
    exact ⟨spaced_neat (by simp) (bounds_words _), feed_notMem_spaced (bounds_words _)⟩
  · obtain ⟨⟨position, line⟩, hpair, hl⟩ := List.mem_flatMap.mp hl
    obtain ⟨hposition, hline⟩ := List.of_mem_zip hpair
    simp only [List.mem_cons, List.not_mem_nil, or_false] at hl
    rcases hl with rfl | rfl
    · obtain ⟨r, hr, rfl⟩ := List.mem_map.mp hposition
      obtain ⟨x, y, hc, -, -⟩ := Contains.natural (hin r hr)
      have htext := text_spaced r.id x y r.heading
      rw [← hc] at htext
      rw [htext]
      exact ⟨spaced_neat (by simp) (pose_words x y _), feed_notMem_spaced (pose_words x y _)⟩
    · exact ⟨(ht _ hline).word.neat, (ht _ hline).word.feed_notMem⟩

theorem printable_natCast {n : ℕ} : Printable n ↔ n < 10 ^ digitLimit := by
  rw [Printable, Int.natAbs_natCast, Nat.pow_eq]

theorem printable_of_contains {b : Bounds} {c : Cell} (hx : b.maxX < 10 ^ digitLimit)
    (hy : b.maxY < 10 ^ digitLimit) (h : b.Contains c) : Printable c.x ∧ Printable c.y := by
  obtain ⟨x, y, rfl, hxb, hyb⟩ := Contains.natural h
  exact ⟨printable_natCast.mpr (Nat.lt_of_le_of_lt hxb hx),
    printable_natCast.mpr (Nat.lt_of_le_of_lt hyb hy)⟩

theorem text?_eq_ok {b : Bounds} (hx : b.maxX < 10 ^ digitLimit) (hy : b.maxY < 10 ^ digitLimit)
    {r : Rover} (hin : b.Contains r.cell) : r.text? = .ok r.text :=
  if_pos (printable_of_contains hx hy hin)

/-- Numbers within the digit limit can be printed. -/
theorem reprint_eq_ok {p : Plateau} (hx : p.bounds.maxX < 10 ^ digitLimit)
    (hy : p.bounds.maxY < 10 ^ digitLimit) (hin : ∀ r ∈ p.rovers, p.bounds.Contains r.cell)
    (turns : List (List Char)) : reprint p turns = .ok (joined (reprintLines p turns)) := by
  have hwx : writeInt p.bounds.maxX = .ok (intText p.bounds.maxX) :=
    if_pos (printable_natCast.mpr hx)
  have hwy : writeInt p.bounds.maxY = .ok (intText p.bounds.maxY) :=
    if_pos (printable_natCast.mpr hy)
  have hposes : p.rovers.mapM Rover.text? = .ok (p.rovers.map Rover.text) :=
    mapM_of_forall fun r hr => text?_eq_ok hx hy (hin r hr)
  simp [reprint, reprintLines, hwx, hwy, hposes, bind, Except.bind, pure, Except.pure,
    Function.comp_def]

/-- The plateau that a run ends with, with bounds within the digit limit, is printed as a script
whose run ends with it again, whichever whole turns the rovers are given. -/
theorem run_reprint {text : List Char} {p : Plateau} (h : (run text).result = .ok p)
    (hx : p.bounds.maxX < 10 ^ digitLimit) (hy : p.bounds.maxY < 10 ^ digitLimit)
    {turns : List (List Char)} (hlen : turns.length = p.rovers.length)
    (ht : ∀ line ∈ turns, WholeTurns line) :
    ∃ script, reprint p turns = .ok script ∧ (run script).result = .ok p := by
  obtain ⟨ho, hid⟩ := run_orderly h
  have hneat := reprintLines_neat ho.sound.inside ht
  have hlines : lines (joined (reprintLines p turns)) = reprintLines p turns :=
    lines_joined (List.cons_ne_nil _ _) (fun l hl => (hneat l hl).1) fun l hl => (hneat l hl).2
  refine ⟨_, reprint_eq_ok hx hy ho.sound.inside turns, ?_⟩
  obtain ⟨id, b, rs⟩ := p
  obtain rfl : id = "1" := hid
  rw [run, hlines]
  simp only [reprintLines, runLines, readPlateau_bounds hx hy, pairs_flatMap]
  have hstart : Orderly ⟨"1", b, [] ++ rs⟩ := ho
  exact runRovers_reprint hx hy hstart rfl hlen ht

theorem run_reprint_two_rovers :
    let text := "5 5\n1 2 N\nLMLMLMLMM\n3 3 E\nMMRMMRMRRM".toList
    let p : Plateau := ⟨"1", ⟨5, 5⟩, [⟨"1", ⟨1, 3⟩, .north⟩, ⟨"2", ⟨5, 1⟩, .east⟩]⟩
    let turns := [['L', 'R'], ['L', 'L', 'L', 'L']]
    (run text).result = .ok p ∧ (∀ line ∈ turns, WholeTurns line) ∧
      ∃ script, reprint p turns = .ok script ∧ (run script).result = .ok p := by
  intro text p turns
  have h : (run text).result = .ok p := by rfl
  have ht : ∀ line ∈ turns, WholeTurns line := by
    simp only [turns, List.mem_cons, List.not_mem_nil, or_false, forall_eq_or_imp, forall_eq]
    exact ⟨⟨by simp, by simp, by decide⟩, ⟨by simp, by simp, by decide⟩⟩
  have hbound : 5 < 10 ^ digitLimit := calc
    5 < 10 ^ 1 := by decide
    _ ≤ 10 ^ digitLimit := Nat.pow_le_pow_right (by decide) (by decide)
  exact ⟨h, ht, run_reprint h hbound hbound rfl ht⟩

end RoverFleet.Script
