import RoverFleet.Proofs.Lossless
import RoverFleet.Proofs.Rows

/-!
# Agreement of the formats

The compact and the verbose text of a simulation that went well have one line for each rover. What
is read from their lines is what the data of the report holds, and so is what the JSON text keeps.
-/
namespace RoverFleet
open Numeric

/-- The line of a rover with its id. -/
def Rover.line (r : Rover) : String := "Rover " ++ r.id ++ " position: " ++ r.text

def Bounds.line (b : Bounds) : String := "Plateau: " ++ intText b.maxX ++ " " ++ intText b.maxY

namespace Report

/-- The pose of a rover in its styles. -/
def poseSpansOf (r : Rover) : List Span :=
  [⟨intText r.cell.x ++ " " ++ intText r.cell.y, "rover.coord"⟩, ⟨" ", ""⟩,
    ⟨r.heading.text, Format.headingStyle r.heading.text⟩]

def poseLineOf (r : Rover) : Line := { spans := poseSpansOf r }

def roverLineOf (r : Rover) : Line :=
  ⟨⟨"Rover ", ""⟩ :: ⟨r.id, "rover.id"⟩ :: ⟨" position: ", "rover.label"⟩ :: poseSpansOf r,
    "rover.label"⟩

def boundsLineOf (b : Bounds) : Line :=
  ⟨[⟨"Plateau: ", ""⟩, ⟨intText b.maxX ++ " " ++ intText b.maxY, "rover.coord"⟩], "rover.label"⟩

theorem poseLineOf_text (r : Rover) : (poseLineOf r).text = r.text := by
  simp [poseLineOf, poseSpansOf, Line.text, Rover.text, ← String.toList_inj]

theorem roverLineOf_text (r : Rover) : (roverLineOf r).text = r.line := by
  simp [roverLineOf, poseSpansOf, Line.text, Rover.line, Rover.text, ← String.toList_inj]

theorem boundsLineOf_text (b : Bounds) : (boundsLineOf b).text = b.line := by
  simp [boundsLineOf, Line.text, Bounds.line, ← String.toList_inj]

end Report

namespace Plateau

/-- One line for each rover: its coordinates and the letter of its heading. -/
def compactText (p : Plateau) : String := "\n".intercalate (p.rovers.map Rover.text)

/-- The line of the bounds, and then the line of each rover with its id. -/
def verboseText (p : Plateau) : String :=
  "\n".intercalate (p.bounds.line :: p.rovers.map Rover.line)

end Plateau

namespace Report
open Text

def readDecimal (w : List Char) : Option ℕ :=
  if Literal.isDigits w then some (ofDigits 10 w) else none

/-- The rover of the given id whose pose the words show. -/
def readPose (id : String) : List (List Char) → Option Value
  | [x, y, direction] => do
    let x ← readDecimal x
    let y ← readDecimal y
    return .object [("id", .string id), ("x", .int x), ("y", .int y),
      ("direction", .string (String.ofList direction))]
  | _ => none

/-- The rovers of compact lines, numbered from `n` on. -/
def readPoses (n : ℕ) : List (List Char) → Option (List Value)
  | [] => some []
  | line :: rest => do
    let rover ← readPose (toString n) (words line)
    return rover :: (← readPoses (n + 1) rest)

def readCompact (text : String) : Option (List Value) :=
  if text = "" then some [] else readPoses 1 (lines text.toList)

def readRoverLine (line : List Char) : Option Value :=
  match words line with
  | label :: id :: position :: pose =>
    if label = "Rover".toList ∧ position = "position:".toList then readPose (String.ofList id) pose
    else none
  | _ => none

/-- The plateau of the line, whose id is always one. -/
def readPlateauLine (line : List Char) : Option Value :=
  match words line with
  | [label, x, y] =>
    if label = "Plateau:".toList then do
      let x ← readDecimal x
      let y ← readDecimal y
      return .object [("id", .string "1"), ("max_x", .int x), ("max_y", .int y)]
    else none
  | _ => none

def readVerbose (text : String) : Option (Value × List Value) :=
  match lines text.toList with
  | first :: rest => do
    let plateau ← readPlateauLine first
    return (plateau, ← rest.mapM readRoverLine)
  | [] => none

end Report

namespace Report

theorem readDecimal_natDigits (n : ℕ) : readDecimal (natDigits n) = some n := by
  have hne : natDigits n ≠ [] := Nat.toDigits_ne_nil
  have hdigits : Literal.isDigits (natDigits n) = true := by
    simpa [Literal.isDigits, hne] using fun c hc => Literal.natDigits_isDigit hc
  rw [readDecimal, if_pos hdigits, Literal.ofDigits_natDigits]

end Report

/-- A rover with a number for its id, on a cell without negative coordinates. -/
structure Rover.Natural (r : Rover) (number x y : ℕ) : Prop where
  id : r.id = toString number
  cell : r.cell = ⟨x, y⟩

namespace Plateau
open Text

/-- The words of a rover's compact line. -/
def poseWords (x y : ℕ) (h : Heading) : List (List Char) := [natDigits x, natDigits y, [h.letter]]

def roverWords (number x y : ℕ) (h : Heading) : List (List Char) :=
  "Rover".toList :: natDigits number :: "position:".toList :: poseWords x y h

def boundsWords (b : Bounds) : List (List Char) :=
  ["Plateau:".toList, natDigits b.maxX, natDigits b.maxY]

theorem poseWords_token (x y : ℕ) (h : Heading) : ∀ w ∈ poseWords x y h, Token w := by
  simp [poseWords, natDigits_token, letter_token]

theorem roverWords_token (number x y : ℕ) (h : Heading) :
    ∀ w ∈ roverWords number x y h, Token w := by
  have hrover := label_token "Rover" (by simp) rfl
  have hposition := label_token "position:" (by simp) rfl
  simp only [roverWords, List.mem_cons, forall_eq_or_imp]
  exact ⟨hrover, natDigits_token number, hposition, poseWords_token x y h⟩

theorem boundsWords_token (b : Bounds) : ∀ w ∈ boundsWords b, Token w := by
  have hplateau := label_token "Plateau:" (by simp) rfl
  simp only [boundsWords, List.mem_cons, forall_eq_or_imp]
  exact ⟨hplateau, by simp [natDigits_token]⟩

section Lines
variable {r : Rover} {number x y : ℕ} (hr : r.Natural number x y)
include hr

theorem text_row : Row r.text.toList (poseWords x y r.heading) := by
  obtain ⟨id, cell, heading⟩ := r
  obtain rfl : cell = ⟨x, y⟩ := hr.cell
  have htext : (Rover.text ⟨id, ⟨x, y⟩, heading⟩).toList = spaced (poseWords x y heading) :=
    Script.text_spaced id x y heading
  rw [htext]
  exact spaced_row (by simp [poseWords]) (poseWords_token x y heading)

theorem roverLine_row : Row r.line.toList (roverWords number x y r.heading) := by
  obtain ⟨id, cell, heading⟩ := r
  obtain rfl : id = toString number := hr.id
  obtain rfl : cell = ⟨x, y⟩ := hr.cell
  have hid : (toString number).toList = natDigits number := String.toList_ofList
  have hline : (Rover.line ⟨toString number, ⟨x, y⟩, heading⟩).toList =
      spaced (roverWords number x y heading) := by
    rw [Rover.line, String.toList_append, Script.text_spaced]
    simp only [String.toList_append, hid]
    simp [roverWords, poseWords, spaced]
  rw [hline]
  exact spaced_row (by simp [roverWords]) (roverWords_token number x y heading)

end Lines

theorem boundsLine_row (b : Bounds) : Row b.line.toList (boundsWords b) := by
  have hline : b.line.toList = spaced (boundsWords b) := by
    simp [Bounds.line, boundsWords, Script.intText_natCast, spaced]
  rw [hline]
  exact spaced_row (by simp [boundsWords]) (boundsWords_token b)

end Plateau

namespace Report
open Plateau

theorem readPose_words {r : Rover} {number x y : ℕ} (hr : r.Natural number x y) :
    readPose r.id (poseWords x y r.heading) = some (.object r.fields) := by
  have hletter : String.ofList [r.heading.letter] = r.heading.text := rfl
  simp [readPose, poseWords, readDecimal_natDigits, Rover.fields, hr.cell, hletter]

theorem readRoverLine_eq {r : Rover} {number x y : ℕ} (hr : r.Natural number x y) :
    readRoverLine r.line.toList = some (.object r.fields) := by
  have hid : String.ofList (natDigits number) = r.id := hr.id.symm
  rw [readRoverLine, (roverLine_row hr).words, ← readPose_words hr, ← hid]
  exact if_pos ⟨rfl, rfl⟩

theorem readPlateauLine_eq {p : Plateau} (hid : p.id = "1") :
    readPlateauLine p.bounds.line.toList = some (.object p.fields) := by
  rw [readPlateauLine, (boundsLine_row p.bounds).words]
  simp [boundsWords, readDecimal_natDigits, Plateau.fields, hid]

/-- The compact lines of rovers that are numbered from `n` on. -/
theorem readPoses_eq {n : ℕ} {rs : List Rover}
    (hids : rs.map (·.id) = (List.range' n rs.length).map toString)
    (hcells : ∀ r ∈ rs, ∃ x y : ℕ, r.cell = ⟨x, y⟩) :
    readPoses n (rs.map (·.text.toList)) = some (rs.map fun r => .object r.fields) := by
  induction rs generalizing n with
  | nil => rfl
  | cons r rest ih =>
    simp only [List.map_cons, List.length_cons, List.range'_succ, List.cons.injEq] at hids
    simp only [List.mem_cons, forall_eq_or_imp] at hcells
    obtain ⟨x, y, hcell⟩ := hcells.1
    have hr : r.Natural n x y := ⟨hids.1, hcell⟩
    have hpose := readPose_words hr
    rw [hids.1] at hpose
    rw [List.map_cons, readPoses, (text_row hr).words, hpose, ih hids.2 hcells.2]
    rfl

section Printed
variable {r : Rover} (hx : Printable r.cell.x) (hy : Printable r.cell.y)
include hx hy

theorem poseSpans_eq : poseSpans (.object r.fields) = .ok (poseSpansOf r) := by
  have hwx : writeInt r.cell.x = .ok (intText r.cell.x) := if_pos hx
  have hwy : writeInt r.cell.y = .ok (intText r.cell.y) := if_pos hy
  simp [poseSpans, fieldText, Rover.fields, List.lookup, Value.text, Value.quotedText, hwx, hwy,
    Except.mapError, bind, Except.bind, pure, Except.pure, poseSpansOf]

theorem poseLine_eq : poseLine (.object r.fields) = .ok (poseLineOf r) := by
  rw [poseLine, poseSpans_eq hx hy]
  rfl

theorem roverLine_eq : roverLine (.object r.fields) = .ok (roverLineOf r) := by
  have hid : fieldText (.object r.fields) "id" = .ok r.id := rfl
  rw [roverLine, hid, poseSpans_eq hx hy]
  rfl

end Printed

theorem plateauLine_eq {p : Plateau} (source : Option String) (hx : Printable p.bounds.maxX)
    (hy : Printable p.bounds.maxY) :
    plateauLine (Simulation.success p source).data = .ok (boundsLineOf p.bounds) := by
  have hwx : writeInt p.bounds.maxX = .ok (intText p.bounds.maxX) := if_pos hx
  have hwy : writeInt p.bounds.maxY = .ok (intText p.bounds.maxY) := if_pos hy
  simp [plateauLine, Simulation.success, Plateau.fields, List.lookup, Value.text, Value.quotedText,
    hwx, hwy, Except.mapError, bind, Except.bind, pure, Except.pure, boundsLineOf]

theorem rovers_success (p : Plateau) (source : Option String) :
    rovers (Simulation.success p source).data = .ok (p.rovers.map fun r => .object r.fields) :=
  rfl

theorem writeInt_ok {n : ℤ} {s : String} (h : writeInt n = .ok s) : s = intText n := by
  unfold writeInt at h
  split_ifs at h
  exact (Except.ok.inj h).symm

theorem fieldText_cell (r : Rover) :
    fieldText (.object r.fields) "x" = (writeInt r.cell.x).mapError .limit ∧
      fieldText (.object r.fields) "y" = (writeInt r.cell.y).mapError .limit := ⟨rfl, rfl⟩

theorem poseSpans_ok {r : Rover} {spans : List Span}
    (h : poseSpans (.object r.fields) = .ok spans) : spans = poseSpansOf r := by
  rw [poseSpans, (fieldText_cell r).1, (fieldText_cell r).2] at h
  obtain ⟨direction, hdirection, h⟩ := bind_ok_iff.mp h
  obtain ⟨x, hx, h⟩ := bind_ok_iff.mp h
  obtain ⟨y, hy, h⟩ := bind_ok_iff.mp h
  cases hdirection
  cases h
  rw [writeInt_ok (mapError_ok_iff.mp hx), writeInt_ok (mapError_ok_iff.mp hy)]
  rfl

theorem poseLine_ok {r : Rover} {l : Line} (h : poseLine (.object r.fields) = .ok l) :
    l = poseLineOf r := by
  obtain ⟨spans, hspans, h⟩ := bind_ok_iff.mp h
  cases h
  rw [poseSpans_ok hspans]
  rfl

theorem roverLine_ok {r : Rover} {l : Line} (h : roverLine (.object r.fields) = .ok l) :
    l = roverLineOf r := by
  obtain ⟨id, hid, h⟩ := bind_ok_iff.mp h
  obtain ⟨pose, hpose, h⟩ := bind_ok_iff.mp h
  cases hid
  cases h
  rw [poseSpans_ok hpose]
  rfl

theorem plateauLine_ok {p : Plateau} {source : Option String} {l : Line}
    (h : plateauLine (Simulation.success p source).data = .ok l) :
    l = boundsLineOf p.bounds := by
  have hline : plateauLine (Simulation.success p source).data = (do
      let x ← (writeInt p.bounds.maxX).mapError .limit
      let y ← (writeInt p.bounds.maxY).mapError .limit
      return ⟨[⟨"Plateau: ", ""⟩, ⟨x ++ " " ++ y, "rover.coord"⟩], "rover.label"⟩) := rfl
  rw [hline] at h
  obtain ⟨x, hx, h⟩ := bind_ok_iff.mp h
  obtain ⟨y, hy, h⟩ := bind_ok_iff.mp h
  cases h
  rw [writeInt_ok (mapError_ok_iff.mp hx), writeInt_ok (mapError_ok_iff.mp hy)]
  rfl

/-- The lines of a success, if all numbers can be written. -/
theorem textLines_ok {p : Plateau} {source : Option String} {verbose : Bool} {lines : List Line}
    (h : (Simulation.success p source).textLines verbose = .ok lines) :
    lines = if verbose then boundsLineOf p.bounds :: p.rovers.map roverLineOf
      else p.rovers.map poseLineOf := by
  have hlines {f : Value → Except Misfit Line} {g : Rover → Line} {ls : List Line}
      (hf : ∀ r l, f (.object r.fields) = .ok l → l = g r)
      (h : (p.rovers.map fun r => Value.object r.fields).mapM f = .ok ls) :
      ls = p.rovers.map g := by
    rw [List.mapM_map] at h
    exact eq_map_of_mapM (fun r _ l hl => hf r l hl) h
  cases verbose with
  | false => exact hlines (fun _ _ => poseLine_ok) h
  | true =>
    have hverbose : (Simulation.success p source).textLines true = (do
        let first ← plateauLine (Simulation.success p source).data
        let rest ← (p.rovers.map fun r => Value.object r.fields).mapM roverLine
        return first :: rest) := rfl
    rw [hverbose] at h
    obtain ⟨first, hfirst, h⟩ := bind_ok_iff.mp h
    obtain ⟨rest, hrest, h⟩ := bind_ok_iff.mp h
    cases h
    rw [plateauLine_ok hfirst, hlines (fun _ _ => roverLine_ok) hrest]
    rfl

section Success
variable {p : Plateau} (hp : p.Orderly) (hx : p.bounds.maxX < 10 ^ digitLimit)
  (hy : p.bounds.maxY < 10 ^ digitLimit)

include hp in
theorem natural_of_mem {r : Rover} (hr : r ∈ p.rovers) :
    ∃ number x y : ℕ, r.Natural number x y := by
  have hid : r.id ∈ (List.range' 1 p.rovers.length).map toString :=
    hp.numbered ▸ List.mem_map_of_mem hr
  obtain ⟨number, -, hnumber⟩ := List.mem_map.mp hid
  obtain ⟨x, y, hcell, -, -⟩ := Script.Contains.natural (hp.sound.inside r hr)
  exact ⟨number, x, y, hnumber.symm, hcell⟩

include hp in
theorem compact_rows : ∀ l ∈ p.rovers.map Rover.text, ∃ ws, Text.Row l.toList ws := by
  intro l hl
  obtain ⟨r, hr, rfl⟩ := List.mem_map.mp hl
  obtain ⟨_, _, _, hnatural⟩ := natural_of_mem hp hr
  exact ⟨_, text_row hnatural⟩

include hp in
theorem verbose_rows : ∀ l ∈ p.bounds.line :: p.rovers.map Rover.line,
    ∃ ws, Text.Row l.toList ws := by
  intro l hl
  rcases List.mem_cons.mp hl with rfl | hl
  · exact ⟨_, boundsLine_row p.bounds⟩
  · obtain ⟨r, hr, rfl⟩ := List.mem_map.mp hl
    obtain ⟨_, _, _, hnatural⟩ := natural_of_mem hp hr
    exact ⟨_, roverLine_row hnatural⟩

include hp in
theorem compactText_eq_empty_iff : p.compactText = "" ↔ p.rovers = [] := by
  refine ⟨fun hempty => ?_, fun hnil => by simp [Plateau.compactText, hnil]⟩
  by_contra hne
  exact rows_ne_empty (by simpa using hne) (compact_rows hp) hempty

include hp in
theorem readCompact_compactText :
    readCompact p.compactText = some (p.rovers.map fun r => .object r.fields) := by
  rw [readCompact]
  split_ifs with hempty
  · simp [(compactText_eq_empty_iff hp).mp hempty]
  · have hne : p.rovers ≠ [] := fun hnil => hempty ((compactText_eq_empty_iff hp).mpr hnil)
    have hcells : ∀ r ∈ p.rovers, ∃ x y : ℕ, r.cell = ⟨x, y⟩ := by
      intro r hr
      obtain ⟨_, x, y, hnatural⟩ := natural_of_mem hp hr
      exact ⟨x, y, hnatural.cell⟩
    rw [Plateau.compactText, lines_rows (by simpa using hne) (compact_rows hp), List.map_map]
    exact readPoses_eq hp.numbered hcells

include hp in
theorem readVerbose_verboseText (hid : p.id = "1") :
    readVerbose p.verboseText =
      some (.object p.fields, p.rovers.map fun r => .object r.fields) := by
  have hrovers : (p.rovers.map fun r => r.line.toList).mapM readRoverLine =
      some (p.rovers.map fun r => .object r.fields) := by
    rw [List.mapM_map]
    refine mapM_of_forall fun r hr => ?_
    obtain ⟨_, _, _, hnatural⟩ := natural_of_mem hp hr
    exact readRoverLine_eq hnatural
  rw [readVerbose, Plateau.verboseText, lines_rows (by simp) (verbose_rows hp), List.map_cons,
    List.map_map]
  change (readPlateauLine p.bounds.line.toList >>= fun plateau =>
    (p.rovers.map fun r => r.line.toList).mapM readRoverLine >>= fun rs => pure (plateau, rs)) = _
  rw [readPlateauLine_eq hid, hrovers]
  rfl

theorem poseLines_text (rs : List Rover) :
    (rs.map poseLineOf).map Line.text = rs.map Rover.text := by
  rw [List.map_map]
  exact List.map_congr_left fun r _ => poseLineOf_text r

theorem verboseLines_text (p : Plateau) :
    (boundsLineOf p.bounds :: p.rovers.map roverLineOf).map Line.text =
      p.bounds.line :: p.rovers.map Rover.line := by
  rw [List.map_cons, boundsLineOf_text, List.map_map]
  exact congrArg _ (List.map_congr_left fun r _ => roverLineOf_text r)

include hp in
/-- The lines of a success are rows of words. -/
theorem textLines_rows {source : Option String} {verbose : Bool} {lines : List Line}
    (h : (Simulation.success p source).textLines verbose = .ok lines) :
    ∀ l ∈ lines.map Line.text, ∃ ws, Text.Row l.toList ws := by
  rw [textLines_ok h]
  split_ifs
  · rw [verboseLines_text]
    exact verbose_rows hp
  · rw [poseLines_text]
    exact compact_rows hp

section Texts
variable (source : Option String)
include hp hx hy

theorem compactLines_success :
    compactLines (Simulation.success p source).data = .ok (p.rovers.map poseLineOf) := by
  have hposes : (p.rovers.map fun r => Value.object r.fields).mapM poseLine =
      .ok (p.rovers.map poseLineOf) := by
    rw [List.mapM_map]
    refine mapM_of_forall fun r hr => ?_
    obtain ⟨hrx, hry⟩ := Script.printable_of_contains hx hy (hp.sound.inside r hr)
    exact poseLine_eq hrx hry
  rw [compactLines, rovers_success]
  exact hposes

theorem verboseLines_success :
    verboseLines (Simulation.success p source).data =
      .ok (boundsLineOf p.bounds :: p.rovers.map roverLineOf) := by
  have hrovers : (p.rovers.map fun r => Value.object r.fields).mapM roverLine =
      .ok (p.rovers.map roverLineOf) := by
    rw [List.mapM_map]
    refine mapM_of_forall fun r hr => ?_
    obtain ⟨hrx, hry⟩ := Script.printable_of_contains hx hy (hp.sound.inside r hr)
    exact roverLine_eq hrx hry
  have hbounds := plateauLine_eq source (Script.printable_natCast.mpr hx)
    (Script.printable_natCast.mpr hy)
  rw [verboseLines, hbounds, rovers_success]
  change ((p.rovers.map fun r => Value.object r.fields).mapM roverLine).map
    (boundsLineOf p.bounds :: ·) = _
  rw [hrovers]
  rfl

variable {c : Console} (hc : c.Plain) {width : Option ℤ} (hwidth : ∀ n ∈ width, 0 ≤ n)
include hc hwidth

theorem format_compact :
    (Simulation.success p source).format c { width } = .ok p.compactText := by
  have hlines : (Simulation.success p source).textLines false = .ok (p.rovers.map poseLineOf) :=
    compactLines_success hp hx hy source
  have htexts := poseLines_text p.rovers
  have hrows : ∀ l ∈ (p.rovers.map poseLineOf).map Line.text, ∃ ws, Text.Row l.toList ws :=
    htexts ▸ compact_rows hp
  rw [format_of_lines hlines, printLines_eq hc (one_le_pageWidth hwidth) hrows, htexts]
  rfl

theorem format_verbose :
    (Simulation.success p source).format c { verbose := true, width } = .ok p.verboseText := by
  have hlines : (Simulation.success p source).textLines true =
      .ok (boundsLineOf p.bounds :: p.rovers.map roverLineOf) :=
    verboseLines_success hp hx hy source
  have htexts := verboseLines_text p
  have hrows : ∀ l ∈ (boundsLineOf p.bounds :: p.rovers.map roverLineOf).map Line.text,
      ∃ ws, Text.Row l.toList ws := htexts ▸ verbose_rows hp
  rw [format_of_lines hlines, printLines_eq hc (one_le_pageWidth hwidth) hrows, htexts]
  rfl

end Texts

end Success

open Simulation

/-- The formats of a simulation that went well, on a console without colours and with bounds within
the digit limit: a compact text
with one line for each rover, a verbose text with the same lines behind the line of the bounds, and
a JSON text that keeps the report. The lines of the first two hold the data of the report. -/
theorem formats_agree {c : Console} (hc : c.Plain) {text : List Char} {source : Option String}
    {r : Report} {width : Option ℤ} (h : (ofText text source).result = .ok r) (hok : r.ok = true)
    (hbounds : ∀ p, (Script.run text).result = .ok p →
      p.bounds.maxX < 10 ^ digitLimit ∧ p.bounds.maxY < 10 ^ digitLimit)
    (hwidth : ∀ n ∈ width, 0 ≤ n) :
    ∃ p, (Script.run text).result = .ok p ∧ r = success p source ∧
      r.format c { width } = .ok p.compactText ∧ (p.compactText = "" ↔ p.rovers = []) ∧
      r.format c { verbose := true, width } = .ok p.verboseText ∧
      ∃ plateau rovers json, r.data.lookup "plateau" = some plateau ∧
        r.data.lookup "rovers" = some (.list rovers) ∧
        readCompact p.compactText = some rovers ∧
        readVerbose p.verboseText = some (plateau, rovers) ∧
        r.format c { json := true, width } = .ok json ∧ r.KeptBy json := by
  rcases ofText_ok_cases h with ⟨p, hrun, rfl⟩ | ⟨f, rfl⟩
  · obtain ⟨hx, hy⟩ := hbounds p hrun
    obtain ⟨hp, hid⟩ := Script.run_orderly hrun
    have hplain := success_plain p source
    obtain ⟨json, hjson, hkept⟩ := exists_keptBy c { json := true, width } rfl hplain
    exact ⟨p, hrun, rfl, format_compact hp hx hy source hc hwidth, compactText_eq_empty_iff hp,
      format_verbose hp hx hy source hc hwidth, _, _, json, rfl, rfl, readCompact_compactText hp,
      readVerbose_verboseText hp hid, hjson, hkept⟩
  · cases hok

/-- Two rovers on a page of twenty columns. -/
theorem formats_agree_two_rovers :
    let text := "5 5\n1 2 N\nLMLMLMLMM\n3 3 E\nMMRMMRMRRM".toList
    let p : Plateau := ⟨"1", ⟨5, 5⟩, [⟨"1", ⟨1, 3⟩, .north⟩, ⟨"2", ⟨5, 1⟩, .east⟩]⟩
    p.compactText = "1 3 N\n5 1 E" ∧
      p.verboseText = "Plateau: 5 5\nRover 1 position: 1 3 N\nRover 2 position: 5 1 E" ∧
      (ofText text none).result = .ok (success p none) ∧
      ∃ q, (Script.run text).result = .ok q ∧ success p none = success q none ∧
        (success p none).format .standard { width := some 20 } = .ok q.compactText ∧
        (success p none).format .standard { verbose := true, width := some 20 } =
          .ok q.verboseText := by
  intro text p
  have hrun : (Script.run text).result = .ok p := by rfl
  have hreport := ofText_ok hrun none
  have hlimit : 5 < 10 ^ digitLimit := calc
    5 < 10 ^ 1 := by decide
    _ ≤ 10 ^ digitLimit := Nat.pow_le_pow_right (by decide) (by decide)
  have hbounds : ∀ q, (Script.run text).result = .ok q →
      q.bounds.maxX < 10 ^ digitLimit ∧ q.bounds.maxY < 10 ^ digitLimit := by
    intro q hq
    obtain rfl := Except.ok.inj (hrun.symm.trans hq)
    exact ⟨hlimit, hlimit⟩
  have hwidth : ∀ n ∈ some (20 : ℤ), 0 ≤ n := by simp
  obtain ⟨q, hq, hsuccess, hcompact, -, hverbose, -⟩ :=
    formats_agree Console.standard_plain hreport rfl hbounds hwidth
  exact ⟨by decide +kernel, by decide +kernel, hreport, q, hq, hsuccess, hcompact, hverbose⟩

end Report

end RoverFleet
