import RoverFleet.Proofs.Containment
import RoverFleet.Proofs.Locality

/-!
# What a report shows

A simulation that went well shows its plateau and the rovers in the order of their lines, apart on
cells inside the bounds. One that failed shows the error that stopped the script, and no data.
-/
namespace RoverFleet
open Numeric

namespace Value

def field? (key : String) : Value → Option Value
  | .object fields => fields.lookup key
  | _ => none

/-- The cell that an object shows. -/
def cell? (v : Value) : Option Cell :=
  match v.field? "x", v.field? "y" with
  | some (.int x), some (.int y) => some ⟨x, y⟩
  | _, _ => none

/-- The bounds that an object shows. -/
def bounds? (v : Value) : Option Bounds :=
  match v.field? "max_x", v.field? "max_y" with
  | some (.int (.ofNat x)), some (.int (.ofNat y)) => some ⟨x, y⟩
  | _, _ => none

end Value

@[simp] theorem Rover.field?_id (r : Rover) :
    (Value.object r.fields).field? "id" = some (.string r.id) := rfl

@[simp] theorem Rover.cell?_fields (r : Rover) : (Value.object r.fields).cell? = some r.cell := rfl

@[simp] theorem Plateau.bounds?_fields (p : Plateau) :
    (Value.object p.fields).bounds? = some p.bounds := rfl

namespace Script.Stop

/-- The kind of error that a stop is; the digit limit is none. -/
def kind? : Stop → Option String
  | .malformed .. => some "ParserError"
  | .refused (.movedOutside ..) | .refused (.movedOnRover ..) => some "InvalidCommandError"
  | .refused _ => some "InvalidInitializationError"
  | .limit _ => none

/-- The message of the error, without the line. -/
def reason? : Stop → Option String
  | .malformed _ flaw => some flaw.message
  | .refused r => some r.message
  | .limit _ => none

/-- The line that is of bad form. -/
def line? : Stop → Option ℕ
  | .malformed line _ => some line
  | _ => none

end Script.Stop

namespace Report

/-- Objects that show a plateau and rovers on it, with ids from one on and apart. -/
structure ShowFleet (plateau : Value) (rovers : List Value) : Prop where
  ids : rovers.map (Value.field? "id") =
    (List.range' 1 rovers.length).map fun n => some (.string (toString n))
  places : ∃ (b : Bounds) (cells : List Cell), plateau.bounds? = some b ∧
    rovers.map Value.cell? = cells.map some ∧ (∀ c ∈ cells, b.Contains c) ∧ cells.Nodup

/-- A success on a fleet of `n` rovers. -/
structure ShowsFleet (r : Report) (source : Option String) (n : ℕ) : Prop where
  data : ∃ plateau rovers, r.data = [("plateau", plateau), ("rovers", .list rovers)] ∧
    rovers.length = n ∧ ShowFleet plateau rovers
  error : r.error = none
  remarks : ∃ remarks ∈ r.remarks, remarks.lookup "rover_count" = some (.int n) ∧
    remarks.lookup "source" = source.map .string

end Report

/-- An error that names the stop: its kind, its message, and its line if a line is of bad form. -/
structure ErrorReport.Names (e : ErrorReport) (stop : Script.Stop) (source : Option String) :
    Prop where
  kind : stop.kind? = some e.code
  reason : e.detail.lookup "reason" = stop.reason?.map .string
  line : e.detail.lookup "line_number" = stop.line?.map fun n => .int n
  line_iff : (e.detail.lookup "line_number").isSome ↔ e.code = "ParserError"
  message : ∃ reason ∈ stop.reason?, e.message =
    stop.line?.elim reason fun n => "\"" ++ reason ++ "\" at line number: " ++ toString n
  source : e.detail.lookup "source" = source.map .string

/-- A failure by a stop. -/
structure Report.ShowsStop (r : Report) (source : Option String) (stop : Script.Stop) : Prop where
  data : r.data = []
  error : ∃ e ∈ r.error, e.Names stop source
  remarks : r.remarks = none

namespace Simulation
open Script Report

theorem lookup_sourceField (source : Option String) :
    (sourceField source).lookup "source" = source.map .string := by
  cases source <;> simp [sourceField]

theorem lookup_sourceField_line_number (source : Option String) :
    (sourceField source).lookup "line_number" = none := by
  cases source <;> simp [sourceField]

theorem success_showsFleet {p : Plateau} (hp : p.Orderly) (source : Option String) :
    (success p source).ShowsFleet source p.rovers.length where
  data := by
    refine ⟨_, _, rfl, List.length_map _, ?_, p.bounds, p.rovers.map (·.cell), rfl, ?_, ?_,
      hp.sound.cells⟩
    · calc (p.rovers.map fun r => Value.object r.fields).map (Value.field? "id")
          = (p.rovers.map (·.id)).map fun id => some (.string id) := by simp [Function.comp_def]
        _ = _ := by rw [hp.numbered]; simp [Function.comp_def]
    · simp [Function.comp_def]
    · intro c hc
      obtain ⟨r, hr, rfl⟩ := List.mem_map.mp hc
      exact hp.sound.inside r hr
  error := rfl
  remarks := ⟨_, rfl, rfl, lookup_sourceField source⟩

/-- The error of a fault names the stop that it was made of. -/
theorem failure_showsStop {stop : Stop} {f : Fault} (h : Fault.ofStop stop = .ok f)
    (source : Option String) : (failure f source).ShowsStop source stop := by
  refine ⟨rfl, ⟨_, rfl, ?_⟩, rfl⟩
  cases stop with
  | malformed line flaw =>
    cases h
    exact ⟨rfl, rfl, rfl, iff_of_true rfl rfl, ⟨_, rfl, rfl⟩, lookup_sourceField source⟩
  | refused r =>
    cases h
    have hnone := lookup_sourceField_line_number source
    have hkind : (Stop.refused r).kind? = some (Fault.ofRefusal r).code ∧
        (Fault.ofRefusal r).code ≠ "ParserError" := by
      cases r <;> simp [Stop.kind?, Fault.ofRefusal, Refusal.isOfCommand]
    refine ⟨hkind.1, rfl, hnone, iff_of_false ?_ hkind.2, ⟨_, rfl, rfl⟩, lookup_sourceField source⟩
    exact Option.not_isSome_iff_eq_none.mpr hnone
  | limit l => cases h

/-- A report is a success exactly if the script runs to its end, and then it shows as many rovers as
there are pairs of lines behind the plateau line. Otherwise it shows what stopped the script. -/
theorem ofText_payload {text : List Char} {source : Option String} {r : Report}
    (h : (ofText text source).result = .ok r) :
    let result := (Script.run text).result
    r.operation = "simulate" ∧ (r.ok ↔ ∃ p, result = .ok p) ∧ (r.ok ↔ r.error = none) ∧
      (r.ok → ∃ n, (lines text).length = 2 * n + 1 ∧ r.ShowsFleet source n) ∧
      (¬ r.ok → ∃ stop, result = .error stop ∧ r.ShowsStop source stop) := by
  intro result
  cases hrun : (Script.run text).result with
  | ok p =>
    obtain rfl : success p source = r := Except.ok.inj ((ofText_ok hrun source).symm.trans h)
    have hfleet := success_showsFleet (run_orderly hrun).1 source
    exact ⟨rfl, iff_of_true rfl ⟨p, hrun⟩, iff_of_true rfl rfl,
      fun _ => ⟨_, lines_length hrun, hfleet⟩, fun hok => absurd rfl hok⟩
  | error stop =>
    cases hf : Fault.ofStop stop with
    | ok f =>
      obtain rfl : failure f source = r :=
        Except.ok.inj ((ofText_fault hrun hf source).symm.trans h)
      have hno : ¬ ∃ p, result = .ok p := by
        rintro ⟨p, hp⟩
        cases hp.symm.trans hrun
      exact ⟨rfl, iff_of_false Bool.false_ne_true hno, iff_of_false Bool.false_ne_true nofun,
        nofun, fun _ => ⟨stop, hrun, failure_showsStop hf source⟩⟩
    | error l =>
      have hlimit : (ofText text source).result = .error l := by simp [ofText, hrun, hf]
      cases h.symm.trans hlimit

/-- Two rovers from a named source, and a rover that is sent over the bounds. -/
theorem ofText_payload_two_rovers :
    let text := "5 5\n1 2 N\nLMLMLMLMM\n3 3 E\nMMRMMRMRRM".toList
    let p : Plateau := ⟨"1", ⟨5, 5⟩, [⟨"1", ⟨1, 3⟩, .north⟩, ⟨"2", ⟨5, 1⟩, .east⟩]⟩
    let other := "5 5\n0 0 W\nM".toList
    let stop := Stop.refused (.movedOutside "1" ⟨-1, 0⟩ ⟨5, 5⟩)
    ((ofText text (some "a")).result = .ok (success p (some "a")) ∧
      (success p (some "a")).ShowsFleet (some "a") 2) ∧
    ∃ r, (ofText other none).result = .ok r ∧ r.ShowsStop none stop := by
  intro text p other stop
  constructor
  · have hrun : (Script.run text).result = .ok p := by decide +kernel
    have hresult := ofText_ok hrun (some "a")
    obtain ⟨-, -, -, hok, -⟩ := ofText_payload hresult
    obtain ⟨n, hn, hfleet⟩ := hok rfl
    have hlines : (lines text).length = 5 := by decide
    obtain rfl : n = 2 := by omega
    exact ⟨hresult, hfleet⟩
  · have hrun : (Script.run other).result = .error stop := by decide +kernel
    have hresult := ofText_fault hrun rfl none
    obtain ⟨-, -, -, -, hfailed⟩ := ofText_payload hresult
    obtain ⟨stop', hstop, hshows⟩ := hfailed Bool.false_ne_true
    cases hrun.symm.trans hstop
    exact ⟨_, hresult, hshows⟩

end Simulation

end RoverFleet
