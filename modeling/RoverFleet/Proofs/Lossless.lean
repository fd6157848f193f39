import RoverFleet.Proofs.Containment
import RoverFleet.Proofs.Rereading
import RoverFleet.Report.Format

/-!
# Reports written as JSON

The JSON text of a report is a document that denotes the report and nothing else, when its data,
the detail of its error and its remarks are trees. The reports of simulations are of this kind.
-/
namespace RoverFleet

/-- A report whose data, error detail and remarks are trees. -/
structure Report.Plain (r : Report) : Prop where
  data : (Value.object r.data).Tree
  detail : ∀ e ∈ r.error, (Value.object e.detail).Tree
  remarks : ∀ fields ∈ r.remarks, (Value.object fields).Tree

/-- A text that is a document of the report and of no other value, and from which the report is
read again. -/
structure Report.KeptBy (r : Report) (text : String) : Prop where
  document : Json.Document text.toList r.toValue
  only : ∀ v, Json.Document text.toList v → v = r.toValue
  read : Json.parseWithin? none text = some r.toValue
  report : ∃ fields, r.toValue = .object fields ∧ Report.ofFields fields = .ok r

namespace Value

theorem Tree.fields {fields : Fields} (hkeys : (fields.map Prod.fst).Nodup)
    (h : ∀ v ∈ fields.map Prod.snd, v.Tree) : (Value.object fields).Tree :=
  .object hkeys fun _ hf => h _ (List.mem_map_of_mem hf)

theorem Tree.orNull {α : Type} {f : α → Value} {o : Option α} (h : ∀ a ∈ o, (f a).Tree) :
    ((o.map f).getD .null).Tree := by
  cases o with
  | none => exact .null
  | some a => exact h a rfl

end Value

namespace Report
variable {r : Report}

theorem Plain.error (h : r.Plain) : ∀ e ∈ r.error, e.toValue.Tree := by
  intro e he
  refine .fields (by simp) ?_
  simpa using ⟨.string e.code, .string e.message, h.detail e he⟩

theorem Plain.toValue (h : r.Plain) : r.toValue.Tree := by
  refine .fields (by simp) ?_
  simpa using ⟨.bool r.ok, .string r.operation, h.data, .orNull h.error, .orNull h.remarks⟩

/-- A report is described by its own fields. -/
theorem ofFields_toValue (r : Report) :
    ∃ fields, r.toValue = .object fields ∧ ofFields fields = .ok r := by
  obtain ⟨ok, operation, data, error, remarks⟩ := r
  refine ⟨_, rfl, ?_⟩
  cases error <;> cases remarks <;> rfl

theorem Plain.keptBy_render (h : r.Plain) : r.KeptBy (Json.render Json.indented r.toValue) where
  document := Json.document_render Json.indented_regular h.toValue
  only _ hv := hv.unique (Json.document_render Json.indented_regular h.toValue)
  read := by
    have hdocument := Json.document_render Json.indented_regular h.toValue
    rw [← String.ofList_toList (s := Json.render Json.indented r.toValue)]
    exact hdocument.parseWithin
  report := ofFields_toValue r

theorem exists_keptBy (c : Console) (f : Format) (hf : f.json = true) (h : r.Plain) :
    ∃ text, r.format c f = .ok text ∧ r.KeptBy text := by
  refine ⟨Json.render Json.indented r.toValue, ?_, h.keptBy_render⟩
  rw [format, if_pos hf]

end Report

namespace Simulation

theorem source_tree (source : Option String) : ∀ f ∈ sourceField source, f.2.Tree := by
  intro f hf
  cases source with
  | none => cases hf
  | some s =>
    obtain rfl := List.mem_singleton.mp hf
    exact .string s

theorem failure_plain (f : Fault) (source : Option String) : (failure f source).Plain where
  data := .fields (by simp [failure]) (by simp [failure])
  detail := by
    intro e he
    obtain rfl := Option.some.inj he
    refine .object ?_ ?_
    · cases f.line <;> cases source <;> simp [sourceField]
    · intro field hfield
      rcases List.mem_cons.mp hfield with rfl | hfield
      · exact .string f.reason
      · rcases List.mem_append.mp hfield with hline | hsource
        · obtain ⟨n, -, rfl⟩ := Option.map_eq_some_iff.mp (Option.mem_toList.mp hline)
          exact .int n
        · exact source_tree source field hsource
  remarks := by simp [failure]

theorem success_plain (p : Plateau) (source : Option String) : (success p source).Plain where
  data := by
    have hrovers : ∀ r ∈ p.rovers, (Value.object r.fields).Tree := by
      intro r _
      refine .fields (by simp [Rover.fields]) ?_
      simpa [Rover.fields] using
        ⟨.string r.id, .int r.cell.x, .int r.cell.y, .string r.heading.text⟩
    have hplateau : (Value.object p.fields).Tree := by
      refine .fields (by simp [Plateau.fields]) ?_
      simpa [Plateau.fields] using ⟨.string p.id, .int p.bounds.maxX, .int p.bounds.maxY⟩
    refine .fields (by simp [success]) ?_
    simpa [success] using ⟨hplateau, .list (by simpa using hrovers)⟩
  detail := by simp [success]
  remarks := by
    intro fields hfields
    obtain rfl := Option.some.inj hfields
    refine .object ?_ ?_
    · cases source <;> simp [sourceField]
    · intro field hfield
      rcases List.mem_cons.mp hfield with rfl | hfield
      · exact .int _
      · exact source_tree source field hfield

/-- A report of a simulation tells of the plateau that its run ended with, or of a fault. -/
theorem ofText_ok_cases {text : List Char} {source : Option String} {r : Report}
    (h : (ofText text source).result = .ok r) :
    (∃ p, (Script.run text).result = .ok p ∧ r = success p source) ∨
      ∃ f, r = failure f source := by
  cases hrun : (Script.run text).result with
  | ok p => exact Or.inl ⟨p, rfl, Except.ok.inj (h.symm.trans (ofText_ok hrun source))⟩
  | error stop =>
    cases hf : Fault.ofStop stop with
    | ok f => exact Or.inr ⟨f, Except.ok.inj (h.symm.trans (ofText_fault hrun hf source))⟩
    | error l =>
      have hlimit : (ofText text source).result = .error l := by simp [ofText, hrun, hf]
      cases h.symm.trans hlimit

/-- Every report of a simulation is of plain data. -/
theorem ofText_plain {text : List Char} {source : Option String} {r : Report}
    (h : (ofText text source).result = .ok r) : r.Plain := by
  rcases ofText_ok_cases h with ⟨p, -, rfl⟩ | ⟨f, rfl⟩
  · exact success_plain p source
  · exact failure_plain f source

end Simulation

namespace Report
open Simulation

/-- In the JSON format a report of plain data has a text that keeps it, and so has every report of
a simulation. -/
theorem format_json_kept (c : Console) (f : Format) (hf : f.json = true) :
    (∀ r : Report, r.Plain → ∃ text, r.format c f = .ok text ∧ r.KeptBy text) ∧
      ∀ script source r, (ofText script source).result = .ok r →
        ∃ text, r.format c f = .ok text ∧ r.KeptBy text :=
  ⟨fun _ hr => exists_keptBy c f hf hr, fun _ _ _ hr => exists_keptBy c f hf (ofText_plain hr)⟩

/-- A report with nested and empty parts, and the report of a commands line in which a quotation
mark stands. -/
theorem format_json_kept_quotation_mark :
    let f : Format := { json := true }
    let r : Report :=
      { ok := true, operation := "simulate", error := none, remarks := some []
        data := [("\"\\\x00",
          .list [.object [], .list [], .int (-(10 ^ 30)), .string "\n\x1f\u2028"])] }
    let fault : Fault := .ofFlaw 3 (.command 1 '"')
    (r.Plain ∧ ∃ text, r.format .standard f = .ok text ∧ r.KeptBy text) ∧
      (ofText "5 5\n0 0 N\nL\"".toList (some "a\\b")).result = .ok (failure fault (some "a\\b")) ∧
      ∃ text, (failure fault (some "a\\b")).format .standard f = .ok text ∧
        (failure fault (some "a\\b")).KeptBy text := by
  intro f r fault
  have hlist : ∀ v ∈ [Value.object [], .list [], .int (-(10 ^ 30)), .string "\n\x1f\u2028"],
      v.Tree := by
    simpa using ⟨.fields (by simp) (by simp), .list (by simp), .int _, .string _⟩
  have hr : r.Plain :=
    ⟨.fields (by simp [r]) (by simpa [r] using .list hlist), by simp [r],
      by simpa [r] using .fields (by simp) (by simp)⟩
  have hrun : (Script.run "5 5\n0 0 N\nL\"".toList).result =
      .error (.malformed 3 (.command 1 '"')) := by decide +kernel
  have hreport := ofText_fault hrun rfl (some "a\\b")
  exact ⟨⟨hr, (format_json_kept _ f rfl).1 r hr⟩, hreport,
    (format_json_kept _ f rfl).2 _ _ _ hreport⟩

end Report

end RoverFleet
