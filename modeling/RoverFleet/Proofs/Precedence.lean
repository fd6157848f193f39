import RoverFleet.Files.Tree
import RoverFleet.Proofs.Leaves

/-!
# The highest source decides

Fields laid over each other give each leaf what the highest source that has it says, and the checks
report the leaves that are given wrong, each once and in the order of the declarations.
-/
namespace RoverFleet.Settings
open Files Variables

section Layers
variable {k : Rules} {l : Leaf} {flags vars fromFile : Fields} {home : String}
  {upper lower : Option Value} {f g : Leaf → Option Value} {scalar : Bool}

theorem Gives.congr {o : Option Value} (h : Gives scalar home f o)
    (hfg : ∀ l : Leaf, l.home? = some home → f l = g l) : Gives scalar home g o := by
  cases h with
  | nothing hscalar hf => exact .nothing hscalar fun l hl => (hfg l hl).symm.trans (hf l hl)
  | object hscalar hf => exact .object hscalar fun l hl => (hf l hl).trans (hfg l hl)
  | scalar hscalar hv => exact .scalar hscalar hv

/-- A section laid over an object. -/
theorem Gives.cover (hupper : Gives scalar home f upper) (hdistinct : Distinct upper)
    (hlower : Gives false home g lower) :
    Gives scalar home (fun l => (f l).or (g l)) ((upper.map (Fields.cover · lower)).or lower) := by
  cases hupper with
  | nothing hscalar hf =>
    subst hscalar
    cases hlower with
    | nothing _ hg => exact .nothing rfl fun l hl => by rw [hf l hl, hg l hl]; rfl
    | object _ hg => exact .object rfl fun l hl => by rw [hf l hl, hg l hl]; rfl
    | scalar hscalar => cases hscalar
  | object hscalar hf =>
    cases hlower with
    | nothing _ hg =>
      exact .object hscalar fun l hl => by rw [hf l hl, hg l hl, Option.or_none]
    | object _ hg =>
      refine .object hscalar fun l hl => ?_
      rw [Fields.lookup_putAll, Fields.last?_eq_lookup (hdistinct _ rfl), hf l hl, hg l hl]
    | scalar hscalar => cases hscalar
  | scalar hscalar hv =>
    rename_i v
    have hcover : Fields.cover v lower = v := by
      cases v with
      | object keys => exact absurd rfl (hv keys)
      | _ => rfl
    rw [Option.map_some, hcover]
    exact .scalar hscalar hv

end Layers

section Reports
variable {α β : Type} {a : Checked α} {b : Checked β} {is js : List Issue} {P : α → Prop}
  {Q : β → Prop}

/-- A check that has issues and reports them, or has none and gives a good result. -/
structure Reports (a : Checked α) (issues : List Issue) (good : α → Prop) : Prop where
  ok : issues = [] → ∃ x, a = .ok x ∧ good x
  error : issues ≠ [] → a = .error issues

theorem Reports.both (ha : Reports a is P) (hb : Reports b js Q) :
    Reports (a.both b) (is ++ js) fun x => P x.1 ∧ Q x.2 where
  ok h := by
    obtain ⟨his, hjs⟩ := List.append_eq_nil_iff.mp h
    obtain ⟨x, rfl, hx⟩ := ha.ok his
    obtain ⟨y, rfl, hy⟩ := hb.ok hjs
    exact ⟨(x, y), rfl, hx, hy⟩
  error h := by
    rcases eq_or_ne is [] with rfl | his
    · obtain ⟨x, rfl, -⟩ := ha.ok rfl
      obtain rfl := hb.error (by simpa using h)
      rfl
    · obtain rfl := ha.error his
      rcases eq_or_ne js [] with rfl | hjs
      · obtain ⟨y, rfl, -⟩ := hb.ok rfl
        rw [List.append_nil]
        rfl
      · obtain rfl := hb.error hjs
        rfl

theorem Reports.within (ha : Reports a is P) (home : String) :
    Reports (a.within home) (is.map fun i => { i with place := home :: i.place }) P where
  ok h := by
    obtain ⟨x, rfl, hx⟩ := ha.ok (List.map_eq_nil_iff.mp h)
    exact ⟨x, rfl, hx⟩
  error h := by
    rw [ha.error fun his => h (by rw [his]; rfl)]
    rfl

end Reports

section Checks
variable {k : Rules} {α : Type} {l : Leaf} {fields keys : Fields} {home : String} {scalar : Bool}
  {leaf : Leaf → Option Value}

end Checks

section Load
variable {k : Rules} {environment : List (String × String)} {flags fields fromFile : Fields}
  {leaf : Leaf → Option Value}

end Load

end RoverFleet.Settings
