import Mathlib
import RoverFleet.Plateau

/-!
# Sound plateaus

A plateau is sound if its rovers have different ids and stand on different cells inside its
bounds. Registering a rover keeps a plateau sound if the rover's cell is inside and no rover of
another id stands there; placing a rover and executing a command both see to that.
-/
namespace RoverFleet

namespace Plateau

theorem mem_put_self (r : Rover) (l : List Rover) : r ∈ put r l := by
  induction l with
  | nil => simp [put]
  | cons s rest ih =>
    simp only [put]
    split <;> simp [ih]

theorem mem_put {r s : Rover} {l : List Rover} (h : s ∈ put r l) : s = r ∨ s ∈ l := by
  induction l with
  | nil => simpa [put] using h
  | cons t rest ih =>
    simp only [put] at h
    split at h
    · rcases List.mem_cons.mp h with rfl | hs
      · exact Or.inl rfl
      · exact Or.inr (by simp [hs])
    · rcases List.mem_cons.mp h with rfl | hs
      · exact Or.inr (by simp)
      · rcases ih hs with he | hm
        · exact Or.inl he
        · exact Or.inr (by simp [hm])

/-- Rovers of other ids are left as they are. -/
theorem mem_put_of_id_ne {r s : Rover} {l : List Rover} (h : s.id ≠ r.id) :
    s ∈ put r l ↔ s ∈ l := by
  induction l with
  | nil => simp only [put, List.mem_singleton, List.not_mem_nil, iff_false]; rintro rfl; exact h rfl
  | cons t rest ih =>
    have hsr : s ≠ r := by rintro rfl; exact h rfl
    simp only [put]
    split
    · next ht =>
      have hst : s ≠ t := by rintro rfl; exact h ht
      simp [hsr, hst]
    · simp [ih]

theorem put_of_id_notMem {r : Rover} {l : List Rover} (h : r.id ∉ l.map (·.id)) :
    put r l = l ++ [r] := by
  induction l with
  | nil => rfl
  | cons s rest ih =>
    simp only [List.map_cons, List.mem_cons, not_or] at h
    simp [put, ih h.2, Ne.symm h.1]

theorem put_ids {r : Rover} {l : List Rover} (h : r.id ∈ l.map (·.id)) :
    (put r l).map (·.id) = l.map (·.id) := by
  induction l with
  | nil => simp at h
  | cons s rest ih =>
    simp only [put]
    split
    · next hs => simp [hs]
    · next hs =>
      simp only [List.map_cons, List.mem_cons] at h
      simp only [List.map_cons, ih (h.resolve_left (Ne.symm hs))]

theorem put_put {r s : Rover} (l : List Rover) (h : s.id = r.id) : put r (put s l) = put r l := by
  induction l with
  | nil => simp [put, h]
  | cons t rest ih =>
    by_cases ht : t.id = s.id
    · simp [put, h, ht]
    · have ht' : t.id ≠ r.id := h ▸ ht
      simp [put, ht, ht', ih]

/-- A symmetric relation between all rovers goes over to a list with one more put in. -/
theorem pairwise_put {R : Rover → Rover → Prop} (hR : ∀ a b, R a b → R b a) {r : Rover}
    {l : List Rover} (hid : (l.map (·.id)).Nodup) (hl : l.Pairwise R)
    (hr : ∀ s ∈ l, s.id ≠ r.id → R s r) : (put r l).Pairwise R := by
  induction l with
  | nil => simp [put]
  | cons s rest ih =>
    simp only [List.map_cons, List.nodup_cons] at hid
    obtain ⟨hs, hrest⟩ := List.pairwise_cons.mp hl
    simp only [put]
    split
    · next he =>
      -- the ids differ, so no later rover is replaced as well
      refine List.pairwise_cons.mpr ⟨fun t ht => hR _ _ (hr t (by simp [ht]) ?_), hrest⟩
      intro htr
      exact hid.1 (List.mem_map.mpr ⟨t, ht, htr.trans he.symm⟩)
    · next he =>
      refine List.pairwise_cons.mpr ⟨fun t ht => ?_, ?_⟩
      · rcases mem_put ht with rfl | ht
        · exact hr s (by simp) he
        · exact hs t ht
      · exact ih hid.2 hrest fun t ht => hr t (by simp [ht])

@[simp] theorem register_id (p : Plateau) (r : Rover) : (p.register r).id = p.id := rfl

@[simp] theorem register_bounds (p : Plateau) (r : Rover) : (p.register r).bounds = p.bounds := rfl

theorem register_register (p : Plateau) {r s : Rover} (h : s.id = r.id) :
    (p.register s).register r = p.register r := by
  simp [register, put_put p.rovers h]

/-- Where a rover of the same id stands does not matter to what is in a rover's way. -/
theorem occupied_register {p : Plateau} {s : Rover} {id : String} (h : s.id = id) (c : Cell) :
    (p.register s).Occupied c (some id) ↔ p.Occupied c (some id) := by
  subst h
  constructor
  · rintro ⟨t, ht, hid, hc⟩
    exact ⟨t, (mem_put_of_id_ne fun he => hid (congrArg some he)).mp ht, hid, hc⟩
  · rintro ⟨t, ht, hid, hc⟩
    exact ⟨t, (mem_put_of_id_ne fun he => hid (congrArg some he)).mpr ht, hid, hc⟩

theorem placing_ok_iff {p : Plateau} {r : Rover} :
    p.placing r = .ok () ↔ p.bounds.Contains r.cell ∧ ¬ p.Occupied r.cell none := by
  unfold placing
  split_ifs with hin hocc <;> simp_all

theorem Occupied.of_exclude {p : Plateau} {c : Cell} {e : Option String} (h : p.Occupied c e) :
    p.Occupied c none := by
  obtain ⟨r, hr, -, hc⟩ := h
  exact ⟨r, hr, by simp, hc⟩

structure Sound (p : Plateau) : Prop where
  ids : (p.rovers.map (·.id)).Nodup
  inside : ∀ r ∈ p.rovers, p.bounds.Contains r.cell
  cells : (p.rovers.map (·.cell)).Nodup

namespace Sound

theorem empty (id : String) (b : Bounds) : Sound ⟨id, b, []⟩ :=
  ⟨List.nodup_nil, by simp, List.nodup_nil⟩

/-- No rover of a sound plateau stands in the way of another. -/
theorem not_occupied {p : Plateau} (hp : p.Sound) {r : Rover} (hr : r ∈ p.rovers) :
    ¬ p.Occupied r.cell (some r.id) := by
  rintro ⟨s, hs, hid, hc⟩
  have he : s = r := List.inj_on_of_nodup_map hp.cells hs hr hc
  exact hid (congrArg (fun t : Rover => some t.id) he)

theorem register {p : Plateau} (hp : p.Sound) {r : Rover} (hin : p.bounds.Contains r.cell)
    (hfree : ¬ p.Occupied r.cell (some r.id)) : (p.register r).Sound where
  ids := by
    refine List.pairwise_map.mpr ?_
    exact pairwise_put (fun _ _ => Ne.symm) hp.ids (List.pairwise_map.mp hp.ids) fun _ _ h => h
  inside s hs := by
    rcases mem_put hs with rfl | hs
    · exact hin
    · exact hp.inside s hs
  cells := by
    refine List.pairwise_map.mpr ?_
    refine pairwise_put (fun _ _ => Ne.symm) hp.ids (List.pairwise_map.mp hp.cells) ?_
    intro s hs hid hc
    exact hfree ⟨s, hs, fun he => hid (Option.some.inj he), hc⟩

theorem place {p : Plateau} (hp : p.Sound) {r : Rover} (h : p.placing r = .ok ()) :
    (p.register r).Sound := by
  obtain ⟨hin, hfree⟩ := placing_ok_iff.mp h
  exact hp.register hin fun ho => hfree ho.of_exclude

end Sound

end Plateau

namespace Rover

theorem ahead_ne (r : Rover) : r.ahead ≠ r.cell := by
  obtain ⟨id, ⟨x, y⟩, heading⟩ := r
  cases heading <;> simp [ahead, Heading.stepX, Heading.stepY]

theorem move_ok_iff {p : Plateau} {r r' : Rover} :
    r.move (some p) = .ok r' ↔ p.bounds.Contains r.ahead ∧ ¬ p.Occupied r.ahead (some r.id) ∧
      { r with cell := r.ahead } = r' := by
  simp only [move, Plateau.moving]
  split_ifs with hin hocc <;> simp_all [bind, Except.bind, pure, Except.pure]

/-- The pose after one command that nothing hinders. -/
def after (c : Command) (r : Rover) : Rover :=
  match c with
  | .left => { r with heading := r.heading.left }
  | .right => { r with heading := r.heading.right }
  | .move => { r with cell := r.ahead }

@[simp] theorem after_id (c : Command) (r : Rover) : (r.after c).id = r.id := by cases c <;> rfl

/-- A command that is executed, on a plateau or without one, does what nothing hinders. -/
theorem execute_after {site : Option Plateau} {c : Command} {r r' : Rover}
    (h : r.execute site c = .ok r') : r' = r.after c := by
  cases c with
  | left => cases h; rfl
  | right => cases h; rfl
  | move =>
    cases site with
    | none => cases h; rfl
    | some p => obtain ⟨-, -, rfl⟩ := move_ok_iff.mp h; rfl

theorem execute_id {site : Option Plateau} {c : Command} {r r' : Rover}
    (h : r.execute site c = .ok r') : r'.id = r.id := by
  rw [execute_after h, after_id]

/-- Plateaus of the same bounds where other rovers take the same cells let a rover do the same. -/
theorem execute_congr {p q : Plateau} {r : Rover} (hb : p.bounds = q.bounds)
    (hocc : ∀ c, p.Occupied c (some r.id) ↔ q.Occupied c (some r.id)) (c : Command) :
    r.execute (some p) c = r.execute (some q) c := by
  cases c with
  | left => rfl
  | right => rfl
  | move => simp [execute, move, Plateau.moving, hb, hocc]

/-- A rover's own entry, or a former one of its id, does not matter to what it can do. -/
theorem execute_register {p : Plateau} {r s : Rover} (h : s.id = r.id) (c : Command) :
    r.execute (some (p.register s)) c = r.execute (some p) c :=
  execute_congr (Plateau.register_bounds p s) (Plateau.occupied_register h) c

end Rover

theorem Plateau.Sound.execute {p : Plateau} (hp : p.Sound) {r r' : Rover} (hr : r ∈ p.rovers)
    {c : Command} (h : r.execute (some p) c = .ok r') : (p.register r').Sound := by
  have hfree := hp.not_occupied hr
  cases c with
  | left => cases h; exact hp.register (hp.inside r hr) hfree
  | right => cases h; exact hp.register (hp.inside r hr) hfree
  | move =>
    obtain ⟨hin, hfree, rfl⟩ := Rover.move_ok_iff.mp h
    exact hp.register hin hfree

/-- A command executed beside the rovers of a plateau leads to a place that is sound again. -/
theorem Plateau.Sound.act {p : Plateau} {r r' : Rover} (hp : (p.register r).Sound) {c : Command}
    (h : r.execute (some p) c = .ok r') : (p.register r').Sound := by
  have := hp.execute (mem_put_self r p.rovers) ((Rover.execute_register rfl c).trans h)
  rwa [register_register p (Rover.execute_id h).symm] at this

theorem Plateau.Sound.stay {p : Plateau} {r r' : Rover} (hp : (p.register r).Sound)
    (hid : r'.id = r.id) (hcell : r'.cell = r.cell) : (p.register r').Sound := by
  have hr := mem_put_self r p.rovers
  have hin : (p.register r).bounds.Contains r'.cell := hcell ▸ hp.inside r hr
  have hfree : ¬ (p.register r).Occupied r'.cell (some r'.id) := by
    rw [hid, hcell]
    exact hp.not_occupied hr
  have := hp.register hin hfree
  rwa [register_register p hid.symm] at this

end RoverFleet
