import RoverFleet.Proofs.Walk
import RoverFleet.Session

/-!
# What a session does to the view of a plateau

The view of a plateau of a session is the plateau with its rovers as they stand. Registering an
index registers its rover in the view. A rover that acts is put in its own place in the views of
the plateaus that keep it, and other views stay.
-/
namespace RoverFleet.Session

variable {s : Session} {g : Ground} {i : ℕ} {r r' : Rover}

theorem mem_view (hi : i ∈ g.registry) (hr : s.rovers[i]? = some r) : r ∈ (s.view g).rovers :=
  List.mem_filterMap.mpr ⟨i, hi, hr⟩

/-- A rover that is made does not show in a view. -/
theorem view_append (hg : ∀ i ∈ g.registry, i < s.rovers.length) {t : Session}
    (ht : t.rovers = s.rovers ++ [r]) : t.view g = s.view g := by
  refine congrArg (Plateau.mk g.id g.bounds) (List.filterMap_congr fun i hi => ?_)
  rw [ht, List.getElem?_append_left (hg i hi)]

theorem view_register (hr : s.rovers[i]? = some r) :
    (s.view { g with registry := s.register i r.id g.registry }).rovers =
      Plateau.put r (s.view g).rovers := by
  simp only [view]
  induction g.registry with
  | nil => simp [register, Plateau.put, hr]
  | cons j rest ih =>
    simp only [register]
    cases hj : s.rovers[j]? with
    | none => simpa [hj] using ih
    | some q =>
      by_cases hq : q.id = r.id
      · simp [hj, hq, hr, Plateau.put]
      · simpa [hj, hq, Plateau.put] using ih

theorem mem_register {j : ℕ} {id : String} {l : List ℕ} (hj : j ∈ s.register i id l) :
    j = i ∨ j ∈ l := by
  induction l with
  | nil => simpa [register] using hj
  | cons k rest ih =>
    simp only [register] at hj
    split at hj
    · rcases List.mem_cons.mp hj with rfl | hj
      · exact Or.inl rfl
      · exact Or.inr (by simp [hj])
    · rcases List.mem_cons.mp hj with rfl | hj
      · exact Or.inr (by simp)
      · rcases ih hj with he | hm
        · exact Or.inl he
        · exact Or.inr (by simp [hm])

theorem getElem?_set_of_some {rovers : List Rover} (hr : rovers[i]? = some r) :
    (rovers.set i r')[i]? = some r' :=
  List.getElem?_set_self (List.getElem?_eq_some_iff.mp hr).1

theorem filterMap_set_of_notMem {rovers : List Rover} {l : List ℕ} (hi : i ∉ l) :
    l.filterMap ((rovers.set i r')[·]?) = l.filterMap (rovers[·]?) := by
  refine List.filterMap_congr fun j hj => ?_
  have hij : i ≠ j := by rintro rfl; exact hi hj
  exact List.getElem?_set_ne hij

/-- Where ids differ, a rover that is set anew is the one that is put in its place. -/
theorem filterMap_set {rovers : List Rover} {l : List ℕ} (hi : i ∈ l) (hr : rovers[i]? = some r)
    (hid : r'.id = r.id) (hids : ((l.filterMap (rovers[·]?)).map (·.id)).Nodup) :
    l.filterMap ((rovers.set i r')[·]?) = Plateau.put r' (l.filterMap (rovers[·]?)) := by
  have hset : (rovers.set i r')[i]? = some r' := getElem?_set_of_some hr
  induction l with
  | nil => simp at hi
  | cons j rest ih =>
    by_cases hji : j = i
    · subst hji
      rw [List.filterMap_cons_some hr, List.map_cons, List.nodup_cons] at hids
      have hnot : j ∉ rest := fun hj =>
        hids.1 (List.mem_map.mpr ⟨r, List.mem_filterMap.mpr ⟨j, hj, hr⟩, rfl⟩)
      rw [List.filterMap_cons_some hr, List.filterMap_cons_some hset,
        filterMap_set_of_notMem hnot, Plateau.put, if_pos hid.symm]
    · have hi' : i ∈ rest := (List.mem_cons.mp hi).resolve_left (Ne.symm hji)
      have hj : (rovers.set i r')[j]? = rovers[j]? := List.getElem?_set_ne (Ne.symm hji)
      cases hq : rovers[j]? with
      | none =>
        rw [List.filterMap_cons_none hq] at hids
        rw [List.filterMap_cons_none hq, List.filterMap_cons_none (hj.trans hq), ih hi' hids]
      | some q =>
        rw [List.filterMap_cons_some hq, List.map_cons, List.nodup_cons] at hids
        have hmem : r ∈ rest.filterMap (rovers[·]?) := List.mem_filterMap.mpr ⟨i, hi', hr⟩
        have hne : q.id ≠ r'.id := by
          rw [hid]
          exact fun he => hids.1 (List.mem_map.mpr ⟨r, hmem, he.symm⟩)
        rw [List.filterMap_cons_some hq, List.filterMap_cons_some (hj.trans hq), Plateau.put,
          if_neg hne, ih hi' hids.2]

/-- A registered rover that acts is put in its own place. -/
theorem setRover_view (hi : i ∈ g.registry) (hr : s.rovers[i]? = some r) (hid : r'.id = r.id)
    (hids : ((s.view g).rovers.map (·.id)).Nodup) :
    (s.setRover i r').view g = (s.view g).register r' :=
  congrArg (Plateau.mk g.id g.bounds) (filterMap_set hi hr hid hids)

theorem setRover_view_of_notMem (hi : i ∉ g.registry) : (s.setRover i r').view g = s.view g :=
  congrArg (Plateau.mk g.id g.bounds) (filterMap_set_of_notMem hi)

end RoverFleet.Session
