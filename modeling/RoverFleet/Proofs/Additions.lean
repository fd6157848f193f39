import RoverFleet.Proofs.Keyed

/-!
# A plateau keeps what was added to it

The additions to a plateau are the rovers that steps have added to it, in their order, each with
its id. In every state a plateau keeps one rover for each id that was ever added, the ids in the
order of their first additions, and under each id the rover that was added last.
-/
namespace RoverFleet.Session
open Numeric

/-- The id and the index of the rover that a step adds to plateau `k`, if the step asks for that and
succeeds. -/
def addition? (s : Session) (k : ℕ) : Step → Option (String × ℕ)
  | .add place name =>
    match s.ground place, s.rover name, (s.step (.add place name)).2 with
    | .ok (j, _), .ok (i, r), .ok _ => if j = k then some (r.id, i) else none
    | _, _, _ => none
  | _ => none

/-- The additions to plateau `k` in their order. -/
def additions (k : ℕ) (s : Session) : List Step → List (String × ℕ)
  | [] => []
  | st :: rest => (s.addition? k st).toList ++ additions k (s.step st).1 rest

/-- The state that steps lead to. -/
def after (s : Session) (steps : List Step) : Session := steps.foldl (fun s st => (s.step st).1) s

section Registry
variable {s : Session} {k i : ℕ} {r : Rover}

theorem drive_grounds (s : Session) (name : String) (arg : Option String)
    (act : Option Plateau → Rover → Rover × Except Trouble Unit) :
    (s.drive name arg act).1.grounds = s.grounds := by
  rcases drive_cases s name arg with ⟨i, r, site, hr, hsite⟩ | hunbound
  · rw [drive_bound hr hsite]
    rfl
  · rw [hunbound]

theorem registry_of_grounds {t : Session} (h : t.grounds = s.grounds) :
    t.registry k = s.registry k := by
  rw [registry, registry, h]

/-- A plateau that is made keeps nothing. -/
theorem registry_append (id : String) (b : Bounds) (names : List (String × Handle)) :
    registry { s with grounds := s.grounds ++ [⟨id, b, []⟩], names := names } k =
      s.registry k := by
  simp only [registry, List.getElem?_append]
  split
  · rfl
  · next hk =>
    rw [List.getElem?_eq_none (Nat.le_of_not_lt hk)]
    cases hj : k - s.grounds.length with
    | zero => rfl
    | succ j => rfl

/-- A step that adds no rover registers nothing. -/
theorem registry_of_effect {st : Step} {t : Session} (h : s.Effect st t)
    (hst : ∀ place name, st ≠ .add place name) : t.registry k = s.registry k := by
  cases h with
  | nothing => rfl
  | plateau name id b => exact registry_append id b _
  | rover name r => rfl
  | added hadd => exact absurd hadd (hst _ _)
  | driven name ht => exact registry_of_grounds (s.drive_grounds _ _ _)

/-- A step registers its addition, if it has one, and no plateau keeps anything else anew. -/
theorem step_registry (s : Session) (k : ℕ) (st : Step) :
    (s.addition? k st = none ∧ (s.step st).1.registry k = s.registry k) ∨
      ∃ i r, s.addition? k st = some (r.id, i) ∧ s.rovers[i]? = some r ∧
        (s.step st).1.registry k = s.register i r.id (s.registry k) ∧
        (s.step st).1.rovers = s.rovers := by
  cases st with
  | add place name =>
    simp only [addition?]
    rcases s.add_cases place name with ⟨e, hfail⟩ | ⟨j, g, i, r, hground, hrover, -, hadd⟩
    · rw [hfail]
      refine Or.inl ⟨?_, rfl⟩
      cases s.ground place <;> cases s.rover name <;> rfl
    · have hj := (ground_ok hground).2
      simp only [hground, hrover, hadd]
      by_cases hjk : j = k
      · subst hjk
        refine Or.inr ⟨i, r, if_pos rfl, rover_ok hrover, ?_, trivial⟩
        have hlt := (List.getElem?_eq_some_iff.mp hj).1
        rw [registry, List.getElem?_set_self hlt, registry_of_ground hj]
        rfl
      · refine Or.inl ⟨if_neg hjk, ?_⟩
        rw [registry, List.getElem?_set_ne hjk, registry]
  | _ =>
    exact Or.inl ⟨rfl, registry_of_effect (s.step_effect _) fun _ _ h => Step.noConfusion h⟩

end Registry

/-- A plateau keeps what was added to it: the ids in the order of their first additions, and under
each id the rover added last. -/
structure Records (k : ℕ) (s : Session) (added : List (String × ℕ)) : Prop where
  ids : (s.registry k).map s.id? = (added.map (·.1)).eraseDups.map some
  last : ∀ id, (s.registry k).find? (fun i => s.id? i = some id) = added.reverse.lookup id

section Records
variable {s t : Session} {k i : ℕ} {id : String} {added : List (String × ℕ)}

theorem eraseDups_concat (l : List String) (id : String) :
    (l ++ [id]).eraseDups = if id ∈ l then l.eraseDups else l.eraseDups ++ [id] := by
  rw [List.eraseDups_append]
  by_cases h : id ∈ l
  · simp [List.removeAll, h]
  · simp [List.removeAll, h, List.eraseDups_cons]

/-- A rover that is registered is the one found under its id. -/
theorem find?_register (hi : s.id? i = some id) (l : List ℕ) (other : String) :
    (s.register i id l).find? (fun j => s.id? j = some other) =
      if other = id then some i else l.find? fun j => s.id? j = some other := by
  induction l with
  | nil =>
    by_cases h : other = id
    · simp [register, hi, h]
    · simp [register, hi, h, Ne.symm h]
  | cons j rest ih =>
    by_cases hj : s.id? j = some id
    · have hj' : (s.rovers[j]?).map (·.id) = some id := hj
      by_cases h : other = id
      · simp [register, hj', hi, h]
      · simp [register, hj', hi, hj, h, Ne.symm h]
    · have hj' : (s.rovers[j]?).map (·.id) ≠ some id := hj
      simp only [register, if_neg hj', List.find?_cons, ih]
      by_cases h : other = id
      · subst h
        simp [hj]
      · simp [h]

namespace Records

theorem start (k : ℕ) : Records k empty [] := by
  constructor
  · rfl
  · intro id
    rfl

/-- What a plateau keeps are rovers of the session. -/
theorem range (h : Records k s added) {j : ℕ} (hj : j ∈ s.registry k) : j < s.rovers.length := by
  have hmem : s.id? j ∈ (added.map (·.1)).eraseDups.map some := h.ids ▸ List.mem_map_of_mem hj
  obtain ⟨id, -, hid⟩ := List.mem_map.mp hmem
  obtain ⟨r, hr, -⟩ := Option.map_eq_some_iff.mp hid.symm
  exact (List.getElem?_eq_some_iff.mp hr).1

/-- Nothing is added: the plateau keeps the same rovers, and they keep their ids. -/
theorem keep (h : Records k s added) (hkept : t.registry k = s.registry k)
    (hids : ∀ j < s.rovers.length, t.id? j = s.id? j) : Records k t added := by
  have hsame : ∀ j ∈ s.registry k, t.id? j = s.id? j := fun j hj => hids j (h.range hj)
  constructor
  · rw [hkept, List.map_congr_left hsame]
    exact h.ids
  · intro id
    rw [hkept, ← h.last id]
    apply List.find?_congr
    intro j hj
    rw [hsame j hj]

/-- A rover is added. -/
theorem add (h : Records k s added) (hi : s.id? i = some id)
    (hkept : t.registry k = s.register i id (s.registry k)) (hids : ∀ j, t.id? j = s.id? j) :
    Records k t (added ++ [(id, i)]) := by
  have hid : t.id? = s.id? := funext hids
  constructor
  · rw [hkept, hid, register_ids hi, h.ids, List.map_append, List.map_singleton, eraseDups_concat]
    by_cases hmem : id ∈ added.map (·.1)
    · rw [if_pos hmem, if_pos (List.mem_map_of_mem (List.mem_eraseDups.mpr hmem))]
    · rw [if_neg hmem, if_neg, List.map_append, List.map_singleton]
      simpa using hmem
  · intro other
    rw [hkept, hid, find?_register hi, h.last, List.reverse_append]
    by_cases hother : other = id
    · simp [hother]
    · simp [hother, List.lookup_cons, beq_eq_false_iff_ne.mpr hother]

theorem step (h : Records k s added) (st : Step) :
    Records k (s.step st).1 (added ++ (s.addition? k st).toList) := by
  rcases s.step_registry k st with ⟨hnone, hkept⟩ | ⟨i, r, hsome, hr, hkept, hrovers⟩
  · rw [hnone, Option.toList_none, List.append_nil]
    exact h.keep hkept fun _ hj => (s.step_change st).ids hj
  · rw [hsome, Option.toList_some]
    refine h.add ?_ hkept ?_
    · rw [id?, hr, Option.map_some]
    · intro j
      rw [id?, hrovers, id?]

theorem after (h : Records k s added) (steps : List Step) :
    Records k (s.after steps) (added ++ s.additions k steps) := by
  induction steps generalizing s added with
  | nil => simpa [Session.after, additions] using h
  | cons st rest ih =>
    have hrest := ih (h.step st)
    rwa [List.append_assoc] at hrest

end Records

/-- What shows of a plateau is the map of its additions, in the order of insertion. -/
structure Shows (s : Session) (g : Ground) (added : List (String × ℕ)) : Prop where
  /-- The ids are told in the order in which each was added first. -/
  ids : (s.view g).rovers.map (·.id) = (added.map (·.1)).eraseDups
  apart : ((s.view g).rovers.map (·.id)).Nodup
  /-- Under an id is the rover itself that was added last under it. -/
  found : ∀ id i, s.registered? g id = some i ↔
    ∃ before after, added = before ++ (id, i) :: after ∧ id ∉ after.map (·.1)
  missing : ∀ id, s.registered? g id = none ↔ id ∉ added.map (·.1)
  /-- It is seen as it stands now. -/
  pose : ∀ id, (s.view g).rover? id = (s.registered? g id).bind (s.rovers[·]?)
  count : (s.view g).rovers.length = (added.map (·.1)).toFinset.card

theorem lookup_reverse_eq_some_iff :
    added.reverse.lookup id = some i ↔
      ∃ before after, added = before ++ (id, i) :: after ∧ id ∉ after.map (·.1) := by
  rw [List.lookup_eq_some_iff]
  constructor
  · rintro ⟨after, before, hsplit, hnew⟩
    refine ⟨before.reverse, after.reverse, ?_, ?_⟩
    · rw [← List.reverse_reverse added, hsplit]
      simp
    · intro hmem
      obtain ⟨a, ha, rfl⟩ := List.mem_map.mp hmem
      simpa using hnew a (List.mem_reverse.mp ha)
  · rintro ⟨before, after, rfl, hnew⟩
    refine ⟨after.reverse, before.reverse, by simp, ?_⟩
    intro a ha
    rw [bne_iff_ne]
    rintro rfl
    apply hnew
    exact List.mem_map_of_mem (List.mem_reverse.mp ha)

theorem lookup_reverse_eq_none_iff :
    added.reverse.lookup id = none ↔ id ∉ added.map (·.1) := by
  rw [List.lookup_eq_none_iff]
  constructor
  · intro hnew hmem
    obtain ⟨a, ha, rfl⟩ := List.mem_map.mp hmem
    simpa using hnew a (List.mem_reverse.mpr ha)
  · intro hnew a ha
    rw [bne_iff_ne]
    rintro rfl
    apply hnew
    exact List.mem_map_of_mem (List.mem_reverse.mp ha)

theorem view_ids {g : Ground} {ids : List String} (h : g.registry.map s.id? = ids.map some) :
    (s.view g).rovers.map (·.id) = ids := by
  calc (s.view g).rovers.map (·.id) = (g.registry.map s.id?).filterMap id := by
        rw [view, List.map_filterMap, List.filterMap_map]
        rfl
    _ = ids := by
        rw [h, List.filterMap_map]
        exact List.filterMap_some

theorem rover?_view (s : Session) (g : Ground) (id : String) :
    (s.view g).rover? id = (s.registered? g id).bind (s.rovers[·]?) := by
  rw [Plateau.rover?, view, List.find?_filterMap, registered?]
  congr 2
  funext i
  cases s.rovers[i]? with
  | none => rfl
  | some r => simp

theorem Records.shows {g : Ground} (h : Records k s added) (hg : s.grounds[k]? = some g)
    (hkeeps : s.Keeps g) : s.Shows g added := by
  have hids := h.ids
  have hlast := h.last
  rw [registry_of_ground hg] at hids hlast
  have hview := view_ids hids
  have hnodup : (added.map (·.1)).eraseDups.Nodup := by
    apply List.Nodup.of_map some
    rw [← hids]
    exact hkeeps.ids
  have hfound (id : String) : s.registered? g id = added.reverse.lookup id := hlast id
  constructor
  · exact hview
  · rw [hview]
    exact hnodup
  · intro id i
    rw [hfound]
    exact lookup_reverse_eq_some_iff
  · intro id
    rw [hfound]
    exact lookup_reverse_eq_none_iff
  · intro id
    exact rover?_view s g id
  · calc (s.view g).rovers.length = (added.map (·.1)).eraseDups.length := by
          rw [← hview, List.length_map]
      _ = (added.map (·.1)).eraseDups.toFinset.card := (List.toFinset_card_of_nodup hnodup).symm
      _ = (added.map (·.1)).toFinset.card := by
          congr 1
          ext id
          simp [List.mem_eraseDups]

end Records

theorem after_mem_visited (s : Session) (steps : List Step) : s.after steps ∈ s.visited steps := by
  induction steps generalizing s with
  | nil => exact List.mem_singleton.mpr rfl
  | cons st rest ih =>
    simp only [visited, List.cons_append, List.mem_cons, List.mem_append]
    exact Or.inr (Or.inr (ih (s.step st).1))

section Answers
variable {s : Session} {place : String} {k : ℕ} {g : Ground} (hplace : s.ground place = .ok (k, g))
include hplace

theorem plateau_of_ground : s.plateau place = .ok (s.view g) := by
  simp only [plateau, hplace]
  rfl

theorem step_get (id : String) : s.step (.get place id) =
    (s, .ok ((s.registered? g id).elim .null .rover)) :=
  (asking_bind_ok hplace _).trans rfl

theorem step_rovers : s.step (.rovers place) =
    (s, .ok (.value (.list ((s.view g).rovers.map fun r => .object r.fields)))) :=
  asking_bind_ok (plateau_of_ground hplace) _

/-- The list that is cleared is not the registry. -/
theorem step_clearRovers : s.step (.clearRovers place) =
    (s, .ok (.value (.list ((s.view g).rovers.map fun r => .object r.fields)))) :=
  have hclear : (Listing.ofGround g).clear.perform s = (s, .ok ()) := rfl
  (asking_bind_ok hplace _).trans <| (perform_bind_ok hclear).trans <|
    asking_bind_ok (plateau_of_ground hplace) _

theorem textOf_of_ground : s.textOf place = (s.view g).text?.mapError .ofLimit := by
  have hhandle : s.handle place = .ok (.plateau k) := by
    rw [handle, (ground_ok hplace).1]
    rfl
  simp only [textOf, hhandle, plateau_of_ground hplace, Bind.bind, Except.bind]

theorem step_text {n : ℕ} (hn : (s.view g).rovers.length = n) : s.step (.text place) =
    (s, if Printable g.bounds.maxX ∧ Printable g.bounds.maxY then
      .ok (.value (.string ("Plateau " ++ g.id ++ ": " ++ g.bounds.text ++ " with " ++
        toString n ++ " rovers")))
      else .error (.ofLimit .writing)) := by
  have htext : s.textOf place = if Printable g.bounds.maxX ∧ Printable g.bounds.maxY then
      .ok ("Plateau " ++ g.id ++ ": " ++ g.bounds.text ++ " with " ++ toString n ++ " rovers")
      else .error (.ofLimit .writing) := by
    rw [textOf_of_ground hplace, ← hn]
    exact apply_ite (Except.mapError Trouble.ofLimit) _ _ _
  split_ifs at htext ⊢ with hprintable
  · exact asking_bind_ok htext _
  · exact asking_bind_error htext _

end Answers

/-- After any steps a plateau shows the map of its additions, in the order of insertion, and so do
the answers to questions about it. Clearing the list of its rovers changes nothing, and neither does
an addition that fails. (A state within a run of commands is the state after a shorter run.) -/
theorem plateau_shows_additions (k : ℕ) (steps : List Step) {g : Ground}
    (hg : (empty.after steps).grounds[k]? = some g) :
    let s := empty.after steps
    let added := empty.additions k steps
    s.Shows g added ∧
    (∀ place, s.ground place = .ok (k, g) →
      (∀ id, s.step (.get place id) = (s, .ok ((s.registered? g id).elim .null .rover))) ∧
      s.step (.rovers place) =
        (s, .ok (.value (.list ((s.view g).rovers.map fun r => .object r.fields)))) ∧
      s.step (.clearRovers place) = s.step (.rovers place) ∧
      s.step (.text place) = (s, if Printable g.bounds.maxX ∧ Printable g.bounds.maxY then
        .ok (.value (.string ("Plateau " ++ g.id ++ ": " ++ g.bounds.text ++ " with " ++
          toString (added.map (·.1)).toFinset.card ++ " rovers")))
        else .error (.ofLimit .writing))) ∧
    ∀ place name t trouble, s.step (.add place name) = (t, .error trouble) → t = s := by
  intro s added
  have hrecords : Records k s added := (Records.start k).after steps
  have hkeeps : s.Keeps g := visited_keeps steps s (empty.after_mem_visited steps) g
    (List.mem_of_getElem? hg)
  have hshows := hrecords.shows hg hkeeps
  refine ⟨hshows, ?_, ?_⟩
  · intro place hplace
    exact ⟨step_get hplace, step_rovers hplace,
      (step_clearRovers hplace).trans (step_rovers hplace).symm, step_text hplace hshows.count⟩
  · intro place name t trouble hfail
    have hadd : ¬ (Step.add place name).IsRun := id
    exact step_error hadd hfail

/-- A rover is replaced under its id, another one is refused, and a third one is kept by two
plateaus and moved on none. -/
theorem plateau_shows_additions_replaced :
    let steps : List Step := [.makePlateau "home" "1" (.int 5) (.int 5),
      .makePlateau "away" "2" (.int 9) (.int 9),
      .makeRover "a" "1" (.int 1) (.int 2) (.string "N"), .add "home" "a",
      .makeRover "b" "2" (.int 3) (.int 3) (.string "E"), .add "home" "b", .add "away" "b",
      .makeRover "c" "1" (.int 4) (.int 4) (.string "S"), .add "home" "c",
      .makeRover "d" "3" (.int 9) (.int 9) (.string "W"), .add "home" "d", .move "b" none]
    let s := empty.after steps
    let g : Ground := ⟨"1", ⟨5, 5⟩, [2, 1]⟩
    s.grounds[0]? = some g ∧
      empty.additions 0 steps = [("1", 0), ("2", 1), ("1", 2)] ∧
      (s.view g).rovers = [⟨"1", ⟨4, 4⟩, .south⟩, ⟨"2", ⟨4, 3⟩, .east⟩] ∧
      s.registered? g "1" = some 2 ∧ (s.view g).rover? "2" = some ⟨"2", ⟨4, 3⟩, .east⟩ ∧
      s.registered? g "3" = none ∧
      s.step (.text "home") = (s, .ok (.value (.string "Plateau 1: (5, 5) with 2 rovers"))) := by
  intro steps s g
  have hg : s.grounds[0]? = some g := by decide +kernel
  have hadded : empty.additions 0 steps = [("1", 0), ("2", 1), ("1", 2)] := by decide +kernel
  have hrovers : (s.view g).rovers = [⟨"1", ⟨4, 4⟩, .south⟩, ⟨"2", ⟨4, 3⟩, .east⟩] := by
    decide +kernel
  obtain ⟨hshows, hanswers, -⟩ := plateau_shows_additions 0 steps hg
  rw [hadded] at hshows hanswers
  have hlast : s.registered? g "1" = some 2 :=
    (hshows.found "1" 2).mpr ⟨[("1", 0), ("2", 1)], [], rfl, by simp⟩
  have hother : s.registered? g "2" = some 1 :=
    (hshows.found "2" 1).mpr ⟨[("1", 0)], [("1", 2)], rfl, by simp⟩
  refine ⟨hg, hadded, hrovers, hlast, ?_, (hshows.missing "3").mpr (by simp), ?_⟩
  · rw [hshows.pose, hother]
    decide +kernel
  · have htext := (hanswers "home" (by decide +kernel)).2.2.2
    have hwritten : "Plateau " ++ g.id ++ ": " ++ g.bounds.text ++ " with " ++
        toString (["1", "2", "1"].toFinset.card) ++ " rovers" =
          "Plateau 1: (5, 5) with 2 rovers" := by decide +kernel
    have hprintable : Printable g.bounds.maxX ∧ Printable g.bounds.maxY := by decide +kernel
    rw [htext, if_pos hprintable]
    exact congrArg (fun text => (s, Except.ok (Answer.value (.string text)))) hwritten

end RoverFleet.Session
