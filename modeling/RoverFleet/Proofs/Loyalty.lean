import RoverFleet.Proofs.Steps

/-!
# Plateaus whose rovers move on no other

A session may move a rover on another plateau than the one that keeps it, or on none. If each move
of a rover that a plateau keeps is made on that plateau, the plateau stays sound through all steps,
whatever else the session does.
-/
namespace RoverFleet

namespace Step

/-- A run of commands is cut off after each of its commands; other steps have one part. -/
def parts : Step → List Step
  | .run rover plateau commands => commands.inits.map (.run rover plateau)
  | st => [st]

end Step

namespace Session

/-- The rovers that plateau `j` keeps. -/
def registry (s : Session) (j : ℕ) : List ℕ := (s.grounds[j]?).elim [] (·.registry)

/-- Rover `i` is on another cell after the step than before. A move that is made leads to another
cell, so a run that makes moves displaces its rover in the part that the first of them ends. -/
def Displaces (s : Session) (st : Step) (i : ℕ) : Prop :=
  ((s.step st).1.rovers[i]?).map (·.cell) ≠ (s.rovers[i]?).map (·.cell)

instance (s : Session) (st : Step) (i : ℕ) : Decidable (s.Displaces st i) :=
  inferInstanceAs (Decidable (_ ≠ _))

/-- Each move that a rover makes while plateau `j` keeps it is made on plateau `j`. -/
def Loyal (j : ℕ) (s : Session) : List Step → Prop
  | [] => True
  | st :: rest =>
    (∀ u ∈ st.parts, ∀ i ∈ s.registry j, s.Displaces u i →
      u.plateau?.bind (s.names.lookup ·) = some (.plateau j)) ∧ Loyal j (s.step st).1 rest

instance decidableLoyal (j : ℕ) : (s : Session) → (steps : List Step) → Decidable (Loyal j s steps)
  | _, [] => inferInstanceAs (Decidable True)
  | s, st :: rest =>
    haveI := decidableLoyal j (s.step st).1 rest
    inferInstanceAs (Decidable (_ ∧ _))

/-- The states that steps lead to, those within runs of commands included. -/
def visited (s : Session) : List Step → List Session
  | [] => [s]
  | st :: rest => s :: st.parts.map (fun u => (s.step u).1) ++ visited (s.step st).1 rest

/-- The plateau `j`, if there is one yet, keeps rovers of the session and is sound. -/
def SoundAt (j : ℕ) (s : Session) : Prop :=
  ∀ g, s.grounds[j]? = some g → (∀ i ∈ g.registry, i < s.rovers.length) ∧ (s.view g).Sound

variable {s : Session} {j : ℕ}

theorem registry_of_ground {g : Ground} (hg : s.grounds[j]? = some g) :
    s.registry j = g.registry := by
  simp [registry, hg]

/-- Driving a rover keeps plateau `j` sound if the rover, where `j` keeps it and it is displaced, is
driven on `j`. -/
theorem SoundAt.drive {act : Option Plateau → Rover → Rover × Except Trouble Unit}
    (ht : Tame act) (hs : s.SoundAt j) (name : String) (arg : Option String)
    (hl : ∀ i ∈ s.registry j,
      (((s.drive name arg act).1.rovers[i]?).map (·.cell)) ≠ (s.rovers[i]?).map (·.cell) →
        arg.bind (s.names.lookup ·) = some (.plateau j)) :
    (s.drive name arg act).1.SoundAt j := by
  unfold Session.drive at hl ⊢
  split at hl
  · next i r site hr hsite =>
    have hi := rover_ok hr
    have hid := ht.id site r
    intro g hg
    obtain ⟨hrange, hview⟩ := hs g hg
    refine ⟨fun k hk => by simpa [setRover] using hrange k hk, ?_⟩
    by_cases hmem : i ∈ g.registry
    · have hplace : ((s.view g).register r).Sound :=
        hview.register (hview.inside r (mem_view hmem hi)) (hview.not_occupied (mem_view hmem hi))
      rw [setRover_view hmem hi hid hview.ids]
      by_cases hcell : (act site r).1.cell = r.cell
      · exact hplace.stay hid hcell
      · have hset : (s.rovers.set i (act site r).1)[i]? = some (act site r).1 :=
          getElem?_set_of_some hi
        have harg := hl i (registry_of_ground hg ▸ hmem) (by simpa [setRover, hset, hi] using hcell)
        obtain rfl := site_ok hsite harg hg
        exact ht.sound _ r hplace
    · rw [setRover_view_of_notMem hmem]
      exact hview
  · exact hs
  · exact hs

/-- A plateau that is made keeps no rover. -/
theorem SoundAt.plateau (hs : s.SoundAt j) (id : String) (b : Bounds)
    (names : List (String × Handle)) :
    SoundAt j { s with grounds := s.grounds ++ [⟨id, b, []⟩], names := names } := by
  intro g hg
  simp only [List.getElem?_append] at hg
  split at hg
  · exact hs g hg
  · obtain rfl := List.mem_singleton.mp (List.mem_of_getElem? hg)
    exact ⟨by simp, Plateau.Sound.empty _ _⟩

theorem SoundAt.rover (hs : s.SoundAt j) (r : Rover) (names : List (String × Handle)) :
    SoundAt j { s with rovers := s.rovers ++ [r], names := names } := by
  intro g hg
  obtain ⟨hrange, hview⟩ := hs g hg
  refine ⟨fun i hi => by simpa using Nat.lt_succ_of_lt (hrange i hi), ?_⟩
  rwa [view_append hrange rfl]

theorem SoundAt.added (hs : s.SoundAt j) {k i : ℕ} {g : Ground} {r : Rover}
    (hg : s.grounds[k]? = some g) (hr : s.rovers[i]? = some r)
    (hp : (s.view g).placing r = .ok ()) : SoundAt j { s with
      grounds := s.grounds.set k { g with registry := s.register i r.id g.registry } } := by
  intro g' hg'
  by_cases hkj : k = j
  · subst hkj
    obtain ⟨hrange, hview⟩ := hs g hg
    have hlt := (List.getElem?_eq_some_iff.mp hg).1
    rw [List.getElem?_set_self hlt] at hg'
    cases hg'
    refine ⟨fun m hm => ?_, ?_⟩
    · rcases mem_register hm with rfl | hm
      · exact (List.getElem?_eq_some_iff.mp hr).1
      · exact hrange m hm
    · have hsound := hview.place hp
      rwa [Plateau.register, ← view_register hr] at hsound
  · rw [List.getElem?_set_ne hkj] at hg'
    exact hs g' hg'

/-- What one step does: plateau `j` stays sound if the rovers it keeps are displaced only by being
driven on it. -/
theorem SoundAt.step (hs : s.SoundAt j) (st : Step)
    (hl : ∀ i ∈ s.registry j, s.Displaces st i →
      st.plateau?.bind (s.names.lookup ·) = some (.plateau j)) : (s.step st).1.SoundAt j := by
  unfold Displaces at hl
  have heffect := s.step_effect st
  generalize (s.step st).1 = t at hl heffect ⊢
  cases heffect with
  | nothing => exact hs
  | plateau name id b => exact hs.plateau id b _
  | rover name r => exact hs.rover r _
  | added _ hg hr hp => exact hs.added hg hr hp
  | driven name ht => exact hs.drive ht name st.plateau? hl

theorem step_mem_parts (st : Step) : st ∈ st.parts := by
  cases st with
  | run rover plateau commands => simp [Step.parts]
  | _ => exact List.mem_singleton.mpr rfl

theorem SoundAt.visited {steps : List Step} (hs : s.SoundAt j) (hl : s.Loyal j steps) :
    ∀ t ∈ s.visited steps, t.SoundAt j := by
  induction steps generalizing s with
  | nil => simpa [Session.visited] using hs
  | cons st rest ih =>
    obtain ⟨hparts, hrest⟩ := hl
    simp only [Session.visited, List.cons_append, List.mem_cons, List.mem_append, List.mem_map]
    rintro t (rfl | ⟨u, hu, rfl⟩ | ht)
    · exact hs
    · exact hs.step u (hparts u hu)
    · exact ih (hs.step st (hparts st (step_mem_parts st))) hrest t ht

/-- Whatever steps a session takes from its start: if each move of a rover that plateau `j` keeps is
made on that plateau, then in every state on the way its rovers stand on different cells inside its
bounds. -/
theorem loyal_rovers_inside_apart (j : ℕ) (steps : List Step) (hl : Loyal j empty steps) :
    ∀ s ∈ empty.visited steps, ∀ g, s.grounds[j]? = some g →
      (∀ i ∈ g.registry, ∃ r, s.rovers[i]? = some r ∧ 0 ≤ r.cell.x ∧ r.cell.x ≤ g.bounds.maxX ∧
        0 ≤ r.cell.y ∧ r.cell.y ≤ g.bounds.maxY) ∧
      ((s.view g).rovers.map (·.cell)).Nodup := by
  intro s hs g hg
  have hstart : empty.SoundAt j := fun g hg => by simp [empty] at hg
  obtain ⟨hrange, hview⟩ := hstart.visited hl s hs g hg
  refine ⟨fun i hi => ?_, hview.cells⟩
  have hr := List.getElem?_eq_getElem (hrange i hi)
  exact ⟨_, hr, hview.inside _ (mem_view hi hr)⟩

/-- The rover that was added first is replaced under its id and then leaves for another plateau. -/
theorem loyal_rovers_inside_apart_ghost :
    let steps : List Step := [
      .makePlateau "home" "1" (.int 5) (.int 5), .makePlateau "away" "2" (.int 9) (.int 9),
      .makeRover "ghost" "1" (.int 1) (.int 2) (.string "E"), .move "ghost" none,
      .makeRover "heir" "1" (.int 4) (.int 4) (.string "N"), .add "home" "ghost",
      .run "ghost" (some "home") "MLM".toList,
      .makeRover "other" "2" (.int 3) (.int 2) (.string "N"), .add "home" "other",
      .add "home" "heir", .run "ghost" (some "away") "MMMM".toList, .move "other" (some "home"),
      .add "home" "heir", .execute "heir" (some "home") "M", .move "heir" (some "home")]
    let s := steps.foldl (fun s st => (s.step st).1) empty
    let g : Ground := ⟨"1", ⟨5, 5⟩, [1, 2]⟩
    Loyal 0 empty steps ∧ s.grounds[0]? = some g ∧ ((s.view g).rovers.map (·.cell)).Nodup := by
  intro steps s g
  have hl : Loyal 0 empty steps := by decide +kernel
  have hs : s ∈ empty.visited steps := by decide +kernel
  have hg : s.grounds[0]? = some g := by decide +kernel
  exact ⟨hl, hg, (loyal_rovers_inside_apart 0 steps hl s hs g hg).2⟩

end Session

end RoverFleet
