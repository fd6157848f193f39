import RoverFleet.Proofs.Atomicity

/-!
# What steps make of a session

A step changes a session in one of a few ways: it makes a plateau or a rover, registers a rover, or
sets a rover anew under its id. In every state that steps lead to, each plateau keeps rovers of the
session, and these have different ids.
-/
namespace RoverFleet.Session

/-- What a step can make of a session. -/
inductive Change (s : Session) : Session → Prop
  | nothing : Change s s
  | plateau (name id : String) (b : Bounds) : Change s { s with
      grounds := s.grounds ++ [⟨id, b, []⟩]
      names := bind name (.plateau s.grounds.length) s.names }
  | rover (name : String) (r : Rover) : Change s { s with
      rovers := s.rovers ++ [r]
      names := bind name (.rover s.rovers.length) s.names }
  | added {k i : ℕ} {g : Ground} {r : Rover} (hg : s.grounds[k]? = some g)
      (hr : s.rovers[i]? = some r) (hp : (s.view g).placing r = .ok ()) : Change s { s with
      grounds := s.grounds.set k { g with registry := s.register i r.id g.registry } }
  | driven {i : ℕ} {r r' : Rover} (hr : s.rovers[i]? = some r) (hid : r'.id = r.id) :
      Change s (s.setRover i r')

section Step
variable (s : Session)

theorem drive_change {act : Option Plateau → Rover → Rover × Except Trouble Unit} (ht : Tame act)
    (name : String) (arg : Option String) : Change s (s.drive name arg act).1 := by
  rcases drive_cases s name arg with ⟨i, r, site, hr, hsite⟩ | hunbound
  · rw [drive_bound hr hsite]
    exact .driven (rover_ok hr) (ht.id site r)
  · rw [hunbound]
    exact .nothing

theorem step_change (st : Step) : Change s (s.step st).1 := by
  have heffect := s.step_effect st
  generalize (s.step st).1 = t at heffect ⊢
  cases heffect with
  | nothing => exact .nothing
  | plateau name id b => exact .plateau name id b
  | rover name r => exact .rover name r
  | added _ hg hr hp => exact .added hg hr hp
  | driven name ht => exact s.drive_change ht name st.plateau?

end Step

variable {s t : Session}

/-- What each change keeps holds in every state that steps lead to. -/
theorem visited_of_change {P : Session → Prop} (hP : ∀ s t, Change s t → P s → P t) (hs : P s)
    (steps : List Step) : ∀ t ∈ s.visited steps, P t := by
  induction steps generalizing s with
  | nil => simpa [visited] using hs
  | cons st rest ih =>
    simp only [visited, List.cons_append, List.mem_cons, List.mem_append, List.mem_map]
    rintro t (rfl | ⟨u, -, rfl⟩ | ht)
    · exact hs
    · exact hP s _ (s.step_change u) hs
    · exact ih (hP s _ (s.step_change st) hs) t ht

def id? (s : Session) (i : ℕ) : Option String := (s.rovers[i]?).map (·.id)

/-- A plateau keeps rovers of the session, and these have different ids. -/
structure Keeps (s : Session) (g : Ground) : Prop where
  range : ∀ i ∈ g.registry, i < s.rovers.length
  ids : (g.registry.map s.id?).Nodup

/-- A rover that is registered takes the place of the one with its id, or the place at the end. -/
theorem register_ids {i : ℕ} {id : String} (hi : s.id? i = some id) (l : List ℕ) :
    (s.register i id l).map s.id? =
      if some id ∈ l.map s.id? then l.map s.id? else l.map s.id? ++ [some id] := by
  induction l with
  | nil => simp [register, hi]
  | cons j rest ih =>
    by_cases hj : s.id? j = some id
    · have hj' : (s.rovers[j]?).map (·.id) = some id := hj
      simp [register, hj', hj, hi]
    · have hj' : (s.rovers[j]?).map (·.id) ≠ some id := hj
      simp only [register, if_neg hj', List.map_cons, ih, List.mem_cons, Ne.symm hj, false_or]
      split <;> simp

namespace Keeps
variable {g : Ground} (h : s.Keeps g)
include h

/-- More rovers may be made, and rovers be set anew under their ids. -/
theorem of_ids (hlen : s.rovers.length ≤ t.rovers.length)
    (hids : ∀ i < s.rovers.length, t.id? i = s.id? i) : t.Keeps g where
  range i hi := (h.range i hi).trans_le hlen
  ids := by
    rw [List.map_congr_left fun i hi => hids i (h.range i hi)]
    exact h.ids

theorem register {i : ℕ} {r : Rover} (hr : s.rovers[i]? = some r) :
    s.Keeps { g with registry := s.register i r.id g.registry } where
  range j hj := by
    rcases mem_register hj with rfl | hj
    · exact (List.getElem?_eq_some_iff.mp hr).1
    · exact h.range j hj
  ids := by
    have hid : s.id? i = some r.id := by simp [id?, hr]
    rw [register_ids hid]
    split
    · exact h.ids
    · next hnew => simpa [List.nodup_append, h.ids] using hnew

end Keeps

/-- A rover keeps its id. -/
theorem Change.ids (h : Change s t) {i : ℕ} (hi : i < s.rovers.length) : t.id? i = s.id? i := by
  cases h with
  | nothing => rfl
  | plateau name id b => rfl
  | rover name r => simp [id?, List.getElem?_append_left hi]
  | added hground hr hp => rfl
  | @driven j r r' hr hid =>
    by_cases hji : j = i
    · subst hji
      have hset : (s.setRover j r').rovers[j]? = some r' := getElem?_set_of_some hr
      simp [id?, hset, hr, hid]
    · have hset : (s.setRover j r').rovers[i]? = s.rovers[i]? := List.getElem?_set_ne hji
      simp [id?, hset]

theorem Change.rovers_length (h : Change s t) : s.rovers.length ≤ t.rovers.length := by
  cases h with
  | rover name r => simp
  | driven hr hid => simp [setRover]
  | _ => exact le_rfl

theorem Change.keeps (h : Change s t) (hs : ∀ g ∈ s.grounds, s.Keeps g) :
    ∀ g ∈ t.grounds, t.Keeps g := by
  have hkept : ∀ g, s.Keeps g → t.Keeps g :=
    fun g hg => hg.of_ids h.rovers_length fun _ hi => h.ids hi
  intro g hg
  cases h with
  | nothing => exact hs g hg
  | plateau name id b =>
    rcases List.mem_append.mp hg with hg | hg
    · exact hkept g (hs g hg)
    · obtain rfl := List.mem_singleton.mp hg
      exact ⟨by simp, by simp⟩
  | rover name r => exact hkept g (hs g hg)
  | added hground hr hp =>
    rcases List.mem_or_eq_of_mem_set hg with hg | rfl
    · exact hkept g (hs g hg)
    · exact hkept _ ((hs _ (List.mem_of_getElem? hground)).register hr)
  | driven hr hid => exact hkept g (hs g hg)

/-- In every state of a session each plateau keeps rovers of the session under different ids. -/
theorem visited_keeps (steps : List Step) :
    ∀ s ∈ empty.visited steps, ∀ g ∈ s.grounds, s.Keeps g :=
  visited_of_change (fun _ _ hchange hs => hchange.keeps hs) (by simp [empty]) steps

end RoverFleet.Session
