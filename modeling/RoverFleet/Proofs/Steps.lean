import RoverFleet.Proofs.Outcome
import RoverFleet.Proofs.Registry

/-!
# What the steps of a session come to

An action on a rover, which checks and assigns in the session, comes to a function of the rover and
of the plateau as it stands: `drive` sets the rover to the result. So every step makes a plateau or
a rover, registers a rover, drives one, or does nothing, and `step_cases` says which.
-/
namespace RoverFleet

namespace Step

/-- The plateau that a step names to drive a rover on. -/
def plateau? : Step → Option String
  | .move _ plateau | .execute _ plateau _ | .run _ plateau _ => plateau
  | _ => none

/-- Steps that ask for something and are not meant to change anything. -/
def IsQuestion : Step → Prop
  | .next _ | .inside _ _ | .occupied _ _ _ | .get _ _ | .rovers _ | .clearRovers _ | .text _
  | .fields _ | .description _ => True
  | _ => False

end Step

namespace Rover

/-- A turn by the command that a value names. -/
def rotate (command : Value) (r : Rover) : Except Trouble Rover := do
  match ← Command.ofValue command with
  | .left => return { r with heading := r.heading.left }
  | .right => return { r with heading := r.heading.right }
  | .move => throw .notATurn

/-- Executes the command of each letter until one fails; gives the pose then reached. -/
def runLetters (site : Option Plateau) : List Char → Rover → Rover × Except Trouble Unit
  | [], r => (r, .ok ())
  | c :: rest, r =>
    match Command.ofValue (.string (String.singleton c)) with
    | .error t => (r, .error t)
    | .ok k =>
      match r.execute site k with
      | .error f => (r, .error (.failed f))
      | .ok r' => runLetters site rest r'

section Letters
variable {site : Option Plateau} {c : Char} {k : Command} {r : Rover}
  (hk : Command.ofValue (.string (String.singleton c)) = .ok k)

theorem runLetters_of_unknown {t : Trouble}
    (ht : Command.ofValue (.string (String.singleton c)) = .error t) (rest : List Char) :
    r.runLetters site (c :: rest) = (r, .error t) := by
  simp only [runLetters, ht]

include hk

theorem runLetters_of_refused {f : Failure} (he : r.execute site k = .error f) (rest : List Char) :
    r.runLetters site (c :: rest) = (r, .error (.failed f)) := by
  simp only [runLetters, hk, he]

theorem runLetters_of_executed {r' : Rover} (he : r.execute site k = .ok r') (rest : List Char) :
    r.runLetters site (c :: rest) = r'.runLetters site rest := by
  simp only [runLetters, hk, he]

end Letters

theorem runLetters_cons (site : Option Plateau) (c : Char) (rest : List Char) (r : Rover) :
    r.runLetters site (c :: rest) =
      match r.runLetters site [c] with
      | (r', .ok _) => r'.runLetters site rest
      | (r', .error t) => (r', .error t) := by
  simp only [runLetters]
  split
  · rfl
  · split <;> rfl

/-- A letter that fails leaves the rover as it is. -/
theorem runLetters_letter_error {site : Option Plateau} {c : Char} {r r' : Rover} {t : Trouble}
    (h : r.runLetters site [c] = (r', .error t)) : r' = r := by
  simp only [runLetters] at h
  split at h
  · exact (Prod.mk.inj h).1.symm
  · split at h
    · exact (Prod.mk.inj h).1.symm
    · cases (Prod.mk.inj h).2

theorem runLetters_congr {site site' : Option Plateau} {r : Rover}
    (h : ∀ (q : Rover) c, q.id = r.id → q.execute site' c = q.execute site c) (cs : List Char) :
    r.runLetters site' cs = r.runLetters site cs := by
  induction cs generalizing r with
  | nil => rfl
  | cons c rest ih =>
    simp only [runLetters]
    cases Command.ofValue (.string (String.singleton c)) with
    | error t => rfl
    | ok k =>
      simp only [h r k rfl]
      cases he : r.execute site k with
      | error f => rfl
      | ok r' => exact ih fun q c hq => h q c (hq.trans (execute_id he))

end Rover

namespace Session

section Names
variable {s : Session} {j : ℕ}

theorem rover_ok_iff {name : String} {i : ℕ} {r : Rover} :
    s.rover name = .ok (i, r) ↔
      s.names.lookup name = some (.rover i) ∧ s.rovers[i]? = some r := by
  unfold rover
  split
  · next k hk =>
    cases hr : s.rovers[k]? with
    | none =>
      simp only [Option.elim_none, reduceCtorEq, hk, Option.some.injEq, Handle.rover.injEq,
        false_iff]
      rintro ⟨rfl, hi⟩
      cases hr.symm.trans hi
    | some q =>
      simp only [Option.elim_some, Except.ok.injEq, Prod.mk.injEq, hk, Option.some.injEq,
        Handle.rover.injEq]
      constructor
      · rintro ⟨rfl, rfl⟩
        exact ⟨rfl, hr⟩
      · rintro ⟨rfl, hi⟩
        exact ⟨rfl, Option.some.inj (hr.symm.trans hi)⟩
  · next hk =>
    simp only [reduceCtorEq, false_iff, not_and]
    exact fun h => absurd h (hk i)

theorem rover_ok {name : String} {i : ℕ} {r : Rover} (h : s.rover name = .ok (i, r)) :
    s.rovers[i]? = some r := (rover_ok_iff.mp h).2

theorem ground_ok {name : String} {k : ℕ} {g : Ground} (h : s.ground name = .ok (k, g)) :
    s.names.lookup name = some (.plateau k) ∧ s.grounds[k]? = some g := by
  unfold ground at h
  split at h
  · next m hm =>
    cases hk : s.grounds[m]? with
    | none => simp [hk] at h
    | some q =>
      simp only [hk, Option.elim_some, Except.ok.injEq, Prod.mk.injEq] at h
      obtain ⟨rfl, rfl⟩ := h
      exact ⟨hm, hk⟩
  · cases h

theorem rover_cases (s : Session) (name : String) :
    (∃ i r, s.rover name = .ok (i, r)) ∨ s.rover name = .error .unbound := by
  unfold rover
  split
  · next i _ =>
    cases s.rovers[i]? with
    | none => exact Or.inr rfl
    | some r => exact Or.inl ⟨i, r, rfl⟩
  · exact Or.inr rfl

theorem ground_cases (s : Session) (name : String) :
    (∃ k g, s.ground name = .ok (k, g)) ∨ s.ground name = .error .unbound := by
  unfold ground
  split
  · next k _ =>
    cases s.grounds[k]? with
    | none => exact Or.inr rfl
    | some g => exact Or.inl ⟨k, g, rfl⟩
  · exact Or.inr rfl

/-- The plateau of a name as it stands, if one is named. -/
def site (s : Session) : Option String → Except Trouble (Option Plateau)
  | none => .ok none
  | some name => return some (← s.plateau name)

theorem site_of_ground {name : String} {k : ℕ} {g : Ground} (h : s.ground name = .ok (k, g)) :
    s.site (some name) = .ok (some (s.view g)) := by
  simp only [site, plateau, h]
  rfl

theorem site_cases (s : Session) (arg : Option String) :
    (∃ site, s.site arg = .ok site) ∨ s.site arg = .error .unbound := by
  cases arg with
  | none => exact Or.inl ⟨none, rfl⟩
  | some name =>
    rcases ground_cases s name with ⟨k, g, hg⟩ | hg
    · exact Or.inl ⟨some (s.view g), site_of_ground hg⟩
    · refine Or.inr ?_
      simp only [site, plateau, hg]
      rfl

/-- A rover that is driven on plateau `j` is driven on its view. -/
theorem site_ok {arg : Option String} {site : Option Plateau} (h : s.site arg = .ok site)
    (harg : arg.bind (s.names.lookup ·) = some (.plateau j)) {g : Ground}
    (hg : s.grounds[j]? = some g) : site = some (s.view g) := by
  cases arg with
  | none => cases harg
  | some name =>
    obtain ⟨p, hp, hsite⟩ := bind_ok_iff.mp h
    obtain ⟨⟨k, g'⟩, hk, hview⟩ := bind_ok_iff.mp hp
    obtain ⟨hlookup, hground⟩ := ground_ok hk
    cases hlookup.symm.trans harg
    cases hground.symm.trans hg
    cases hview
    cases hsite
    rfl

end Names

section SetRover
variable {s : Session} {i : ℕ} {r r' : Rover}

theorem setRover_self (hr : s.rovers[i]? = some r) : s.setRover i r = s := by
  obtain ⟨hi, rfl⟩ := List.getElem?_eq_some_iff.mp hr
  simp [setRover]

theorem setRover_setRover (s : Session) (i : ℕ) (r r' : Rover) :
    (s.setRover i r).setRover i r' = s.setRover i r' := by
  simp [setRover]

/-- The rover under a name is found again after it was set. -/
theorem rover_setRover {name : String} (h : s.rover name = .ok (i, r)) (r' : Rover) :
    (s.setRover i r').rover name = .ok (i, r') := by
  obtain ⟨hname, hr⟩ := rover_ok_iff.mp h
  exact rover_ok_iff.mpr ⟨hname, getElem?_set_of_some hr⟩

theorem occupied_view {g : Ground} {c : Cell} {e : Option String} :
    (s.view g).Occupied c e ↔
      ∃ j ∈ g.registry, ∃ q, s.rovers[j]? = some q ∧ some q.id ≠ e ∧ q.cell = c := by
  simp only [Plateau.Occupied, view, List.mem_filterMap]
  constructor
  · rintro ⟨q, ⟨j, hj, hq⟩, hid, hc⟩
    exact ⟨j, hj, q, hq, hid, hc⟩
  · rintro ⟨j, hj, q, hq, hid, hc⟩
    exact ⟨q, ⟨j, hj, hq⟩, hid, hc⟩

/-- A rover that is set anew does not change what other rovers take. -/
theorem occupied_setRover (hr : s.rovers[i]? = some r) (hid : r'.id = r.id) (g : Ground)
    (c : Cell) : ((s.setRover i r').view g).Occupied c (some r.id) ↔
      (s.view g).Occupied c (some r.id) := by
  have hset : (s.setRover i r').rovers[i]? = some r' := getElem?_set_of_some hr
  have hne {j : ℕ} (hj : j ≠ i) : (s.setRover i r').rovers[j]? = s.rovers[j]? :=
    List.getElem?_set_ne hj.symm
  rw [occupied_view, occupied_view]
  constructor
  · rintro ⟨j, hj, q, hq, hother, hc⟩
    by_cases hji : j = i
    · subst hji
      cases hset.symm.trans hq
      exact absurd (congrArg some hid) hother
    · exact ⟨j, hj, q, (hne hji).symm.trans hq, hother, hc⟩
  · rintro ⟨j, hj, q, hq, hother, hc⟩
    by_cases hji : j = i
    · subst hji
      cases hr.symm.trans hq
      exact absurd rfl hother
    · exact ⟨j, hj, q, (hne hji).trans hq, hother, hc⟩

/-- The plateau of an index as it stands, if there is an index. -/
inductive Stands (s : Session) : Option ℕ → Option Plateau → Prop
  | nowhere : Stands s none none
  | on {k : ℕ} {g : Ground} (hg : s.grounds[k]? = some g) : Stands s (some k) (some (s.view g))

/-- After a rover was set anew, a plateau still lets it do the same. -/
theorem Stands.setRover {site : Option ℕ} {p : Option Plateau} (h : s.Stands site p)
    (hr : s.rovers[i]? = some r) (hid : r'.id = r.id) :
    ∃ p', (s.setRover i r').Stands site p' ∧
      ∀ (q : Rover) c, q.id = r.id → q.execute p' c = q.execute p c := by
  cases h with
  | nowhere => exact ⟨none, .nowhere, fun _ _ _ => rfl⟩
  | @on k g hg =>
    have hbounds : ((s.setRover i r').view g).bounds = (s.view g).bounds := rfl
    refine ⟨some ((s.setRover i r').view g), .on hg, fun q c hq => ?_⟩
    exact Rover.execute_congr hbounds (fun d => hq ▸ occupied_setRover hr hid g d) c

/-- So does a plateau that is named. -/
theorem site_setRover {arg : Option String} {site : Option Plateau} (hr : s.rovers[i]? = some r)
    (hid : r'.id = r.id) (hsite : s.site arg = .ok site) :
    ∃ site', (s.setRover i r').site arg = .ok site' ∧
      ∀ (q : Rover) c, q.id = r.id → q.execute site' c = q.execute site c := by
  cases arg with
  | none =>
    cases hsite
    exact ⟨none, rfl, fun _ _ _ => rfl⟩
  | some name =>
    obtain ⟨p, hp, hsite⟩ := bind_ok_iff.mp hsite
    obtain ⟨⟨k, g⟩, hg, hview⟩ := bind_ok_iff.mp hp
    cases hview
    cases hsite
    have hg' : (s.setRover i r').ground name = .ok (k, g) := hg
    have hbounds : ((s.setRover i r').view g).bounds = (s.view g).bounds := rfl
    refine ⟨_, site_of_ground hg', fun q c hq => ?_⟩
    exact Rover.execute_congr hbounds (fun d => hq ▸ occupied_setRover hr hid g d) c

end SetRover

/-! Performing actions -/

section Perform
variable {α β : Type} {s t : Session} {x : Action α} {f : α → Action β}

theorem perform_bind_ok {a : α} (h : x.perform s = (t, .ok a)) :
    (x >>= f).perform s = (f a).perform t := by
  obtain ⟨hstate, hresult⟩ := Prod.mk.inj h
  have hrun : x.run.run s = (.ok a, t) := Prod.ext hresult hstate
  simp only [Action.perform, ExceptT.run_bind, StateT.run_bind, hrun]
  rfl

theorem perform_bind_error {e : Trouble} (h : x.perform s = (t, .error e)) :
    (x >>= f).perform s = (t, .error e) := by
  obtain ⟨hstate, hresult⟩ := Prod.mk.inj h
  have hrun : x.run.run s = (.error e, t) := Prod.ext hresult hstate
  simp only [Action.perform, ExceptT.run_bind, StateT.run_bind, hrun]
  rfl

theorem perform_asking (q : Session → Except Trouble α) (s : Session) :
    (asking q).perform s = (s, q s) := rfl

theorem asking_bind_ok {q : Session → Except Trouble α} {a : α} (h : q s = .ok a)
    (f : α → Action β) : (asking q >>= f).perform s = (f a).perform s :=
  perform_bind_ok (by rw [perform_asking, h])

theorem asking_bind_error {q : Session → Except Trouble α} {e : Trouble} (h : q s = .error e)
    (f : α → Action β) : (asking q >>= f).perform s = (s, .error e) :=
  perform_bind_error (by rw [perform_asking, h])

/-- An action that assigns nothing, whether it fails or not. -/
def Reads (x : Action α) : Prop := ∀ s, (x.perform s).1 = s

theorem reads_pure (a : α) : Reads (pure a) := fun _ => rfl

theorem reads_throw (e : Trouble) : Reads (throw e : Action α) := fun _ => rfl

theorem reads_asking (q : Session → Except Trouble α) : Reads (asking q) := fun _ => rfl

theorem reads_checking (c : Except Trouble α) : Reads (checking c) := fun _ => rfl

theorem reads_bind (hx : Reads x) (hf : ∀ a, Reads (f a)) : Reads (x >>= f) := by
  intro s
  have hs := hx s
  rcases hperform : x.perform s with ⟨t, e | a⟩
  · obtain rfl : t = s := by rwa [hperform] at hs
    rw [perform_bind_error hperform]
  · obtain rfl : t = s := by rwa [hperform] at hs
    rw [perform_bind_ok hperform]
    exact hf a t

end Perform

/-! Driving a rover -/

/-- An action that either replaces the rover or leaves it. -/
def attempt (act : Option Plateau → Rover → Except Trouble Rover) (site : Option Plateau)
    (r : Rover) : Rover × Except Trouble Unit :=
  match act site r with
  | .ok r' => (r', .ok ())
  | .error t => (r, .error t)

/-- Sets the rover of a name to what becomes of it, on a plateau as it stands or without one. -/
def drive (s : Session) (name : String) (arg : Option String)
    (act : Option Plateau → Rover → Rover × Except Trouble Unit) :
    Session × Except Trouble Answer :=
  match s.rover name, s.site arg with
  | .ok (i, r), .ok site =>
    let (r', done) := act site r
    (s.setRover i r', done.map fun _ => .null)
  | .error t, _ => (s, .error t)
  | _, .error t => (s, .error t)

/-- What an action makes of the session is what the function makes of the rover, on the plateau as
it stands when the action begins. -/
def ComesTo (act : ℕ → Option ℕ → Action Unit)
    (f : Option Plateau → Rover → Rover × Except Trouble Unit) : Prop :=
  ∀ ⦃s : Session⦄ ⦃i : ℕ⦄ ⦃site : Option ℕ⦄ ⦃r : Rover⦄ ⦃p : Option Plateau⦄,
    s.rovers[i]? = some r → s.Stands site p →
      (act i site).perform s = (s.setRover i (f p r).1, (f p r).2)

section Actions
variable {s : Session} {i : ℕ} {r : Rover}

theorem roverAt_of_some (hr : s.rovers[i]? = some r) : s.roverAt i = .ok r := by
  simp [roverAt, hr]

theorem perform_turn (hr : s.rovers[i]? = some r) (c : Command) :
    (turn i c).perform s = match c with
      | .left => (s.setRover i { r with heading := r.heading.left }, .ok ())
      | .right => (s.setRover i { r with heading := r.heading.right }, .ok ())
      | .move => (s, .error .notATurn) := by
  refine (asking_bind_ok (roverAt_of_some hr) _).trans ?_
  cases c <;> rfl

/-- A move first checks its target, and only then is the rover set. -/
theorem perform_move (hr : s.rovers[i]? = some r) {site : Option ℕ} {p : Option Plateau}
    (hp : s.Stands site p) : (move i site).perform s = match r.move p with
      | .ok r' => (s.setRover i r', .ok ())
      | .error f => (s, .error (.failed f)) := by
  refine (asking_bind_ok (roverAt_of_some hr) _).trans ?_
  cases hp with
  | nowhere => rfl
  | @on k g hg =>
    have hcheck : (do ((← s.plateauAt k).moving r.id r.ahead).mapError Trouble.failed) =
        ((s.view g).moving r.id r.ahead).mapError Trouble.failed := by
      simp only [plateauAt, hg]
      rfl
    simp only [Rover.move]
    cases hmoving : (s.view g).moving r.id r.ahead with
    | ok u =>
      rw [hmoving] at hcheck
      exact asking_bind_ok hcheck _
    | error e =>
      rw [hmoving] at hcheck
      exact asking_bind_error hcheck _

theorem comesTo_idle : ComesTo (fun _ _ => pure ()) fun _ r => (r, .ok ()) := by
  intro s i site r p hr _
  rw [setRover_self hr]
  rfl

theorem comesTo_rotate (command : Value) :
    ComesTo (fun i _ => rotate i command) (attempt fun _ r => r.rotate command) := by
  intro s i site r p hr _
  simp only [attempt, Rover.rotate]
  cases hc : Command.ofValue command with
  | error t =>
    have hcheck : (checking (Command.ofValue command)).perform s = (s, .error t) :=
      congrArg (Prod.mk s) hc
    refine (perform_bind_error hcheck).trans ?_
    exact congrArg (·, Except.error t) (setRover_self hr).symm
  | ok c =>
    have hcheck : (checking (Command.ofValue command)).perform s = (s, .ok c) :=
      congrArg (Prod.mk s) hc
    refine (perform_bind_ok hcheck).trans ((perform_turn hr c).trans ?_)
    cases c with
    | left => rfl
    | right => rfl
    | move => exact congrArg (·, Except.error Trouble.notATurn) (setRover_self hr).symm

theorem perform_execute (hr : s.rovers[i]? = some r) {site : Option ℕ} {p : Option Plateau}
    (hp : s.Stands site p) (c : Command) : (execute i site c).perform s = match r.execute p c with
      | .ok r' => (s.setRover i r', .ok ())
      | .error f => (s, .error (.failed f)) := by
  cases c with
  | left => exact perform_turn hr .left
  | right => exact perform_turn hr .right
  | move => exact perform_move hr hp

theorem comesTo_execute (c : Command) : ComesTo (fun i site => execute i site c)
    (attempt fun site r => (r.execute site c).mapError .failed) := by
  intro s i site r p hr hp
  refine (perform_execute hr hp c).trans ?_
  simp only [attempt]
  cases r.execute p c with
  | ok r' => rfl
  | error f => exact congrArg (·, Except.error (Trouble.failed f)) (setRover_self hr).symm

/-- The part of a text that is executed: a command, or nothing. -/
def executed (command : String) : Option Plateau → Rover → Rover × Except Trouble Unit :=
  match Command.ofText? command with
  | some c => attempt fun site r => (r.execute site c).mapError .failed
  | none => fun _ r => (r, .ok ())

theorem comesTo_executeText (command : String) :
    ComesTo (fun i site => executeText i site command) (executed command) := by
  unfold executeText executed
  cases Command.ofText? command with
  | none => exact comesTo_idle
  | some c => exact comesTo_execute c

/-- The letters of a run see the plateau as the letters before them have left it. Only the rover
itself was set since, which is not in its own way. -/
theorem comesTo_runLetters (cs : List Char) :
    ComesTo (fun i site => runLetters i site cs) fun p r => r.runLetters p cs := by
  induction cs with
  | nil => exact comesTo_idle
  | cons c rest ih =>
    intro s i site r p hr hp
    change _ = (s.setRover i (r.runLetters p (c :: rest)).1, (r.runLetters p (c :: rest)).2)
    have hread {result : Except Trouble Command}
        (h : Command.ofValue (.string (String.singleton c)) = result) :
        (checking (Command.ofValue (.string (String.singleton c)))).perform s = (s, result) :=
      congrArg (Prod.mk s) h
    cases hk : Command.ofValue (.string (String.singleton c)) with
    | error t =>
      rw [Rover.runLetters_of_unknown hk, setRover_self hr]
      exact perform_bind_error (hread hk)
    | ok k =>
      refine (perform_bind_ok (hread hk)).trans ?_
      have hexecute := perform_execute hr hp k
      cases he : r.execute p k with
      | error f =>
        rw [he] at hexecute
        rw [Rover.runLetters_of_refused hk he, setRover_self hr]
        exact perform_bind_error hexecute
      | ok r' =>
        rw [he] at hexecute
        have hid := Rover.execute_id he
        obtain ⟨p', hp', hsame⟩ := hp.setRover hr hid
        have hcongr :=
          Rover.runLetters_congr (r := r') (fun q d hq => hsame q d (hq.trans hid)) rest
        rw [Rover.runLetters_of_executed hk he, ← hcongr, ← setRover_setRover s i r']
        exact (perform_bind_ok hexecute).trans (ih (getElem?_set_of_some hr) hp')

theorem perform_driveBy {act : ℕ → Option ℕ → Action Unit}
    {f : Option Plateau → Rover → Rover × Except Trouble Unit} (h : ComesTo act f) (s : Session)
    (name : String) (arg : Option String) :
    (driveBy name arg act).perform s = s.drive name arg f := by
  rcases s.rover_cases name with ⟨i, r, hr⟩ | hr
  · refine (asking_bind_ok hr _).trans ?_
    have hact {site : Option ℕ} {p : Option Plateau} (hp : s.Stands site p) :
        (do act i site; return Answer.null : Action Answer).perform s =
          (s.setRover i (f p r).1, (f p r).2.map fun _ => .null) := by
      have hperform := h (rover_ok hr) hp
      cases hdone : (f p r).2 with
      | ok u => exact perform_bind_ok (hdone ▸ hperform)
      | error t => exact perform_bind_error (hdone ▸ hperform)
    cases arg with
    | none =>
      simp only [drive, hr, site]
      exact hact .nowhere
    | some place =>
      rcases s.ground_cases place with ⟨k, g, hg⟩ | hg
      · have hsite : (siteAt (some place)).perform s = (s, .ok (some k)) :=
          (asking_bind_ok hg _).trans rfl
        simp only [drive, hr, site_of_ground hg]
        exact (perform_bind_ok hsite).trans (hact (.on (ground_ok hg).2))
      · have hsite : (siteAt (some place)).perform s = (s, .error .unbound) :=
          asking_bind_error hg _
        have hunbound : s.site (some place) = .error .unbound := by
          simp only [site, plateau, hg]
          rfl
        simp only [drive, hr, hunbound]
        exact perform_bind_error hsite
  · simp only [drive, hr]
    exact asking_bind_error hr _

end Actions

/-! Steps -/

section Tame

/-- An action keeps the rover's id, and on a plateau it keeps the rover's place sound. -/
structure Tame (act : Option Plateau → Rover → Rover × Except Trouble Unit) : Prop where
  id : ∀ site r, (act site r).1.id = r.id
  sound : ∀ (p : Plateau) r, (p.register r).Sound → (p.register (act (some p) r).1).Sound

theorem tame_idle (t : Except Trouble Unit) : Tame fun _ r => (r, t) :=
  ⟨fun _ _ => rfl, fun _ _ h => h⟩

theorem tame_attempt {act : Option Plateau → Rover → Except Trouble Rover}
    (hid : ∀ site r r', act site r = .ok r' → r'.id = r.id)
    (hsound : ∀ (p : Plateau) r r', (p.register r).Sound → act (some p) r = .ok r' →
      (p.register r').Sound) : Tame (attempt act) where
  id site r := by
    unfold attempt
    split
    · next r' h => exact hid site r r' h
    · rfl
  sound p r hp := by
    unfold attempt
    split
    · next r' h => exact hsound p r r' hp h
    · exact hp

theorem tame_execute (c : Command) :
    Tame (attempt fun site r => (r.execute site c).mapError .failed) :=
  tame_attempt (fun _ _ _ h => Rover.execute_id (mapError_ok_iff.mp h))
    fun _ _ _ hp h => hp.act (mapError_ok_iff.mp h)

theorem tame_executed (command : String) : Tame (executed command) := by
  unfold executed
  split
  · exact tame_execute _
  · exact tame_idle _

theorem rotate_turns {command : Value} {r r' : Rover} (h : r.rotate command = .ok r') :
    ∃ heading ∈ [r.heading.left, r.heading.right], r' = { r with heading := heading } := by
  obtain ⟨c, -, h⟩ := bind_ok_iff.mp h
  cases c with
  | left => cases h; exact ⟨r.heading.left, by simp, rfl⟩
  | right => cases h; exact ⟨r.heading.right, by simp, rfl⟩
  | move => cases h

theorem rotate_ok {command : Value} {r r' : Rover} (h : r.rotate command = .ok r') :
    r'.id = r.id ∧ r'.cell = r.cell := by
  obtain ⟨heading, -, rfl⟩ := rotate_turns h
  exact ⟨rfl, rfl⟩

theorem tame_rotate (command : Value) : Tame (attempt fun _ r => r.rotate command) :=
  tame_attempt (fun _ _ _ h => (rotate_ok h).1)
    fun _ _ _ hp h => hp.stay (rotate_ok h).1 (rotate_ok h).2

theorem tame_runLetters (commands : List Char) :
    Tame fun site r => r.runLetters site commands where
  id site r := by
    induction commands generalizing r with
    | nil => rfl
    | cons c rest ih =>
      simp only [Rover.runLetters]
      split
      · rfl
      · split
        · rfl
        · next h => exact (ih _).trans (Rover.execute_id h)
  sound p r hp := by
    induction commands generalizing r with
    | nil => exact hp
    | cons c rest ih =>
      simp only [Rover.runLetters]
      split
      · exact hp
      · split
        · exact hp
        · next h => exact ih _ (hp.act h)

end Tame

section Step
variable (s : Session)

theorem makePlateau_cases (name id : String) (x y : Value) :
    (∃ t, s.step (.makePlateau name id x y) = (s, .error t)) ∨
      ∃ p, Plateau.ofBounds id x y = .ok p ∧ s.step (.makePlateau name id x y) = ({ s with
        grounds := s.grounds ++ [⟨p.id, p.bounds, []⟩]
        names := bind name (.plateau s.grounds.length) s.names }, .ok (.value (.object p.fields)))
    := by
  have hread {result : Except Trouble Plateau}
      (h : (Plateau.ofBounds id x y).mapError .ofRefusal = result) :
      (checking ((Plateau.ofBounds id x y).mapError .ofRefusal)).perform s = (s, result) :=
    congrArg (Prod.mk s) h
  cases hp : Plateau.ofBounds id x y with
  | error e => exact Or.inl ⟨.ofRefusal e, perform_bind_error (hread (congrArg _ hp))⟩
  | ok p => exact Or.inr ⟨p, rfl, perform_bind_ok (hread (congrArg _ hp))⟩

theorem makeRover_cases (name id : String) (x y heading : Value) :
    (∃ t, s.step (.makeRover name id x y heading) = (s, .error t)) ∨
      ∃ r, Rover.make id x y heading = .ok r ∧ s.step (.makeRover name id x y heading) = ({ s with
        rovers := s.rovers ++ [r]
        names := bind name (.rover s.rovers.length) s.names }, .ok .null) := by
  have hread {result : Except Trouble Rover} (h : Rover.make id x y heading = result) :
      (checking (Rover.make id x y heading)).perform s = (s, result) := congrArg (Prod.mk s) h
  cases hr : Rover.make id x y heading with
  | error t => exact Or.inl ⟨t, perform_bind_error (hread hr)⟩
  | ok r => exact Or.inr ⟨r, rfl, perform_bind_ok (hread hr)⟩

/-- A rover is added after its cell was checked, or the step fails and nothing is registered. -/
theorem add_cases (place name : String) :
    (∃ t, s.step (.add place name) = (s, .error t)) ∨ ∃ k g i r, s.ground place = .ok (k, g) ∧
      s.rover name = .ok (i, r) ∧ (s.view g).placing r = .ok () ∧ s.step (.add place name) =
        ({ s with grounds := s.grounds.set k { g with
          registry := s.register i r.id g.registry } }, .ok .null) := by
  rcases s.ground_cases place with ⟨k, g, hg⟩ | hg
  · rcases s.rover_cases name with ⟨i, r, hr⟩ | hr
    · have hcheck {result : Except Failure Unit} (h : (s.view g).placing r = result) :
          (fun s : Session => ((s.view g).placing r).mapError Trouble.failed) s =
            result.mapError .failed := congrArg _ h
      cases hp : (s.view g).placing r with
      | error f =>
        refine Or.inl ⟨.failed f, (asking_bind_ok hg _).trans ((asking_bind_ok hr _).trans ?_)⟩
        exact asking_bind_error (hcheck hp) _
      | ok u =>
        refine Or.inr ⟨k, g, i, r, hg, hr, hp, ?_⟩
        refine (asking_bind_ok hg _).trans ((asking_bind_ok hr _).trans ?_)
        exact asking_bind_ok (hcheck hp) _
    · exact Or.inl ⟨.unbound, (asking_bind_ok hg _).trans (asking_bind_error hr _)⟩
  · exact Or.inl ⟨.unbound, asking_bind_error hg _⟩

theorem step_rotate (name : String) (command : Value) :
    s.step (.rotate name command) = s.drive name none (attempt fun _ r => r.rotate command) :=
  perform_driveBy (comesTo_rotate command) s name none

theorem step_move (name : String) (arg : Option String) : s.step (.move name arg) =
    s.drive name arg (attempt fun site r => (r.move site).mapError .failed) :=
  perform_driveBy (comesTo_execute .move) s name arg

theorem step_execute (name : String) (arg : Option String) (command : String) :
    s.step (.execute name arg command) = s.drive name arg (executed command) :=
  perform_driveBy (comesTo_executeText command) s name arg

theorem step_run (name : String) (arg : Option String) (cs : List Char) :
    s.step (.run name arg cs) = s.drive name arg fun site r => r.runLetters site cs :=
  perform_driveBy (comesTo_runLetters cs) s name arg

/-- A question assigns nothing, whether it is answered or not. -/
theorem step_question {st : Step} (h : st.IsQuestion) : (s.step st).1 = s := by
  have hreads : Reads (act st) := by
    cases st with
    | inside place point =>
      refine reads_bind (reads_asking _) fun p => ?_
      cases p.bounds.contains? point with
      | none => exact reads_throw _
      | some b => exact reads_pure _
    | get place id =>
      exact reads_bind (reads_asking _) fun _ => reads_bind (reads_asking _) fun _ => reads_pure _
    | clearRovers place =>
      -- the list that is cleared was made for who asks
      exact reads_bind (reads_asking _) fun _ => reads_bind (reads_pure ()) fun _ =>
        reads_bind (reads_asking _) fun _ => reads_pure _
    | description rover =>
      exact reads_bind (reads_asking _) fun _ => reads_bind (reads_checking _) fun _ =>
        reads_pure _
    | next _ | occupied _ _ _ | rovers _ | text _ | fields _ =>
      exact reads_bind (reads_asking _) fun _ => reads_pure _
    | _ => exact h.elim
  exact hreads s

/-- What a step can make of a session. -/
inductive Effect (st : Step) : Session → Prop
  | nothing : Effect st s
  | plateau (name id : String) (b : Bounds) : Effect st { s with
      grounds := s.grounds ++ [⟨id, b, []⟩]
      names := bind name (.plateau s.grounds.length) s.names }
  | rover (name : String) (r : Rover) : Effect st { s with
      rovers := s.rovers ++ [r]
      names := bind name (.rover s.rovers.length) s.names }
  | added {place name : String} (hst : st = .add place name) {k i : ℕ} {g : Ground} {r : Rover}
      (hg : s.grounds[k]? = some g) (hr : s.rovers[i]? = some r)
      (hp : (s.view g).placing r = .ok ()) : Effect st { s with
        grounds := s.grounds.set k { g with registry := s.register i r.id g.registry } }
  | driven (name : String) {act : Option Plateau → Rover → Rover × Except Trouble Unit}
      (ht : Tame act) : Effect st (s.drive name st.plateau? act).1

theorem step_effect (st : Step) : s.Effect st (s.step st).1 := by
  by_cases hquestion : st.IsQuestion
  · rw [s.step_question hquestion]
    exact .nothing
  cases st with
  | makePlateau name id x y =>
    rcases s.makePlateau_cases name id x y with ⟨t, h⟩ | ⟨p, -, h⟩
    · exact h ▸ .nothing
    · exact h ▸ .plateau name p.id p.bounds
  | makeRover name id x y heading =>
    rcases s.makeRover_cases name id x y heading with ⟨t, h⟩ | ⟨r, -, h⟩
    · exact h ▸ .nothing
    · exact h ▸ .rover name r
  | add place name =>
    rcases s.add_cases place name with ⟨t, h⟩ | ⟨k, g, i, r, hg, hr, hp, h⟩
    · exact h ▸ .nothing
    · exact h ▸ .added rfl (ground_ok hg).2 (rover_ok hr) hp
  | rotate name command => exact s.step_rotate name command ▸ .driven name (tame_rotate command)
  | move name arg => exact s.step_move name arg ▸ .driven name (tame_execute .move)
  | execute name arg command =>
    exact s.step_execute name arg command ▸ .driven name (tame_executed command)
  | run name arg cs => exact s.step_run name arg cs ▸ .driven name (tame_runLetters cs)
  | _ => exact absurd trivial hquestion

end Step

end Session

end RoverFleet
