import RoverFleet.Proofs.Loyalty

/-!
# Steps that fail

A step of a session that fails leaves the session as it is. A run of commands that fails leaves it
as the letters before the failing one have made it, each run by itself. Questions change nothing,
and a rover that acts changes nothing but its own heading or its own cell.
-/
namespace RoverFleet

namespace Step

def IsRun : Step → Prop
  | .run _ _ _ => True
  | _ => False

end Step

namespace Rover

theorem runLetters_id (site : Option Plateau) (cs : List Char) (r : Rover) :
    (r.runLetters site cs).1.id = r.id := (Session.tame_runLetters cs).id site r

end Rover

namespace Session
variable {s : Session} {i : ℕ} {r r' : Rover}

section Drive
variable {name : String} {arg : Option String} {site : Option Plateau}
  {act : Option Plateau → Rover → Rover × Except Trouble Unit}

theorem drive_bound (hr : s.rover name = .ok (i, r)) (hsite : s.site arg = .ok site) :
    s.drive name arg act = (s.setRover i (act site r).1, (act site r).2.map fun _ => .null) := by
  simp only [drive, hr, hsite]

/-- A rover is driven under its name, or nothing is done. -/
theorem drive_cases (s : Session) (name : String) (arg : Option String) :
    (∃ i r site, s.rover name = .ok (i, r) ∧ s.site arg = .ok site) ∨
      ∀ act, s.drive name arg act = (s, .error .unbound) := by
  rcases rover_cases s name with ⟨i, r, hr⟩ | hr
  · rcases site_cases s arg with ⟨site, hsite⟩ | hsite
    · exact Or.inl ⟨i, r, site, hr, hsite⟩
    · exact Or.inr fun act => by simp only [drive, hr, hsite]
  · exact Or.inr fun act => by simp only [drive, hr]

theorem drive_ok {t : Session} {v : Answer} (h : s.drive name arg act = (t, .ok v)) :
    ∃ i r site, s.rover name = .ok (i, r) ∧ t = s.setRover i (act site r).1 ∧
      (act site r).2 = .ok () := by
  rcases drive_cases s name arg with ⟨i, r, site, hr, hsite⟩ | hunbound
  · rw [drive_bound hr hsite] at h
    obtain ⟨rfl, hv⟩ := Prod.mk.inj h
    refine ⟨i, r, site, hr, rfl, ?_⟩
    cases hdone : (act site r).2 with
    | error t => simp [hdone, Except.map] at hv
    | ok u => rfl
  · rw [hunbound] at h
    cases (Prod.mk.inj h).2

/-- An action that fails leaves the rover, and so the session, as it is. -/
theorem drive_error {act : Option Plateau → Rover → Except Trouble Rover} {t : Session}
    {trouble : Trouble} (h : s.drive name arg (attempt act) = (t, .error trouble)) : t = s := by
  rcases drive_cases s name arg with ⟨i, r, site, hr, hsite⟩ | hunbound
  · rw [drive_bound hr hsite, attempt] at h
    cases hact : act site r with
    | error e =>
      rw [hact] at h
      exact (Prod.mk.inj h).1.symm.trans (setRover_self (rover_ok hr))
    | ok r' =>
      rw [hact] at h
      cases (Prod.mk.inj h).2
  · rw [hunbound] at h
    exact (Prod.mk.inj h).1.symm

theorem attempt_ok {act : Option Plateau → Rover → Except Trouble Rover}
    (h : (attempt act site r).2 = .ok ()) : act site r = .ok (attempt act site r).1 := by
  unfold attempt at h ⊢
  split
  · next r' hr => exact hr
  · next t ht => simp [ht] at h

/-- The first letter of a run is run by itself, and then the others on the session that it led to;
when it fails, nothing is done. -/
theorem step_run_cons (hr : s.rover name = .ok (i, r)) (hsite : s.site arg = .ok site) (c : Char)
    (rest : List Char) :
    (∃ r' site', s.step (.run name arg [c]) = (s.setRover i r', .ok .null) ∧
        (s.setRover i r').site arg = .ok site' ∧
        s.step (.run name arg (c :: rest)) = (s.setRover i r').step (.run name arg rest)) ∨
      ∃ trouble, s.step (.run name arg [c]) = (s, .error trouble) ∧
        s.step (.run name arg (c :: rest)) = (s, .error trouble) := by
  simp only [step_run, drive_bound hr hsite, r.runLetters_cons site c rest]
  rcases hletter : r.runLetters site [c] with ⟨r', done⟩
  have hid : r'.id = r.id := by
    have := r.runLetters_id site [c]
    rwa [hletter] at this
  cases done with
  | ok u =>
    -- a run keeps the plateau of its start; the next run finds one that treats this rover alike
    obtain ⟨site', hsite', hsame⟩ := site_setRover (rover_ok hr) hid hsite
    have hcongr := Rover.runLetters_congr (r := r') (fun q k hq => hsame q k (hq.trans hid)) rest
    refine Or.inl ⟨r', site', rfl, hsite', ?_⟩
    rw [drive_bound (rover_setRover hr r') hsite', hcongr, setRover_setRover]
  | error trouble =>
    obtain rfl := Rover.runLetters_letter_error hletter
    refine Or.inr ⟨trouble, ?_, ?_⟩ <;> rw [setRover_self (rover_ok hr)] <;> rfl

end Drive

/-- Letters that are run one by one, each without an error. -/
inductive Spelled (name : String) (arg : Option String) : Session → List Char → Session → Prop
  | nil (s : Session) : Spelled name arg s [] s
  | cons {s t u : Session} {c : Char} {rest : List Char}
      (first : s.step (.run name arg [c]) = (t, .ok .null)) (later : Spelled name arg t rest u) :
      Spelled name arg s (c :: rest) u

/-- Letters that are run one by one can be run at once. -/
theorem Spelled.run {name : String} {arg : Option String} {cs : List Char} {t : Session}
    (h : Spelled name arg s cs t) {site : Option Plateau} (hr : s.rover name = .ok (i, r))
    (hsite : s.site arg = .ok site) : s.step (.run name arg cs) = (t, .ok .null) := by
  induction h generalizing r site with
  | nil s =>
    rw [step_run, drive_bound hr hsite]
    exact Prod.ext (setRover_self (rover_ok hr)) rfl
  | @cons s t u c rest first later ih =>
    rcases step_run_cons hr hsite c rest with ⟨r', site', hfirst, hsite', hrest⟩ | ⟨e, hfirst, -⟩
    · obtain ⟨rfl, -⟩ := Prod.mk.inj (hfirst.symm.trans first)
      rw [hrest]
      exact ih (rover_setRover hr r') hsite'
    · cases (Prod.mk.inj (hfirst.symm.trans first)).2

theorem spelled_of_run_error {name : String} {arg : Option String} {site : Option Plateau}
    (hr : s.rover name = .ok (i, r)) (hsite : s.site arg = .ok site) {cs : List Char} {t : Session}
    {trouble : Trouble} (h : s.step (.run name arg cs) = (t, .error trouble)) :
    ∃ before c after, cs = before ++ c :: after ∧ Spelled name arg s before t ∧
      t.step (.run name arg [c]) = (t, .error trouble) := by
  induction cs generalizing s r site with
  | nil =>
    rw [step_run, drive_bound hr hsite] at h
    cases (Prod.mk.inj h).2
  | cons c rest ih =>
    rcases step_run_cons hr hsite c rest with ⟨r', site', hfirst, hsite', hrest⟩ | ⟨e, hfirst, hall⟩
    · rw [hrest] at h
      obtain ⟨before, d, after, rfl, hspelled, hfail⟩ := ih (rover_setRover hr r') hsite' h
      exact ⟨c :: before, d, after, rfl, .cons hfirst hspelled, hfail⟩
    · obtain ⟨rfl, he⟩ := Prod.mk.inj (hall.symm.trans h)
      exact ⟨[], c, rest, rfl, .nil s, he ▸ hfirst⟩

/-- A run that fails does so at a letter that fails by itself, in the state that the letters before
it lead to, and leaves that state. -/
theorem step_run_error {name : String} {arg : Option String} {cs : List Char} {t : Session}
    {trouble : Trouble} (h : s.step (.run name arg cs) = (t, .error trouble)) :
    trouble = .unbound ∧ t = s ∨ ∃ before c after, cs = before ++ c :: after ∧
      s.step (.run name arg before) = (t, .ok .null) ∧ Spelled name arg s before t ∧
      t.step (.run name arg [c]) = (t, .error trouble) := by
  rcases drive_cases s name arg with ⟨i, r, site, hr, hsite⟩ | hunbound
  · obtain ⟨before, c, after, hcs, hspelled, hfail⟩ := spelled_of_run_error hr hsite h
    exact Or.inr ⟨before, c, after, hcs, hspelled.run hr hsite, hspelled, hfail⟩
  · rw [step_run, hunbound] at h
    obtain ⟨rfl, he⟩ := Prod.mk.inj h
    exact Or.inl ⟨(Except.error.inj he).symm, rfl⟩

section Step
variable {t : Session}

/-- A step other than a run does nothing if it fails. -/
theorem step_error {st : Step} (hst : ¬ st.IsRun) {trouble : Trouble}
    (h : s.step st = (t, .error trouble)) : t = s := by
  by_cases hquestion : st.IsQuestion
  · exact (congrArg Prod.fst h).symm.trans (s.step_question hquestion)
  cases st with
  | makePlateau name id x y =>
    rcases s.makePlateau_cases name id x y with ⟨e, hfail⟩ | ⟨p, -, hmade⟩
    · exact (Prod.mk.inj (h.symm.trans hfail)).1
    · cases (Prod.mk.inj (h.symm.trans hmade)).2
  | makeRover name id x y heading =>
    rcases s.makeRover_cases name id x y heading with ⟨e, hfail⟩ | ⟨r, -, hmade⟩
    · exact (Prod.mk.inj (h.symm.trans hfail)).1
    · cases (Prod.mk.inj (h.symm.trans hmade)).2
  | add place name =>
    rcases s.add_cases place name with ⟨e, hfail⟩ | ⟨k, g, i, r, -, -, -, hadded⟩
    · exact (Prod.mk.inj (h.symm.trans hfail)).1
    · cases (Prod.mk.inj (h.symm.trans hadded)).2
  | rotate name command => exact drive_error (s.step_rotate name command ▸ h)
  | move name arg => exact drive_error (s.step_move name arg ▸ h)
  | execute name arg command =>
    rw [step_execute] at h
    unfold executed at h
    split at h
    · exact drive_error h
    · -- a text that is no command is executed by doing nothing
      have hidle : s.drive name arg (attempt fun _ r => .ok r) = (t, .error trouble) := h
      exact drive_error hidle
  | run name arg cs => exact absurd trivial hst
  | _ => exact absurd trivial hquestion

variable {name : String} {v : Answer}

theorem step_rotate_ok {command : Value} (h : s.step (.rotate name command) = (t, .ok v)) :
    ∃ i r, s.rover name = .ok (i, r) ∧ ∃ heading ∈ [r.heading.left, r.heading.right],
      t = s.setRover i { r with heading := heading } := by
  rw [step_rotate] at h
  obtain ⟨i, r, site, hr, rfl, hdone⟩ := drive_ok h
  obtain ⟨heading, hturn, hr'⟩ := rotate_turns (attempt_ok hdone)
  exact ⟨i, r, hr, heading, hturn, congrArg (s.setRover i) hr'⟩

theorem step_move_ok {arg : Option String} (h : s.step (.move name arg) = (t, .ok v)) :
    ∃ i r, s.rover name = .ok (i, r) ∧ t = s.setRover i { r with cell := r.ahead } := by
  rw [step_move] at h
  obtain ⟨i, r, site, hr, rfl, hdone⟩ := drive_ok h
  have hmove : r.execute site .move = .ok _ := mapError_ok_iff.mp (attempt_ok hdone)
  exact ⟨i, r, hr, congrArg (s.setRover i) (Rover.execute_after hmove)⟩

theorem step_execute_ok {arg : Option String} {command : String}
    (h : s.step (.execute name arg command) = (t, .ok v)) :
    ∃ i r, s.rover name = .ok (i, r) ∧ (t = s ∨
      (∃ heading ∈ [r.heading.left, r.heading.right],
        t = s.setRover i { r with heading := heading }) ∨
      t = s.setRover i { r with cell := r.ahead }) := by
  rw [step_execute] at h
  unfold executed at h
  split at h
  · next c _ =>
    obtain ⟨i, r, site, hr, rfl, hdone⟩ := drive_ok h
    have hafter := Rover.execute_after (mapError_ok_iff.mp (attempt_ok hdone))
    refine ⟨i, r, hr, Or.inr ?_⟩
    rw [hafter]
    cases c with
    | left => exact Or.inl ⟨r.heading.left, by simp, rfl⟩
    | right => exact Or.inl ⟨r.heading.right, by simp, rfl⟩
    | move => exact Or.inr rfl
  · obtain ⟨i, r, site, hr, rfl, -⟩ := drive_ok h
    exact ⟨i, r, hr, Or.inl (setRover_self (rover_ok hr))⟩

end Step

/-- In any state of a session: a step other than a run that fails changes nothing. A run that fails
leaves the state that the letters before the failing one lead to, at once or one by one. Questions
change nothing. A rotation that succeeds turns the rover that it names by a quarter, a move takes it
to the cell ahead, an execution does one of the two or nothing, and all else stays. -/
theorem step_atomic (s : Session) :
    (∀ st t trouble, ¬ st.IsRun → s.step st = (t, .error trouble) → t = s) ∧
    (∀ name arg cs t trouble, s.step (.run name arg cs) = (t, .error trouble) →
      trouble = .unbound ∧ t = s ∨ ∃ before c after, cs = before ++ c :: after ∧
        s.step (.run name arg before) = (t, .ok .null) ∧ Spelled name arg s before t ∧
        t.step (.run name arg [c]) = (t, .error trouble)) ∧
    (∀ st, st.IsQuestion → (s.step st).1 = s) ∧
    (∀ name command t v, s.step (.rotate name command) = (t, .ok v) →
      ∃ i r, s.rover name = .ok (i, r) ∧ ∃ heading ∈ [r.heading.left, r.heading.right],
        t = s.setRover i { r with heading := heading }) ∧
    (∀ name arg t v, s.step (.move name arg) = (t, .ok v) →
      ∃ i r, s.rover name = .ok (i, r) ∧ t = s.setRover i { r with cell := r.ahead }) ∧
    ∀ name arg command t v, s.step (.execute name arg command) = (t, .ok v) →
      ∃ i r, s.rover name = .ok (i, r) ∧ (t = s ∨
        (∃ heading ∈ [r.heading.left, r.heading.right],
          t = s.setRover i { r with heading := heading }) ∨
        t = s.setRover i { r with cell := r.ahead }) :=
  ⟨fun _ _ _ hst h => step_error hst h, fun _ _ _ _ _ h => step_run_error h,
    fun _ h => s.step_question h, fun _ _ _ _ h => step_rotate_ok h, fun _ _ _ _ h => step_move_ok h,
    fun _ _ _ _ _ h => step_execute_ok h⟩

/-- A run that fails at a cell where another rover stands, a rotation by a command that is no turn,
and one that succeeds. -/
theorem step_atomic_collision :
    let s : Session := ⟨[⟨"1", ⟨1, 2⟩, .north⟩, ⟨"2", ⟨2, 3⟩, .north⟩], [⟨"1", ⟨5, 5⟩, [0, 1]⟩],
      [("home", .plateau 0), ("a", .rover 0), ("b", .rover 1)]⟩
    let t := s.setRover 0 ⟨"1", ⟨1, 3⟩, .east⟩
    let trouble := Trouble.failed (.refused (.movedOnRover "1" ⟨2, 3⟩))
    (∃ before c after, "MRML".toList = before ++ c :: after ∧
      s.step (.run "a" (some "home") before) = (t, .ok .null) ∧
      Spelled "a" (some "home") s before t ∧
      t.step (.run "a" (some "home") [c]) = (t, .error trouble)) ∧
    (t.step (.rotate "a" (.string "M"))).1 = t ∧
    ∃ i r, t.rover "a" = .ok (i, r) ∧ ∃ heading ∈ [r.heading.left, r.heading.right],
      (t.step (.rotate "a" (.string "L"))).1 = t.setRover i { r with heading := heading } := by
  intro s t trouble
  have hletters : Rover.runLetters (some ⟨"1", ⟨5, 5⟩, s.rovers⟩) "MRML".toList
      ⟨"1", ⟨1, 2⟩, .north⟩ = (⟨"1", ⟨1, 3⟩, .east⟩, .error trouble) := by decide +kernel
  have hrun : s.step (.run "a" (some "home") "MRML".toList) = (t, .error trouble) :=
    congrArg (fun out : Rover × Except Trouble Unit =>
      (s.setRover 0 out.1, out.2.map fun _ => Answer.null)) hletters
  have hletter := (step_atomic s).2.1 "a" (some "home") _ t trouble hrun
  obtain ⟨hfails, -, -, hturns, -⟩ := step_atomic t
  have hmove : (t.step (.rotate "a" (.string "M"))).2 = .error .notATurn := by rfl
  have hturn : (t.step (.rotate "a" (.string "L"))).2 = .ok .null := by rfl
  refine ⟨hletter.resolve_left fun h => (nomatch h.1), ?_, ?_⟩
  · exact hfails (.rotate "a" (.string "M")) _ .notATurn (fun h => h) (Prod.ext rfl hmove)
  · exact hturns "a" (.string "L") _ .null (Prod.ext rfl hturn)

end Session

end RoverFleet
