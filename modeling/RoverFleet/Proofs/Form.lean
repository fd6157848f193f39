import RoverFleet.Proofs.Lines
import RoverFleet.Script.Run

/-!
# The form of a script

Of the plateau line only its words count, of a position line its words with the heading in upper
case, and of a commands line its letters in upper case. A run depends on nothing else: lines of the
same forms have the same run.
-/
namespace RoverFleet.Script
open Text

/-- What counts of a line. -/
inductive Form where
  | words (ws : List (List Char))
  | letters (s : List Char)
  deriving DecidableEq

/-- The words of a position line, with the heading in upper case. -/
def headed (ws : List (List Char)) : List (List Char) := ws.take 2 ++ (ws.drop 2).map upper

/-- The form of line `k`; an empty line has none. -/
def form (k : ℕ) (line : List Char) : Option Form :=
  if line.isEmpty then none
  else if k = 1 then some (.words (words line))
  else if k % 2 = 0 then some (.words (headed (words line)))
  else some (.letters (upper line))

/-- The forms of lines from line `k` on. -/
def forms (k : ℕ) : List (List Char) → List (Option Form)
  | [] => []
  | line :: rest => form k line :: forms (k + 1) rest

variable {k n : ℕ} {p : Plateau} {r : Rover} {a b : List Char}

theorem form_eq_none_iff : form k a = none ↔ a = [] := by
  unfold form
  split_ifs with h <;> simp_all

theorem form_plateau (h : a ≠ []) : form 1 a = some (.words (words a)) := by
  simp [form, h]

theorem form_position (hk : k % 2 = 0) (h : a ≠ []) :
    form k a = some (.words (headed (words a))) := by
  have hone : k ≠ 1 := by omega
  simp [form, h, hone, hk]

theorem form_commands (hk : k % 2 = 1) (hone : k ≠ 1) (h : a ≠ []) :
    form k a = some (.letters (upper a)) := by
  have hodd : k % 2 ≠ 0 := by omega
  simp [form, h, hone, hodd]

theorem ne_nil_of_form_eq (h : form k a = form k b) (ha : a ≠ []) : b ≠ [] := by
  intro hb
  rw [form_eq_none_iff.mpr hb, form_eq_none_iff] at h
  exact ha h

theorem nil_of_form_eq (h : form k [] = form k b) : b = [] :=
  form_eq_none_iff.mp (h.symm.trans (form_eq_none_iff.mpr rfl))

theorem readPlateau_of_form_eq (h : form 1 a = form 1 b) : readPlateau 1 a = readPlateau 1 b := by
  by_cases ha : a = []
  · subst ha
    rw [nil_of_form_eq h]
  · have hb := ne_nil_of_form_eq h ha
    have hwords : words a = words b := by
      simpa [form_plateau ha, form_plateau hb] using h
    simp only [readPlateau, List.isEmpty_iff, if_neg ha, if_neg hb, hwords]

theorem length_headed (ws : List (List Char)) : (headed ws).length = ws.length := by
  simp only [headed, List.length_append, List.length_take, List.length_map, List.length_drop]
  omega

/-- Words that agree with their headings in upper case are the three words of a pose, or on neither
side three. -/
theorem headed_eq_cases {ws vs : List (List Char)} (h : headed ws = headed vs) :
    (∃ x y u v, ws = [x, y, u] ∧ vs = [x, y, v] ∧ upper u = upper v) ∨
      ws.length ≠ 3 ∧ vs.length ≠ 3 := by
  have hlen : ws.length = vs.length := by
    rw [← length_headed ws, ← length_headed vs, h]
  by_cases hthree : ws.length = 3
  · obtain ⟨x, y, u, rfl⟩ := List.length_eq_three.mp hthree
    obtain ⟨x', y', v, rfl⟩ := List.length_eq_three.mp (hlen.symm.trans hthree)
    simp only [headed, List.take, List.drop, List.map, List.cons_append, List.nil_append,
      List.cons.injEq, and_true] at h
    obtain ⟨rfl, rfl, huv⟩ := h
    exact Or.inl ⟨x, y, u, v, rfl, rfl, huv⟩
  · exact Or.inr ⟨hthree, hlen ▸ hthree⟩

theorem readRover_count (hne : a ≠ []) (hlen : (words a).length ≠ 3) :
    readRover k n a = .error (.malformed k (.positionCount n)) := by
  simp only [readRover, List.isEmpty_iff, if_neg hne]
  split
  · next hw => exact absurd (by simp [hw]) hlen
  · rfl

theorem readRover_of_form_eq (hk : k % 2 = 0) (h : form k a = form k b) :
    readRover k n a = readRover k n b := by
  by_cases ha : a = []
  · subst ha
    rw [nil_of_form_eq h]
  · have hb := ne_nil_of_form_eq h ha
    have hwords : headed (words a) = headed (words b) := by
      simpa [form_position hk ha, form_position hk hb] using h
    rcases headed_eq_cases hwords with ⟨x, y, u, v, hwa, hwb, huv⟩ | ⟨hlen, hlen'⟩
    · simp only [readRover, List.isEmpty_iff, if_neg ha, if_neg hb, hwa, hwb, huv]
    · rw [readRover_count ha hlen, readRover_count hb hlen']

theorem readCommands_of_form_eq (hk : k % 2 = 1) (hone : k ≠ 1) (h : form k a = form k b) :
    readCommands k n a = readCommands k n b := by
  by_cases ha : a = []
  · subst ha
    rw [nil_of_form_eq h]
  · have hb := ne_nil_of_form_eq h ha
    have hletters : upper a = upper b := by
      simpa [form_commands hk hone ha, form_commands hk hone hb] using h
    simp only [readCommands, List.isEmpty_iff, if_neg ha, if_neg hb, hletters]

theorem enter_of_form_eq (hk : k % 2 = 0) (h : form k a = form k b) :
    enter k n p a = enter k n p b := by
  rw [enter, enter, readRover_of_form_eq hk h]

theorem drive_of_form_eq (hk : k % 2 = 1) (hone : k ≠ 1) (h : form k a = form k b) :
    drive k n p r a = drive k n p r b := by
  rw [drive, drive, readCommands_of_form_eq hk hone h]

/-- The rovers of lines of the same forms run alike. -/
theorem runRovers_of_forms_eq {ls ms : List (List Char)} (hk : k % 2 = 1)
    (h : forms (k + 1) ls = forms (k + 1) ms) :
    runRovers k n p (pairs ls) = runRovers k n p (pairs ms) := by
  have heven : (k + 1) % 2 = 0 := by omega
  have hodd : (k + 2) % 2 = 1 := by omega
  have hone : k + 2 ≠ 1 := by omega
  fun_induction pairs ls generalizing k n p ms with
  | case1 =>
    cases ms with
    | nil => rfl
    | cons m rest => simp [forms] at h
  | case2 position =>
    match ms with
    | [] => simp [forms] at h
    | [m] =>
      have hposition : form (k + 1) position = form (k + 1) m := (List.cons.inj h).1
      simp only [pairs, runRovers, enter_of_form_eq heven hposition]
    | _ :: _ :: _ => simp [forms] at h
  | case3 position commands rest ih =>
    match ms with
    | [] => simp [forms] at h
    | [_] => simp [forms] at h
    | position' :: commands' :: rest' =>
      have hposition : form (k + 1) position = form (k + 1) position' := (List.cons.inj h).1
      have htail := List.cons.inj (List.cons.inj h).2
      have hcommands : form (k + 2) commands = form (k + 2) commands' := htail.1
      have hrest (n : ℕ) (p : Plateau) :
          runRovers (k + 2) n p (pairs rest) = runRovers (k + 2) n p (pairs rest') :=
        ih hodd htail.2 (by omega) (by omega) (by omega)
      simp only [pairs, runRovers, enter_of_form_eq heven hposition,
        drive_of_form_eq hodd hone hcommands, hrest]

/-- Lines of the same forms have the same run. -/
theorem runLines_of_forms_eq {ls ms : List (List Char)} (h : forms 1 ls = forms 1 ms) :
    runLines ls = runLines ms := by
  cases ls with
  | nil =>
    cases ms with
    | nil => rfl
    | cons m rest => simp [forms] at h
  | cons first rest =>
    cases ms with
    | nil => simp [forms] at h
    | cons first' rest' =>
      have hfirst : form 1 first = form 1 first' := (List.cons.inj h).1
      have hrest (p : Plateau) : runRovers 1 1 p (pairs rest) = runRovers 1 1 p (pairs rest') :=
        runRovers_of_forms_eq rfl (List.cons.inj h).2
      simp only [runLines, readPlateau_of_form_eq hfirst, hrest]

end RoverFleet.Script
