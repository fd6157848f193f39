import Mathlib

/-!
# Outcomes of combined steps

When a step followed by another, or a step whose error is renamed, succeeds or fails.
-/
namespace RoverFleet

variable {ε ε' α β : Type}

theorem bind_ok_iff {x : Except ε α} {f : α → Except ε β} {b : β} :
    x >>= f = .ok b ↔ ∃ a, x = .ok a ∧ f a = .ok b := by
  cases x <;> simp [bind, Except.bind]

theorem bind_error_iff {x : Except ε α} {f : α → Except ε β} {e : ε} :
    x >>= f = .error e ↔ x = .error e ∨ ∃ a, x = .ok a ∧ f a = .error e := by
  cases x <;> simp [bind, Except.bind]

theorem mapError_ok_iff {f : ε → ε'} {x : Except ε α} {a : α} :
    x.mapError f = .ok a ↔ x = .ok a := by
  cases x <;> simp [Except.mapError]

theorem mapError_error_iff {f : ε → ε'} {x : Except ε α} {e : ε'} :
    x.mapError f = .error e ↔ ∃ e', x = .error e' ∧ f e' = e := by
  cases x <;> simp [Except.mapError]

theorem pure_ok_iff {a b : α} : (pure a : Except ε α) = .ok b ↔ a = b := by
  simp [pure, Except.pure]

theorem pure_ne_error {a : α} {e : ε} : (pure a : Except ε α) ≠ .error e := by
  simp [pure, Except.pure]

/-- A step that gives a result for every item gives the list of the results. -/
theorem mapM_of_forall {m : Type → Type} [Monad m] [LawfulMonad m] {f : α → m β} {g : α → β}
    {l : List α} (h : ∀ a ∈ l, f a = pure (g a)) : l.mapM f = pure (l.map g) := by
  induction l with
  | nil => simp
  | cons a rest ih =>
    have hrest := ih fun b hb => h b (List.mem_cons_of_mem a hb)
    rw [List.mapM_cons, h a (by simp), pure_bind, hrest, pure_bind, List.map_cons]

/-- The results of a run over a list, when each result is known from its item. -/
theorem eq_map_of_mapM {f : α → Except ε β} {g : α → β} {l : List α} {bs : List β}
    (hf : ∀ a ∈ l, ∀ b, f a = .ok b → b = g a) (h : l.mapM f = .ok bs) : bs = l.map g := by
  induction l generalizing bs with
  | nil =>
    cases h
    rfl
  | cons a rest ih =>
    rw [List.mapM_cons] at h
    obtain ⟨b, hb, h⟩ := bind_ok_iff.mp h
    obtain ⟨more, hmore, h⟩ := bind_ok_iff.mp h
    cases h
    rw [hf a (by simp) b hb, ih (fun c hc => hf c (List.mem_cons_of_mem a hc)) hmore, List.map_cons]

/-- A run over a list succeeds with the results of its items, one for each. -/
theorem mapM_ok_iff {f : α → Except ε β} {l : List α} {bs : List β} :
    l.mapM f = .ok bs ↔ List.Forall₂ (fun a b => f a = .ok b) l bs := by
  induction l generalizing bs with
  | nil => rw [List.mapM_nil, pure_ok_iff, List.forall₂_nil_left_iff, eq_comm]
  | cons a rest ih =>
    simp only [List.mapM_cons, bind_ok_iff, pure_ok_iff, ih]
    constructor
    · rintro ⟨b, hb, more, hmore, rfl⟩
      exact .cons hb hmore
    · rintro (_ | ⟨hb, hmore⟩)
      exact ⟨_, hb, _, hmore, rfl⟩

/-- A run over a list ends with the error of the first item whose step fails. -/
theorem mapM_of_find? {p : α → Bool} {f : α → Except ε β} {e : α → ε} {l : List α} {a : α}
    (hok : ∀ a ∈ l, p a = false → ∃ b, f a = .ok b)
    (herr : ∀ a ∈ l, p a = true → f a = .error (e a)) (h : l.find? p = some a) :
    l.mapM f = .error (e a) := by
  induction l with
  | nil => cases h
  | cons b rest ih =>
    rw [List.mapM_cons]
    cases hb : p b with
    | true =>
      obtain rfl : b = a := by simpa [hb] using h
      rw [herr b (by simp) hb]
      rfl
    | false =>
      obtain ⟨c, hc⟩ := hok b (by simp) hb
      have hrest := ih (fun d hd => hok d (List.mem_cons_of_mem b hd))
        (fun d hd => herr d (List.mem_cons_of_mem b hd)) (by simpa [hb] using h)
      rw [hc, hrest]
      rfl

end RoverFleet
