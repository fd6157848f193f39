import RoverFleet.Proofs.Outcome

/-!
# Checks in a fixed order

A list of checks decides an outcome if the outcome is a value when all of them hold, and the error
of the first one that fails otherwise. Steps decided by checks are combined by appending the lists.
-/
namespace RoverFleet

/-- What must hold, and the error if it does not. -/
structure Check (ε : Type) where
  Holds : Prop
  error : ε

namespace Check
variable {ε α β : Type}

def Pass (cs : List (Check ε)) : Prop := ∀ c ∈ cs, c.Holds

/-- The first check that fails is one with this error. -/
def Fail (cs : List (Check ε)) (e : ε) : Prop :=
  ∃ before c after, cs = before ++ c :: after ∧ Pass before ∧ ¬ c.Holds ∧ c.error = e

theorem pass_nil : Pass ([] : List (Check ε)) := by simp [Pass]

theorem pass_cons {c : Check ε} {cs : List (Check ε)} :
    Pass (c :: cs) ↔ c.Holds ∧ Pass cs := by simp [Pass]

theorem pass_append {cs ds : List (Check ε)} : Pass (cs ++ ds) ↔ Pass cs ∧ Pass ds := by
  simp only [Pass, List.mem_append]
  exact ⟨fun h => ⟨fun c hc => h c (Or.inl hc), fun c hc => h c (Or.inr hc)⟩,
    fun h c hc => hc.elim (h.1 c) (h.2 c)⟩

theorem Fail.here {c : Check ε} (cs : List (Check ε)) (h : ¬ c.Holds) : Fail (c :: cs) c.error :=
  ⟨[], c, cs, rfl, pass_nil, h, rfl⟩

theorem Fail.later {ds cs : List (Check ε)} {e : ε} (hd : Pass ds) (h : Fail cs e) :
    Fail (ds ++ cs) e := by
  obtain ⟨before, c, after, rfl, hb, hc, he⟩ := h
  exact ⟨ds ++ before, c, after, by simp, pass_append.mpr ⟨hd, hb⟩, hc, he⟩

theorem Fail.append {cs : List (Check ε)} {e : ε} (h : Fail cs e) (ds : List (Check ε)) :
    Fail (cs ++ ds) e := by
  obtain ⟨before, c, after, rfl, hb, hc, he⟩ := h
  exact ⟨before, c, after ++ ds, by simp, hb, hc, he⟩

theorem Fail.not_pass {cs : List (Check ε)} {e : ε} (h : Fail cs e) : ¬ Pass cs := by
  obtain ⟨before, c, after, rfl, -, hc, -⟩ := h
  exact fun hp => hc (hp c (by simp))

theorem Fail.exists_mem {cs : List (Check ε)} {e : ε} (h : Fail cs e) :
    ∃ c ∈ cs, ¬ c.Holds ∧ c.error = e := by
  obtain ⟨before, c, after, rfl, -, hc, he⟩ := h
  exact ⟨c, by simp, hc, he⟩

theorem fail_cons {c : Check ε} {cs : List (Check ε)} {e : ε} :
    Fail (c :: cs) e ↔ ¬ c.Holds ∧ c.error = e ∨ c.Holds ∧ Fail cs e := by
  constructor
  · rintro ⟨before, d, after, hcs, hb, hd, he⟩
    cases before with
    | nil =>
      obtain ⟨rfl, -⟩ := List.cons.inj hcs
      exact Or.inl ⟨hd, he⟩
    | cons b bs =>
      obtain ⟨rfl, rfl⟩ := List.cons.inj hcs
      obtain ⟨hc, hbs⟩ := pass_cons.mp hb
      exact Or.inr ⟨hc, bs, d, after, rfl, hbs, hd, he⟩
  · rintro (⟨hc, rfl⟩ | ⟨hc, hf⟩)
    · exact Fail.here cs hc
    · have hpass : Pass [c] := by simpa [Pass] using hc
      exact hf.later hpass

theorem fail_append {cs ds : List (Check ε)} {e : ε} :
    Fail (cs ++ ds) e ↔ Fail cs e ∨ Pass cs ∧ Fail ds e := by
  constructor
  · intro h
    induction cs with
    | nil => exact Or.inr ⟨pass_nil, h⟩
    | cons c cs ih =>
      rcases fail_cons.mp h with hc | ⟨hc, hf⟩
      · exact Or.inl (fail_cons.mpr (Or.inl hc))
      · rcases ih hf with hcs | ⟨hcs, hds⟩
        · exact Or.inl (fail_cons.mpr (Or.inr ⟨hc, hcs⟩))
        · exact Or.inr ⟨pass_cons.mpr ⟨hc, hcs⟩, hds⟩
  · rintro (hcs | ⟨hcs, hds⟩)
    · exact hcs.append ds
    · exact hds.later hcs

theorem Fail.unique {cs : List (Check ε)} {e f : ε} (h : Fail cs e) (g : Fail cs f) : e = f := by
  induction cs with
  | nil =>
    obtain ⟨c, hc, -⟩ := h.exists_mem
    simp at hc
  | cons c cs ih =>
    rcases fail_cons.mp h with ⟨hc, rfl⟩ | ⟨hc, hf⟩
    · rcases fail_cons.mp g with ⟨-, rfl⟩ | ⟨hc', -⟩
      · rfl
      · exact absurd hc' hc
    · rcases fail_cons.mp g with ⟨hc', -⟩ | ⟨-, hg⟩
      · exact absurd hc hc'
      · exact ih hf hg

/-- The outcome is the value if all checks hold, and else the error of the first that fails. -/
def Decides (cs : List (Check ε)) (a : α) (x : Except ε α) : Prop :=
  Pass cs ∧ x = .ok a ∨ ∃ e, Fail cs e ∧ x = .error e

namespace Decides

theorem nil (a : α) : Decides ([] : List (Check ε)) a (.ok a) := Or.inl ⟨pass_nil, rfl⟩

theorem cons {c : Check ε} {cs : List (Check ε)} {a : α} {x : Except ε α}
    (hx : c.Holds → Decides cs a x) (he : ¬ c.Holds → x = .error c.error) :
    Decides (c :: cs) a x := by
  by_cases hc : c.Holds
  · rcases hx hc with ⟨hp, hv⟩ | ⟨e, hf, hv⟩
    · exact Or.inl ⟨pass_cons.mpr ⟨hc, hp⟩, hv⟩
    · have hpass : Pass [c] := by simpa [Pass] using hc
      exact Or.inr ⟨e, hf.later hpass, hv⟩
  · exact Or.inr ⟨c.error, Fail.here cs hc, he hc⟩

theorem bind {cs ds : List (Check ε)} {a : α} {b : β} {x : Except ε α} {f : α → Except ε β}
    (hx : Decides cs a x) (hf : Pass cs → Decides ds b (f a)) : Decides (cs ++ ds) b (x >>= f) := by
  rcases hx with ⟨hp, rfl⟩ | ⟨e, hfail, rfl⟩
  · rcases hf hp with ⟨hq, hv⟩ | ⟨e, hfail, hv⟩
    · exact Or.inl ⟨pass_append.mpr ⟨hp, hq⟩, hv⟩
    · exact Or.inr ⟨e, hfail.later hp, hv⟩
  · exact Or.inr ⟨e, hfail.append ds, rfl⟩

theorem map {cs : List (Check ε)} {a : α} {x : Except ε α} (hx : Decides cs a x) (f : α → β) :
    Decides cs (f a) (x >>= fun a => .ok (f a)) := by
  rw [← List.append_nil cs]
  exact hx.bind fun _ => .nil (f a)

theorem ok_iff {cs : List (Check ε)} {a b : α} {x : Except ε α} (h : Decides cs a x) :
    x = .ok b ↔ Pass cs ∧ a = b := by
  rcases h with ⟨hp, rfl⟩ | ⟨e, hf, rfl⟩
  · simp [hp]
  · simp [hf.not_pass]

theorem error_iff {cs : List (Check ε)} {a : α} {x : Except ε α} {e : ε} (h : Decides cs a x) :
    x = .error e ↔ Fail cs e := by
  rcases h with ⟨hp, rfl⟩ | ⟨e', hf, rfl⟩
  · simp only [reduceCtorEq, false_iff]
    exact fun hf => hf.not_pass hp
  · constructor
    · rintro ⟨rfl⟩
      exact hf
    · exact fun hf' => congrArg Except.error (hf.unique hf')

end Decides

end Check

end RoverFleet
