/-!
# Attempts

Sessions, validations and runs are made of attempts, which give a result or an error and, in either
case, the next state. The equations say how a sequence goes on after each outcome of its first
part. `Keeps` says that a relation holds between the states before and after an attempt, whatever
its outcome, and `Ignores` that a change of the state makes no difference to an attempt but is still
there afterwards. Both are checked part by part.
-/

namespace SfcCheck

/-- A result or an error, and the next state in either case. -/
abbrev Attempt (ρ ε α : Type) := ExceptT ε (StateM ρ) α

namespace Attempt

variable {ρ ε α β : Type} {s t : ρ}

theorem pure_apply (a : α) (s : ρ) : (pure a : Attempt ρ ε α) s = (.ok a, s) := rfl

theorem bind_ok {act : Attempt ρ ε α} {next : α → Attempt ρ ε β} {a : α} (h : act s = (.ok a, t)) :
    (act >>= next) s = next a t := by
  change (match act s with | (r, s) => ExceptT.bindCont next r s) = _
  rw [h]
  rfl

theorem bind_error {act : Attempt ρ ε α} {next : α → Attempt ρ ε β} {e : ε}
    (h : act s = (.error e, t)) : (act >>= next) s = (.error e, t) := by
  change (match act s with | (r, s) => ExceptT.bindCont next r s) = _
  rw [h]
  rfl

/-- A sequence succeeds just if both of its parts do. -/
theorem bind_eq_ok_iff {act : Attempt ρ ε α} {next : α → Attempt ρ ε β} {b : β} :
    (act >>= next) s = (.ok b, t) ↔ ∃ a u, act s = (.ok a, u) ∧ next a u = (.ok b, t) := by
  constructor
  · intro h
    rcases hact : act s with ⟨_ | a, u⟩
    · rw [bind_error hact] at h
      cases h
    · rw [bind_ok hact] at h
      exact ⟨a, u, rfl, h⟩
  · rintro ⟨a, u, hact, hnext⟩
    rw [bind_ok hact, hnext]

/-- A traversal goes on behind the items that it got through. -/
theorem forM_append_ok {step : β → Attempt ρ ε Unit} {bs cs : List β}
    (h : bs.forM step s = (.ok (), t)) : (bs ++ cs).forM step s = cs.forM step t := by
  induction bs generalizing s with
  | nil =>
      obtain ⟨-, rfl⟩ := Prod.mk.inj h
      rfl
  | cons b bs ih =>
      obtain ⟨_, u, hfirst, hrest⟩ := bind_eq_ok_iff.mp h
      show (step b >>= fun _ => (bs ++ cs).forM step) s = _
      rw [bind_ok hfirst]
      exact ih hrest

theorem tryCatch_ok {act : Attempt ρ ε α} {handle : ε → Attempt ρ ε α} {a : α}
    (h : act s = (.ok a, t)) : (tryCatch act handle) s = (.ok a, t) := by
  change (ExceptT.tryCatch act handle) s = _
  simp only [ExceptT.tryCatch, ExceptT.mk, bind, StateT.bind, h]
  rfl

theorem tryCatch_error {act : Attempt ρ ε α} {handle : ε → Attempt ρ ε α} {e : ε}
    (h : act s = (.error e, t)) : (tryCatch act handle) s = handle e t := by
  change (ExceptT.tryCatch act handle) s = _
  simp only [ExceptT.tryCatch, ExceptT.mk, bind, StateT.bind, h]

/-! ## What an attempt keeps -/

/-- Every outcome of an attempt leaves a state that is related to the one before. -/
def Keeps (R : ρ → ρ → Prop) (act : Attempt ρ ε α) : Prop := ∀ s, R s (act s).2

section Keeps

variable {R : ρ → ρ → Prop} {act : Attempt ρ ε α}

theorem Keeps.of_eq {r : Except ε α} (h : Keeps R act) (hact : act s = (r, t)) : R s t := by
  have hs := h s
  rwa [hact] at hs

theorem keeps_pure (hrefl : ∀ s, R s s) (a : α) : Keeps R (pure a : Attempt ρ ε α) := hrefl

theorem Keeps.bind (htrans : ∀ s t u, R s t → R t u → R s u) {next : α → Attempt ρ ε β}
    (h : Keeps R act) (hnext : ∀ a, Keeps R (next a)) : Keeps R (act >>= next) := by
  intro s
  rcases hact : act s with ⟨_ | a, u⟩
  · rw [bind_error hact]
    exact h.of_eq hact
  · rw [bind_ok hact]
    exact htrans _ _ _ (h.of_eq hact) (hnext a u)

theorem Keeps.tryCatch (htrans : ∀ s t u, R s t → R t u → R s u) {handle : ε → Attempt ρ ε α}
    (h : Keeps R act) (hhandle : ∀ e, Keeps R (handle e)) : Keeps R (tryCatch act handle) := by
  intro s
  rcases hact : act s with ⟨e | _, u⟩
  · rw [tryCatch_error hact]
    exact htrans _ _ _ (h.of_eq hact) (hhandle e u)
  · rw [tryCatch_ok hact]
    exact h.of_eq hact

theorem Keeps.forM (hrefl : ∀ s, R s s) (htrans : ∀ s t u, R s t → R t u → R s u)
    {step : β → Attempt ρ ε Unit} (h : ∀ b, Keeps R (step b)) (bs : List β) :
    Keeps R (bs.forM step) := by
  induction bs with
  | nil => exact keeps_pure hrefl ()
  | cons b bs ih => exact (h b).bind htrans fun _ => ih

end Keeps

/-! ## What an attempt ignores -/

/-- After a change of the state an attempt does what it does without, and leaves the change. -/
def Ignores (change : ρ → ρ) (act : Attempt ρ ε α) : Prop :=
  ∀ s, act (change s) = ((act s).1, change (act s).2)

section Ignores

variable {change : ρ → ρ} {act : Attempt ρ ε α}

theorem ignores_pure (a : α) : Ignores change (pure a : Attempt ρ ε α) := fun _ => rfl

theorem Ignores.bind {next : α → Attempt ρ ε β} (h : Ignores change act)
    (hnext : ∀ a, Ignores change (next a)) : Ignores change (act >>= next) := by
  intro s
  have hs := h s
  rcases hact : act s with ⟨_ | a, u⟩
  · rw [hact] at hs
    rw [bind_error hact, bind_error hs]
  · rw [hact] at hs
    rw [bind_ok hact, bind_ok hs, hnext a u]

theorem Ignores.mapM {step : β → Attempt ρ ε α} (h : ∀ b, Ignores change (step b)) (bs : List β) :
    Ignores change (bs.mapM step) := by
  induction bs with
  | nil => exact ignores_pure []
  | cons b bs ih =>
      rw [List.mapM_cons]
      exact (h b).bind fun _ => ih.bind fun _ => ignores_pure _

theorem Ignores.eq_ok_iff {a : α} (h : Ignores change act) :
    act (change s) = (.ok a, t) ↔ ∃ u, act s = (.ok a, u) ∧ t = change u := by
  rw [h s]
  constructor
  · intro heq
    obtain ⟨hresult, rfl⟩ := Prod.mk.inj heq
    exact ⟨_, Prod.ext hresult rfl, rfl⟩
  · rintro ⟨u, hact, rfl⟩
    rw [hact]

end Ignores

end Attempt

end SfcCheck
