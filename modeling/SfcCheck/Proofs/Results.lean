import Mathlib.Data.List.Forall2

/-!
# Results one by one

What may fail comes to a result only if each of its steps does. What is done to each item of a list
is stopped by the first failure, and succeeds for the list just if it does for each item.
-/

namespace SfcCheck

variable {ε ε' α β : Type} {xs : List α}

theorem exists_of_bind_ok {x : Except ε α} {next : α → Except ε β} {b : β}
    (h : x >>= next = .ok b) : ∃ a, x = .ok a ∧ next a = .ok b := by
  cases x with
  | error e => cases h
  | ok a => exact ⟨a, rfl, h⟩

/-- What fails in two steps fails in the first or, after it, in the second. -/
theorem cases_of_bind_error {x : Except ε α} {next : α → Except ε β} {e : ε}
    (h : x >>= next = .error e) : x = .error e ∨ ∃ a, x = .ok a ∧ next a = .error e := by
  cases x with
  | error e' =>
      cases h
      exact .inl rfl
  | ok a => exact .inr ⟨a, rfl, h⟩

/-- What follows on a check comes to a result just if the check is passed and it does. -/
theorem bind_eq_ok_iff_of_unit {x : Except ε Unit} {next : Unit → Except ε β} {b : β} :
    x >>= next = .ok b ↔ x = .ok () ∧ next () = .ok b := by
  constructor
  · intro h
    obtain ⟨⟨⟩, hx, hnext⟩ := exists_of_bind_ok h
    exact ⟨hx, hnext⟩
  · rintro ⟨hx, hnext⟩
    rw [hx]
    exact hnext

theorem mapError_eq_ok_iff {f : ε → ε'} {x : Except ε α} {a : α} :
    x.mapError f = .ok a ↔ x = .ok a := by
  cases x <;> simp [Except.mapError]

/-- Failures that are told apart under other names are told apart as they are. -/
theorem mapError_injective {f : ε → ε'} (hf : Function.Injective f) :
    Function.Injective (Except.mapError f : Except ε α → Except ε' α) := by
  intro x y h
  cases x <;> cases y <;> simp_all [Except.mapError, hf.eq_iff]

theorem forM_ok {check : α → Except ε Unit} (h : ∀ x ∈ xs, check x = .ok ()) :
    xs.forM check = .ok () := by
  induction xs with
  | nil => rfl
  | cons x xs ih =>
      have hfirst : check x = .ok () := h x (.head _)
      show (check x >>= fun _ => xs.forM check) = _
      rw [hfirst]
      exact ih fun y hy => h y (.tail _ hy)

/-- If a check fails, the first one that does stops the others. -/
theorem forM_error {check : α → Except ε Unit} (h : ∃ x ∈ xs, check x ≠ .ok ()) :
    ∃ x ∈ xs, ∃ e, check x = .error e ∧ xs.forM check = .error e := by
  induction xs with
  | nil =>
      obtain ⟨x, hx, -⟩ := h
      cases hx
  | cons x xs ih =>
      have hcons : (x :: xs).forM check = check x >>= fun _ => xs.forM check := rfl
      rw [hcons]
      cases hx : check x with
      | error e => exact ⟨x, .head _, e, hx, rfl⟩
      | ok =>
          have hrest : ∃ y ∈ xs, check y ≠ .ok () := by
            obtain ⟨y, hy, hne⟩ := h
            rcases List.mem_cons.mp hy with rfl | hy
            · exact absurd hx hne
            · exact ⟨y, hy, hne⟩
          obtain ⟨y, hy, e, hye, herror⟩ := ih hrest
          exact ⟨y, .tail _ hy, e, hye, herror⟩

theorem filterM_ok {test : α → Except ε Bool} {holds : α → Bool}
    (h : ∀ x ∈ xs, test x = .ok (holds x)) : xs.filterM test = .ok (xs.filter holds) := by
  have haux (ys : List α) :
      xs.filterAuxM test ys = .ok ((xs.filter holds).reverse ++ ys) := by
    induction xs generalizing ys with
    | nil => rfl
    | cons x xs ih =>
        have hfirst : test x = .ok (holds x) := h x (.head _)
        rw [List.filterAuxM, hfirst]
        show xs.filterAuxM test (cond (holds x) (x :: ys) ys) = _
        rw [ih (fun y hy => h y (.tail _ hy))]
        cases hx : holds x <;> simp [hx]
  show (do let ys ← xs.filterAuxM test []; pure ys.reverse) = _
  rw [haux]
  simp [pure, Except.pure, bind, Except.bind]

theorem mapM_map_ok {γ : Type} {f : α → Except ε β} {ys : List β} (h : xs.mapM f = .ok ys)
    (g : β → γ) : (xs.mapM fun x => return g (← f x)) = .ok (ys.map g) := by
  induction xs generalizing ys with
  | nil =>
      cases h
      rfl
  | cons x xs ih =>
      rw [List.mapM_cons] at h ⊢
      obtain ⟨y, hx, h⟩ := exists_of_bind_ok h
      obtain ⟨rest, hxs, h⟩ := exists_of_bind_ok h
      cases h
      rw [hx]
      show ((xs.mapM fun x => return g (← f x)) >>= fun ys => pure (g y :: ys)) = _
      rw [ih hxs]
      rfl

theorem forall₂_of_mapM_ok {f : α → Except ε β} {ys : List β}
    (h : xs.mapM f = .ok ys) : List.Forall₂ (fun x y => f x = .ok y) xs ys := by
  induction xs generalizing ys with
  | nil =>
      cases h
      exact .nil
  | cons x xs ih =>
      rw [List.mapM_cons] at h
      obtain ⟨y, hx, h⟩ := exists_of_bind_ok h
      obtain ⟨zs, hxs, h⟩ := exists_of_bind_ok h
      cases h
      exact .cons hx (ih hxs)

/-- What stands in the second of two lists that agree item by item has its partner in the first. -/
theorem exists_of_forall₂ {R : α → β → Prop} {ys : List β} (h : List.Forall₂ R xs ys) {y : β}
    (hy : y ∈ ys) : ∃ x ∈ xs, R x y := by
  induction h with
  | nil => cases hy
  | cons hfirst _ ih =>
      rcases List.mem_cons.mp hy with rfl | hy
      · exact ⟨_, .head _, hfirst⟩
      · obtain ⟨x, hx, hxy⟩ := ih hy
        exact ⟨x, .tail _ hx, hxy⟩

theorem exists_mapM_ok {f : α → Except ε β}
    (h : ∀ x ∈ xs, ∃ y, f x = .ok y) : ∃ ys, xs.mapM f = .ok ys := by
  induction xs with
  | nil => exact ⟨[], rfl⟩
  | cons x xs ih =>
      obtain ⟨y, hy⟩ := h x (.head _)
      obtain ⟨ys, hys⟩ := ih fun x hx => h x (.tail _ hx)
      refine ⟨y :: ys, ?_⟩
      rw [List.mapM_cons, hy, hys]
      rfl

theorem exists_mapM_ok_iff {f : α → Except ε β} :
    (∃ ys, xs.mapM f = .ok ys) ↔ ∀ x ∈ xs, ∃ y, f x = .ok y := by
  constructor
  · rintro ⟨ys, hys⟩ x hx
    have hall := forall₂_of_mapM_ok hys
    clear hys
    induction hall with
    | nil => cases hx
    | cons hy _ ih =>
        rcases List.mem_cons.mp hx with rfl | hx
        · exact ⟨_, hy⟩
        · exact ih hx
  · exact exists_mapM_ok

theorem mapM_eq_ok_map {f : α → Except ε β} {g : α → β} (h : ∀ x ∈ xs, f x = .ok (g x)) :
    xs.mapM f = .ok (xs.map g) := by
  induction xs with
  | nil => rfl
  | cons x xs ih =>
      rw [List.mapM_cons, h x (.head _), ih fun y hy => h y (.tail _ hy)]
      rfl

/-- What fails for a list fails at the first item that has no result. -/
theorem mapM_eq_error_iff {f : α → Except ε β} {e : ε} :
    xs.mapM f = .error e ↔ ∃ before x after, xs = before ++ x :: after ∧
      (∀ y ∈ before, ∃ z, f y = .ok z) ∧ f x = .error e := by
  induction xs with
  | nil =>
      constructor
      · intro h
        cases h
      · rintro ⟨before, x, after, hsplit, -⟩
        simp at hsplit
  | cons x xs ih =>
      rw [List.mapM_cons]
      constructor
      · intro h
        rcases cases_of_bind_error h with hfirst | ⟨y, hy, h⟩
        · exact ⟨[], x, xs, rfl, by simp, hfirst⟩
        · rcases cases_of_bind_error h with hrest | ⟨ys, -, h⟩
          · obtain ⟨before, x', after, rfl, hbefore, hx'⟩ := ih.mp hrest
            refine ⟨x :: before, x', after, rfl, ?_, hx'⟩
            exact List.forall_mem_cons.mpr ⟨⟨y, hy⟩, hbefore⟩
          · cases h
      · rintro ⟨before, x', after, hsplit, hbefore, hx'⟩
        cases before with
        | nil =>
            obtain ⟨rfl, rfl⟩ := List.cons.inj hsplit
            rw [hx']
            rfl
        | cons y before =>
            obtain ⟨rfl, hxs⟩ := List.cons.inj hsplit
            obtain ⟨⟨z, hz⟩, hbefore⟩ := List.forall_mem_cons.mp hbefore
            have hrest : xs.mapM f = .error e := ih.mpr ⟨before, x', after, hxs, hbefore, hx'⟩
            rw [hz, hrest]
            rfl

theorem exists_of_mapM_error {f : α → Except ε β} {e : ε} (h : xs.mapM f = .error e) :
    ∃ x ∈ xs, f x = .error e := by
  obtain ⟨before, x, after, rfl, -, hx⟩ := mapM_eq_error_iff.mp h
  exact ⟨x, List.mem_append_right _ (.head _), hx⟩

end SfcCheck
