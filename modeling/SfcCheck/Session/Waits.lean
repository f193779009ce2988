import SfcCheck.Server.Error

/-!
# What a session waits for

A wait is registered under a key, settled at most once with a result or an error, and forgotten in
the end. Only the first settlement counts; settling a key that is not registered does nothing.
-/

namespace SfcCheck

/-- What is known of something that is waited for: nothing yet, a result or an error. -/
abbrev Slot (α : Type) := Option (Except ServerError α)

/-- The waits in progress by their keys. -/
abbrev Waits (κ α : Type) := List (κ × Slot α)

namespace Waits

variable {κ α : Type}

/-- A slot that is filled if it is empty. -/
def fill (r : Except ServerError α) (slot : Slot α) : Slot α := slot.or (some r)

/-- The keys that are waited for. -/
def keys (w : Waits κ α) : List κ := w.map (·.1)

/-- Ends every wait with an error. -/
def failAll (e : ServerError) (w : Waits κ α) : Waits κ α :=
  w.map fun x => (x.1, fill (.error e) x.2)

@[simp] theorem keys_failAll (e : ServerError) (w : Waits κ α) : (w.failAll e).keys = w.keys := by
  simp [keys, failAll, Function.comp_def]

variable [DecidableEq κ]

/-- What is known of a key, if it is waited for. -/
def slot? (key : κ) : Waits κ α → Option (Slot α)
  | [] => none
  | (k, slot) :: w => if k = key then some slot else slot? key w

/-- Waits no longer for a key. -/
def forget (key : κ) (w : Waits κ α) : Waits κ α := w.filter fun x => !decide (x.1 = key)

/-- Begins to wait for a key, in place of an earlier wait for it. -/
def register (key : κ) (w : Waits κ α) : Waits κ α := (key, none) :: w.forget key

/-- Settles the wait for a key. -/
def settle (key : κ) (r : Except ServerError α) (w : Waits κ α) : Waits κ α :=
  w.map fun x => if x.1 = key then (x.1, fill r x.2) else x

/-- Settles the wait for a key that something is found to be for, if it is still open. Whether it is
for a key, and the result that it gives, may turn out to be faulty; the result is looked at only if
somebody waits for it. -/
def take {ε : Type} (key : Except ε (Option κ)) (result : Except ε (Except ServerError α))
    (w : Waits κ α) : Except ε (Waits κ α) :=
  match key with
  | .error e => .error e
  | .ok none => .ok w
  | .ok (some k) =>
    match w.slot? k with
    | some none => result.map fun r => w.settle k r
    | _ => .ok w

@[simp] theorem keys_settle (key : κ) (r : Except ServerError α) (w : Waits κ α) :
    (w.settle key r).keys = w.keys := by
  simp only [keys, settle, List.map_map]
  refine List.map_congr_left fun x _ => ?_
  simp only [Function.comp_apply]
  split <;> rfl

@[simp] theorem slot?_register (key : κ) (w : Waits κ α) :
    (w.register key).slot? key = some none := by
  simp [register, slot?]

theorem slot?_failAll (key : κ) (e : ServerError) (w : Waits κ α) :
    (w.failAll e).slot? key = (w.slot? key).map (fill (.error e)) := by
  induction w with
  | nil => rfl
  | cons x w ih =>
      simp only [failAll, List.map_cons, slot?] at ih ⊢
      split
      · rfl
      · exact ih

theorem slot?_settle (key k : κ) (r : Except ServerError α) (w : Waits κ α) :
    (w.settle k r).slot? key = if key = k then (w.slot? key).map (fill r) else w.slot? key := by
  induction w with
  | nil => simp [settle, slot?]
  | cons x w ih =>
      simp only [settle, List.map_cons, slot?] at ih ⊢
      by_cases hx : x.1 = key
      · subst hx
        by_cases hk : x.1 = k <;> simp [hk]
      · have hx' : (if x.1 = k then (x.1, fill r x.2) else x).1 ≠ key := by split <;> exact hx
        rw [if_neg hx', if_neg hx, ih]

theorem keys_forget (key : κ) (w : Waits κ α) :
    (w.forget key).keys = w.keys.filter fun k => !decide (k = key) := by
  simp only [keys, forget, List.filter_map, Function.comp_def]

theorem keys_register (key : κ) (w : Waits κ α) :
    (w.register key).keys = key :: (w.forget key).keys := rfl

/-- Beginning to wait for a key and forgetting it leaves the other keys. -/
theorem keys_forget_of_register {key : κ} {w w' : Waits κ α}
    (h : w'.keys = (w.register key).keys) : (w'.forget key).keys = (w.forget key).keys := by
  rw [keys_forget, h, keys_register, keys_forget, List.filter_cons_of_neg (by simp)]
  simp only [List.filter_filter, Bool.and_self]

/-! ### What `take` does -/

section Take

variable {ε : Type} {key? : Except ε (Option κ)} {result : Except ε (Except ServerError α)}
variable {w w' : Waits κ α} {key : κ}

/-- The wait for a key takes the result, or shows that it is faulty. -/
theorem take_open (h : w.slot? key = some none) :
    take (.ok (some key)) result w = result.map fun r => w.settle key r := by
  simp only [take, h]

/-- Nothing happens unless there is an open wait for the key. -/
theorem take_stray {k? : Option κ} (h : ∀ k, k? = some k → w.slot? k ≠ some none) :
    take (.ok k?) result w = .ok w := by
  cases k? with
  | none => rfl
  | some k =>
      simp only [take]
      split
      · next hslot => exact absurd hslot (h k rfl)
      · rfl

/-- Taking something leaves the waits as they were, or settles an open one. -/
theorem take_cases (h : take key? result w = .ok w') :
    w' = w ∨ ∃ k r, key? = .ok (some k) ∧ w.slot? k = some none ∧ result = .ok r ∧
      w' = w.settle k r := by
  rw [take.eq_def] at h
  split at h
  · cases h
  · cases h
    exact .inl rfl
  · next k =>
      split at h
      · next hslot =>
          cases result with
          | error e => cases h
          | ok r =>
              cases h
              exact .inr ⟨k, r, rfl, hslot, rfl, rfl⟩
      · cases h
        exact .inl rfl

theorem keys_take (h : take key? result w = .ok w') : w'.keys = w.keys := by
  obtain rfl | ⟨k, r, -, -, -, rfl⟩ := take_cases h
  · rfl
  · exact keys_settle k r w

/-- Something that is for another key, or for none, is not noticed. -/
theorem slot?_take_of_ne (h : take key? result w = .ok w') (hkey : key? ≠ .ok (some key)) :
    w'.slot? key = w.slot? key := by
  obtain rfl | ⟨k, r, rfl, -, -, rfl⟩ := take_cases h
  · rfl
  · rw [slot?_settle, if_neg]
    rintro rfl
    exact hkey rfl

/-- Nothing replaces what a wait was settled with. -/
theorem slot?_take_of_settled {r : Except ServerError α} (h : take key? result w = .ok w')
    (hslot : w.slot? key = some (some r)) : w'.slot? key = some (some r) := by
  obtain rfl | ⟨k, r', -, hopen, -, rfl⟩ := take_cases h
  · exact hslot
  · rw [slot?_settle, if_neg]
    · exact hslot
    · rintro rfl
      rw [hslot] at hopen
      cases hopen

end Take

end Waits

end SfcCheck
