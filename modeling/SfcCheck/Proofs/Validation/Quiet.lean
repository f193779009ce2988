import SfcCheck.Proofs.Attempt
import SfcCheck.Validation

/-!
# Checks that find nothing

Checking documents validates and counts them, and prints what is found. The count of findings never
falls, and no validation depends on it. So a check succeeds without findings just if all validations
succeed with nothing, and then it does no more than to count documents.
-/

namespace SfcCheck.Validation

open Attempt

variable {γ ε : Type} {reporter : Reporter γ ε} {withScript : Bool} {d : Document} {room : Nat}
variable {v v' : Validation γ}

/-- Replaces the tally. -/
def setTally (t : Tally) (v : Validation γ) : Validation γ := { v with tally := t }

@[simp] theorem setTally_self (v : Validation γ) : v.setTally v.tally = v := rfl

@[simp] theorem setTally_setTally (t t' : Tally) (v : Validation γ) :
    (v.setTally t).setTally t' = v.setTally t' := rfl

@[simp] theorem tally_setTally (t : Tally) (v : Validation γ) : (v.setTally t).tally = t := rfl

/-! ## Validations and the tally -/

section Ignoring

variable {t : Tally}

theorem ignores_regionsOf (d : Document) :
    Ignores (setTally t) (regionsOf d : Step γ ε (List Region)) := fun _ => rfl

theorem ignores_ask (d : Document) : Ignores (setTally t) (ask reporter d) := fun _ => rfl

theorem ignores_ofKind (kind : BlockKind) (d : Document) :
    Ignores (setTally t) (ofKind reporter kind d) := by
  refine (ignores_regionsOf d).bind fun regions => ?_
  split
  · exact ignores_pure []
  · exact (ignores_ask d).bind fun _ => ignores_pure _

theorem ignores_template (d : Document) : Ignores (setTally t) (template reporter d) := by
  rw [template]
  split
  · exact ignores_ofKind .template d
  · exact ignores_pure []

theorem ignores_validate (d : Document) :
    Ignores (setTally t) (validate reporter withScript d) := by
  refine (ignores_template d).bind fun templates => ?_
  dsimp only
  split
  · exact (ignores_ofKind .script d).bind fun _ => ignores_pure _
  · exact ignores_pure _

/-- What ignores the tally leaves it as it was. -/
theorem tally_of_ignores {α : Type} {act : Step γ ε α} (h : ∀ t, Ignores (setTally t) act)
    (v : Validation γ) : (act v).2.tally = v.tally := by
  have hself := h v.tally v
  rw [setTally_self] at hself
  exact congrArg (·.2.tally) hself

/-- A validation leaves the tally as it was. -/
theorem tally_validate (d : Document) (v : Validation γ) :
    (validate reporter withScript d v).2.tally = v.tally :=
  tally_of_ignores (fun _ => ignores_validate d) v

end Ignoring

/-! ## The count of findings -/

/-- As many findings as before, or more. -/
def Counts (v v' : Validation γ) : Prop := v.tally.diagnostics ≤ v'.tally.diagnostics

theorem Counts.refl (v : Validation γ) : Counts v v := Nat.le_refl _

theorem Counts.trans (v v' v'' : Validation γ) (h : Counts v v') (h' : Counts v' v'') :
    Counts v v'' := Nat.le_trans h h'

theorem keeps_print (d : Document) (x : Diagnostic) :
    Keeps Counts (print room d x : Step γ ε Unit) :=
  Keeps.bind Counts.trans (fun v => Counts.refl v) fun _ v => Nat.le_refl v.tally.diagnostics

theorem keeps_printAll (d : Document) (xs : List Diagnostic) :
    Keeps Counts (xs.forM (print room d) : Step γ ε Unit) :=
  Keeps.forM Counts.refl Counts.trans (keeps_print d) xs

theorem keeps_check (d : Document) : Keeps Counts (check room reporter withScript d) := by
  refine Keeps.bind Counts.trans ?_ fun found => Keeps.bind Counts.trans ?_ fun _ =>
    Keeps.bind Counts.trans ?_ fun _ => ?_
  · exact fun v => Nat.le_of_eq (congrArg Tally.diagnostics (tally_validate d v)).symm
  · exact fun v => Nat.le_add_right _ _
  · exact keeps_printAll d found
  · exact fun v => Nat.le_refl v.tally.diagnostics

theorem keeps_checkAll (ds : List Document) : Keeps Counts (checkAll room reporter withScript ds) :=
  Keeps.forM Counts.refl Counts.trans keeps_check ds

/-! ## Nothing found -/

/-- The tally after some more documents without findings. -/
def later (n : Nat) (t : Tally) : Tally := { t with documents := t.documents + n }

theorem later_later (m n : Nat) (t : Tally) : later m (later n t) = later (m + n) t := by
  simp only [later, Nat.add_assoc, Nat.add_comm m n]

/-- Checking a document finds nothing just if its validation gives nothing. -/
theorem check_quiet_iff :
    (check room reporter withScript d v = (.ok (), v') ∧
        v'.tally.diagnostics = v.tally.diagnostics) ↔
      ∃ w, validate reporter withScript d v = (.ok [], w) ∧
        v' = w.setTally (later 1 v.tally) := by
  have htally : (validate reporter withScript d v).2.tally = v.tally := tally_validate d v
  constructor
  · rintro ⟨hcheck, hcount⟩
    obtain ⟨found, w, hfound, hcheck⟩ := bind_eq_ok_iff.mp hcheck
    rw [hfound] at htally
    obtain ⟨_, w₁, hadd, hcheck⟩ := bind_eq_ok_iff.mp hcheck
    obtain ⟨-, rfl⟩ := Prod.mk.inj hadd
    obtain ⟨_, w₂, hprint, hdone⟩ := bind_eq_ok_iff.mp hcheck
    obtain ⟨-, rfl⟩ := Prod.mk.inj hdone
    have hprinted := (keeps_printAll d found).of_eq hprint
    -- printing takes nothing back, so all that was counted is still there
    have hnone : found.length = 0 := by
      change w.tally.diagnostics + found.length ≤ w₂.tally.diagnostics at hprinted
      change w₂.tally.diagnostics = v.tally.diagnostics at hcount
      change w.tally = v.tally at htally
      rw [htally, hcount] at hprinted
      omega
    obtain rfl := List.length_eq_zero_iff.mp hnone
    obtain ⟨-, rfl⟩ := Prod.mk.inj hprint
    refine ⟨w, hfound, ?_⟩
    rw [← htally]
    rfl
  · rintro ⟨w, hfound, rfl⟩
    rw [hfound] at htally
    refine ⟨?_, rfl⟩
    rw [check, checkBy, bind_ok hfound, ← htally]
    rfl

/-- Checking documents finds nothing just if their validations succeed and give nothing. -/
theorem checkAll_quiet_iff {ds : List Document} :
    (checkAll room reporter withScript ds v = (.ok (), v') ∧
        v'.tally.diagnostics = v.tally.diagnostics) ↔
      ∃ found w, ds.mapM (validate reporter withScript) v = (.ok found, w) ∧
        (∀ xs ∈ found, xs = []) ∧ v' = w.setTally (later ds.length v.tally) := by
  induction ds generalizing v v' with
  | nil =>
      constructor
      · rintro ⟨hall, -⟩
        obtain ⟨-, rfl⟩ := Prod.mk.inj hall
        exact ⟨[], v, rfl, by simp, rfl⟩
      · rintro ⟨found, w, hfound, -, rfl⟩
        obtain ⟨-, rfl⟩ := Prod.mk.inj hfound
        exact ⟨rfl, rfl⟩
  | cons d ds ih =>
      have hignores (t : Tally) : Ignores (setTally t) (ds.mapM (validate reporter withScript)) :=
        Ignores.mapM ignores_validate ds
      constructor
      · rintro ⟨hall, hcount⟩
        obtain ⟨_, u, hcheck, hrest⟩ := bind_eq_ok_iff.mp hall
        have hfirst := (keeps_check d).of_eq hcheck
        have hlater := (keeps_checkAll ds).of_eq hrest
        have hu : u.tally.diagnostics = v.tally.diagnostics :=
          Nat.le_antisymm (Nat.le_trans hlater (Nat.le_of_eq hcount)) hfirst
        obtain ⟨w, hfound, rfl⟩ := check_quiet_iff.mp ⟨hcheck, hu⟩
        obtain ⟨found, w', hfounds, hnone, rfl⟩ := ih.mp ⟨hrest, hcount⟩
        obtain ⟨w'', hlaters, rfl⟩ := (hignores _).eq_ok_iff.mp hfounds
        refine ⟨[] :: found, w'', ?_, by simpa using hnone, ?_⟩
        · rw [List.mapM_cons, bind_ok hfound, bind_ok hlaters, pure_apply]
        · simp only [setTally_setTally, tally_setTally, later_later, List.length_cons]
      · rintro ⟨found, w', hfounds, hnone, rfl⟩
        rw [List.mapM_cons] at hfounds
        obtain ⟨xs, w, hfound, hfounds⟩ := bind_eq_ok_iff.mp hfounds
        obtain ⟨xss, w'', hrest, hdone⟩ := bind_eq_ok_iff.mp hfounds
        obtain ⟨hresult, rfl⟩ := Prod.mk.inj hdone
        cases hresult
        obtain rfl := hnone xs (.head _)
        obtain ⟨hcheck, -⟩ := check_quiet_iff.mpr ⟨w, hfound, rfl⟩
        have hrest' := (hignores (later 1 v.tally)).eq_ok_iff.mpr ⟨w'', hrest, rfl⟩
        obtain ⟨hall, -⟩ := ih.mpr ⟨xss, _, hrest', fun xs hxs => hnone xs (.tail _ hxs), rfl⟩
        refine ⟨?_, rfl⟩
        change (check room reporter withScript d >>= fun _ =>
          checkAll room reporter withScript ds) v = _
        rw [bind_ok hcheck, hall]
        simp only [setTally_setTally, tally_setTally, later_later, List.length_cons]

end SfcCheck.Validation
