import SfcCheck.Proofs.Run.Lifecycle
import SfcCheck.Proofs.Session.Hanging

/-!
# The exit code of a run

A run that ends exits with 0 if it passes and with 1 if it does not. It ends unless its session
hangs, and the session hangs only if the server was started and is not prompt: no run without one
hangs, and none whose server takes what is sent to it, dies when it is killed and has a limited time
to answer, whatever else it does.
-/

namespace SfcCheck

/-! ## Reports -/

namespace Report

variable {σ : Type} {r : Report σ}

theorem exitCode_eq_zero_iff : r.exitCode = 0 ↔ r.passed = true := by
  cases h : r.passed <;> simp [exitCode, h]

theorem exitCode_eq_one_iff : r.exitCode = 1 ↔ ¬ r.passed = true := by
  cases h : r.passed <;> simp [exitCode, h]

theorem exit?_eq_some_iff {code : Nat} :
    r.exit? = some code ↔ r.exitCode = code ∧ r.hangs = false := by
  cases h : r.hangs <;> simp [exit?, h]

theorem exit?_eq_none_iff : r.exit? = none ↔ r.hangs = true := by
  cases h : r.hangs <;> simp [exit?, h]

end Report

namespace Run

open Attempt

variable {σ : Type} {srv : Server σ} {room : Nat}

/-! ## Conversations -/

section Conversations

variable {withScript : Bool} {ds : List Document} {v : Validation (Session σ)}

/-- With a prompt server a conversation does not hang. -/
theorem proceeds_converse (v : Validation (Session σ)) :
    Session.Proceeds srv v.reporter (converse srv room withScript ds v).2.reporter := by
  have hparts : Session.ThroughoutParts srv (Session.Proceeds srv) :=
    Session.Proceeds.throughoutParts srv
  have hstart : Session.Proceeds srv v.reporter (Session.start srv v.reporter).2 :=
    hparts.start (Session.Proceeds.spawn v.reporter)
  rcases hact : Session.start srv v.reporter with ⟨e | _, t⟩
  · rw [hact] at hstart
    rw [reporter_converse_of_start_error hact]
    exact hstart.trans _ _ _ (hparts.stop t)
  · rw [hact] at hstart
    rw [reporter_converse_of_start_ok hact]
    have hchecked : Validation.OnReporter (Session.Proceeds srv) { v with reporter := t }
        (Validation.checkAll room (Session.diagnostics srv) withScript ds
          { v with reporter := t }).2 :=
      Validation.onReporter_checkAll Session.Proceeds.refl Session.Proceeds.trans
        hparts.diagnostics ds _
    exact hstart.trans _ _ _ (Session.Proceeds.trans _ _ _ hchecked (hparts.stop _))

/-- Without a server there is nothing to wait for. -/
theorem hangs_converse_of_unavailable (hnone : v.reporter.process? = none)
    (havailable : srv.available = false) :
    (converse srv room withScript ds v).2.reporter.hangs = v.reporter.hangs := by
  have hstart := Session.start_of_unavailable hnone havailable
  have hnoted : v.reporter.noted.process? = none := hnone
  rw [reporter_converse_of_start_error hstart, Session.stop_of_no_process hnoted]
  rfl

end Conversations

/-! ## Runs -/

section Runs

variable {tree : FileTree} {environment : Table String} {processId : Nat} {clock : Nat → Float}
variable {o : Options}

/-- A run that hangs has started a server, and that is not prompt. -/
theorem not_prompt_of_hangs
    (h : (check srv tree environment processId room o clock).hangs = true) :
    ∃ s w ds, Prepared tree environment o s w ds ∧ srv.available = true ∧
      ¬ Session.Prompt srv s.responseTimeout := by
  rw [Report.hangs, Report.session?] at h
  by_cases hprepared : ∃ s w ds, Prepared tree environment o s w ds
  · obtain ⟨s, w, ds, hsources⟩ := hprepared
    have hhangs : (converse srv room (!o.onlyTemplate) ds
        (validation processId clock s w)).2.reporter.hangs = true := by
      rw [validation?_check_of_prepared hsources] at h
      exact h
    refine ⟨s, w, ds, hsources, ?_, fun hprompt => ?_⟩
    · cases havailable : srv.available with
      | true => rfl
      | false =>
          rw [hangs_converse_of_unavailable rfl havailable] at hhangs
          cases hhangs
    · rw [(proceeds_converse _).hangs hprompt] at hhangs
      cases hhangs
  · rw [validation?_check_of_unprepared hprepared] at h
    cases h

end Runs

end Run

end SfcCheck
