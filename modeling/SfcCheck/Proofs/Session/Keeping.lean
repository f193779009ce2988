import SfcCheck.Proofs.Session.Entering

/-!
# Keeping a process

A session keeps its process from the start to the stop: no other one is started meanwhile, and when
it lets go of the process, the process has finished.
-/

namespace SfcCheck.Session

open Attempt

variable {σ : Type} {srv : Server σ} {s s' t : Session σ}

/-! ## Attempts to start a process -/

theorem spawned_notify (method : String) (params : Json) (s : Session σ) :
    (notify srv method params s).2.spawned = s.spawned := by
  obtain ⟨p?, ms, hangs, -, hsubmit⟩ := submit_snd srv (notification method params) s
  rw [notify, hsubmit]

theorem spawned_request (method : String) (params : Json) (s : Session σ) :
    (request srv method params s).2.spawned = s.spawned := by
  obtain ⟨p?, ms, t, -, hreads, hrequest⟩ := request_snd srv method params s
  rw [hrequest]
  exact congrArg (·.spawned) hreads.rest

theorem spawned_openAndAwait (d : Document) (s : Session σ) :
    (openAndAwait srv d s).2.spawned = s.spawned := by
  obtain ⟨p?, ms, t, -, hreads, hopen⟩ := openAndAwait_snd srv d s
  rw [hopen]
  exact congrArg (·.spawned) hreads.rest

theorem spawned_closeInput (s : Session σ) : (closeInput srv s).spawned = s.spawned :=
  congrArg (·.spawned)
    (Reads.receive _ { s with process? := s.process?.map (·.closeInput srv) }).rest

theorem spawned_dismiss (s : Session σ) : s.dismiss.spawned = s.spawned := by
  rw [dismiss]
  dsimp only
  split <;> rfl

/-! ## Keeping a process -/

/-- A session later on, when no process was started. If there was one, it is still there. -/
structure Retains (srv : Server σ) (s s' : Session σ) : Prop where
  steps : Steps srv False s s'
  process : s'.process?.isSome = s.process?.isSome
  spawned : s'.spawned = s.spawned

namespace Retains

theorem refl (s : Session σ) : Retains srv s s := ⟨.refl, rfl, rfl⟩

theorem trans (s s' s'' : Session σ) (h : Retains srv s s') (h' : Retains srv s' s'') :
    Retains srv s s'' :=
  ⟨Steps.trans _ _ _ h.steps h'.steps, h'.process.trans h.process, h'.spawned.trans h.spawned⟩

theorem acrossParts (srv : Server σ) : AcrossParts srv (Retains srv) where
  refl := refl
  trans := trans
  keepCapabilities result s := by
    refine ⟨(Steps.throughoutParts srv False).keepCapabilities result s,
      ((SameHandle.acrossParts srv).keepCapabilities result s).process, ?_⟩
    unfold Session.keepCapabilities
    split <;> rfl
  notify method params s :=
    ⟨(Steps.throughoutParts srv False).notify method params s,
      ((SameHandle.acrossParts srv).notify method params s).process, spawned_notify _ _ s⟩
  request method params s :=
    ⟨(Steps.throughoutParts srv False).request method params s,
      ((SameHandle.acrossParts srv).request method params s).process, spawned_request _ _ s⟩
  openAndAwait d s :=
    ⟨(Steps.throughoutParts srv False).openAndAwait d s,
      ((SameHandle.acrossParts srv).openAndAwait d s).process, spawned_openAndAwait d s⟩

theorem diagnostics (d : Document) : Keeps (Retains srv) (diagnostics srv d) :=
  (acrossParts srv).diagnostics (fun memo? _ hprocess =>
    ⟨.single (.remember memo? hprocess), rfl, rfl⟩) d

theorem asked (s : Session σ) : Retains srv s (asked srv s).2 := by
  rw [Session.asked]
  split
  · exact (acrossParts srv).shutDown s
  · exact refl s

theorem closeInput (s : Session σ) : Retains srv s (closeInput srv s) :=
  ⟨Steps.trans _ _ _ (.single .closeInput) (Steps.receive _ _),
    (SameHandle.closeInput srv s).process, spawned_closeInput s⟩

theorem kill (s : Session σ) : Retains srv s (s.kill srv) :=
  ⟨.single .kill, Option.isSome_map, rfl⟩

end Retains

/-! ## Letting go of a process -/

/-- A session that has let go of the process which it had before. The process had finished then. -/
def LetGo (srv : Server σ) (s s' : Session σ) : Prop :=
  ∃ t p, Retains srv s t ∧ t.process? = some p ∧ p.isAlive = false ∧ s' = t.dismiss

/-- Stopping lets go of the process. -/
theorem Retains.letGo (h : Retains srv s t) (hprocess : s.process?.isSome = true) :
    LetGo srv s (stop srv t).2 := by
  have ht : t.process?.isSome = true := h.process.trans hprocess
  obtain ⟨hstop, -, p, hp, hfinished⟩ := stop_dismisses srv ht
  exact ⟨_, p, h.trans _ _ _ ((asked t).trans _ _ _ ((closeInput _).trans _ _ _ (kill _))), hp,
    hfinished, hstop⟩

theorem LetGo.process? (h : LetGo srv s s') : s'.process? = none := by
  obtain ⟨t, p, -, -, -, rfl⟩ := h
  rfl

theorem LetGo.spawned (h : LetGo srv s s') : s'.spawned = s.spawned := by
  obtain ⟨t, p, hretains, -, -, rfl⟩ := h
  rw [spawned_dismiss, hretains.spawned]

end SfcCheck.Session
