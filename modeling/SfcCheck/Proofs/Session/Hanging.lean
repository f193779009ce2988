import SfcCheck.Proofs.Session.Requests

/-!
# Calls that hang

A call waits for room on the way to the server, for what it has asked for, and for the end of a
process that it has killed. Only the wait in the middle is limited in time, as far as the session
has a limit. So a call hangs in one of three ways, and with a server that is prompt in all of them
every call ends.
-/

namespace SfcCheck.Session

open Attempt

variable {σ : Type} {srv : Server σ} {s s' t : Session σ} {m : Json} {e : ServerError}

/-! ## Sending -/

/-- A message is sent but never taken. -/
def Stuck (srv : Server σ) (m : Json) (s : Session σ) : Prop :=
  ∃ t, send srv m s = (.ok (), t) ∧ t.isStuck srv = true

theorem not_stuck_of_send_error (h : send srv m s = (.error e, t)) : ¬ Stuck srv m s := by
  rintro ⟨u, hok, -⟩
  rw [h] at hok
  cases hok

theorem stuck_iff_of_send_ok (h : send srv m s = (.ok (), t)) :
    Stuck srv m s ↔ t.isStuck srv = true := by
  constructor
  · rintro ⟨u, hok, hstuck⟩
    rw [h] at hok
    obtain ⟨-, rfl⟩ := Prod.mk.inj hok
    exact hstuck
  · exact fun hstuck => ⟨t, h, hstuck⟩

/-- Sending hangs just if the message is stuck. -/
theorem hangs_submit_iff (srv : Server σ) (m : Json) (s : Session σ) :
    (submit srv m s).2.hangs = true ↔ s.hangs = true ∨ Stuck srv m s := by
  have hsent : (send srv m s).2.hangs = s.hangs := hangs_send m s
  rw [submit_eq]
  rcases hsend : send srv m s with ⟨e | _, t⟩
  · rw [hsend] at hsent
    dsimp only at hsent ⊢
    rw [hsent, or_iff_left (not_stuck_of_send_error hsend)]
  · rw [hsend] at hsent
    dsimp only [drain, hangIf] at hsent ⊢
    rw [hsent, Bool.or_eq_true, stuck_iff_of_send_ok hsend]

/-! ## Exchanges -/

theorem hangs_update {κ α : Type} (l : WaitList σ κ α) (f : Waits κ α → Waits κ α)
    (s : Session σ) : (l.update f s).hangs = s.hangs := by
  rw [l.update_rest]

namespace Watch

variable {κ α : Type} [DecidableEq κ] {l : WaitList σ κ α} {key : κ}

/-- The ways in which an exchange waits without end: its message is stuck, or it waits in vain and
its time is unlimited. -/
inductive Hangs (w : Watch srv l) (key : κ) (m : Json) (s : Session σ) : Prop where
  | stuck (h : Stuck srv m (l.update (·.register key) s))
  | vain (t : Session σ) (hsend : send srv m (l.update (·.register key) s) = (.ok (), t))
      (hvain : w.isVain key t = true) (htime : ¬ s.timeout ≤ 0.0) (hlimit : s.timeout.isInf = true)

theorem not_hangs_of_send_error (w : Watch srv l)
    (h : send srv m (l.update (·.register key) s) = (.error e, t)) : ¬ w.Hangs key m s := by
  intro hhangs
  cases hhangs with
  | stuck hstuck => exact not_stuck_of_send_error h hstuck
  | vain u hok hvain htime hlimit =>
      rw [h] at hok
      cases hok

theorem hangs_iff_of_send_ok (w : Watch srv l)
    (h : send srv m (l.update (·.register key) s) = (.ok (), t)) :
    w.Hangs key m s ↔ t.isStuck srv = true ∨
      w.isVain key t = true ∧ ¬ s.timeout ≤ 0.0 ∧ s.timeout.isInf = true := by
  constructor
  · intro hhangs
    cases hhangs with
    | stuck hstuck => exact .inl ((stuck_iff_of_send_ok h).mp hstuck)
    | vain u hok hvain htime hlimit =>
        rw [h] at hok
        obtain ⟨-, rfl⟩ := Prod.mk.inj hok
        exact .inr ⟨hvain, htime, hlimit⟩
  · rintro (hstuck | ⟨hvain, htime, hlimit⟩)
    · exact .stuck ((stuck_iff_of_send_ok h).mpr hstuck)
    · exact .vain t h hvain htime hlimit

/-- Whether a wait is in vain does not depend on whether a call hangs. -/
theorem isVain_hangIf (w : Watch srv l) (key : κ) (b : Bool) (s : Session σ) :
    w.isVain key (s.hangIf b) = w.isVain key s := by
  rw [isVain, isVain, heard_hangIf, receiveAll_hangIf]
  rfl

/-- An exchange hangs in these ways and no other. -/
theorem hangs_exchange_iff (w : Watch srv l) (key : κ) (m : Json) (awaited : Awaited)
    (s : Session σ) :
    (exchange srv l key m awaited s).2.hangs = true ↔ s.hangs = true ∨ w.Hangs key m s := by
  have hsent : (send srv m (l.update (·.register key) s)).2.hangs = s.hangs :=
    (hangs_send m _).trans (hangs_update l _ s)
  have hreceived (t : Session σ) : (receiveAll srv t).hangs = t.hangs := hangs_receive _ t
  rcases hsend : send srv m (l.update (·.register key) s) with ⟨e | _, t⟩
  · rw [hsend] at hsent
    dsimp only at hsent
    rw [exchange_of_send_error awaited hsend, hangs_update, hsent,
      or_iff_left (w.not_hangs_of_send_error hsend)]
  · rw [hsend] at hsent
    have hdrained : (t.drain srv).hangs = (s.hangs || t.isStuck srv) :=
      congrArg (· || t.isStuck srv) hsent
    obtain ⟨hslot, hopen, htimeout⟩ := ready_of_send hsend
    rw [exchange_of_send_ok awaited hsend, hangs_update, w.hangs_iff_of_send_ok hsend]
    by_cases htime : s.timeout ≤ 0.0
    · rw [w.await_late awaited hslot (htimeout ▸ htime), hreceived, hangs_update, hdrained]
      simp [htime]
    · rw [w.await_in_time awaited hslot hopen (htimeout ▸ htime), hangIf, hreceived, hdrained,
        htimeout]
      have hvain : w.isVain key (t.drain srv) = w.isVain key t := w.isVain_hangIf key _ t
      simp [htime, hvain, or_assoc]

end Watch

/-! ## Requests -/

/-- The ways in which a request waits without end: it is stuck, or no response to it comes although
reading goes on and the time is unlimited. -/
inductive RequestHangs (srv : Server σ) (method : String) (params : Json) (s : Session σ) :
    Prop where
  | stuck (h : Stuck srv (requestMessage s.nextId method params) s.opened)
  | vain (t : Session σ)
      (hsend : send srv (requestMessage s.nextId method params) s.opened = (.ok (), t))
      (hmiss : (heard srv t).find? (answers s.nextId) = none)
      (hopen : (receiveAll srv t).failure? = none) (htime : ¬ s.timeout ≤ 0.0)
      (hlimit : s.timeout.isInf = true)

theorem isVain_responseWatch_iff {id : Int} :
    (responseWatch srv).isVain id s = true ↔
      (heard srv s).find? (answers id) = none ∧ (receiveAll srv s).failure? = none := by
  have hhits : (responseWatch srv).hits id = answers id := funext (hits_responseWatch id)
  rw [Watch.isVain, hhits, Bool.and_eq_true, Option.isNone_iff_eq_none, Option.isNone_iff_eq_none]

/-- A request hangs in these ways and no other. -/
theorem hangs_request_iff (srv : Server σ) (method : String) (params : Json) (s : Session σ) :
    (request srv method params s).2.hangs = true ↔
      s.hangs = true ∨ RequestHangs srv method params s := by
  refine ((responseWatch srv).hangs_exchange_iff s.nextId (requestMessage s.nextId method params)
    (.response method) { s with lastId := s.lastId + 1 }).trans (or_congr_right ⟨?_, ?_⟩)
  · intro h
    cases h with
    | stuck h => exact .stuck h
    | vain t hsend hvain htime hlimit =>
        obtain ⟨hmiss, hopen⟩ := isVain_responseWatch_iff.mp hvain
        exact .vain t hsend hmiss hopen htime hlimit
  · intro h
    cases h with
    | stuck h => exact .stuck h
    | vain t hsend hmiss hopen htime hlimit =>
        exact .vain t hsend (isVain_responseWatch_iff.mpr ⟨hmiss, hopen⟩) htime hlimit

/-! ## Reaping -/

theorem hangs_closeInput (srv : Server σ) (s : Session σ) : (closeInput srv s).hangs = s.hangs :=
  hangs_receive _ { s with process? := s.process?.map (·.closeInput srv) }

theorem timeout_closeInput (srv : Server σ) (s : Session σ) :
    (closeInput srv s).timeout = s.timeout :=
  congrArg (·.timeout)
    (Reads.receive _ { s with process? := s.process?.map (·.closeInput srv) }).rest

theorem timeout_dismiss (s : Session σ) : s.dismiss.timeout = s.timeout := by
  rw [dismiss]
  dsimp only
  split <;> rfl

theorem hangs_dismiss (s : Session σ) : s.dismiss.hangs = s.hangs := by
  rw [dismiss]
  dsimp only
  split <;> rfl

/-- Reaping hangs just if a process that is killed goes on. -/
theorem hangs_reap (srv : Server σ) (s : Session σ) :
    (reap srv s).hangs = (s.hangs || (closeInput srv s).isRunning && srv.outlivesKill) := by
  rw [reap, hangs_dismiss, kill, hangs_closeInput]

/-! ## Prompt servers -/

/-- A server that takes what is sent to it and dies when it is killed, with a limit to the time that
it is waited for. -/
structure Prompt (srv : Server σ) (timeout : Float) : Prop where
  takes : ∀ state, srv.stalls state = false
  dies : srv.outlivesKill = false
  limited : timeout ≤ 0.0 ∨ timeout.isInf = false

namespace Prompt

variable {timeout : Float}

theorem not_isStuck (h : Prompt srv timeout) (s : Session σ) : s.isStuck srv = false := by
  rw [isStuck]
  split
  · rw [h.takes, Bool.and_false]
  · rfl

theorem not_stuck (h : Prompt srv timeout) (m : Json) (s : Session σ) : ¬ Stuck srv m s := by
  rintro ⟨t, -, hstuck⟩
  rw [h.not_isStuck] at hstuck
  cases hstuck

theorem not_hangs {κ α : Type} [DecidableEq κ] {l : WaitList σ κ α} (h : Prompt srv s.timeout)
    (w : Watch srv l) (key : κ) (m : Json) : ¬ w.Hangs key m s := by
  intro hhangs
  cases hhangs with
  | stuck hstuck => exact h.not_stuck m _ hstuck
  | vain t hsend hvain htime hlimit =>
      obtain hlate | hfinite := h.limited
      · exact htime hlate
      · rw [hfinite] at hlimit
        cases hlimit

end Prompt

/-- Sessions with the same time to wait, where nothing begins to hang if the server is prompt. -/
structure Proceeds (srv : Server σ) (s s' : Session σ) : Prop where
  timeout : s'.timeout = s.timeout
  hangs : Prompt srv s.timeout → s'.hangs = s.hangs

namespace Proceeds

theorem refl (s : Session σ) : Proceeds srv s s := ⟨rfl, fun _ => rfl⟩

theorem trans (s s' s'' : Session σ) (h : Proceeds srv s s') (h' : Proceeds srv s' s'') :
    Proceeds srv s s'' := by
  refine ⟨h'.timeout.trans h.timeout, fun hprompt => ?_⟩
  rw [h'.hangs (h.timeout ▸ hprompt), h.hangs hprompt]

theorem of_hangs_iff {P : Prop} (htimeout : s'.timeout = s.timeout)
    (hhangs : s'.hangs = true ↔ s.hangs = true ∨ P) (hprompt : Prompt srv s.timeout → ¬ P) :
    Proceeds srv s s' :=
  ⟨htimeout, fun h => Bool.eq_iff_iff.mpr (hhangs.trans (or_iff_left (hprompt h)))⟩

theorem notify (method : String) (params : Json) :
    Keeps (Proceeds srv) (notify srv method params) := by
  intro s
  have htimeout : (submit srv (notification method params) s).2.timeout = s.timeout := by
    obtain ⟨p?, ms, hangs, -, hsubmit⟩ := submit_snd srv (notification method params) s
    rw [hsubmit]
  exact of_hangs_iff htimeout (hangs_submit_iff srv _ s) fun h => h.not_stuck _ s

theorem request (method : String) (params : Json) :
    Keeps (Proceeds srv) (request srv method params) := by
  intro s
  have htimeout : (Session.request srv method params s).2.timeout = s.timeout := by
    obtain ⟨p?, ms, t, -, hreads, hsnd⟩ := request_snd srv method params s
    rw [hsnd, hreads.rest]
  refine of_hangs_iff htimeout
    ((responseWatch srv).hangs_exchange_iff s.nextId (requestMessage s.nextId method params)
      (.response method) { s with lastId := s.lastId + 1 }) fun h => ?_
  exact Prompt.not_hangs (s := { s with lastId := s.lastId + 1 }) h _ _ _

theorem openAndAwait (d : Document) : Keeps (Proceeds srv) (openAndAwait srv d) := by
  intro s
  have htimeout : (Session.openAndAwait srv d s).2.timeout = s.timeout := by
    obtain ⟨p?, ms, t, -, hreads, hsnd⟩ := openAndAwait_snd srv d s
    rw [hsnd, hreads.rest]
  exact of_hangs_iff htimeout ((publicationWatch srv).hangs_exchange_iff d.uri _ _ s) fun h =>
    h.not_hangs _ _ _

theorem reap (s : Session σ) : Proceeds srv s (reap srv s) := by
  refine ⟨?_, fun h => ?_⟩
  · rw [Session.reap, timeout_dismiss]
    exact timeout_closeInput srv s
  · rw [hangs_reap, h.dies, Bool.and_false, Bool.or_false]

theorem spawn : Keeps (Proceeds srv) (spawn srv) := by
  intro s
  rw [Session.spawn]
  split
  · exact refl s
  · dsimp only
    split <;> exact ⟨rfl, fun _ => rfl⟩

/-- With a prompt server no part of a call begins to hang. -/
theorem throughoutParts (srv : Server σ) : ThroughoutParts srv (Proceeds srv) where
  refl := refl
  trans := trans
  keepCapabilities result s := by
    unfold Session.keepCapabilities
    split
    · exact ⟨rfl, fun _ => rfl⟩
    · exact refl s
  notify := notify
  request := request
  openAndAwait := openAndAwait
  memo _ _ _ := ⟨rfl, fun _ => rfl⟩
  reap := reap

end Proceeds

end SfcCheck.Session
