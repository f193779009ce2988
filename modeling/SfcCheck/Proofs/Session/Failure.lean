import SfcCheck.Proofs.Session.Publications
import SfcCheck.Proofs.Session.Steps

/-!
# How reading ends, and what follows

Reading ends once: when the output of the server is over, when a message cannot be read, when one
cannot be dispatched or answered, or when the process is dismissed. The error is kept, everything
that is waited for ends with it, and until a process is started anew every call raises it and
nothing reaches the server.

That the error stays is a matter of single steps; so is where it comes from.
-/

namespace SfcCheck

/-! ## Listening -/

namespace Process

variable {σ : Type}

theorem listening_applyAll (rs : List Reaction) (p : Process σ) :
    (p.applyAll rs).listening = p.listening := by
  induction rs generalizing p with
  | nil => rfl
  | cons r rs ih =>
      rw [applyAll]
      split
      · rw [ih]
        cases r with
        | emit bytes =>
            rw [apply]
            split <;> rfl
        | breakPipe => rfl
        | hangUp => rfl
        | exit code => rfl
      · rfl

theorem listening_accept (srv : Server σ) (p : Process σ) (m : Json) :
    (p.accept srv m).listening = p.listening := listening_applyAll _ _

theorem listening_serve (state : σ) (rs : List Reaction) (p : Process σ) :
    (({ p with server := state } : Process σ).applyAll rs).listening = p.listening :=
  listening_applyAll _ _

theorem listening_closeInput (srv : Server σ) (p : Process σ) :
    (p.closeInput srv).listening = p.listening := by
  rw [closeInput]
  split <;> rfl

theorem listening_kill (p : Process σ) : p.kill.listening = p.listening := by
  rw [kill]
  split <;> rfl

end Process

namespace Session

open Attempt

variable {σ : Type} {srv : Server σ} {fresh : Prop} {s s' t u : Session σ} {e : ServerError}

/-- Whether the output of the process is read, if there is a process. -/
def listening? (s : Session σ) : Option Bool := s.process?.map (·.listening)

/-- Whether there is a process whose output is read. -/
def isListening (s : Session σ) : Bool := s.listening?.getD false

theorem isDeaf_iff : IsDeaf s ↔ s.isListening = false := by
  rw [IsDeaf, isListening, listening?]
  cases s.process? <;> simp

theorem listening?_map {f : Process σ → Process σ} (hf : ∀ p, (f p).listening = p.listening)
    (h : s'.process? = s.process?.map f) : s'.listening? = s.listening? := by
  rw [listening?, listening?, h]
  cases s.process? with
  | none => rfl
  | some p => exact congrArg some (hf p)

/-- Sending a message to a process leaves it to be read. -/
theorem listening?_send (m : Json) (s : Session σ) :
    (send srv m s).2.listening? = s.listening? := by
  rw [send]
  split
  · rfl
  · rfl
  · next p hfailure hp =>
      have haccept : listening? { s with process? := some (p.accept srv m), sent := s.sent ++ [m] }
          = s.listening? := by
        rw [listening?, listening?, hp]
        exact congrArg some (Process.listening_accept srv p m)
      dsimp only
      split
      · split
        · exact haccept
        · exact haccept
      · split <;> rfl

theorem listening?_dispatch (fields : Table Json) (s : Session σ) :
    (dispatch srv fields s).2.listening? = s.listening? := by
  have h := dispatching srv fields s
  generalize dispatch srv fields s = out at h
  cases h with
  | answered m hanswer r => exact listening?_send m s
  | _ => rfl

/-! ## The end of reading -/

/-- Reading has ended, with an error. -/
structure EndedWith (e : ServerError) (s : Session σ) : Prop where
  failure : s.failure? = some e
  deaf : IsDeaf s

/-- The step from `u` to `t` ends reading with an error. -/
inductive Ending (srv : Server σ) (u : Session σ) : Session σ → ServerError → Prop where
  /-- The output of the process is over. -/
  | exhausted (p : Process σ) (hp : u.process? = some p) (hlistening : p.listening = true)
      (hread : Wire.read p.isOver p.unread = .ended) : Ending srv u (u.fail .exited) .exited
  /-- What comes next in the output is no message. -/
  | unreadable (p : Process σ) (hp : u.process? = some p) (hlistening : p.listening = true)
      (f : ReadFailure) (hread : Wire.read p.isOver p.unread = .failed f) :
      Ending srv u (u.fail f.toServerError) f.toServerError
  /-- The next message cannot be dispatched, or not be answered. -/
  | undispatchable (fields : Table Json) (r t : Session σ) (f : ReadFailure)
      (hread : u.incoming = .message fields r) (hdispatch : dispatch srv fields r = (.error f, t)) :
      Ending srv u (t.fail f.toServerError) f.toServerError
  /-- The process is dismissed while its output is read. -/
  | dismissed (hlistening : u.isListening = true) : Ending srv u u.dismiss .exited

theorem endedWith_fail (e : ServerError) (s : Session σ) : EndedWith e (s.fail e) :=
  ⟨rfl, isDeaf_fail e s⟩

theorem dismiss_of_listening (h : s.isListening = true) :
    s.dismiss = { s.fail .exited with process? := none, memo? := none } := by
  rw [dismiss, ← listening?, ← isListening, if_pos h]

theorem dismiss_of_deaf (h : IsDeaf s) :
    s.dismiss = { s with process? := none, memo? := none } := by
  rw [dismiss, ← listening?, ← isListening, if_neg (by simp [isDeaf_iff.mp h])]

theorem Ending.ended (h : Ending srv u t e) : EndedWith e t := by
  cases h with
  | exhausted => exact endedWith_fail _ _
  | unreadable => exact endedWith_fail _ _
  | undispatchable => exact endedWith_fail _ _
  | dismissed hlistening =>
      rw [dismiss_of_listening hlistening]
      exact ⟨rfl, fun p hp => by cases hp⟩

/-! ### Waits that are open at the end -/

theorem get_of_dispatch_error {κ α : Type} (l : WaitList σ κ α) {fields : Table Json}
    {f : ReadFailure} (h : dispatch srv fields s = (.error f, s')) : l.get s' = l.get s := by
  have hdispatching := dispatching srv fields s
  rw [h] at hdispatching
  cases hdispatching with
  | faulty => rfl
  | answered m hanswer => exact get_of_send l rfl

section Waits

variable {κ α : Type} [DecidableEq κ] {l : WaitList σ κ α} {key : κ}

/-- Everything that is waited for when reading ends is settled with the error. -/
theorem Watch.slot?_ending (w : Watch srv l) (h : Ending srv u t e)
    (hopen : (l.get u).slot? key = some none) :
    (l.get t).slot? key = some (some (.error e)) := by
  have hfail {s : Session σ} (e : ServerError) (hget : l.get s = l.get u) :
      (l.get (s.fail e)).slot? key = some (some (.error e)) := by
    rw [w.slot?_fail, hget, hopen]
    rfl
  cases h with
  | exhausted => exact hfail _ rfl
  | unreadable => exact hfail _ rfl
  | undispatchable fields r t f hread hdispatch =>
      exact hfail _ ((get_of_dispatch_error l hdispatch).trans (get_incoming l hread))
  | dismissed hlistening =>
      have hget : l.get u.dismiss = l.get (u.fail .exited) := by
        rw [dismiss_of_listening hlistening]
        exact l.get_congr rfl rfl
      rw [hget]
      exact hfail _ rfl

/-- Whoever waits for what is settled gets it. -/
theorem await_of_settled (srv : Server σ) {r : Except ServerError α} (awaited : Awaited)
    (hdeaf : IsDeaf s) (hslot : (l.get s).slot? key = some (some r)) :
    (await srv l key awaited s).1 = r := by
  have hread (t : Session σ) (hprocess : t.process? = s.process?)
      (ht : (l.get t).slot? key = some (some r)) :
      (l.get (receiveAll srv t)).slot? key = some (some r) := by
    rw [receiveAll, IsDeaf.receive (fun p hp => hdeaf p (hprocess ▸ hp))]
    exact ht
  have hall : (l.get (receiveAll srv (if s.timeout ≤ 0.0 then
      l.update (·.settle key (.error (.timedOut s.timeout awaited))) s else s))).slot? key =
      some (some r) := by
    split
    · refine hread _ ?_ ?_
      · rw [l.update_rest]
      · rw [l.get_update, Waits.slot?_settle, if_pos rfl, hslot]
        rfl
    · exact hread s rfl hslot
  unfold await
  dsimp only
  rw [hall]

/-- A call that still waits when reading ends raises the error. -/
theorem Watch.exchange_of_ended (w : Watch srv l) {m : Json} (awaited : Awaited)
    (hsend : send srv m (l.update (·.register key) s) = (.ok (), t))
    (htime : ¬ s.timeout ≤ 0.0) (hmiss : (heard srv t).find? (w.hits key) = none)
    (hfailure : (receiveAll srv t).failure? = some e) :
    (exchange srv l key m awaited s).1 = .error e := by
  rw [w.exchange_fst, hsend]
  dsimp only [Watch.reply]
  rw [if_neg htime, hmiss]
  dsimp only
  rw [hfailure]

end Waits

/-! ### Nothing follows -/

theorem send_of_failure (m : Json) (h : s.failure? = some e) : send srv m s = (.error e, s) := by
  rw [send, h]

/-- Until a process is started the error stays, and nothing is sent. -/
theorem Step.endedWith (hstep : Step srv False s s') (h : EndedWith e s) :
    EndedWith e s' ∧ s'.sent = s.sent := by
  have hmap {s' : Session σ} {f : Process σ → Process σ}
      (hf : ∀ p, (f p).listening = p.listening) (hprocess : s'.process? = s.process?.map f) :
      IsDeaf s' := by
    rw [isDeaf_iff, isListening, listening?_map hf hprocess, ← isListening, ← isDeaf_iff]
    exact h.deaf
  cases hstep with
  | note => exact ⟨⟨h.failure, h.deaf⟩, rfl⟩
  | remember memo? hprocess => exact ⟨⟨h.failure, h.deaf⟩, rfl⟩
  | wait l f =>
      rw [l.update_rest]
      exact ⟨⟨h.failure, h.deaf⟩, rfl⟩
  | send m =>
      rw [send_of_failure m h.failure]
      exact ⟨h, rfl⟩
  | turn =>
      rw [h.deaf.receive]
      exact ⟨h, rfl⟩
  | spawn hfresh hnone => exact hfresh.elim
  | serve state reactions =>
      exact ⟨⟨h.failure, hmap (Process.listening_serve state reactions) rfl⟩, rfl⟩
  | closeInput => exact ⟨⟨h.failure, hmap (Process.listening_closeInput srv) rfl⟩, rfl⟩
  | kill => exact ⟨⟨h.failure, hmap Process.listening_kill rfl⟩, rfl⟩
  | dismiss =>
      rw [dismiss_of_deaf h.deaf]
      exact ⟨⟨h.failure, fun p hp => by cases hp⟩, rfl⟩

theorem Steps.endedWith (hsteps : Steps srv False s s') (h : EndedWith e s) :
    EndedWith e s' ∧ s'.sent = s.sent := by
  induction hsteps with
  | refl => exact ⟨h, rfl⟩
  | tail _ hstep ih =>
      obtain ⟨hended, hsent⟩ := ih
      obtain ⟨hended', hsent'⟩ := hstep.endedWith hended
      exact ⟨hended', hsent'.trans hsent⟩

/-! ### Where the error comes from -/

theorem ending_of_ended {e : ServerError} (h : s.incoming = .ended e) :
    Ending srv s (s.fail e) e := by
  rw [incoming] at h
  split at h
  · cases h
  · next p hp =>
      split at h
      · cases h
      · next hlistening =>
          have hlistening : p.listening = true := by simpa using hlistening
          split at h
          · cases h
          · next hread =>
              cases h
              exact .exhausted p hp hlistening hread
          · next f hread =>
              cases h
              exact .unreadable p hp hlistening f hread
          · cases h

theorem isListening_of_message {fields : Table Json} (h : s.incoming = .message fields t) :
    s.isListening = true ∧ t.isListening = true := by
  rw [incoming] at h
  split at h
  · cases h
  · next p hp =>
      split at h
      · cases h
      · next hlistening =>
          split at h
          · cases h
          · cases h
          · cases h
          · cases h
            have hlistening : p.listening = true := by simpa using hlistening
            simp [isListening, listening?, hp, hlistening]

/-- The reader is where it was. -/
structure SameReader (s s' : Session σ) : Prop where
  failure : s'.failure? = s.failure?
  listening : s'.isListening = s.isListening
  process : s.process? = none → s'.process? = none

/-- A step ends reading, or it starts a process, or the reader stays where it is. -/
theorem Step.reader (hstep : Step srv fresh s s') :
    (∃ e, Ending srv s s' e) ∨ (fresh ∧ s.process? = none ∧ s'.isListening = true) ∨
      (Step srv False s s' ∧ SameReader s s') := by
  have hmap {s' : Session σ} {f : Process σ → Process σ}
      (hf : ∀ p, (f p).listening = p.listening) (hprocess : s'.process? = s.process?.map f)
      (hfailure : s'.failure? = s.failure?) : SameReader s s' :=
    ⟨hfailure, congrArg (·.getD false) (listening?_map hf hprocess),
      fun hnone => by rw [hprocess, hnone]; rfl⟩
  cases hstep with
  | note => exact .inr (.inr ⟨.note _ _ _ _ _, rfl, rfl, id⟩)
  | remember memo? hprocess => exact .inr (.inr ⟨.remember memo? hprocess, rfl, rfl, id⟩)
  | wait l f =>
      refine .inr (.inr ⟨.wait l f, ?_⟩)
      rw [l.update_rest]
      exact ⟨rfl, rfl, id⟩
  | send m =>
      refine .inr (.inr ⟨.send m, failure?_send m s,
        congrArg (·.getD false) (listening?_send m s), fun hnone => ?_⟩)
      rw [Session.send, hnone]
      cases s.failure? <;> exact hnone
  | turn =>
      have hturn : Step srv False s (receive srv 1 s) := .turn
      rw [receive] at hturn ⊢
      cases hincoming : s.incoming with
      | nothing =>
          rw [hincoming] at hturn
          exact .inr (.inr ⟨hturn, rfl, rfl, id⟩)
      | ended e => exact .inl ⟨e, ending_of_ended hincoming⟩
      | message fields r =>
          rw [hincoming] at hturn
          dsimp only at hturn ⊢
          rcases hdispatch : dispatch srv fields r with ⟨f | _, t⟩
          · exact .inl ⟨_, .undispatchable fields r t f hincoming hdispatch⟩
          · have hfailure : (dispatch srv fields r).2.failure? = r.failure? :=
              failure?_dispatch fields r
            have hlistening : (dispatch srv fields r).2.isListening = r.isListening :=
              congrArg (·.getD false) (listening?_dispatch fields r)
            obtain ⟨hbefore, hafter⟩ := isListening_of_message hincoming
            obtain ⟨p, rfl⟩ := incoming_message hincoming
            rw [hdispatch] at hfailure hlistening hturn
            refine .inr (.inr ⟨hturn, hfailure, ?_, fun hnone => ?_⟩)
            · exact hlistening.trans (hafter.trans hbefore.symm)
            · rw [isListening, listening?, hnone] at hbefore
              cases hbefore
  | spawn hfresh hnone => exact .inr (.inl ⟨hfresh, hnone, rfl⟩)
  | serve state reactions =>
      exact .inr (.inr ⟨.serve _ _, hmap (Process.listening_serve state reactions) rfl rfl⟩)
  | closeInput => exact .inr (.inr ⟨.closeInput, hmap (Process.listening_closeInput srv) rfl rfl⟩)
  | kill => exact .inr (.inr ⟨.kill, hmap Process.listening_kill rfl rfl⟩)
  | dismiss =>
      cases hlistening : s.isListening with
      | true => exact .inl ⟨_, .dismissed hlistening⟩
      | false =>
          refine .inr (.inr ⟨.dismiss, ?_⟩)
          rw [dismiss_of_deaf (isDeaf_iff.mpr hlistening)]
          exact ⟨rfl, hlistening.symm, fun _ => rfl⟩

/-- A step after which reading has ended ends it, or it had ended before. -/
theorem Step.ending (hstep : Step srv fresh s s') (h : EndedWith e s') :
    (EndedWith e s ∧ Step srv False s s') ∨ Ending srv s s' e := by
  rcases hstep.reader with ⟨e', hending⟩ | ⟨-, -, hlistening⟩ | ⟨hquiet, hsame⟩
  · obtain rfl : e' = e := Option.some.inj (hending.ended.failure.symm.trans h.failure)
    exact .inr hending
  · rw [isDeaf_iff.mp h.deaf] at hlistening
    cases hlistening
  · refine .inl ⟨⟨hsame.failure.symm.trans h.failure, isDeaf_iff.mpr ?_⟩, hquiet⟩
    exact hsame.listening.symm.trans (isDeaf_iff.mp h.deaf)

/-- Where reading has ended, it ended in some step, and no process was started since. -/
theorem Steps.ending (hsteps : Steps srv fresh s s') (hopen : ¬ EndedWith e s)
    (h : EndedWith e s') :
    ∃ u t, Steps srv fresh s u ∧ Ending srv u t e ∧ Steps srv False t s' := by
  induction hsteps with
  | refl => exact absurd h hopen
  | tail hsteps hstep ih =>
      rcases hstep.ending h with ⟨hbefore, hquiet⟩ | hending
      · obtain ⟨u, t, hu, hut, ht⟩ := ih hbefore
        exact ⟨u, t, hu, hut, ht.tail hquiet⟩
      · exact ⟨_, _, hsteps, hending, .refl⟩

/-! ### Reading that has begun -/

/-- Reading has begun: it goes on, or it has ended with an error. -/
def Begun (s : Session σ) : Prop := s.isListening = true ∨ ∃ e, s.failure? = some e

theorem Begun.ended (h : Begun s) (hdeaf : IsDeaf s) : ∃ e, EndedWith e s := by
  rcases h with hlistening | ⟨e, hfailure⟩
  · rw [isDeaf_iff.mp hdeaf] at hlistening
    cases hlistening
  · exact ⟨e, hfailure, hdeaf⟩

theorem Step.begun (hstep : Step srv fresh s s') (h : Begun s) : Begun s' := by
  rcases hstep.reader with ⟨e, hending⟩ | ⟨-, -, hlistening⟩ | ⟨-, hsame⟩
  · exact .inr ⟨e, hending.ended.failure⟩
  · exact .inl hlistening
  · rcases h with hlistening | ⟨e, hfailure⟩
    · exact .inl (hsame.listening.trans hlistening)
    · exact .inr ⟨e, hsame.failure.trans hfailure⟩

theorem Steps.begun (hsteps : Steps srv fresh s s') (h : Begun s) : Begun s' := by
  induction hsteps with
  | refl => exact h
  | tail _ hstep ih => exact hstep.begun ih

/-- A process that is there has been read from its start. -/
theorem Steps.begun_of_process (hsteps : Steps srv fresh s s')
    (h : s.process? = none ∨ Begun s) : s'.process? = none ∨ Begun s' := by
  induction hsteps with
  | refl => exact h
  | tail _ hstep ih =>
      rcases ih with hnone | hbegun
      · rcases hstep.reader with ⟨e, hending⟩ | ⟨-, -, hlistening⟩ | ⟨-, hsame⟩
        · exact .inr (.inr ⟨e, hending.ended.failure⟩)
        · exact .inr (.inl hlistening)
        · exact .inl (hsame.process hnone)
      · exact .inr (hstep.begun hbegun)

/-! ## Calls after the end -/

/-- A session in which every call raises an error, and none sends anything. -/
structure Refuses (srv : Server σ) (e : ServerError) (s : Session σ) : Prop where
  request : ∀ method params,
    request srv method params s = (.error e, { s with lastId := s.lastId + 1 })
  notify : ∀ method params, notify srv method params s = (.error e, s)
  diagnostics : ∀ d, memoOf? d s = none → diagnostics srv d s = (.error (.server e), s)

theorem forget_register_nil {κ α : Type} [DecidableEq κ] (key : κ) :
    ((Waits.register key ([] : Waits κ α)).forget key) = [] := by
  simp [Waits.register, Waits.forget]

theorem exchange_of_failure {κ α : Type} [DecidableEq κ] {l : WaitList σ κ α} {key : κ}
    (m : Json) (awaited : Awaited) (h : s.failure? = some e)
    (hforgotten : l.update (·.forget key) (l.update (·.register key) s) = s) :
    exchange srv l key m awaited s = (.error e, s) := by
  have hregistered : (l.update (·.register key) s).failure? = some e := by
    rw [l.update_rest]
    exact h
  rw [exchange_of_send_error awaited (send_of_failure m hregistered), hforgotten]

theorem refuses_of_failure (h : s.failure? = some e) (htidy : Tidy s) : Refuses srv e s where
  request method params := by
    refine exchange_of_failure (s := { s with lastId := s.lastId + 1 }) _ _ h ?_
    obtain ⟨command, workspace, processId, timeout, capabilities, process?, pending⟩ := s
    obtain rfl := htidy.pending
    simp [WaitList.update, responses, forget_register_nil]
  notify method params := by
    rw [Session.notify, submit_eq, send_of_failure _ h]
  diagnostics d hmemo := by
    have hopen : openAndAwait srv d s = (.error e, s) := by
      refine exchange_of_failure _ _ h ?_
      obtain ⟨command, workspace, processId, timeout, capabilities, process?, pending,
        published⟩ := s
      obtain rfl := htidy.published
      simp [WaitList.update, publications, forget_register_nil]
    rw [diagnostics_eq, hmemo]
    dsimp only
    rw [hopen]

/-! ## The end of reading over a run -/

theorem not_endedWith_new (command : List String) (workspace : Workspace) (processId : Nat)
    (timeout : Float) (e : ServerError) :
    ¬ EndedWith e (new command workspace processId timeout : Session σ) := by
  intro h
  cases h.failure

theorem process?_stop (srv : Server σ) (s : Session σ) : (stop srv s).2.process? = none := by
  rw [stop]
  split
  · next h => simpa using h
  · rfl

/-- Reading has ended when the process is stopped. -/
theorem Begun.stop (h : Begun s) : ∃ e, EndedWith e (stop srv s).2 := by
  have hsteps : Steps srv False s (Session.stop srv s).2 :=
    (Steps.throughoutParts srv False).stop s
  refine (hsteps.begun h).ended fun p hp => ?_
  rw [process?_stop] at hp
  cases hp

/-- A request that waits when reading ends raises the error. -/
theorem request_of_ended {method : String} {params : Json}
    (hsend : send srv (requestMessage s.nextId method params) s.opened = (.ok (), t))
    (htime : ¬ s.timeout ≤ 0.0) (hmiss : (heard srv t).find? (answers s.nextId) = none)
    (hfailure : (receiveAll srv t).failure? = some e) :
    (request srv method params s).1 = .error e := by
  rw [request_fst, hsend]
  dsimp only
  rw [if_neg htime, hmiss]
  dsimp only
  rw [hfailure]

/-- A call for diagnostics that waits when reading ends raises the error. -/
theorem diagnostics_of_ended {d : Document} (hmemo : memoOf? d s = none)
    (hsend : send srv (openMessage d) (s.awaiting d) = (.ok (), t))
    (htime : ¬ s.timeout ≤ 0.0) (hmiss : (heard srv t).find? (publishes d.uri) = none)
    (hfailure : (receiveAll srv t).failure? = some e) :
    (diagnostics srv d s).1 = .error (.server e) := by
  have hhits : (publicationWatch srv).hits d.uri = publishes d.uri :=
    funext (hits_publicationWatch d.uri)
  have hopen : (openAndAwait srv d s).1 = .error e :=
    (publicationWatch srv).exchange_of_ended (.diagnostics d.uri) hsend htime (hhits ▸ hmiss)
      hfailure
  rw [diagnostics_eq, hmemo]
  dsimp only
  rcases hresult : openAndAwait srv d s with ⟨r, u⟩
  rw [hresult] at hopen
  obtain rfl : r = .error e := hopen
  rfl

/-- In every run of a session reading ends with an error, at the latest when the process is
stopped. It ended in some step of the run: the output was over, a message could not be read,
dispatched or answered, or the process was dismissed. Until a process is started again the error
stays, every call raises it except for diagnostics that are remembered, and nothing is sent.

Whatever is waited for when reading ends comes to the error, and so does a request or a call for
diagnostics during whose wait it ends. -/
theorem failure_is_final (srv : Server σ) (moves : List (Move σ)) (command : List String)
    (workspace : Workspace) (processId : Nat) (timeout : Float) :
    let s₀ := new command workspace processId timeout
    let s := after srv moves s₀
    (∀ p, s.process? = some p →
      (p.listening = false → ∃ e, EndedWith e s) ∧ ∃ e, EndedWith e (stop srv s).2) ∧
    (∀ e, EndedWith e s →
      (∃ u t, Steps srv True s₀ u ∧ Ending srv u t e ∧ Steps srv False t s) ∧
      ∀ later, Unstarted srv later s →
        let s' := after srv later s
        EndedWith e s' ∧ s'.sent = s.sent ∧ Refuses srv e s') ∧
    (∀ u t e, Ending srv u t e →
      (∀ id awaited, u.pending.slot? id = some none →
        (await srv responses id awaited t).1 = .error e) ∧
      (∀ uri awaited, u.published.slot? uri = some none →
        (await srv publications uri awaited t).1 = .error e) ∧
      ∀ t', Steps srv False t t' → EndedWith e t' ∧ t'.sent = t.sent) ∧
    (∀ method params t e,
      send srv (requestMessage s.nextId method params) s.opened = (.ok (), t) →
      ¬ s.timeout ≤ 0.0 → (heard srv t).find? (answers s.nextId) = none →
      (receiveAll srv t).failure? = some e → (request srv method params s).1 = .error e) ∧
    (∀ d t e, memoOf? d s = none → send srv (openMessage d) (s.awaiting d) = (.ok (), t) →
      ¬ s.timeout ≤ 0.0 → (heard srv t).find? (publishes d.uri) = none →
      (receiveAll srv t).failure? = some e → (diagnostics srv d s).1 = .error (.server e)) := by
  intro s₀ s
  have hsteps : Steps srv True s₀ s := steps_after srv moves s₀
  have htidy : Tidy s := tidy_after srv moves (tidy_new _ _ _ _)
  refine ⟨?_, ?_, ?_, fun _ _ _ _ => request_of_ended, fun _ _ _ => diagnostics_of_ended⟩
  · intro p hp
    have hbegun : Begun s := by
      rcases hsteps.begun_of_process (.inl rfl) with hnone | hbegun
      · rw [hp] at hnone
        cases hnone
      · exact hbegun
    refine ⟨fun hdeaf => hbegun.ended fun q hq => ?_, hbegun.stop⟩
    rw [hp] at hq
    cases hq
    exact hdeaf
  · intro e hended
    refine ⟨hsteps.ending (not_endedWith_new _ _ _ _ e) hended, ?_⟩
    intro later hquiet s'
    obtain ⟨hended', hsent⟩ := hquiet.steps.endedWith hended
    exact ⟨hended', hsent, refuses_of_failure hended'.failure (tidy_after srv later htidy)⟩
  · intro u t e hending
    have hended := hending.ended
    refine ⟨fun id awaited hopen => ?_, fun uri awaited hopen => ?_, fun t' ht' => ?_⟩
    · exact await_of_settled srv awaited hended.deaf
        ((responseWatch srv).slot?_ending hending hopen)
    · exact await_of_settled srv awaited hended.deaf
        ((publicationWatch srv).slot?_ending hending hopen)
    · exact ht'.endedWith hended

end Session

end SfcCheck
