import SfcCheck.Proofs.Session.Failure
import SfcCheck.Proofs.Session.Hanging

/-!
# Stopping

However the server takes it, a stopped session has no process, waits for nothing and remembers
nothing. The process had finished by itself or was killed after its input was closed. Of its own
accord the session sends at most two messages: it asks a server that still runs to shut down, and
one that has agreed to exit.

Stopping ends with every prompt server. With others it hangs in three places: at the request to shut
down, at the notification to exit, and at the end of a process that was killed.
-/

namespace SfcCheck.Session

open Attempt

variable {σ : Type} {srv : Server σ} {s s' t : Session σ} {e : ServerError}

/-! ## The messages of a session's own accord -/

/-- Whether a message has a method. Answers have none. -/
def hasMethod : Json → Bool
  | .obj fields => (Table.get? "method" fields).isSome
  | _ => false

/-- The requests and the notifications among messages. -/
def calls (ms : List Json) : List Json := ms.filter hasMethod

theorem calls_append (ms ms' : List Json) : calls (ms ++ ms') = calls ms ++ calls ms' :=
  List.filter_append ms ms'

theorem calls_append_requestMessage (ms : List Json) (id : Int) (method : String) (params : Json) :
    calls (ms ++ [requestMessage id method params]) =
      calls ms ++ [requestMessage id method params] :=
  calls_append _ _

theorem calls_append_notification (ms : List Json) (method : String) (params : Json) :
    calls (ms ++ [notification method params]) = calls ms ++ [notification method params] :=
  calls_append _ _

theorem IsAnswer.hasMethod {m : Json} (h : IsAnswer m) : hasMethod m = false := by
  obtain ⟨id, key, value, rfl | rfl, rfl⟩ := h <;> rfl

/-- Whoever reads sends answers only. -/
theorem Reads.calls (h : Reads s s') : calls s'.sent = calls s.sent := by
  obtain ⟨answers, hsent, hanswers⟩ := h.sent
  have hnone : Session.calls answers = [] :=
    List.filter_eq_nil_iff.mpr fun m hm => by simp [(hanswers m hm).hasMethod]
  rw [hsent, calls_append, hnone, List.append_nil]

/-- A message that is sent to a running process reaches it. -/
theorem sent_of_send_ok {m : Json} (hrun : s.isRunning = true) (h : send srv m s = (.ok (), t)) :
    t.sent = s.sent ++ [m] := by
  rw [send] at h
  split at h
  · cases h
  · cases h
  · next p hopen hp =>
      have halive : p.isAlive = true := by simpa [isRunning, hp] using hrun
      dsimp only at h
      split at h
      · split at h <;> cases h
        rfl
      · next hreach =>
          have hbroken : p.broken = true := by simpa [Process.isReachable, halive] using hreach
          rw [hp] at h
          rw [Option.map_some, Option.getD_some, if_pos hbroken] at h
          cases h

/-! ### Requests -/

/-- After its message an exchange sends answers only. -/
theorem Watch.calls_exchange {κ α : Type} [DecidableEq κ] {l : WaitList σ κ α} (w : Watch srv l)
    (key : κ) (m : Json) (awaited : Awaited) (s : Session σ) :
    ∃ r t, send srv m (l.update (·.register key) s) = (r, t) ∧
      (∀ a, (exchange srv l key m awaited s).1 = .ok a → r = .ok ()) ∧
      calls (exchange srv l key m awaited s).2.sent = calls t.sent := by
  have hforget (t : Session σ) : (l.update (·.forget key) t).sent = t.sent := by
    rw [l.update_rest]
  rcases hsend : send srv m (l.update (·.register key) s) with ⟨e | _, t⟩
  · refine ⟨.error e, t, rfl, ?_, ?_⟩
    · intro a ha
      rw [exchange_of_send_error awaited hsend] at ha
      cases ha
    · rw [exchange_of_send_error awaited hsend]
      exact congrArg calls (hforget t)
  · refine ⟨.ok (), t, rfl, fun _ _ => rfl, ?_⟩
    rw [exchange_of_send_ok awaited hsend]
    exact (congrArg calls (hforget _)).trans (w.reads_await awaited (t.drain srv)).calls

/-- A request is sent at most once. -/
theorem calls_request (srv : Server σ) (method : String) (params : Json) (s : Session σ) :
    calls (request srv method params s).2.sent = calls s.sent ∨
      calls (request srv method params s).2.sent =
        calls s.sent ++ [requestMessage s.nextId method params] := by
  obtain ⟨p?, ms, t, hms, hreads, hsnd⟩ := request_snd srv method params s
  rw [hsnd, hreads.calls]
  rcases hms with rfl | rfl
  · exact .inl (congrArg calls (List.append_nil _))
  · exact .inr (calls_append_requestMessage _ _ _ _)

/-- A request that a running process has granted was sent. -/
theorem calls_request_of_ok {method : String} {params v : Json} (hrun : s.isRunning = true)
    (h : (request srv method params s).1 = .ok v) :
    calls (request srv method params s).2.sent =
      calls s.sent ++ [requestMessage s.nextId method params] := by
  obtain ⟨r, t, hsend, hok, hcalls⟩ := (responseWatch srv).calls_exchange s.nextId
    (requestMessage s.nextId method params) (.response method) { s with lastId := s.lastId + 1 }
  obtain rfl := hok v h
  have hsent : t.sent = s.sent ++ [requestMessage s.nextId method params] :=
    sent_of_send_ok (s := responses.update (·.register s.nextId)
      { s with lastId := s.lastId + 1 }) hrun hsend
  refine Eq.trans hcalls ?_
  rw [hsent]
  exact calls_append_requestMessage _ _ _ _

theorem calls_notify (srv : Server σ) (method : String) (params : Json) (s : Session σ) :
    calls (notify srv method params s).2.sent = calls s.sent ∨
      calls (notify srv method params s).2.sent = calls s.sent ++ [notification method params] := by
  obtain ⟨p?, ms, hangs, hms, hsubmit⟩ := submit_snd srv (notification method params) s
  rw [notify, hsubmit]
  rcases hms with rfl | rfl
  · exact .inl (congrArg calls (List.append_nil _))
  · exact .inr (calls_append_notification _ _ _)

/-! ## Asking the server -/

/-- What becomes of a session that asks its server to shut down, if that makes sense. -/
def asked (srv : Server σ) (s : Session σ) : Except ServerError Unit × Session σ :=
  if s.isRunning && s.failure?.isNone then shutDown srv s else (.ok (), s)

theorem stop_eq (h : s.process?.isSome = true) :
    stop srv s = ((asked srv s).1, reap srv (asked srv s).2) := by
  have hsome : ¬ s.process?.isNone = true := by simpa [Option.isSome_iff_ne_none] using h
  rw [stop, if_neg hsome]
  rfl

theorem stop_of_no_process (h : s.process? = none) : stop srv s = (.ok (), s) := by
  rw [stop, if_pos (by rw [h]; rfl)]

/-- The server is told to exit if it has agreed to shut down, and whether it hears that does not
matter. -/
theorem shutDown_eq (srv : Server σ) (s : Session σ) :
    shutDown srv s =
      match request srv "shutdown" .null s with
      | (.error e, t) => (.error e, t)
      | (.ok _, t) => (.ok (), (notify srv "exit" .null t).2) := by
  have hdiscard : shutDown srv s =
      ((request srv "shutdown" .null >>= fun _ => pure ()) >>= fun _ : Unit =>
        tryCatch (notify srv "exit" .null) fun _ => pure ()) s := rfl
  rw [hdiscard]
  rcases hrequest : request srv "shutdown" .null s with ⟨e | v, t⟩
  · rw [bind_error (bind_error hrequest)]
  · have hgranted : (request srv "shutdown" .null >>= fun _ => pure ()) s =
        ((.ok (), t) : Except ServerError Unit × Session σ) := by
      rw [bind_ok hrequest]
      rfl
    rw [bind_ok hgranted]
    dsimp only
    rcases hexit : notify srv "exit" .null t with ⟨e | _, u⟩
    · rw [tryCatch_error hexit]
      rfl
    · rw [tryCatch_ok hexit]

/-- What the session sends when it asks its server to shut down. -/
theorem calls_shutDown (srv : Server σ) (hrun : s.isRunning = true) :
    ∃ ms, calls (shutDown srv s).2.sent = calls s.sent ++ ms ∧
      (ms = [] ∨ ms = [requestMessage s.nextId "shutdown" .null] ∨
        (∃ v, (request srv "shutdown" .null s).1 = .ok v) ∧
          ms = [requestMessage s.nextId "shutdown" .null, notification "exit" .null]) := by
  rw [shutDown_eq]
  rcases hrequest : request srv "shutdown" .null s with ⟨e | v, t⟩
  · have hcalls := calls_request srv "shutdown" .null s
    rw [hrequest] at hcalls
    rcases hcalls with hcalls | hcalls
    · exact ⟨[], by rw [hcalls, List.append_nil], .inl rfl⟩
    · exact ⟨_, hcalls, .inr (.inl rfl)⟩
  · have hcalls := calls_request_of_ok hrun (congrArg Prod.fst hrequest)
    rw [hrequest] at hcalls
    rcases calls_notify srv "exit" .null t with hexit | hexit
    · exact ⟨_, hexit.trans hcalls, .inr (.inl rfl)⟩
    · refine ⟨_, ?_, .inr (.inr ⟨⟨v, rfl⟩, rfl⟩)⟩
      rw [hexit, hcalls, List.append_assoc]
      rfl

/-! ## Reaping -/

theorem isAlive_kill (p : Process σ) : p.kill.isAlive = false := by
  rw [Process.kill]
  split
  · rfl
  · next h => simpa using h

theorem reap_eq (srv : Server σ) (s : Session σ) :
    reap srv s = ((closeInput srv s).kill srv).dismiss := rfl

theorem dismiss_killed (s : Session σ) : s.dismiss.killed = s.killed := by
  rw [dismiss]
  dsimp only
  split <;> rfl

theorem dismiss_sent (s : Session σ) : s.dismiss.sent = s.sent := by
  rw [dismiss]
  dsimp only
  split <;> rfl

/-- Sessions with the same number of processes, none of them killed in between. -/
structure SameHandle (s s' : Session σ) : Prop where
  process : s'.process?.isSome = s.process?.isSome
  killed : s'.killed = s.killed

namespace SameHandle

theorem refl (s : Session σ) : SameHandle s s := ⟨rfl, rfl⟩

theorem trans (s s' s'' : Session σ) (h : SameHandle s s') (h' : SameHandle s' s'') :
    SameHandle s s'' := ⟨h'.process.trans h.process, h'.killed.trans h.killed⟩

theorem of_listening? (h : s'.listening? = s.listening?) (hkilled : s'.killed = s.killed) :
    SameHandle s s' := by
  refine ⟨?_, hkilled⟩
  have hsome := congrArg Option.isSome h
  rwa [listening?, listening?, Option.isSome_map, Option.isSome_map] at hsome

theorem update {κ α : Type} (l : WaitList σ κ α) (f : Waits κ α → Waits κ α) (s : Session σ) :
    SameHandle s (l.update f s) := by
  rw [l.update_rest]
  exact ⟨rfl, rfl⟩

theorem send (m : Json) (s : Session σ) : SameHandle s (send srv m s).2 := by
  refine of_listening? (listening?_send m s) ?_
  obtain ⟨p?, ms, -, hsend⟩ := send_snd srv m s
  rw [hsend]

theorem fail (e : ServerError) (s : Session σ) : SameHandle s (s.fail e) :=
  ⟨Option.isSome_map, rfl⟩

theorem dispatch (srv : Server σ) (fields : Table Json) (s : Session σ) :
    SameHandle s (dispatch srv fields s).2 :=
  of_listening? (listening?_dispatch fields s) (congrArg (·.killed) (Reads.dispatch fields s).rest)

theorem incoming {fields : Table Json} (h : s.incoming = .message fields s') :
    SameHandle s s' := by
  have hlistening := (isListening_of_message h).1
  obtain ⟨p, rfl⟩ := incoming_message h
  refine ⟨?_, rfl⟩
  rw [isListening, listening?] at hlistening
  cases hprocess : s.process? with
  | none =>
      rw [hprocess] at hlistening
      cases hlistening
  | some q => rfl

theorem receive (n : Nat) (s : Session σ) : SameHandle s (receive srv n s) := by
  induction n generalizing s with
  | zero => exact refl s
  | succ n ih =>
      rw [Session.receive]
      split
      · exact refl s
      · exact fail _ s
      · next fields t hmessage =>
          have hread := trans _ _ _ (incoming hmessage) (dispatch srv fields t)
          split
          · next t' hdispatch =>
              rw [hdispatch] at hread
              exact trans _ _ _ hread (ih t')
          · next e t' hdispatch =>
              rw [hdispatch] at hread
              exact trans _ _ _ hread (fail _ t')

theorem hangIf (b : Bool) (s : Session σ) : SameHandle s (s.hangIf b) := ⟨rfl, rfl⟩

theorem submit (m : Json) : Keeps SameHandle (submit srv m) :=
  Keeps.bind trans (send m) fun _ t => hangIf _ t

theorem exchange {κ α : Type} [DecidableEq κ] (l : WaitList σ κ α) (key : κ) (m : Json)
    (awaited : Awaited) : Keeps SameHandle (exchange srv l key m awaited) := by
  intro s
  have hawait : Keeps SameHandle (await srv l key awaited) := by
    intro t
    obtain ⟨b, hb⟩ := await_snd srv l key awaited t
    rw [hb]
    refine trans _ _ _ ?_ (trans _ _ _ (receive _ _) (hangIf b _))
    split
    · exact update l _ t
    · exact refl t
  have htalk : Keeps SameHandle (do
      Session.submit srv m
      Session.await srv l key awaited) := Keeps.bind trans (submit m) fun _ => hawait
  exact trans _ _ _ (update l _ s) (trans _ _ _ (htalk _) (update l _ _))

theorem acrossParts (srv : Server σ) : AcrossParts srv SameHandle where
  refl := refl
  trans := trans
  keepCapabilities result s := by
    unfold Session.keepCapabilities
    split <;> exact ⟨rfl, rfl⟩
  notify _ _ := submit _
  request _ _ s := trans _ { s with lastId := s.lastId + 1 } _ ⟨rfl, rfl⟩ (exchange _ _ _ _ _)
  openAndAwait _ := exchange _ _ _ _

theorem asked (srv : Server σ) (s : Session σ) : SameHandle s (asked srv s).2 := by
  rw [Session.asked]
  split
  · exact (acrossParts srv).shutDown s
  · exact refl s

theorem closeInput (srv : Server σ) (s : Session σ) : SameHandle s (closeInput srv s) :=
  trans _ { s with process? := s.process?.map (·.closeInput srv) } _ ⟨Option.isSome_map, rfl⟩
    (receive _ _)

end SameHandle

/-! ## What is remembered -/

/-- Nothing is remembered without a process. -/
def ForgetsAlone (s : Session σ) : Prop := s.process? = none → s.memo? = none

theorem Step.forgetsAlone {fresh : Prop} (hstep : Step srv fresh s s') (h : ForgetsAlone s) :
    ForgetsAlone s' := by
  have hsame {s' : Session σ} (hprocess : s'.process?.isSome = s.process?.isSome)
      (hmemo : s'.memo? = s.memo?) : ForgetsAlone s' := by
    intro hnone
    rw [hnone, Option.isSome_none, eq_comm, Option.isSome_eq_false_iff, Option.isNone_iff_eq_none]
      at hprocess
    exact hmemo.trans (h hprocess)
  cases hstep with
  | note => exact h
  | remember memo? hprocess =>
      intro hnone
      rw [show s.process? = none from hnone] at hprocess
      cases hprocess
  | wait l f => rw [l.update_rest]; exact h
  | send m =>
      obtain ⟨p?, ms, -, hsend⟩ := send_snd srv m s
      exact hsame (SameHandle.send m s).process (congrArg (·.memo?) hsend)
  | turn =>
      exact hsame (SameHandle.receive 1 s).process (congrArg (·.memo?) (Reads.receive 1 s).rest)
  | spawn hfresh hnone => exact fun h => by cases h
  | serve state reactions => exact hsame Option.isSome_map rfl
  | closeInput => exact hsame Option.isSome_map rfl
  | kill => exact hsame Option.isSome_map rfl
  | dismiss => exact fun _ => rfl

theorem Steps.forgetsAlone {fresh : Prop} (hsteps : Steps srv fresh s s') (h : ForgetsAlone s) :
    ForgetsAlone s' := by
  induction hsteps with
  | refl => exact h
  | tail _ hstep ih => exact hstep.forgetsAlone ih

/-! ## Stopping -/

theorem isRunning_of_no_process (h : s.process? = none) : s.isRunning = false := by
  rw [isRunning, h]

/-- Stopping dismisses the process when it has finished. -/
theorem stop_dismisses (srv : Server σ) (h : s.process?.isSome = true) :
    let t := closeInput srv (asked srv s).2
    (stop srv s).2 = (t.kill srv).dismiss ∧ t.killed = s.killed ∧
      ∃ p, (t.kill srv).process? = some p ∧ p.isAlive = false := by
  intro t
  have hhandle : SameHandle s t := (SameHandle.asked srv s).trans _ _ _ (.closeInput srv _)
  obtain ⟨p, hp⟩ := Option.isSome_iff_exists.mp (hhandle.process.trans h)
  refine ⟨congrArg Prod.snd (stop_eq h), hhandle.killed, p.kill, ?_, isAlive_kill p⟩
  rw [kill, hp]
  rfl

/-- Reaping sends answers only. -/
theorem calls_reap (srv : Server σ) (s : Session σ) : calls (reap srv s).sent = calls s.sent := by
  rw [reap_eq, dismiss_sent]
  exact (Reads.receive _ { s with process? := s.process?.map (·.closeInput srv) }).calls

/-! ### Stopping without end -/

/-- The ways in which stopping waits without end: the request to shut down hangs, the notification
to exit is stuck, or the process goes on when it is killed. -/
inductive StopHangs (srv : Server σ) (s : Session σ) : Prop where
  | asking (hrun : s.isRunning = true) (hopen : s.failure? = none)
      (h : RequestHangs srv "shutdown" .null s)
  | exiting (hrun : s.isRunning = true) (hopen : s.failure? = none) (v : Json) (t : Session σ)
      (hgranted : request srv "shutdown" .null s = (.ok v, t))
      (h : Stuck srv (notification "exit" .null) t)
  | reaping (hprocess : s.process?.isSome = true)
      (hrun : (closeInput srv (asked srv s).2).isRunning = true) (h : srv.outlivesKill = true)

/-- Without a process there is nothing to stop. -/
theorem StopHangs.isSome_process (h : StopHangs srv s) : s.process?.isSome = true := by
  have hsome (hrun : s.isRunning = true) : s.process?.isSome = true := by
    cases hprocess : s.process? with
    | none =>
        rw [isRunning_of_no_process hprocess] at hrun
        cases hrun
    | some p => rfl
  cases h with
  | asking hrun hopen h => exact hsome hrun
  | exiting hrun hopen v t hgranted h => exact hsome hrun
  | reaping hprocess hrun h => exact hprocess

theorem hangs_shutDown_iff (srv : Server σ) (s : Session σ) :
    (shutDown srv s).2.hangs = true ↔
      s.hangs = true ∨ RequestHangs srv "shutdown" .null s ∨
        ∃ v t, request srv "shutdown" .null s = (.ok v, t) ∧
          Stuck srv (notification "exit" .null) t := by
  have hhangs := hangs_request_iff srv "shutdown" .null s
  rw [shutDown_eq]
  rcases hrequest : request srv "shutdown" .null s with ⟨e | v, t⟩
  · rw [hrequest] at hhangs
    refine hhangs.trans (or_congr_right (or_iff_left ?_).symm)
    rintro ⟨v, u, hgranted, -⟩
    cases hgranted
  · rw [hrequest] at hhangs
    dsimp only at hhangs ⊢
    rw [notify, hangs_submit_iff, hhangs, or_assoc]
    refine or_congr_right (or_congr_right ⟨fun h => ⟨v, t, rfl, h⟩, ?_⟩)
    rintro ⟨v', u, hgranted, h⟩
    obtain ⟨-, rfl⟩ := Prod.mk.inj hgranted
    exact h

/-- Stopping hangs in these ways and no other. -/
theorem hangs_stop_iff (srv : Server σ) (s : Session σ) :
    (stop srv s).2.hangs = true ↔ s.hangs = true ∨ StopHangs srv s := by
  have hasked : (asked srv s).2.hangs = true ↔ s.hangs = true ∨
      (s.isRunning = true ∧ s.failure? = none) ∧ (RequestHangs srv "shutdown" .null s ∨
        ∃ v t, request srv "shutdown" .null s = (.ok v, t) ∧
          Stuck srv (notification "exit" .null) t) := by
    rw [asked]
    split
    · next hasks =>
        rw [Bool.and_eq_true, Option.isNone_iff_eq_none] at hasks
        rw [hangs_shutDown_iff, and_iff_right hasks]
    · next hasks =>
        rw [Bool.and_eq_true, Option.isNone_iff_eq_none] at hasks
        exact (or_iff_left fun h => hasks h.1).symm
  cases hprocess : s.process? with
  | none =>
      rw [stop_of_no_process hprocess]
      refine (or_iff_left fun h => ?_).symm
      have hsome := h.isSome_process
      rw [hprocess] at hsome
      cases hsome
  | some p =>
      have hsome : s.process?.isSome = true := by rw [hprocess]; rfl
      rw [stop_eq hsome, hangs_reap, Bool.or_eq_true, hasked, Bool.and_eq_true, or_assoc]
      refine or_congr_right ⟨?_, fun h => ?_⟩
      · rintro (⟨⟨hrun, hopen⟩, h | ⟨v, t, hgranted, h⟩⟩ | ⟨hrun, h⟩)
        · exact .asking hrun hopen h
        · exact .exiting hrun hopen v t hgranted h
        · exact .reaping hsome hrun h
      · cases h with
        | asking hrun hopen h => exact .inl ⟨⟨hrun, hopen⟩, .inl h⟩
        | exiting hrun hopen v t hgranted h =>
            exact .inl ⟨⟨hrun, hopen⟩, .inr ⟨v, t, hgranted, h⟩⟩
        | reaping hsome hrun h => exact .inr ⟨hrun, h⟩

namespace Sample

/-- A server that never reacts, and has to be killed. -/
def silent : Server Unit where
  available := true
  initial := ()
  react _ _ := ((), [])
  outlivesInput := true
  burst _ := 0

end Sample

open Sample in
/-- A silent server is killed when the time is over, unless it does not even take the request to
shut down: then stopping never ends. -/
example :
    (stop silent (running silent)).2.hangs = false ∧
      (stop silent (running silent)).2.killed = true ∧
      (let unread : Server Unit := { silent with stalls := fun _ => true }
      (stop unread (running unread)).2.hangs = true) := by
  decide +kernel

end SfcCheck.Session
